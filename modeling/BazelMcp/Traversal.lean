import Mathlib.Data.List.Basic
import Mathlib.Logic.Relation

/-! Depth-first traversal of a finite family of named nodes with a stack of
names. A name leads to the node that was entered for it last; a name without a
node, or seen before, contributes nothing. -/
namespace BazelMcp.Traversal
open List

variable {κ α β : Type}

structure Node (κ α : Type) where
  items : List α
  children : List κ
  deriving DecidableEq

def Node.filterMap (keep : α → Option β) (node : Node κ α) : Node κ β where
  items := node.items.filterMap keep
  children := node.children

variable [DecidableEq κ]

def unvisited (nodes : List (κ × Node κ α)) (visited : List κ) : List (κ × Node κ α) :=
  nodes.filter fun entry => entry.1 ∉ visited

theorem unvisited_le (nodes : List (κ × Node κ α)) (visited : List κ) (name : κ) :
    (unvisited nodes (name::visited)).length ≤ (unvisited nodes visited).length := by
  refine (monotone_filter_right nodes ?_).length_le
  intro entry fresh
  simp only [mem_cons,not_or,decide_eq_true_eq] at fresh ⊢
  exact fresh.2

theorem unvisited_lt {nodes : List (κ × Node κ α)} {visited : List κ} {name : κ} {node : Node κ α}
    (found : nodes.lookup name = some node) (fresh : name ∉ visited) :
    (unvisited nodes (name::visited)).length < (unvisited nodes visited).length := by
  induction nodes with
  | nil => cases found
  | cons entry rest ih =>
    obtain ⟨key,entered⟩ := entry
    have behind := unvisited_le rest visited name
    by_cases here : name = key
    · subst here
      simp only [unvisited,filter_cons,mem_cons,true_or,not_true_eq_false,decide_false,fresh,not_false_eq_true,
        decide_true,if_true,length_cons] at behind ⊢
      exact Nat.lt_succ_of_le behind
    · have later : rest.lookup name = some node := by
        simpa only [lookup_cons,beq_false_of_ne here] using found
      have shorter := ih later
      by_cases seen : key ∈ visited
      · simpa [unvisited,filter_cons,seen] using shorter
      · have other : ¬key = name := fun same => here same.symm
        simpa [unvisited,filter_cons,seen,other] using shorter

/-- The items of every node reachable from the stack of pending names, in the
order in which the nodes are met. The top of the stack is the head of the list,
and the children of a node are pushed in their order. -/
def walk (nodes : List (κ × Node κ α)) (visited : List κ) : List κ → List α
  | [] => []
  | name::pending =>
    if _fresh : name ∈ visited then walk nodes visited pending
    else
      match _found : nodes.lookup name with
      | none => walk nodes (name::visited) pending
      | some node => node.items ++ walk nodes (name::visited) (node.children.reverse ++ pending)
termination_by pending => ((unvisited nodes visited).length,pending.length)
decreasing_by
  · exact Prod.Lex.right _ (Nat.lt_succ_self _)
  · rcases Nat.lt_or_eq_of_le (unvisited_le nodes visited name) with shorter | same
    · exact Prod.Lex.left _ _ shorter
    · rw [same]
      exact Prod.Lex.right _ (Nat.lt_succ_self _)
  · exact Prod.Lex.left _ _ (unvisited_lt _found _fresh)

theorem lookup_map_snd {γ : Type} (convert : α → γ) (name : κ) (entries : List (κ × α)) :
    (entries.map fun entry => (entry.1,convert entry.2)).lookup name = (entries.lookup name).map convert := by
  induction entries with
  | nil => rfl
  | cons entry rest ih =>
    obtain ⟨key,value⟩ := entry
    simp only [map_cons,lookup_cons]
    cases name == key with
    | true => rfl
    | false => exact ih

/-- Converting the items when the nodes are entered or after the traversal
comes to the same list. -/
theorem walk_filterMap (keep : α → Option β) (nodes : List (κ × Node κ α)) (visited pending : List κ) :
    walk (nodes.map fun entry => (entry.1,entry.2.filterMap keep)) visited pending =
      (walk nodes visited pending).filterMap keep := by
  fun_induction walk nodes visited pending with
  | case1 visited => simp only [walk,filterMap_nil]
  | case2 visited name pending seen ih =>
    rw [walk,dif_pos seen]
    exact ih
  | case3 visited name pending fresh missing ih =>
    rw [walk,dif_neg fresh]
    have absent : (nodes.map fun entry => (entry.1,entry.2.filterMap keep)).lookup name = none := by
      rw [lookup_map_snd,missing]
      rfl
    split
    · exact ih
    · rename_i present
      rw [absent] at present
      cases present
  | case4 visited name pending fresh node found ih =>
    rw [walk,dif_neg fresh]
    have entered : (nodes.map fun entry => (entry.1,entry.2.filterMap keep)).lookup name = some (node.filterMap keep) := by
      rw [lookup_map_snd,found]
      rfl
    split
    · rename_i missing
      rw [entered] at missing
      cases missing
    rename_i met same
    rw [entered,Option.some.injEq] at same
    subst same
    rw [filterMap_append]
    exact congrArg _ ih

/-! ### What a traversal meets -/

def Refers (nodes : List (κ × Node κ α)) (parent child : κ) : Prop :=
  ∃ node, nodes.lookup parent = some node ∧ child ∈ node.children

/-- A way from one name to another along children, past the names visited. -/
inductive Leads (nodes : List (κ × Node κ α)) (visited : List κ) : κ → κ → Prop
  | here {name : κ} (fresh : name ∉ visited) : Leads nodes visited name name
  | child {start next name : κ} (fresh : start ∉ visited) (refers : Refers nodes start next) (leads : Leads nodes visited next name) :
    Leads nodes visited start name

variable {nodes : List (κ × Node κ α)} {visited : List κ} {start name target : κ}

theorem Leads.fresh (leads : Leads nodes visited start target) : start ∉ visited := by
  cases leads with
  | here fresh | child fresh _ _ => exact fresh

theorem Leads.widen (leads : Leads nodes (name::visited) start target) : Leads nodes visited start target := by
  induction leads with
  | here fresh => exact .here fun seen => fresh (mem_cons_of_mem _ seen)
  | child fresh refers _ ih => exact .child (fun seen => fresh (mem_cons_of_mem _ seen)) refers ih

/-- Behind its last visit of a name, a way does not come back to it. -/
theorem Leads.split (leads : Leads nodes visited start target) (name : κ) : target = name ∨
    (∃ next, Refers nodes name next ∧ Leads nodes (name::visited) next target) ∨ Leads nodes (name::visited) start target := by
  induction leads with
  | @here target fresh =>
    by_cases same : target = name
    · exact .inl same
    · exact .inr (.inr (.here (by simp [same,fresh])))
  | @child start next target fresh refers leads ih =>
    rcases ih with same | behind | leads
    · exact .inl same
    · exact .inr (.inl behind)
    · by_cases same : start = name
      · exact .inr (.inl ⟨next,same ▸ refers,leads⟩)
      · exact .inr (.inr (.child (by simp [same,fresh]) refers leads))

theorem leads_iff : Leads nodes [] start target ↔ Relation.ReflTransGen (Refers nodes) start target := by
  constructor
  · intro leads
    induction leads with
    | here => exact .refl
    | child _ refers _ ih => exact .head refers ih
  · intro path
    induction path using Relation.ReflTransGen.head_induction_on with
    | refl => exact .here not_mem_nil
    | head refers _ ih => exact .child not_mem_nil refers ih

theorem mem_walk {item : α} {pending : List κ} : item ∈ walk nodes visited pending ↔
    ∃ start ∈ pending, ∃ target node, Leads nodes visited start target ∧ nodes.lookup target = some node ∧ item ∈ node.items := by
  fun_induction walk nodes visited pending with
  | case1 visited => simp
  | case2 visited name pending seen ih =>
    rw [ih,exists_mem_cons_iff]
    refine (or_iff_right fun found => ?_).symm
    obtain ⟨target,_,leads,_⟩ := found
    exact leads.fresh seen
  | case3 visited name pending fresh missing ih =>
    rw [ih]
    constructor
    · intro found
      obtain ⟨start,waits,target,node,leads,found⟩ := found
      exact ⟨start,mem_cons_of_mem _ waits,target,node,leads.widen,found⟩
    intro found
    obtain ⟨start,waits,target,node,leads,found,member⟩ := found
    rcases leads.split name with same | ⟨next,⟨other,present,_⟩,_⟩ | leads
    · rw [same,missing] at found
      cases found
    · rw [missing] at present
      cases present
    · have later : start ∈ pending := (mem_cons.mp waits).resolve_left fun same => leads.fresh (same ▸ mem_cons_self)
      exact ⟨start,later,target,node,leads,found,member⟩
  | case4 visited name pending fresh entered isNode ih =>
    rw [mem_append,ih]
    constructor
    · intro found
      rcases found with member | ⟨start,waits,target,node,leads,found⟩
      · exact ⟨name,mem_cons_self,name,entered,.here fresh,isNode,member⟩
      · rcases mem_append.mp waits with child | waits
        · exact ⟨name,mem_cons_self,target,node,.child fresh ⟨entered,isNode,mem_reverse.mp child⟩ leads.widen,found⟩
        · exact ⟨start,mem_cons_of_mem _ waits,target,node,leads.widen,found⟩
    intro found
    obtain ⟨start,waits,target,node,leads,found,member⟩ := found
    rcases leads.split name with same | ⟨next,⟨other,present,child⟩,leads⟩ | leads
    · rw [same,isNode,Option.some.injEq] at found
      exact .inl (found ▸ member)
    · rw [isNode,Option.some.injEq] at present
      subst present
      exact .inr ⟨next,mem_append_left _ (mem_reverse.mpr child),target,node,leads,found,member⟩
    · have later : start ∈ pending := (mem_cons.mp waits).resolve_left fun same => leads.fresh (same ▸ mem_cons_self)
      exact .inr ⟨start,mem_append_right _ later,target,node,leads,found,member⟩

end BazelMcp.Traversal
