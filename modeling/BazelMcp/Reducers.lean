import BazelMcp.Grouping
import BazelMcp.OutcomeAgreement
import Mathlib.Data.List.TakeWhile
import Mathlib.Data.Prod.Lex

/-! The pipeline of custom reducers: what it contributes to a summary depends neither on
the order of its configuration nor on the reducers that fail. -/
namespace BazelMcp.Outcome
open Ranking Reduction List

/-! ### Configured reducers -/

structure ReducerContext where
  command : String
  events : List ReducerEvent
  inputTruncated : Bool

structure ReducerSelector where
  commands : List String := []
  targetLabels : List String := []
  targetKinds : List String := []
  actionTypes : List String := []

structure Reducer where
  name : String
  priority : Int
  overrideMatching : Bool
  selector : ReducerSelector
  reduce : ReducerContext → Except String ReducerPatch

section Selection
-- What `label_matches` says of a pattern and a label does not matter here.
variable (labelMatches : String → String → Bool) (context : ReducerContext)

namespace ReducerSelector
variable (selector : ReducerSelector)

def hasEventConstraints : Bool :=
  !selector.targetLabels.isEmpty || !selector.targetKinds.isEmpty || !selector.actionTypes.isEmpty

def matchesEvent (event : ReducerEvent) : Bool :=
  event.label.any (fun label => selector.targetLabels.any (labelMatches · label)) ||
    event.targetKind.any selector.targetKinds.contains || event.actionType.any selector.actionTypes.contains

def matchesContext : Bool :=
  (selector.commands.isEmpty || selector.commands.contains context.command) &&
    (!selector.hasEventConstraints || context.events.any (selector.matchesEvent labelMatches))

def matchedLabels : List String := (context.events.filter (selector.matchesEvent labelMatches)).filterMap (·.label)

/-- What `suppress_matching_diagnostics` does not retain. -/
def owns (diagnostic : Diagnostic) : Bool :=
  diagnostic.target.any (fun target => (selector.matchedLabels labelMatches context).contains target ||
    selector.targetLabels.any (labelMatches · target)) || diagnostic.action.any selector.actionTypes.contains

end ReducerSelector

def Reducer.met (reducer : Reducer) : CustomReducer where
  name := reducer.name
  overrideMatching := reducer.overrideMatching
  selected := reducer.selector.matchesContext labelMatches context
  owns := reducer.selector.owns labelMatches context
  reduce := reducer.reduce context

end Selection

/-- Higher priorities come first, then names. -/
def Reducer.rank (reducer : Reducer) : Int ×ₗ String := toLex (-reducer.priority,reducer.name)

def duplicateName (names : List String) : List Reducer → Option String
  | [] => none
  | reducer::rest => if reducer.name ∈ names then some reducer.name else duplicateName (reducer.name::names) rest

variable (setting : Setting)

namespace ReducerPipeline

def new (reducers : List Reducer) : Except String (List Reducer) :=
  match (duplicateName [] reducers).map setting.debugText with
  | some name => .error s!"duplicate custom reducer name {name}"
  | none => .ok (ranked Reducer.rank reducers)

def apply (labelMatches : String → String → Bool) (context : ReducerContext) (pipeline : List Reducer) :
    InvocationSummary → InvocationSummary × ReducerApplyReport :=
  applyReducers {setting with reducers := pipeline.map (·.met labelMatches context), contextTruncated := context.inputTruncated}

end ReducerPipeline

/-! ### What reducers contribute -/

/-- The patch that is applied, if an override owns the evidence already or not. -/
def CustomReducer.offer (owned : Bool) (reducer : CustomReducer) : Option ReducerPatch :=
  if reducer.overrideMatching && owned then none
  else
    match reducer.reduce with
    | .ok patch => if patch.isEmpty then none else some patch
    | .error _ => none

abbrev Part := CustomReducer × ReducerPatch

def contributions (owned : Bool) : List CustomReducer → List Part
  | [] => []
  | reducer::rest =>
    match reducer.offer owned with
    | some patch => (reducer,patch)::contributions (reducer.overrideMatching || owned) rest
    | none => contributions owned rest

namespace Applying

def contribute (applying : Applying) (part : Part) : Applying := applyPatch applying part.1 part.2

/-- Apart from what the report says of failures and collisions. -/
def effect (applying : Applying) : Applying :=
  {applying with report := {applying.report with failures := [], overrideCollisions := []}}

def concluded (truncated : Bool) (applying : Applying) : InvocationSummary :=
  if !applying.report.applied.isEmpty && truncated then {applying.summary with truncated := true, inspectHint := some .log}
  else applying.summary

end Applying

open Applying

variable (owned : Bool) (reducers : List CustomReducer) (applying : Applying) (parts : List Part) (summary : InvocationSummary)

theorem applyPatch_effect (reducer : CustomReducer) (patch : ReducerPatch) :
    (applyPatch applying reducer patch).effect = applyPatch applying.effect reducer patch := by
  unfold applyPatch
  split <;> rfl

theorem applyReducer_effect (reducer : CustomReducer) : (applyReducer setting applying reducer).effect =
    (reducer.offer applying.overrideOwner.isSome).elim applying.effect (applyPatch applying.effect reducer) := by
  have runs (patch : ReducerPatch) : (applyPatch applying reducer patch).effect =
      (if patch.isEmpty then none else some patch).elim applying.effect (applyPatch applying.effect reducer) := by
    rw [applyPatch_effect]
    cases empty : patch.isEmpty <;> simp [applyPatch,empty]
  unfold applyReducer CustomReducer.offer
  obtain ⟨summary,report,owner,headlineSet⟩ := applying
  cases reducer.overrideMatching <;> cases owner <;> cases answer : reducer.reduce <;> first | rfl | exact runs _

theorem offer_some {owned : Bool} {reducer : CustomReducer} {patch : ReducerPatch} (offered : reducer.offer owned = some patch) :
    patch.isEmpty = false := by
  unfold CustomReducer.offer at offered
  grind

theorem applied_effect : (reducers.foldl (applyReducer setting) applying).effect =
    (contributions applying.overrideOwner.isSome reducers).foldl contribute applying.effect := by
  induction reducers generalizing applying with
  | nil => rfl
  | cons reducer rest ih =>
    have step := applyReducer_effect setting applying reducer
    have owner : (applyReducer setting applying reducer).overrideOwner = (applyReducer setting applying reducer).effect.overrideOwner := rfl
    rw [foldl_cons,ih,contributions,owner,step]
    cases offered : reducer.offer applying.overrideOwner.isSome with
    | none => rfl
    | some patch =>
      have owns : (applyPatch applying.effect reducer patch).overrideOwner.isSome = (reducer.overrideMatching || applying.overrideOwner.isSome) := by
        cases mode : reducer.overrideMatching <;> simp [applyPatch,offer_some offered,mode,Applying.effect]
      simp [owns,contribute]

theorem contributed_names : ((contributions owned reducers).foldl contribute applying).report.applied =
    applying.report.applied ++ (contributions owned reducers).map (·.1.name) := by
  induction reducers generalizing owned applying with
  | nil => simp [contributions]
  | cons reducer rest ih =>
    rw [contributions]
    split
    · rename_i patch offered
      rw [foldl_cons,ih]
      simp [contribute,applyPatch,offer_some offered]
    · exact ih owned applying

theorem applyReducers_contributions :
    let parts := contributions false (setting.reducers.filter (·.selected))
    (applyReducers setting summary).1 = concluded setting.contextTruncated (parts.foldl contribute {summary}) ∧
      (applyReducers setting summary).2.applied = parts.map (·.1.name) := by
  have names := contributed_names false (setting.reducers.filter (·.selected)) {summary}
  have reached : _ = (contributions false (setting.reducers.filter (·.selected))).foldl contribute {summary} :=
    applied_effect setting (setting.reducers.filter (·.selected)) {summary}
  unfold applyReducers
  generalize (setting.reducers.filter (·.selected)).foldl (applyReducer setting) {summary} = applied at reached
  dsimp only
  rw [← reached] at names ⊢
  split
  · rename_i marked
    exact ⟨(if_pos marked).symm,names⟩
  · rename_i unmarked
    exact ⟨(if_neg unmarked).symm,names⟩

/-- Overrides after the first one that offers a patch contribute nothing. -/
theorem contributions_overrides : ((contributions owned reducers).filter (·.1.overrideMatching)).map (·.1) =
    if owned then [] else (reducers.filter fun reducer => reducer.overrideMatching && (reducer.offer false).isSome).take 1 := by
  induction reducers generalizing owned with
  | nil => cases owned <;> rfl
  | cons reducer rest ih =>
    rw [contributions]
    cases mode : reducer.overrideMatching <;> cases owned <;> cases offered : reducer.offer false <;> grind [CustomReducer.offer]

/-! ### What an override suppresses -/

def suppresses (part : Part) : Bool := part.1.overrideMatching && part.2.suppressBuiltinDiagnostics

def suppressed (diagnostic : Diagnostic) : Bool := (parts.find? suppresses).any (·.1.owns diagnostic)

def earlier : List Part := parts.takeWhile (!suppresses ·)

/-- The contribution that suppresses diagnostics, and those after it. -/
def later : List Part := parts.dropWhile (!suppresses ·)

theorem earlier_later : earlier parts ++ later parts = parts := takeWhile_append_dropWhile

def settle (diagnostics : List Diagnostic) (part : Part) : List Diagnostic :=
  (if suppresses part then diagnostics.filter (!part.1.owns ·) else diagnostics) ++ part.2.diagnostics

theorem contributed_diagnostics : (parts.foldl contribute applying).summary.diagnostics = parts.foldl settle applying.summary.diagnostics := by
  refine (foldl_hom (fun applying : Applying => applying.summary.diagnostics) fun applying part => ?_).symm
  unfold contribute applyPatch
  split
  · rename_i empty
    simp only [ReducerPatch.isEmpty,Bool.and_eq_true,List.isEmpty_iff,Bool.not_eq_true'] at empty
    simp [settle,suppresses,empty]
  · rfl

theorem settle_plain {parts : List Part} (plain : ∀ part ∈ parts, suppresses part = false)
    (diagnostics : List Diagnostic) : parts.foldl settle diagnostics = diagnostics ++ parts.flatMap (·.2.diagnostics) := by
  induction parts generalizing diagnostics with
  | nil => simp
  | cons part rest ih =>
    obtain ⟨first,plain⟩ := forall_mem_cons.mp plain
    simp [ih plain,settle,first]

theorem settled_eq (once : (parts.filter (·.1.overrideMatching)).length ≤ 1) (diagnostics : List Diagnostic) : parts.foldl settle diagnostics =
    (diagnostics ++ (earlier parts).flatMap (·.2.diagnostics)).filter (!suppressed parts ·) ++ (later parts).flatMap (·.2.diagnostics) := by
  have plain : ∀ part ∈ earlier parts, suppresses part = false := fun part member => by simpa using mem_takeWhile_imp member
  have first : parts.find? suppresses = (later parts).head? := parts.find?_eq_head?_dropWhile_not suppresses
  have run : parts.foldl settle diagnostics = (later parts).foldl settle (diagnostics ++ (earlier parts).flatMap (·.2.diagnostics)) := by
    rw [← settle_plain plain,← foldl_append,earlier_later]
  have whole := earlier_later parts
  unfold suppressed
  rw [run,first]
  cases found : later parts with
  | nil => simp
  | cons part rest =>
    rw [found] at first whole
    have suppressing := find?_some first
    have override : part.1.overrideMatching = true := (Bool.and_eq_true_iff.mp suppressing).1
    have others : ∀ other ∈ rest, suppresses other = false := by
      rw [← whole,filter_append,filter_cons,if_pos override,length_append,length_cons] at once
      have none : rest.filter (·.1.overrideMatching) = [] := eq_nil_of_length_eq_zero (by omega)
      intro other member
      simp [suppresses,filter_eq_nil_iff.mp none other member]
    rw [foldl_cons,settle_plain others,settle,if_pos suppressing]
    simp

theorem contributed_kept_iff (labelMatches : String → String → Bool) (context : ReducerContext) (pipeline : List Reducer) :
    let parts := contributions false ((pipeline.map (·.met labelMatches context)).filter (·.selected))
    let after := ReducerPipeline.apply setting labelMatches context pipeline summary
    after.2.applied = parts.map (·.1.name) ∧ (summary.diagnostics.filter (!suppressed parts ·)).Sublist after.1.diagnostics ∧
      ((∀ part ∈ parts, ∀ diagnostic ∈ part.2.diagnostics, diagnostic ∈ after.1.diagnostics) ↔
        ∀ part ∈ earlier parts, ∀ diagnostic ∈ part.2.diagnostics, suppressed parts diagnostic = true →
          ∃ part ∈ later parts, diagnostic ∈ part.2.diagnostics) := by
  intro parts after
  obtain ⟨summarized,names⟩ : after.1 = concluded _ (parts.foldl contribute {summary}) ∧ after.2.applied = _ :=
    applyReducers_contributions _ summary
  have once : (parts.filter (·.1.overrideMatching)).length ≤ 1 := by
    have first := congrArg length (contributions_overrides false ((pipeline.map (·.met labelMatches context)).filter (·.selected)))
    rw [length_map] at first
    simp [parts,first]
  have diagnostics : after.1.diagnostics = (summary.diagnostics ++ (earlier parts).flatMap (·.2.diagnostics)).filter (!suppressed parts ·) ++
      (later parts).flatMap (·.2.diagnostics) := by
    rw [← settled_eq parts once,← contributed_diagnostics {summary},summarized]
    unfold concluded
    split <;> rfl
  refine ⟨names,?_,?_⟩
  · rw [diagnostics,filter_append,append_assoc]
    exact sublist_append_left _ _
  rw [diagnostics]
  constructor
  · intro all part member diagnostic inside marked
    have present := all part (earlier_later parts ▸ mem_append_left _ member) diagnostic inside
    simpa [marked] using present
  intro kept part member diagnostic inside
  rcases mem_append.mp ((earlier_later parts).symm ▸ member) with before | behind
  · cases marked : suppressed parts diagnostic with
    | true => exact mem_append_right _ (mem_flatMap.mpr (kept part before diagnostic inside marked))
    | false =>
      refine mem_append_left _ (mem_filter.mpr ⟨?_,by simp [marked]⟩)
      exact mem_append_right _ (mem_flatMap.mpr ⟨part,before,inside⟩)
  · exact mem_append_right _ (mem_flatMap.mpr ⟨part,behind,inside⟩)

def swiftFailed : ReducerContext := ⟨"build",[⟨0,.target,some "//swift:lib",none,none,some false,none,none⟩],false⟩

/-- The override suppresses what a reducer of a higher priority found for the same target. -/
def augmented : List Reducer :=
  [⟨"augment",1,false,{},fun _ => .ok {diagnostics := [{customReducerNotice "undefined" with target := some "//swift:lib"}]}⟩,
    ⟨"override",0,true,{targetLabels := ["//swift:lib"]},fun _ => .ok {suppressBuiltinDiagnostics := true}⟩]

theorem contribution_suppressed :
    let (after,report) := ReducerPipeline.apply gracefulBuild (· == ·) swiftFailed (ranked Reducer.rank augmented) {success := false}
    report.applied = ["augment","override"] ∧ after.diagnostics = [] := ⟨rfl,rfl⟩

/-! ### Order and failures -/

section Isolation
open ReducerPipeline
variable {reducers : List Reducer}

theorem contributions_succeed (reducers : List CustomReducer) :
    contributions owned (reducers.filter (·.reduce.isOk)) = contributions owned reducers := by
  induction reducers generalizing owned with
  | nil => rfl
  | cons reducer rest ih =>
    rw [filter_cons]
    split
    · rw [contributions,contributions]
      cases reducer.offer owned <;> simp [ih]
    rename_i failed
    have nothing : reducer.offer owned = none := by
      unfold CustomReducer.offer
      cases answer : reducer.reduce <;> simp_all [Except.isOk,Except.toBool]
    rw [ih,contributions,nothing]

theorem new_distinct (distinct : (reducers.map (·.name)).Nodup) : new setting reducers = .ok (ranked Reducer.rank reducers) := by
  have unique (names : List String) (fresh : ∀ reducer ∈ reducers, reducer.name ∉ names) : duplicateName names reducers = none := by
    induction reducers generalizing names with
    | nil => rfl
    | cons reducer rest ih =>
      obtain ⟨other,distinct⟩ := nodup_cons.mp distinct
      obtain ⟨first,fresh⟩ := forall_mem_cons.mp fresh
      rw [duplicateName,if_neg first]
      refine ih distinct _ fun later member known => ?_
      rcases mem_cons.mp known with same | old
      · exact other (mem_map.mpr ⟨later,member,same⟩)
      · exact fresh later member old
  rw [new,unique [] fun _ _ => not_mem_nil]
  rfl

/-- Reducers with distinct names have one order. -/
theorem sorted_unique {others : List Reducer} (distinct : (reducers.map (·.name)).Nodup) (sorted : Sorted Reducer.rank reducers)
    (same : reducers.Perm others) : reducers = ranked Reducer.rank others := by
  have perm : reducers.Perm (ranked Reducer.rank others) := same.trans (perm_insertionSort _ _).symm
  refine perm.eq_of_pairwise ?_ sorted (ranked_sorted _ _)
  intro left right leftIn rightIn below above
  have names : left.name = right.name := congrArg (fun rank => (ofLex rank).2) (le_antisymm below above)
  exact inj_on_of_nodup_map distinct leftIn (perm.mem_iff.mpr rightIn) names

theorem reducers_isolated {others : List Reducer} (distinct : (reducers.map (·.name)).Nodup) (same : reducers.Perm others)
    (labelMatches : String → String → Bool) (context : ReducerContext) :
    let pipeline := ranked Reducer.rank reducers
    let matching := (pipeline.map (·.met labelMatches context)).filter (·.selected)
    let parts := contributions false matching
    new setting reducers = .ok pipeline ∧ new setting others = .ok pipeline ∧
      (∃ surviving, new setting (reducers.filter fun reducer => (reducer.reduce context).isOk) = .ok surviving ∧
        (apply setting labelMatches context surviving summary).1 = (apply setting labelMatches context pipeline summary).1) ∧
      (apply setting labelMatches context pipeline summary).2.applied = parts.map (·.1.name) ∧
      (parts.filter (·.1.overrideMatching)).map (·.1) =
        (matching.filter fun reducer => reducer.overrideMatching && (reducer.offer false).isSome).take 1 := by
  intro pipeline matching parts
  have perm : pipeline.Perm reducers := perm_insertionSort _ _
  have sorted : Sorted Reducer.rank pipeline := ranked_sorted _ _
  have distinctly : (pipeline.map (·.name)).Nodup := (perm.map _).nodup_iff.mpr distinct
  have survivors := sorted_unique (distinctly.sublist (filter_sublist.map _)) (sorted.sublist filter_sublist)
    (perm.filter fun reducer => (reducer.reduce context).isOk)
  have remaining : ((pipeline.filter fun reducer => (reducer.reduce context).isOk).map (·.met labelMatches context)).filter (·.selected) =
      matching.filter (·.reduce.isOk) := by
    simp [matching,filter_map,Function.comp_def,Reducer.met,filter_filter,Bool.and_comm]
  refine ⟨new_distinct setting distinct,?_,⟨_,new_distinct setting (distinct.sublist (filter_sublist.map _)),?_⟩,
    (applyReducers_contributions _ summary).2,contributions_overrides false _⟩
  · rw [new_distinct setting ((same.map _).nodup_iff.mp distinct),← sorted_unique distinctly sorted (perm.trans same)]
  rw [← survivors]
  refine (applyReducers_contributions _ summary).1.trans (Eq.trans ?_ (applyReducers_contributions _ summary).1.symm)
  rw [remaining,contributions_succeed]

theorem augmented_isolated : (augmented.map (·.name)).Nodup ∧ augmented.Perm augmented.reverse ∧
      new gracefulBuild augmented = new gracefulBuild augmented.reverse := by
  have distinct : (augmented.map (·.name)).Nodup := by decide
  have same : augmented.Perm augmented.reverse := (reverse_perm _).symm
  obtain ⟨first,second,_⟩ := reducers_isolated gracefulBuild {success := false} distinct same (· == ·) swiftFailed
  exact ⟨distinct,same,first.trans second.symm⟩

end Isolation

end BazelMcp.Outcome
