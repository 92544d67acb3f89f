import BazelMcp.Text

/-! Paths as Bazel reports them, and how they are made relative to the workspace. -/
namespace BazelMcp.BazelPaths
open Text List

def strip (start text : List Char) : Option (List Char) :=
  if start.isPrefixOf text then some (text.drop start.length) else none

def rsplitOnce (separator text : List Char) : Option (List Char × List Char) :=
  (splitOnce separator.reverse text.reverse).map fun (after,before) => (before.reverse,after.reverse)

def trimMatches (char : Char) (text : List Char) : List Char :=
  ((text.dropWhile (· == char)).reverse.dropWhile (· == char)).reverse

def afterWorkspace (path : List Char) : Option (List Char) :=
  (strip "<WORKSPACE>/".toList path).or (strip "<workspace>/".toList path)

def afterRunfiles (path : List Char) : Option (List Char) :=
  ((rsplitOnce ".runfiles/_main/".toList path).or (rsplitOnce ".runfiles/__main__/".toList path)).map (·.2)

def afterExecroot (path : List Char) : Option (List Char) := do
  let (_,after) ← rsplitOnce "/execroot/".toList path
  let (_,relative) ← splitOnce ['/'] after
  return relative

def afterBin (path : List Char) : Option (List Char) := do
  let output ← strip "bazel-out/".toList path
  let (configuration,rest) ← splitOnce ['/'] output
  if configuration.isEmpty then none else strip "bin/".toList rest

def relativePath (path : List Char) : List Char :=
  let path := (afterWorkspace path).getD path
  (afterRunfiles path).getD <|
    let path := (afterExecroot path).getD ((strip "./".toList path).getD path)
    (afterBin path).getD path

def compactBazelPath (path : List Char) : List Char :=
  relativePath ((trimMatches '"' path).map fun char => if char = '\\' then '/' else char)

section Shortening
variable {path text rest first separator start other : List Char}

def Drops (text rest : List Char) : Prop := rest <+ text ∧ rest.length < text.length

theorem drops_append (some : separator ≠ []) : Drops (first ++ separator ++ rest) rest :=
  ⟨sublist_append_right _ _,by have := length_pos_iff.mpr some; simp; omega⟩

theorem Drops.trans (second : Drops rest start) (one : Drops text rest) : Drops text start :=
  ⟨second.1.trans one.1,second.2.trans one.2⟩

theorem strip_drops (some : start ≠ []) (found : strip start text = .some rest) : Drops text rest := by
  unfold strip at found
  split at found
  · rename_i starts
    cases found
    rw [ isPrefixOf_iff_prefix,prefix_iff_eq_append] at starts
    have split := @drops_append (text.drop start.length) [] start some
    rwa [nil_append,starts] at split
  · cases found

theorem splitOnce_eq (found : splitOnce separator text = some (first,rest)) : text = first ++ separator ++ rest := by
  induction text generalizing first with
  | nil => simp_all [splitOnce]
  | cons char text ih =>
    unfold splitOnce at found
    split at found
    · rename_i starts
      cases found
      rw [ isPrefixOf_iff_prefix,prefix_iff_eq_append] at starts
      exact starts.symm
    · obtain ⟨⟨before,after⟩,inner,same⟩ := Option.map_eq_some_iff.mp found
      cases same
      simp [ih inner]

theorem rsplitOnce_eq (found : rsplitOnce separator text = some (first,rest)) : text = first ++ separator ++ rest := by
  obtain ⟨⟨after,before⟩,inner,same⟩ := Option.map_eq_some_iff.mp found
  cases same
  simpa using congrArg reverse (splitOnce_eq inner)

theorem afterWorkspace_drops (found : afterWorkspace path = some rest) : Drops path rest := by
  rcases Option.or_eq_some_iff.mp found with strips | ⟨_,strips⟩ <;> exact strip_drops (by decide) strips

theorem afterRunfiles_drops (found : afterRunfiles path = some rest) : Drops path rest := by
  obtain ⟨⟨first,rest⟩,inner,rfl⟩ := Option.map_eq_some_iff.mp found
  rcases Option.or_eq_some_iff.mp inner with splits | ⟨_,splits⟩ <;> exact rsplitOnce_eq splits ▸ drops_append (by decide)

theorem afterExecroot_drops (found : afterExecroot path = some rest) : Drops path rest := by
  simp only [afterExecroot,Option.bind_eq_bind,Option.bind_eq_some_iff,Option.pure_def,Option.some.injEq,Prod.exists] at found
  obtain ⟨_,after,splits,_,_,again,rfl⟩ := found
  exact .trans (splitOnce_eq again ▸ drops_append (by decide)) (rsplitOnce_eq splits ▸ drops_append (by decide))

theorem afterBin_drops (found : afterBin path = some rest) : Drops path rest := by
  simp only [afterBin,Option.bind_eq_bind,Option.bind_eq_some_iff,Prod.exists] at found
  obtain ⟨output,strips,_,_,splits,found⟩ := found
  split at found
  · cases found
  · have inBin := (strip_drops (by decide) found).trans (splitOnce_eq splits ▸ drops_append (by decide))
    exact inBin.trans (strip_drops (by decide) strips)

variable {rule : Option (List Char)} (drops : ∀ {rest}, rule = some rest → Drops path rest)
include drops

theorem rule_sublist (shrinks : other <+ path) : rule.getD other <+ path := by
  cases rule with
  | none => exact shrinks
  | some rest => exact (drops rfl).1

theorem rule_eq_iff : rule.getD other = path ↔ rule = none ∧ other = path := by
  cases rule with
  | none => simp
  | some rest =>
    have := (drops rfl).2
    simp only [Option.getD_some,reduceCtorEq,false_and,iff_false]
    rintro rfl
    omega
end Shortening

theorem trimMatches_sublist (char : Char) (text : List Char) : trimMatches char text <+ text := by
  have back := (dropWhile_sublist (l := (text.dropWhile (· == char)).reverse) (· == char)).reverse
  rw [reverse_reverse] at back
  exact back.trans (dropWhile_sublist _)

theorem eq_through {rules : List Char → List Char} {first path : List Char} (shrinks : ∀ path, rules path <+ path) (one : first <+ path) :
    rules first = path ↔ first = path ∧ rules path = path := by
  constructor
  · intro same
    obtain rfl := one.antisymm (same ▸ shrinks first)
    exact ⟨rfl,same⟩
  · rintro ⟨rfl,same⟩
    exact same

theorem relativePath_shortens (path : List Char) : relativePath path <+ path ∧ (relativePath path = path ↔ afterWorkspace path = none ∧
    afterRunfiles path = none ∧ afterExecroot path = none ∧ strip "./".toList path = none ∧ afterBin path = none) := by
  have dot {path rest} := @strip_drops path rest "./".toList (by decide)
  have here (path) := rule_sublist (@dot path) (Sublist.refl path)
  have root (path) := rule_sublist (@afterExecroot_drops path) (here path)
  have bin (path) := rule_sublist (@afterBin_drops path) (Sublist.refl path)
  have files (path) := rule_sublist (@afterRunfiles_drops path) ((bin _).trans (root path))
  have workspace := rule_sublist (@afterWorkspace_drops path) (Sublist.refl path)
  refine ⟨(files _).trans workspace,(eq_through files workspace).trans ?_⟩
  rw [rule_eq_iff afterWorkspace_drops,rule_eq_iff afterRunfiles_drops,eq_through bin (root path),rule_eq_iff afterExecroot_drops,
    rule_eq_iff dot,rule_eq_iff afterBin_drops]
  simp [and_assoc]

/-- A path in which no rule finds anything to take away. -/
@[mk_iff]
structure Compact (path : List Char) : Prop where
  quotes : trimMatches '"' path = path
  workspace : afterWorkspace path = none
  runfiles : afterRunfiles path = none
  execroot : afterExecroot path = none
  here : strip "./".toList path = none
  bin : afterBin path = none

theorem compactBazelPath_slashes (path : List Char) : '\\' ∉ compactBazelPath path := by
  intro found
  have := (relativePath_shortens _).1.subset found
  grind

end BazelMcp.BazelPaths
