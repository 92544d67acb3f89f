import Mathlib.Logic.Function.Basic

/-! Values that several tasks change, each under a lock file of its key. The file may
be unlinked once the value is deleted, while others still wait for the file they have
opened; keys are never used again. What a holder knows of the value is true until it
lets go, so that the changes of a value form a chain. -/
namespace BazelMcp.Lockfiles
open Function

section Tables
variable {α β γ : Type} [DecidableEq α] [DecidableEq β] {first place : α} {second another : β}

theorem cell_self (table : α → β → γ) (entry : γ) : update table first (update (table first) second entry) first second = entry := by
  simp

theorem cell_other (table : α → β → γ) (entry : γ) (different : ¬ (place = first ∧ another = second)) :
    update table first (update (table first) second entry) place another = table place another := by
  by_cases same : place = first
  · subst same
    rw [update_self,update_of_ne fun same => different ⟨rfl,same⟩]
  · rw [update_of_ne same]

end Tables

/-- How a task stands to a lock file, which is named by its key and its version. -/
inductive Grip (κ ν : Type) where
  | empty
  | opened (key : κ) (version : Nat)
  | locked (key : κ) (version : Nat)
  | knows (key : κ) (version : Nat) (value : Option ν)

variable {ι κ ν : Type}

namespace Grip

def At (key : κ) (version : Nat) : Grip κ ν → Prop
  | .empty => False
  | .opened own at_ | .locked own at_ | .knows own at_ _ => own = key ∧ at_ = version

def Holds (key : κ) (version : Nat) : Grip κ ν → Prop
  | .locked own at_ | .knows own at_ _ => own = key ∧ at_ = version
  | _ => False

theorem Holds.at {key : κ} {version : Nat} {grip : Grip κ ν} (holds : grip.Holds key version) : grip.At key version := by
  cases grip with
  | opened own at_ => exact holds.elim
  | empty | locked | knows => exact holds

end Grip

/-- What a task has: a lock file, a key it has drawn but not used yet, and the keys it has deleted. -/
structure Seat (κ ν : Type) where
  grip : Grip κ ν := .empty
  fresh : Option κ := none
  retired : List κ := []

structure Entry (κ ν : Type) where
  key : κ
  read : Option ν
  written : Option ν

structure Shelf (ι κ ν : Type) where
  value : κ → Option ν
  used : κ → Prop
  version : κ → Nat
  holder : κ → Nat → Option ι
  live : ι → Prop
  log : List (Entry κ ν)

/-- The last entry wrote the current value; what it read is what the entries before it left. -/
def Chain (initial : Option ν) : List (Entry κ ν) → Option ν → Prop
  | [], current => current = initial
  | entry::earlier, current => entry.written = current ∧ Chain initial earlier entry.read

/-- The value is deleted for good: the key was drawn and nobody may use it any more. -/
def Gone (seats : ι → Seat κ ν) (shelf : Shelf ι κ ν) (key : κ) : Prop :=
  shelf.used key ∧ shelf.value key = none ∧ ∀ task, (seats task).fresh ≠ some key

section Steps
variable [DecidableEq κ]

def Shelf.hold (shelf : Shelf ι κ ν) (key : κ) (version : Nat) (holder : Option ι) : Shelf ι κ ν :=
  {shelf with holder := update shelf.holder key (update (shelf.holder key) version holder)}

def Shelf.store (shelf : Shelf ι κ ν) (key : κ) (read written : Option ν) : Shelf ι κ ν :=
  { shelf with
    value := update shelf.value key written
    log := ⟨key,read,written⟩::shelf.log }

/-- What a live task may do. -/
inductive Step (task : ι) : Seat κ ν → Shelf ι κ ν → Seat κ ν → Shelf ι κ ν → Prop
  | idle {seat shelf} : Step task seat shelf seat shelf
  | opens {seat shelf} (key : κ) : Step task seat shelf {seat with grip := .opened key (shelf.version key)} shelf
  | closes {seat shelf key version} (opened : seat.grip = .opened key version) : Step task seat shelf {seat with grip := .empty} shelf
  | acquires {seat shelf key version} (opened : seat.grip = .opened key version) (free : shelf.holder key version = none) :
      Step task seat shelf {seat with grip := if seat.fresh = some key then .knows key version none else .locked key version}
        (shelf.hold key version (some task))
  | releases {seat shelf key version} (held : seat.grip.Holds key version) :
      Step task seat shelf {seat with grip := .empty} (shelf.hold key version none)
  | reads {seat shelf key version} (held : seat.grip.Holds key version) :
      Step task seat shelf {seat with grip := .knows key version (shelf.value key)} shelf
  | draws {seat shelf key} (unused : ¬ shelf.used key) (fresh : seat.fresh = none) :
      Step task seat shelf {seat with fresh := some key} {shelf with used := fun other => other = key ∨ shelf.used other}
  | writes {seat shelf key version read} (written : ν) (knows : seat.grip = .knows key version read)
      (may : read = none → seat.fresh = some key) :
      Step task seat shelf {seat with grip := .knows key version (some written), fresh := none} (shelf.store key read (some written))
  | deletes {seat shelf key version read} (knows : seat.grip = .knows key version (some read)) :
      Step task seat shelf {seat with grip := .knows key version none, retired := key::seat.retired} (shelf.store key (some read) none)
  | discards {seat shelf key version value} (knows : seat.grip = .knows key version value) (present : shelf.value key ≠ none) :
      Step task seat shelf {seat with grip := .locked key version} (shelf.store key (shelf.value key) none)
  | forgets {seat shelf key version value} (knows : seat.grip = .knows key version value) :
      Step task seat shelf {seat with grip := .locked key version} shelf
  | unlinks {seat shelf key} (retired : key ∈ seat.retired) :
      Step task seat shelf seat {shelf with version := update shelf.version key (shelf.version key+1)}
  | dies {seat shelf} (doomed : ι → Bool) : Step task seat shelf seat
      { shelf with
        live := fun other => shelf.live other ∧ doomed other = false
        holder := fun key version => (shelf.holder key version).filter fun other => !doomed other }

/-- What holds along every run. -/
structure Sound (initial : κ → Option ν) (seats : ι → Seat κ ν) (shelf : Shelf ι κ ν) : Prop where
  held : ∀ task key version, shelf.live task → (seats task).grip.Holds key version → shelf.holder key version = some task
  current : ∀ task key version, (seats task).grip.At key version → version = shelf.version key ∨ Gone seats shelf key
  known : ∀ task key version value, shelf.live task → (seats task).grip = .knows key version value → shelf.value key = value
  fresh : ∀ task key, (seats task).fresh = some key → shelf.used key ∧ shelf.value key = none
  single : ∀ task other key, (seats task).fresh = some key → (seats other).fresh = some key → task = other
  used : ∀ key, shelf.value key ≠ none → shelf.used key
  retired : ∀ task key, key ∈ (seats task).retired → Gone seats shelf key
  chain : ∀ key, Chain (initial key) (shelf.log.filter (·.key = key)) (shelf.value key)

variable {initial : κ → Option ν} {seats : ι → Seat κ ν} {shelf : Shelf ι κ ν} {task : ι}

variable {key : κ} {version : Nat} {seat : Seat κ ν} {after : Shelf ι κ ν}

section
variable (sound : Sound initial seats shelf)
include sound

/-- Of the live tasks one holds the file of a value that is not deleted. -/
theorem Sound.exclusive {other : ι} {another : Nat} (live : shelf.live task)
    (alive : shelf.live other) (holds : (seats task).grip.Holds key version) (shares : (seats other).grip.Holds key another)
    (present : ¬ Gone seats shelf key) : other = task := by
  have first : version = shelf.version key := (sound.current task key version holds.at).resolve_right present
  have second : another = shelf.version key := (sound.current other key another shares.at).resolve_right present
  have holder := sound.held other key another alive shares
  rw [second,← first,sound.held task key version live holds] at holder
  exact (Option.some.inj holder).symm

theorem Sound.present {value : Option ν} (live : shelf.live task)
    (knows : (seats task).grip = .knows key version value) (may : value = none → (seats task).fresh = some key) :
    ¬ Gone seats shelf key := by
  intro gone
  cases value with
  | none => exact gone.2.2 task (may rfl)
  | some found =>
    have there := sound.known task key version _ live knows
    rw [gone.2.1] at there
    cases there

theorem Sound.unborn (present : shelf.value key ≠ none) (other : ι) :
    (seats other).fresh ≠ some key := fun drawn => present (sound.fresh other key drawn).2

theorem Sound.unlink (retired : key ∈ (seats task).retired) :
    Sound initial seats {shelf with version := update shelf.version key (shelf.version key+1)} := by
  refine { sound with current := ?_ }
  intro other place another stands
  by_cases same : place = key
  · subst same
    exact .inr (sound.retired task place retired)
  · change another = update shelf.version key _ place ∨ _
    rw [update_of_ne same]
    exact sound.current other place another stands

theorem Sound.die (doomed : ι → Bool) : Sound initial seats { shelf with
      live := fun other => shelf.live other ∧ doomed other = false
      holder := fun key version => (shelf.holder key version).filter fun other => !doomed other } := by
  refine { sound with held := ?_, known := fun other key version value live => sound.known other key version value live.1 }
  intro other key version live holds
  change (shelf.holder key version).filter _ = _
  rw [sound.held other key version live.1 holds,Option.filter_some,live.2]
  rfl

end

/-- What holds of each seat, where the deleted values are known. -/
structure Seated (gone : κ → Prop) (shelf : Shelf ι κ ν) (task : ι) (seat : Seat κ ν) : Prop where
  held : ∀ key version, shelf.live task → seat.grip.Holds key version → shelf.holder key version = some task
  current : ∀ key version, seat.grip.At key version → version = shelf.version key ∨ gone key
  known : ∀ key version value, shelf.live task → seat.grip = .knows key version value → shelf.value key = value
  fresh : ∀ key, seat.fresh = some key → shelf.used key ∧ shelf.value key = none
  retired : ∀ key, key ∈ seat.retired → gone key

theorem drawn_update [DecidableEq ι] {other : ι} (drawn : (update seats task seat other).fresh = some key) :
    other = task ∧ seat.fresh = some key ∨ (seats other).fresh = some key := by
  by_cases same : other = task
  · subst same
    rw [update_self] at drawn
    exact .inl ⟨rfl,drawn⟩
  · rw [update_of_ne same] at drawn
    exact .inr drawn

theorem Sound.seated (sound : Sound initial seats shelf) (task : ι) : Seated (Gone seats shelf) shelf task (seats task) :=
  ⟨sound.held task,sound.current task,sound.known task,sound.fresh task,sound.retired task⟩

omit [DecidableEq κ] in
theorem Seated.mono {gone more : κ → Prop} (seated : Seated gone shelf task seat) (still : ∀ key, gone key → more key) :
    Seated more shelf task seat :=
  { seated with
    current := fun key version stands => (seated.current key version stands).imp_right (still key)
    retired := fun key member => still key (seated.retired key member) }

variable [DecidableEq ι]

theorem Sound.reseat (own : Seated (Gone (update seats task seat) after) after task seat)
    (others : ∀ other, other ≠ task → Seated (Gone (update seats task seat) after) after other (seats other))
    (single : ∀ first second key, (update seats task seat first).fresh = some key →
      (update seats task seat second).fresh = some key → first = second) (used : ∀ key, after.value key ≠ none → after.used key)
    (chain : ∀ key, Chain (initial key) (after.log.filter (·.key = key)) (after.value key)) :
    Sound initial (update seats task seat) after := by
  have seated (other : ι) : Seated (Gone (update seats task seat) after) after other (update seats task seat other) := by
    by_cases same : other = task
    · subst same
      rw [update_self]
      exact own
    · rw [update_of_ne same]
      exact others other same
  exact
    { held := fun other => (seated other).held
      current := fun other => (seated other).current
      known := fun other => (seated other).known
      fresh := fun other => (seated other).fresh
      single := single
      used := used
      retired := fun other => (seated other).retired
      chain := chain }

section
variable (sound : Sound initial seats shelf)
include sound

theorem Sound.regrip (grip : Grip κ ν) (holder : κ → Nat → Option ι)
    (kept : ∀ other key version, other ≠ task → shelf.live other → (seats other).grip.Holds key version →
      holder key version = some other)
    (held : ∀ key version, grip.Holds key version → holder key version = some task)
    (current : ∀ key version, grip.At key version → version = shelf.version key ∨ Gone seats shelf key)
    (known : ∀ key version value, grip = .knows key version value → shelf.value key = value) :
    Sound initial (update seats task {seats task with grip := grip}) {shelf with holder := holder} := by
  have fresh (other : ι) : (update seats task {seats task with grip := grip} other).fresh = (seats other).fresh := by
    by_cases same : other = task
    · rw [same,update_self]
    · rw [update_of_ne same]
  have still (key : κ) (gone : Gone seats shelf key) :
      Gone (update seats task {seats task with grip := grip}) {shelf with holder := holder} key :=
    ⟨gone.1,gone.2.1,fun other => fresh other ▸ gone.2.2 other⟩
  refine Sound.reseat ?_ ?_ ?_ sound.used sound.chain
  · exact
      { (sound.seated task).mono still with
        held := fun key version _ => held key version
        current := fun key version stands => (current key version stands).imp_right (still key)
        known := fun key version value _ => known key version value }
  · intro other different
    exact { (sound.seated other).mono still with held := fun key version => kept other key version different }
  · intro first second key drawn again
    rw [fresh] at drawn again
    exact sound.single first second key drawn again

theorem Sound.restore {value : Option ν} (seat : Seat κ ν)
    (live : shelf.live task) (knows : (seats task).grip = .knows key version value) (written : Option ν)
    (present : ¬ Gone seats shelf key) (used : shelf.used key)
    (grip : seat.grip = .knows key version written ∨ seat.grip = .locked key version)
    (fresh : ∀ other, seat.fresh = some other → (seats task).fresh = some other ∧ (other = key → written = none))
    (unborn : ∀ other, other ≠ task → (seats other).fresh ≠ some key)
    (retired : ∀ other ∈ seat.retired, other ∈ (seats task).retired ∨ other = key ∧ written = none ∧ seat.fresh ≠ some key) :
    Sound initial (update seats task seat) (shelf.store key (shelf.value key) written) := by
  have holds : (seats task).grip.Holds key version := by
    rw [knows]
    exact ⟨rfl,rfl⟩
  have only {other : κ} {another : Nat} (stands : seat.grip.At other another) : key = other ∧ version = another := by
    rcases grip with same | same
    · rw [same] at stands
      exact stands
    · rw [same] at stands
      exact stands
  have elsewhere {other : κ} (different : other ≠ key) : (shelf.store key (shelf.value key) written).value other = shelf.value other :=
    update_of_ne different _ _
  have here : (shelf.store key (shelf.value key) written).value key = written := update_self _ _ _
  have older {owner : ι} {other : κ} (drawn : (update seats task seat owner).fresh = some other) :
      (seats owner).fresh = some other := by
    rcases drawn_update drawn with ⟨rfl,own⟩ | before
    · exact (fresh other own).1
    · exact before
  have still (other : κ) (gone : Gone seats shelf other) :
      Gone (update seats task seat) (shelf.store key (shelf.value key) written) other := by
    have different : other ≠ key := by
      intro same
      exact present (same ▸ gone)
    exact ⟨gone.1,(elsewhere different).trans gone.2.1,fun owner drawn => gone.2.2 owner (older drawn)⟩
  refine Sound.reseat ⟨?_,?_,?_,?_,?_⟩ ?_ ?_ ?_ ?_
  · intro place another _ stands
    obtain ⟨samePlace,sameVersion⟩ := only stands.at
    subst samePlace sameVersion
    exact sound.held task key version live holds
  · intro place another stands
    obtain ⟨samePlace,sameVersion⟩ := only stands
    subst samePlace sameVersion
    exact .inl ((sound.current task key version holds.at).resolve_right present)
  · intro place another found _ knowing
    rcases grip with known | locked
    · rw [known] at knowing
      cases knowing
      exact here
    · rw [locked] at knowing
      cases knowing
  · intro place drawn
    obtain ⟨before,unwritten⟩ := fresh place drawn
    refine ⟨(sound.fresh task place before).1,?_⟩
    by_cases samePlace : place = key
    · rw [samePlace]
      exact here.trans (unwritten samePlace)
    · exact (elsewhere samePlace).trans (sound.fresh task place before).2
  · intro place member
    rcases retired place member with old | ⟨samePlace,erased,undrawn⟩
    · exact still place (sound.retired task place old)
    subst samePlace
    refine ⟨used,here.trans erased,?_⟩
    intro owner drawn
    by_cases same : owner = task
    · subst same
      rw [update_self] at drawn
      exact undrawn drawn
    · exact unborn owner same (older drawn)
  · intro other different
    refine { (sound.seated other).mono still with known := ?_, fresh := ?_ }
    · intro place another found alive knowing
      have apart : place ≠ key := by
        intro samePlace
        subst samePlace
        have shares : (seats other).grip.Holds place another := by
          rw [knowing]
          exact ⟨rfl,rfl⟩
        exact different (sound.exclusive live alive holds shares present)
      exact (elsewhere apart).trans (sound.known other place another found alive knowing)
    · intro place drawn
      have apart : place ≠ key := by
        intro samePlace
        exact unborn other different (samePlace ▸ drawn)
      exact ⟨(sound.fresh other place drawn).1,(elsewhere apart).trans (sound.fresh other place drawn).2⟩
  · intro first second place drawn again
    exact sound.single first second place (older drawn) (older again)
  · intro place holdsValue
    by_cases samePlace : place = key
    · exact samePlace ▸ used
    · rw [elsewhere samePlace] at holdsValue
      exact sound.used place holdsValue
  · intro place
    by_cases samePlace : place = key
    · subst samePlace
      rw [here]
      change Chain _ (List.filter _ (⟨place,_,_⟩::shelf.log)) _
      rw [List.filter_cons_of_pos (by simp)]
      exact ⟨rfl,sound.chain place⟩
    · rw [elsewhere samePlace]
      change Chain _ (List.filter _ (⟨key,_,_⟩::shelf.log)) _
      rw [List.filter_cons_of_neg (by simpa using Ne.symm samePlace)]
      exact sound.chain place

theorem Sound.draw (unused : ¬ shelf.used key) (free : (seats task).fresh = none) :
    Sound initial (update seats task {seats task with fresh := some key})
      {shelf with used := fun other => other = key ∨ shelf.used other} := by
  have absent : shelf.value key = none := by
    by_contra present
    exact unused (sound.used key present)
  have still (place : κ) (gone : Gone seats shelf place) : Gone (update seats task {seats task with fresh := some key})
      {shelf with used := fun other => other = key ∨ shelf.used other} place := by
    refine ⟨.inr gone.1,gone.2.1,?_⟩
    intro other drawn
    rcases drawn_update drawn with ⟨_,same⟩ | old
    · exact unused (Option.some.inj same ▸ gone.1)
    · exact gone.2.2 other old
  refine Sound.reseat ?_ ?_ ?_ (fun place present => .inr (sound.used place present)) sound.chain
  · refine { (sound.seated task).mono still with fresh := ?_ }
    intro place drawn
    cases drawn
    exact ⟨.inl rfl,absent⟩
  · intro other _
    exact
      { (sound.seated other).mono still with
        fresh := fun place drawn => ⟨.inr (sound.fresh other place drawn).1,(sound.fresh other place drawn).2⟩ }
  intro first second place drawn again
  rcases drawn_update drawn with ⟨isFirst,same⟩ | old
  · rcases drawn_update again with ⟨isSecond,_⟩ | older
    · exact isFirst.trans isSecond.symm
    · exact absurd (Option.some.inj same ▸ (sound.fresh second place older).1) unused
  · rcases drawn_update again with ⟨_,same⟩ | older
    · exact absurd (Option.some.inj same ▸ (sound.fresh first place old).1) unused
    · exact sound.single first second place old older

theorem Sound.step (live : shelf.live task)
    (step : Step task (seats task) shelf seat after) : Sound initial (update seats task seat) after := by
  have others (other : ι) (key : κ) (version : Nat) (_ : other ≠ task) (alive : shelf.live other)
      (holds : (seats other).grip.Holds key version) : shelf.holder key version = some other :=
    sound.held other key version alive holds
  cases step with
  | idle =>
    rw [update_eq_self]
    exact sound
  | opens key =>
    apply sound.regrip _ shelf.holder others
    · nofun
    · intro place another ⟨samePlace,sameVersion⟩
      exact .inl (sameVersion.symm.trans (congrArg shelf.version samePlace))
    · nofun
  | closes opened => exact sound.regrip _ shelf.holder others nofun nofun nofun
  | @acquires key version opened free =>
    have only {place : κ} {another : Nat} (stands : Grip.At place another
        (if (seats task).fresh = some key then (.knows key version none : Grip κ ν) else .locked key version)) :
        key = place ∧ version = another := by
      split at stands
      · exact stands
      · exact stands
    apply sound.regrip _ (shelf.hold key version (some task)).holder
    · intro other place another _ alive holds
      refine (cell_other _ _ ?_).trans (sound.held other place another alive holds)
      intro ⟨samePlace,sameVersion⟩
      subst samePlace sameVersion
      rw [sound.held other place another alive holds] at free
      cases free
    · intro place another holds
      obtain ⟨samePlace,sameVersion⟩ := only holds.at
      subst samePlace sameVersion
      exact cell_self _ _
    · intro place another stands
      obtain ⟨samePlace,sameVersion⟩ := only stands
      subst samePlace sameVersion
      apply sound.current task key version
      rw [opened]
      exact ⟨rfl,rfl⟩
    · intro place another value knows
      split at knows
      · rename_i drawn
        cases knows
        exact (sound.fresh task key drawn).2
      · cases knows
  | @releases key version held =>
    refine sound.regrip _ (shelf.hold key version none).holder ?_ nofun nofun nofun
    intro other place another different alive holds
    refine (cell_other _ _ ?_).trans (sound.held other place another alive holds)
    intro ⟨samePlace,sameVersion⟩
    subst samePlace sameVersion
    have owner := sound.held other place another alive holds
    rw [sound.held task place another live held] at owner
    exact different (Option.some.inj owner).symm
  | @reads key version held =>
    apply sound.regrip _ shelf.holder others
    · intro place another ⟨samePlace,sameVersion⟩
      subst samePlace sameVersion
      exact sound.held task key version live held
    · intro place another ⟨samePlace,sameVersion⟩
      subst samePlace sameVersion
      exact sound.current task key version held.at
    · intro place another value knows
      cases knows
      rfl
  | @draws key unused fresh => exact sound.draw unused fresh
  | @writes key version read written knows may =>
    have present := sound.present live knows may
    have same := sound.known task key version read live knows
    subst same
    have used : shelf.used key := by
      by_cases absent : shelf.value key = none
      · exact (sound.fresh task key (may absent)).1
      · exact sound.used key absent
    apply sound.restore _ live knows _ present used (.inl rfl)
    · intro place drawn
      cases drawn
    · intro other different drawn
      by_cases absent : shelf.value key = none
      · exact different (sound.single other task key drawn (may absent))
      · exact sound.unborn absent other drawn
    · intro place member
      exact .inl member
  | @deletes key version read knows =>
    have same := sound.known task key version _ live knows
    have there : shelf.value key ≠ none := by
      rw [same]
      nofun
    rw [← same]
    apply sound.restore _ live knows _ (fun gone => there gone.2.1) (sound.used key there) (.inl rfl)
    · intro place drawn
      exact ⟨drawn,fun _ => rfl⟩
    · intro other _
      exact sound.unborn there other
    intro place member
    rcases List.mem_cons.mp member with samePlace | old
    · exact .inr ⟨samePlace,rfl,sound.unborn there task⟩
    · exact .inl old
  | @discards key version value knows present =>
    apply sound.restore _ live knows _ (fun gone => present gone.2.1) (sound.used key present) (.inr rfl)
    · intro place drawn
      exact ⟨drawn,fun _ => rfl⟩
    · intro other _
      exact sound.unborn present other
    · intro place member
      exact .inl member
  | @forgets key version value knows =>
    have held : (seats task).grip.Holds key version := by
      rw [knows]
      exact ⟨rfl,rfl⟩
    apply sound.regrip _ shelf.holder others
    · intro place another ⟨samePlace,sameVersion⟩
      subst samePlace sameVersion
      exact sound.held task key version live held
    · intro place another ⟨samePlace,sameVersion⟩
      subst samePlace sameVersion
      exact sound.current task key version held.at
    · nofun
  | unlinks retired =>
    rw [update_eq_self]
    exact sound.unlink retired
  | dies doomed =>
    rw [update_eq_self]
    exact sound.die doomed

end

/-- The value is as described, or deleted for good. -/
def Lasting (good : ν → Prop) (seats : ι → Seat κ ν) (shelf : Shelf ι κ ν) (key : κ) : Prop :=
  (∃ value, shelf.value key = some value ∧ good value) ∨ Gone seats shelf key

theorem Sound.lasting (sound : Sound initial seats shelf) {good : ν → Prop}
    (live : shelf.live task) (step : Step task (seats task) shelf seat after) (lasting : Lasting good seats shelf key)
    (keeps : ∀ read written, after.log = ⟨key,some read,some written⟩::shelf.log → good read → good written) :
    Lasting good (update seats task seat) after key := by
  -- What no task has drawn it has not drawn later, unless by the step itself.
  have unmoved (same : after.value key = shelf.value key) (used : shelf.used key → after.used key)
      (older : ∀ place, seat.fresh = some place → (seats task).fresh = some place ∨ ¬ shelf.used place) :
      Lasting good (update seats task seat) after key := by
    rcases lasting with ⟨value,isValue,holds⟩ | gone
    · exact .inl ⟨value,same.trans isValue,holds⟩
    refine .inr ⟨used gone.1,same.trans gone.2.1,?_⟩
    intro other drawn
    rcases drawn_update drawn with ⟨rfl,own⟩ | before
    · rcases older key own with old | unused
      · exact gone.2.2 other old
      · exact unused gone.1
    · exact gone.2.2 other before
  -- A value that is there and is taken away has been drawn by nobody.
  have erased (present : shelf.value key ≠ none) (absent : after.value key = none) (used : shelf.used key → after.used key)
      (older : seat.fresh = (seats task).fresh) : Lasting good (update seats task seat) after key := by
    refine .inr ⟨used (sound.used key present),absent,?_⟩
    intro other drawn
    rcases drawn_update drawn with ⟨rfl,own⟩ | before
    · exact sound.unborn present other (older ▸ own)
    · exact sound.unborn present other before
  have same (place : κ) (drawn : (seats task).fresh = some place) : (seats task).fresh = some place ∨ ¬ shelf.used place := .inl drawn
  cases step with
  | @draws place unused fresh =>
    apply unmoved rfl .inr
    intro other drawn
    exact .inr (Option.some.inj drawn ▸ unused)
  | @writes place version read written knows may =>
    by_cases here : place = key
    · subst here
      have known := sound.known task place version read live knows
      rcases lasting with ⟨value,isValue,holds⟩ | gone
      · refine .inl ⟨written,update_self _ _ _,keeps value written ?_ holds⟩
        rw [← isValue,known]
        rfl
      · exact absurd gone (sound.present live knows may)
    · apply unmoved (update_of_ne (Ne.symm here) _ _) (fun used => used)
      intro other drawn
      cases drawn
  | @deletes place version read knows =>
    by_cases here : place = key
    · subst here
      have present : shelf.value place ≠ none := by
        rw [sound.known task place version _ live knows]
        nofun
      exact erased present (update_self _ _ _) (fun used => used) rfl
    · exact unmoved (update_of_ne (Ne.symm here) _ _) (fun used => used) same
  | @discards place version value knows present =>
    by_cases here : place = key
    · subst here
      exact erased present (update_self _ _ _) (fun used => used) rfl
    · exact unmoved (update_of_ne (Ne.symm here) _ _) (fun used => used) same
  | idle | opens | closes | acquires | releases | reads | forgets | unlinks | dies => exact unmoved rfl (fun used => used) same

end Steps
end BazelMcp.Lockfiles
