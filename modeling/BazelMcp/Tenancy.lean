import BazelMcp.Lockfiles

/-! Owners of keys. Who creates a key takes the lock file of the key first and then
leaves it to its process, which keeps it as a lease while the key is in use. Whoever
holds the one office may take a lock file that nobody holds; it then knows that the
creator is dead or has given the key up. Files are unlinked once a key is gone. -/
namespace BazelMcp.Tenancy
open Function Lockfiles

inductive Opened (κ : Type) where
  | room (key : κ) (version : Nat)
  | office (version : Nat)

/-- What a task has: the lock file of a key, the key it creates, and the office. -/
structure Desk (κ : Type) where
  pending : Option (Opened κ) := none
  owning : Option (κ × Nat) := none
  born : Option κ := none
  office : Option Nat := none

structure House (ι κ π : Type) where
  alive : π → Prop
  version : κ → Nat
  holder : κ → Nat → Option ι
  lease : π → κ → Option Nat
  creator : κ → Option π
  abandoned : κ → Prop
  running : κ → Prop
  gone : κ → Prop
  officeVersion : Nat
  officeHolder : Nat → Option ι

variable {ι κ π : Type}

section Steps
variable [DecidableEq κ] [DecidableEq π]

def House.hold (house : House ι κ π) (key : κ) (version : Nat) (holder : Option ι) : House ι κ π :=
  {house with holder := update house.holder key (update (house.holder key) version holder)}

def House.grant (house : House ι κ π) (process : π) (key : κ) (version : Option Nat) : House ι κ π :=
  {house with lease := update house.lease process (update (house.lease process) key version)}

/-- What a task of a live process may do. -/
inductive Step (home : ι → π) (task : ι) : Desk κ → House ι κ π → Desk κ → House ι κ π → Prop
  | idle {desk house} : Step home task desk house desk house
  | draws {desk house} (key : κ) (unknown : house.creator key = none) (unused : ¬ house.running key) (unborn : desk.born = none)
      (free : desk.owning = none) (plain : desk.office = none) : Step home task desk house {desk with born := some key}
        {house with creator := update house.creator key (some (home task))}
  | opens {desk house} (key : κ) : Step home task desk house {desk with pending := some (.room key (house.version key))} house
  | closes {desk house} : Step home task desk house {desk with pending := none} house
  | takes {desk house key version} (opened : desk.pending = some (.room key version)) (free : desk.owning = none)
      (may : desk.born = some key ∨ desk.office ≠ none) (unheld : house.holder key version = none) :
      Step home task desk house {desk with pending := none, owning := some (key,version)} (house.hold key version (some task))
  | yields {desk house key version} (owns : desk.owning = some (key,version)) (unborn : desk.born = none) :
      Step home task desk house {desk with owning := none} (house.hold key version none)
  | retains {desk house key version} (owns : desk.owning = some (key,version)) (born : desk.born = some key) :
      Step home task desk house {desk with owning := none} (house.grant (home task) key (some version))
  | abandons {desk house key version} (owns : desk.owning = some (key,version)) (born : desk.born = some key) :
      Step home task desk house {desk with owning := none}
        {house.hold key version none with abandoned := fun other => other = key ∨ house.abandoned other}
  | releases {desk house key version} (leased : house.lease (home task) key = some version) (ended : ¬ house.running key) :
      Step home task desk house desk ((house.hold key version none).grant (home task) key none)
  | unlinks {desk house key} (deleted : house.gone key) : Step home task desk house desk
      {house with version := update house.version key (house.version key+1)}
  | opensOffice {desk house} : Step home task desk house {desk with pending := some (.office house.officeVersion)} house
  | takesOffice {desk house version} (opened : desk.pending = some (.office version)) (free : desk.office = none)
      (unborn : desk.born = none) (unheld : house.officeHolder version = none) :
      Step home task desk house {desk with pending := none, office := some version}
        {house with officeHolder := update house.officeHolder version (some task)}
  | leavesOffice {desk house version} (holds : desk.office = some version) (free : desk.owning = none) :
      Step home task desk house {desk with office := none}
        {house with officeHolder := update house.officeHolder version none}
  | dies {desk house} : Step home task desk house desk
      { house with
        alive := fun process => house.alive process ∧ process ≠ home task
        holder := fun key version => (house.holder key version).filter fun other => home other ≠ home task
        officeHolder := fun version => (house.officeHolder version).filter fun other => home other ≠ home task }

end Steps

/-- What holds along every run. -/
structure Sound (home : ι → π) (desks : ι → Desk κ) (house : House ι κ π) : Prop where
  held : ∀ task key version, house.alive (home task) → (desks task).owning = some (key,version) → house.holder key version = some task
  unleased : ∀ task key version process, house.alive (home task) → (desks task).owning = some (key,version) →
    house.alive process → house.lease process key ≠ some version
  leased : ∀ process key version, house.alive process → house.lease process key = some version →
    house.creator key = some process ∧ ∃ task, home task = process ∧ house.holder key version = some task
  justified : ∀ key version task, house.holder key version = some task → house.alive (home task) ∧
    ((desks task).owning = some (key,version) ∨ house.creator key = some (home task))
  current : ∀ task key version, (desks task).pending = some (.room key version) ∨ (desks task).owning = some (key,version) →
    version = house.version key ∨ house.gone key
  leaseCurrent : ∀ process key version, house.lease process key = some version → version = house.version key ∨ house.gone key
  owned : ∀ key process, house.running key → house.creator key = some process → house.alive process → ¬ house.abandoned key →
    (∃ version, house.lease process key = some version) ∨
      ∃ task version, home task = process ∧ (desks task).owning = some (key,version) ∧ (desks task).born = some key
  born : ∀ task key, (desks task).born = some key → house.creator key = some (home task)
  purpose : ∀ task key version, (desks task).owning = some (key,version) →
    (desks task).born = some key ∨ (desks task).office ≠ none
  barren : ∀ task, (desks task).office ≠ none → (desks task).born = none
  office : ∀ task version, house.alive (home task) → (desks task).office = some version → house.officeHolder version = some task
  officeCurrent : ∀ task version, (desks task).office = some version ∨ (desks task).pending = some (.office version) →
    version = house.officeVersion
  present : ∀ key, house.running key → ¬ house.gone key

section Facts
variable {home : ι → π} {desks : ι → Desk κ} {house : House ι κ π} {task : ι} {key : κ}

section
variable (sound : Sound home desks house)
include sound

/-- Only one live task owns a lock file. -/
theorem Sound.exclusive {other : ι} {version : Nat} (live : house.alive (home task))
    (owns : (desks task).owning = some (key,version)) (alive : house.alive (home other))
    (same : (desks other).owning = some (key,version)) : other = task := by
  have holds := sound.held other key version alive same
  rw [sound.held task key version live owns] at holds
  exact (Option.some.inj holds).symm

/-- Who owns a key that runs without having created it may take its creator for dead. -/
theorem Sound.orphaned {version : Nat} {process : π} (live : house.alive (home task))
    (owns : (desks task).owning = some (key,version)) (unborn : (desks task).born = none) (running : house.running key)
    (created : house.creator key = some process) : ¬ house.alive process ∨ house.abandoned key := by
  by_contra neither
  rw [not_or,not_not] at neither
  have here : version = house.version key := (sound.current task key version (.inr owns)).resolve_right (sound.present key running)
  rcases sound.owned key process running created neither.1 neither.2 with ⟨leased,isLease⟩ | ⟨owner,own,isHome,isOwned,born⟩
  · have there : leased = house.version key := (sound.leaseCurrent process key leased isLease).resolve_right (sound.present key running)
    rw [there,← here] at isLease
    exact sound.unleased task key version process live owns neither.1 isLease
  have there : own = house.version key := (sound.current owner key own (.inr isOwned)).resolve_right (sound.present key running)
  rw [there,← here] at isOwned
  have alive : house.alive (home owner) := isHome ▸ neither.1
  have same := sound.exclusive live owns alive isOwned
  subst same
  rw [born] at unborn
  cases unborn

theorem Sound.single {other : ι} (live : house.alive (home task)) (alive : house.alive (home other))
    (here : (desks task).office ≠ none) (there : (desks other).office ≠ none) : other = task := by
  obtain ⟨version,isHere⟩ := Option.ne_none_iff_exists'.mp here
  obtain ⟨another,isThere⟩ := Option.ne_none_iff_exists'.mp there
  have first := sound.office task version live isHere
  have second := sound.office other another alive isThere
  rw [sound.officeCurrent task version (.inl isHere)] at first
  rw [sound.officeCurrent other another (.inl isThere),first] at second
  exact (Option.some.inj second).symm

theorem Sound.tenant {version : Nat} (live : house.alive (home task)) (office : (desks task).office ≠ none)
    (free : (desks task).owning = none) (held : house.holder key version ≠ none) :
    ∃ process, house.creator key = some process ∧ house.alive process := by
  obtain ⟨holder,isHolder⟩ := Option.ne_none_iff_exists'.mp held
  obtain ⟨alive,owns | created⟩ := sound.justified key version holder isHolder
  · rcases sound.purpose holder key version owns with born | chief
    · exact ⟨home holder,sound.born holder key born,alive⟩
    have same := sound.single live alive office chief
    subst same
    rw [free] at owns
    cases owns
  · exact ⟨home holder,created,alive⟩

theorem Sound.renew {running gone : κ → Prop}
    (runs : ∀ key, running key → house.running key ∨ ∃ task version, (desks task).born = some key ∧ (desks task).owning = some (key,version))
    (stays : ∀ key, house.gone key → gone key) (present : ∀ key, running key → ¬ gone key) :
    Sound home desks {house with running := running, gone := gone} :=
  { sound with
    current := fun task key version stands => (sound.current task key version stands).imp_right (stays key)
    leaseCurrent := fun process key version leased => (sound.leaseCurrent process key version leased).imp_right (stays key)
    owned := by
      intro key process runsNow created alive kept
      rcases runs key runsNow with before | ⟨task,version,born,owns⟩
      · exact sound.owned key process before created alive kept
      refine .inr ⟨task,version,?_,owns,born⟩
      have creator : house.creator key = some process := created
      rw [sound.born task key born] at creator
      exact Option.some.inj creator
    present := present }

end

end Facts

/-! ### Steps -/

section Kept
variable {home : ι → π} {desks : ι → Desk κ} {house : House ι κ π} {task : ι} {key : κ} {version : Nat}

theorem cell_cases {α β γ : Type} [DecidableEq α] [DecidableEq β] {table : α → β → Option γ} {first place : α} {second another : β}
    {entry : Option γ} {value : γ} (found : update table first (update (table first) second entry) place another = some value) :
    (place = first ∧ another = second) ∧ entry = some value ∨
      ¬ (place = first ∧ another = second) ∧ table place another = some value := by
  by_cases here : place = first ∧ another = second
  · obtain ⟨rfl,rfl⟩ := here
    exact .inl ⟨⟨rfl,rfl⟩,(cell_self _ _).symm.trans found⟩
  · exact .inr ⟨here,(cell_other _ _ here).symm.trans found⟩

/-- What holds of each desk. -/
structure Seated (home : ι → π) (house : House ι κ π) (task : ι) (desk : Desk κ) : Prop where
  held : ∀ key version, house.alive (home task) → desk.owning = some (key,version) → house.holder key version = some task
  unleased : ∀ key version process, house.alive (home task) → desk.owning = some (key,version) →
    house.alive process → house.lease process key ≠ some version
  current : ∀ key version, desk.pending = some (.room key version) ∨ desk.owning = some (key,version) →
    version = house.version key ∨ house.gone key
  born : ∀ key, desk.born = some key → house.creator key = some (home task)
  purpose : ∀ key version, desk.owning = some (key,version) → desk.born = some key ∨ desk.office ≠ none
  barren : desk.office ≠ none → desk.born = none
  office : ∀ version, house.alive (home task) → desk.office = some version → house.officeHolder version = some task
  officeCurrent : ∀ version, desk.office = some version ∨ desk.pending = some (.office version) → version = house.officeVersion

section Alone
variable (sound : Sound home desks house)
include sound

theorem Sound.seated (task : ι) : Seated home house task (desks task) :=
  ⟨sound.held task,sound.unleased task,sound.current task,sound.born task,sound.purpose task,sound.barren task,sound.office task,
    sound.officeCurrent task⟩

section
variable [DecidableEq π]

theorem Sound.die (process : π) :
    Sound home desks
      { house with
        alive := fun other => house.alive other ∧ other ≠ process
        holder := fun key version => (house.holder key version).filter fun other => home other ≠ process
        officeHolder := fun version => (house.officeHolder version).filter fun other => home other ≠ process } := by
  refine
    { sound with
      held := ?_
      unleased := fun task key version other live owns alive => sound.unleased task key version other live.1 owns alive.1
      leased := ?_, justified := ?_
      owned := fun key other running created alive kept => sound.owned key other running created alive.1 kept
      office := ?_ }
  · intro task key version live owns
    change Option.filter _ (house.holder key version) = _
    rw [sound.held task key version live.1 owns]
    simp [live.2]
  · intro other key version alive leased
    obtain ⟨created,task,isHome,holds⟩ := sound.leased other key version alive.1 leased
    refine ⟨created,task,isHome,?_⟩
    have apart : home task ≠ process := isHome ▸ alive.2
    change Option.filter _ (house.holder key version) = _
    rw [holds]
    simp [apart]
  · intro key version task holds
    obtain ⟨before,apart⟩ := Option.filter_eq_some_iff.mp holds
    obtain ⟨alive,justified⟩ := sound.justified key version task before
    exact ⟨⟨alive,of_decide_eq_true apart⟩,justified⟩
  · intro task version live isChief
    change Option.filter _ (house.officeHolder version) = _
    rw [sound.office task version live.1 isChief]
    simp [live.2]

end

variable [DecidableEq κ]

theorem Sound.unlink (deleted : house.gone key) :
    Sound home desks {house with version := update house.version key (house.version key+1)} := by
  have current {place : κ} {another : Nat} (before : another = house.version place ∨ house.gone place) :
      another = update house.version key (house.version key+1) place ∨ house.gone place := by
    by_cases same : place = key
    · rw [same]
      exact .inr deleted
    · rw [update_of_ne same]
      exact before
  exact
    { sound with
      current := fun other place another stands => current (sound.current other place another stands)
      leaseCurrent := fun process place another leased => current (sound.leaseCurrent process place another leased) }

variable [DecidableEq π]

theorem Sound.release (live : house.alive (home task)) (leased : house.lease (home task) key = some version)
    (ended : ¬ house.running key) : Sound home desks ((house.hold key version none).grant (home task) key none) := by
  obtain ⟨_,tenant,isTenant,tenantHolds⟩ := sound.leased (home task) key version live leased
  have leases {process : π} {place : κ} {another : Nat}
      (still : ((house.hold key version none).grant (home task) key none).lease process place = some another) :
      ¬ (process = home task ∧ place = key) ∧ house.lease process place = some another := by
    rcases cell_cases still with ⟨_,never⟩ | kept
    · cases never
    · exact kept
  refine { sound with held := ?_, unleased := ?_, leased := ?_, justified := ?_, leaseCurrent := ?_, owned := ?_ }
  · intro other place another alive owns
    have elsewhere : ¬ (place = key ∧ another = version) := by
      intro ⟨samePlace,sameVersion⟩
      subst samePlace sameVersion
      exact sound.unleased other place another (home task) alive owns live leased
    exact (cell_other _ _ elsewhere).trans (sound.held other place another alive owns)
  · intro other place another process alive owns living still
    exact sound.unleased other place another process alive owns living (leases still).2
  · intro process place another alive still
    obtain ⟨elsewhere,before⟩ := leases still
    obtain ⟨created,other,isHome,holds⟩ := sound.leased process place another alive before
    have apart : ¬ (place = key ∧ another = version) := by
      intro ⟨samePlace,sameVersion⟩
      subst samePlace sameVersion
      cases holds.symm.trans tenantHolds
      exact elsewhere ⟨isHome.symm.trans isTenant,rfl⟩
    exact ⟨created,other,isHome,(cell_other _ _ apart).trans holds⟩
  · intro place another other holds
    rcases cell_cases holds with ⟨_,never⟩ | ⟨_,holds⟩
    · cases never
    · exact sound.justified place another other holds
  · intro process place another still
    exact sound.leaseCurrent process place another (leases still).2
  · intro place process running created alive kept
    refine (sound.owned place process running created alive kept).imp_left ?_
    intro ⟨another,before⟩
    have elsewhere : ¬ (process = home task ∧ place = key) := by
      intro ⟨_,samePlace⟩
      subst samePlace
      exact ended running
    exact ⟨another,(cell_other _ _ elsewhere).trans before⟩

end Alone

section Desks
variable [DecidableEq ι] {desk : Desk κ}

theorem Sound.redesk {after : House ι κ π} (seat : Seated home after task desk)
    (others : ∀ other, other ≠ task → Seated home after other (desks other))
    (leased : ∀ process key version, after.alive process → after.lease process key = some version →
      after.creator key = some process ∧ ∃ task, home task = process ∧ after.holder key version = some task)
    (justified : ∀ key version other, after.holder key version = some other → after.alive (home other) ∧
      ((update desks task desk other).owning = some (key,version) ∨ after.creator key = some (home other)))
    (leaseCurrent : ∀ process key version, after.lease process key = some version → version = after.version key ∨ after.gone key)
    (owned : ∀ key process, after.running key → after.creator key = some process → after.alive process → ¬ after.abandoned key →
      (∃ version, after.lease process key = some version) ∨ ∃ other version, home other = process ∧
        (update desks task desk other).owning = some (key,version) ∧ (update desks task desk other).born = some key)
    (present : ∀ key, after.running key → ¬ after.gone key) : Sound home (update desks task desk) after := by
  have seats (other : ι) : Seated home after other (update desks task desk other) := by
    by_cases same : other = task
    · subst same
      rw [update_self]
      exact seat
    · rw [update_of_ne same]
      exact others other same
  exact
    { held := fun other => (seats other).held
      unleased := fun other => (seats other).unleased
      leased := leased
      justified := justified
      current := fun other => (seats other).current
      leaseCurrent := leaseCurrent
      owned := owned
      born := fun other => (seats other).born
      purpose := fun other => (seats other).purpose
      barren := fun other => (seats other).barren
      office := fun other => (seats other).office
      officeCurrent := fun other => (seats other).officeCurrent
      present := present }

theorem owning_self : (update desks task desk task).owning = desk.owning := by
  rw [update_self]

theorem owning_other {other : ι} (different : other ≠ task) : (update desks task desk other).owning = (desks other).owning := by
  rw [update_of_ne different]

variable (sound : Sound home desks house)
include sound

theorem Sound.reseat {creator : κ → Option π} {officeHolder : Nat → Option ι}
    (created : ∀ key process, house.creator key = some process → creator key = some process)
    (known : ∀ key, house.running key → creator key = house.creator key)
    (seat : Seated home {house with creator := creator, officeHolder := officeHolder} task desk)
    (owning : desk.owning = (desks task).owning) (kept : ∀ key, (desks task).born = some key → desk.born = some key)
    (chiefs : ∀ other version, other ≠ task → house.alive (home other) → (desks other).office = some version →
      officeHolder version = some other) :
    Sound home (update desks task desk) {house with creator := creator, officeHolder := officeHolder} := by
  have owns (other : ι) : (update desks task desk other).owning = (desks other).owning := by
    by_cases same : other = task
    · rw [same,owning_self,owning]
    · exact owning_other same
  apply Sound.redesk seat
  · intro other different
    have before := sound.seated other
    exact
      { before with
        born := fun key isBorn => created key _ (before.born key isBorn)
        office := fun version => chiefs other version different }
  · intro process key version alive leased
    obtain ⟨before,holding⟩ := sound.leased process key version alive leased
    exact ⟨created key process before,holding⟩
  · intro key version other holds
    rw [owns]
    exact (sound.justified key version other holds).imp_right (Or.imp_right (created key _))
  · exact sound.leaseCurrent
  · intro key process running creator alive stays
    refine (sound.owned key process running ((known key running).symm.trans creator) alive stays).imp_right ?_
    intro ⟨other,version,isHome,isOwned,born⟩
    refine ⟨other,version,isHome,(owns other).trans isOwned,?_⟩
    by_cases same : other = task
    · subst same
      rw [update_self]
      exact kept key born
    · rw [update_of_ne same]
      exact born
  · exact sound.present

theorem Sound.repend (pending : Option (Opened κ))
    (room : ∀ key version, pending = some (.room key version) → version = house.version key ∨ house.gone key)
    (office : ∀ version, pending = some (.office version) → version = house.officeVersion) :
    Sound home (update desks task {desks task with pending := pending}) house := by
  have seat := sound.seated task
  refine sound.reseat (fun _ _ before => before) (fun _ _ => rfl) { seat with current := ?_, officeCurrent := ?_ } rfl
    (fun _ before => before) fun other version _ => sound.office other version
  · intro key version stands
    rcases stands with opened | owns
    · exact room key version opened
    · exact seat.current key version (.inr owns)
  · intro version stands
    rcases stands with isChief | opened
    · exact seat.officeCurrent version (.inl isChief)
    · exact office version opened

theorem Sound.reown {abandoned : κ → Prop} {holder : κ → Nat → Option ι} {lease : π → κ → Option Nat}
    (seat : Seated home {house with holder := holder, lease := lease, abandoned := abandoned} task desk)
    (born : desk.born = (desks task).born)
    (held : ∀ other key version, other ≠ task → house.alive (home other) → (desks other).owning = some (key,version) →
      holder key version = some other)
    (unleased : ∀ other key version process, other ≠ task → house.alive (home other) → (desks other).owning = some (key,version) →
      house.alive process → lease process key ≠ some version)
    (leased : ∀ process key version, house.alive process → lease process key = some version →
      house.creator key = some process ∧ ∃ task, home task = process ∧ holder key version = some task)
    (justified : ∀ key version other, holder key version = some other → house.alive (home other) ∧
      ((update desks task desk other).owning = some (key,version) ∨ house.creator key = some (home other)))
    (leaseCurrent : ∀ process key version, lease process key = some version → version = house.version key ∨ house.gone key)
    (owned : ∀ key process, house.running key → house.creator key = some process → house.alive process → ¬ abandoned key →
      (∃ version, lease process key = some version) ∨ ∃ other version, home other = process ∧
        (update desks task desk other).owning = some (key,version) ∧ (desks other).born = some key) :
    Sound home (update desks task desk) {house with holder := holder, lease := lease, abandoned := abandoned} := by
  apply Sound.redesk seat
  · intro other different
    exact
      { sound.seated other with
        held := fun key version => held other key version different
        unleased := fun key version process => unleased other key version process different }
  · exact leased
  · exact justified
  · exact leaseCurrent
  · intro key process running created alive kept
    refine (owned key process running created alive kept).imp_right ?_
    intro ⟨other,version,isHome,isOwned,isBorn⟩
    refine ⟨other,version,isHome,isOwned,?_⟩
    by_cases same : other = task
    · rw [same] at isBorn ⊢
      rw [update_self,born]
      exact isBorn
    · rw [update_of_ne same]
      exact isBorn
  · exact sound.present

variable [DecidableEq κ]

theorem Sound.take (live : house.alive (home task))
    (opened : (desks task).pending = some (.room key version)) (free : (desks task).owning = none)
    (may : (desks task).born = some key ∨ (desks task).office ≠ none) (unheld : house.holder key version = none) :
    Sound home (update desks task {desks task with owning := some (key,version), pending := none})
      (house.hold key version (some task)) := by
  have elsewhere {place : κ} {another : Nat} {other : ι} (holds : house.holder place another = some other) :
      ¬ (place = key ∧ another = version) := by
    intro ⟨samePlace,sameVersion⟩
    subst samePlace sameVersion
    rw [unheld] at holds
    cases holds
  have apart {other : ι} {place : κ} {another : Nat} (owns : (desks other).owning = some (place,another)) : other ≠ task := by
    intro same
    rw [same,free] at owns
    cases owns
  have seat := sound.seated task
  refine sound.reown
    { seat with held := ?_, unleased := ?_, current := ?_, purpose := ?_, officeCurrent := ?_ } rfl ?_ ?_ ?_ ?_ sound.leaseCurrent ?_
  · intro place another _ owns
    cases owns
    exact cell_self _ _
  · intro place another process _ owns alive leased
    cases owns
    obtain ⟨_,other,_,holds⟩ := sound.leased process key version alive leased
    exact elsewhere holds ⟨rfl,rfl⟩
  · intro place another stands
    rcases stands with never | owns
    · cases never
    · cases owns
      exact seat.current key version (.inl opened)
  · intro place another owns
    cases owns
    exact may
  · intro another stands
    rcases stands with isChief | never
    · exact seat.officeCurrent another (.inl isChief)
    · cases never
  · intro other place another _ alive owns
    have holds := sound.held other place another alive owns
    exact (cell_other _ _ (elsewhere holds)).trans holds
  · intro other place another process _
    exact sound.unleased other place another process
  · intro process place another alive leased
    obtain ⟨created,other,isHome,holds⟩ := sound.leased process place another alive leased
    exact ⟨created,other,isHome,(cell_other _ _ (elsewhere holds)).trans holds⟩
  · intro place another other holds
    rcases cell_cases holds with ⟨⟨samePlace,sameVersion⟩,isTask⟩ | ⟨_,holds⟩
    · subst samePlace sameVersion
      cases isTask
      exact ⟨live,.inl owning_self⟩
    · obtain ⟨alive,owns⟩ := sound.justified place another other holds
      exact ⟨alive,owns.imp_left fun owns => (owning_other (apart owns)).trans owns⟩
  · intro place process running created alive kept
    refine (sound.owned place process running created alive kept).imp_right ?_
    intro ⟨other,another,isHome,owns,born⟩
    exact ⟨other,another,isHome,(owning_other (apart owns)).trans owns,born⟩

theorem Sound.giveBack {abandoned : κ → Prop} (live : house.alive (home task))
    (owns : (desks task).owning = some (key,version)) (more : ∀ place, house.abandoned place → abandoned place)
    (settled : (desks task).born ≠ some key ∨ abandoned key) :
    Sound home (update desks task {desks task with owning := none})
      {house with holder := (house.hold key version none).holder, lease := house.lease, abandoned := abandoned} := by
  have seat := sound.seated task
  refine sound.reown { seat with held := nofun, unleased := nofun, current := ?_, purpose := nofun } rfl ?_ ?_ ?_ ?_ sound.leaseCurrent ?_
  · intro place another stands
    exact seat.current place another (stands.imp_right nofun)
  · intro other place another different alive isOwned
    have elsewhere : ¬ (place = key ∧ another = version) := by
      intro ⟨samePlace,sameVersion⟩
      subst samePlace sameVersion
      exact different (sound.exclusive live owns alive isOwned)
    exact (cell_other _ _ elsewhere).trans (sound.held other place another alive isOwned)
  · intro other place another process _
    exact sound.unleased other place another process
  · intro process place another alive leased
    obtain ⟨created,other,isHome,holds⟩ := sound.leased process place another alive leased
    have elsewhere : ¬ (place = key ∧ another = version) := by
      intro ⟨samePlace,sameVersion⟩
      subst samePlace sameVersion
      exact sound.unleased task place another process live owns alive leased
    exact ⟨created,other,isHome,(cell_other _ _ elsewhere).trans holds⟩
  · intro place another other holds
    rcases cell_cases holds with ⟨_,never⟩ | ⟨here,holds⟩
    · cases never
    obtain ⟨alive,isOwned⟩ := sound.justified place another other holds
    refine ⟨alive,isOwned.imp_left ?_⟩
    intro isOwned
    have different : other ≠ task := by
      intro same
      rw [same,owns] at isOwned
      cases isOwned
      exact here ⟨rfl,rfl⟩
    exact (owning_other different).trans isOwned
  · intro place process running created alive kept
    refine (sound.owned place process running created alive fun before => kept (more place before)).imp_right ?_
    intro ⟨other,another,isHome,isOwned,born⟩
    have different : other ≠ task := by
      intro same
      rw [same] at born isOwned
      rw [owns] at isOwned
      cases isOwned
      exact settled.elim (fun unborn => unborn born) kept
    exact ⟨other,another,isHome,(owning_other different).trans isOwned,born⟩

theorem Sound.draw (unknown : house.creator key = none) (unused : ¬ house.running key)
    (unborn : (desks task).born = none) (free : (desks task).owning = none) (plain : (desks task).office = none) :
    Sound home (update desks task {desks task with born := some key})
      {house with creator := update house.creator key (some (home task))} := by
  have seat := sound.seated task
  refine sound.reseat ?_ ?_ { seat with born := ?_, purpose := ?_, barren := fun chief => absurd plain chief } rfl ?_ ?_
  · intro place process before
    have different : place ≠ key := by
      intro same
      rw [same,unknown] at before
      cases before
    rw [update_of_ne different]
    exact before
  · intro place running
    apply update_of_ne
    intro same
    exact unused (same ▸ running)
  · intro place born
    cases born
    exact update_self _ _ _
  · intro place another owns
    cases free.symm.trans owns
  · intro place born
    cases unborn.symm.trans born
  · intro other version _
    exact sound.office other version

variable [DecidableEq π]

theorem Sound.retain (live : house.alive (home task))
    (owns : (desks task).owning = some (key,version)) (born : (desks task).born = some key) :
    Sound home (update desks task {desks task with owning := none}) (house.grant (home task) key (some version)) := by
  have seat := sound.seated task
  refine sound.reown { seat with held := nofun, unleased := nofun, current := ?_, purpose := nofun } rfl ?_ ?_ ?_ ?_ ?_ ?_
  · intro place another stands
    exact seat.current place another (stands.imp_right nofun)
  · intro other place another _
    exact sound.held other place another
  · intro other place another process different alive isOwned living leased
    rcases cell_cases leased with ⟨⟨_,samePlace⟩,sameVersion⟩ | ⟨_,before⟩
    · subst samePlace
      cases sameVersion
      exact different (sound.exclusive live owns alive isOwned)
    · exact sound.unleased other place another process alive isOwned living before
  · intro process place another alive leased
    rcases cell_cases leased with ⟨⟨sameProcess,samePlace⟩,sameVersion⟩ | ⟨_,before⟩
    · subst sameProcess samePlace
      cases sameVersion
      exact ⟨sound.born task place born,task,rfl,sound.held task place version live owns⟩
    · exact sound.leased process place another alive before
  · intro place another other holds
    obtain ⟨alive,isOwned⟩ := sound.justified place another other holds
    refine ⟨alive,?_⟩
    by_cases same : other = task
    · subst same
      right
      rcases isOwned with again | created
      · rw [owns] at again
        cases again
        exact sound.born other key born
      · exact created
    · rw [owning_other same]
      exact isOwned
  · intro process place another leased
    rcases cell_cases leased with ⟨⟨_,samePlace⟩,sameVersion⟩ | ⟨_,before⟩
    · subst samePlace
      cases sameVersion
      exact sound.current task place version (.inr owns)
    · exact sound.leaseCurrent process place another before
  · intro place process running created alive kept
    rcases sound.owned place process running created alive kept with ⟨another,leased⟩ | ⟨other,another,isHome,isOwned,isBorn⟩
    · left
      by_cases here : process = home task ∧ place = key
      · obtain ⟨sameProcess,samePlace⟩ := here
        subst sameProcess samePlace
        exact ⟨version,cell_self _ _⟩
      · exact ⟨another,(cell_other _ _ here).trans leased⟩
    by_cases same : other = task
    · subst same
      rw [owns] at isOwned
      cases isOwned
      left
      subst isHome
      exact ⟨version,cell_self _ _⟩
    · exact .inr ⟨other,another,isHome,(owning_other same).trans isOwned,isBorn⟩

/-- Every step of a live task keeps what holds. -/
theorem Sound.step (live : house.alive (home task)) {desk : Desk κ} {after : House ι κ π}
    (step : Step home task (desks task) house desk after) : Sound home (update desks task desk) after := by
  generalize isDesk : desks task = start at step
  cases step with
  | idle =>
    subst isDesk
    rw [update_eq_self]
    exact sound
  | draws key unknown unused unborn free plain =>
    subst isDesk
    exact sound.draw unknown unused unborn free plain
  | opens key =>
    subst isDesk
    refine sound.repend _ ?_ ?_
    · intro place version opened
      cases opened
      exact .inl rfl
    · intro version opened
      cases opened
  | closes =>
    subst isDesk
    exact sound.repend none nofun nofun
  | takes opened free may unheld =>
    subst isDesk
    exact sound.take live opened free may unheld
  | yields owns unborn =>
    subst isDesk
    refine sound.giveBack live owns (fun _ before => before) (.inl ?_)
    rw [unborn]
    exact nofun
  | retains owns born =>
    subst isDesk
    exact sound.retain live owns born
  | abandons owns born =>
    subst isDesk
    exact sound.giveBack live owns (fun _ before => .inr before) (.inr (.inl rfl))
  | releases leased ended =>
    subst isDesk
    rw [update_eq_self]
    exact sound.release live leased ended
  | unlinks deleted =>
    subst isDesk
    rw [update_eq_self]
    exact sound.unlink deleted
  | opensOffice =>
    subst isDesk
    refine sound.repend _ ?_ ?_
    · intro place version opened
      cases opened
    · intro version opened
      cases opened
      rfl
  | takesOffice opened free unborn unheld =>
    rename_i version
    subst isDesk
    have seat := sound.seated task
    refine sound.reseat (fun _ _ before => before) (fun _ _ => rfl)
      { seat with current := ?_, purpose := fun _ _ _ => .inr nofun, barren := fun _ => unborn, office := ?_, officeCurrent := ?_ }
      rfl (fun _ before => before) ?_
    · intro key another stands
      exact seat.current key another (stands.imp_left nofun)
    · intro another _ isChief
      cases isChief
      exact update_self _ _ _
    · intro another stands
      rcases stands with isChief | never
      · cases isChief
        exact seat.officeCurrent version (.inr opened)
      · cases never
    · intro other another _ alive isChief
      have holds := sound.office other another alive isChief
      have apart : another ≠ version := by
        intro sameVersion
        rw [sameVersion,unheld] at holds
        cases holds
      exact (update_of_ne apart _ _).trans holds
  | leavesOffice holds free =>
    rename_i version
    subst isDesk
    have seat := sound.seated task
    refine sound.reseat (fun _ _ before => before) (fun _ _ => rfl)
      { seat with purpose := ?_, barren := fun never => absurd rfl never, office := nofun, officeCurrent := ?_ }
      rfl (fun _ before => before) ?_
    · intro place another owns
      cases free.symm.trans owns
    · intro another stands
      exact seat.officeCurrent another (stands.imp_left nofun)
    intro other another different alive isChief
    have isHeld := sound.office other another alive isChief
    have apart : another ≠ version := by
      intro sameVersion
      rw [sameVersion,sound.office task version live holds] at isHeld
      exact different (Option.some.inj isHeld).symm
    exact (update_of_ne apart _ _).trans isHeld
  | dies =>
    subst isDesk
    rw [update_eq_self]
    exact sound.die (home task)

end Desks
end Kept
end BazelMcp.Tenancy
