import BazelMcp.Types

/-! Measuring what a reducer returns, before its size is compared with the limit. -/
namespace BazelMcp.Measuring

mutual
/-- A Starlark value. What is shared occurs several times, with one identity. What contains itself
is unfolded until it occurs below itself, with anything inside. -/
inductive Value where
  | none
  | bool (value : Bool)
  | str (text : List UInt8)
  | int (value : Int)
  | float (json : Option {text : List UInt8 // text ≠ []})
  | sequence (identity : Nat) (items : Items)
  | dict (identity : Nat) (entries : Entries)
  | other (identity : Nat)

inductive Items where
  | nil
  | cons (value : Value) (rest : Items)

inductive Entries where
  | nil
  | cons (key : Option (List UInt8)) (value : Value) (rest : Entries)
end

inductive MeasureError where
  | cyclic | float | key | unsupported

def saturatingAdd (first second : Nat) : Nat := min (first+second) usizeMax

def serializedJsonStringLen (text : List UInt8) : Nat :=
  text.foldl (fun bytes byte =>
    saturatingAdd bytes (if byte ∈ [34,92,8,9,10,12,13] then 2 else if byte ≤ 31 then 6 else 1)) 2

def unsignedDecimalLen (value : Nat) : Nat := if value < 10 then 1 else unsignedDecimalLen (value/10)+1

def signedDecimalLen (value : Int) : Nat := (if value < 0 then 1 else 0) + unsignedDecimalLen value.natAbs

/-- The values that were visited, and the measured length. -/
abbrev Measured := Nat × Except MeasureError Nat

/-- The length of one member is added, and the loop goes on behind it. -/
def adding (bytes : Nat) (member : Measured) (rest : Nat → Measured) : Measured :=
  match member with
  | (visits,.error error) => (visits,.error error)
  | (visits,.ok length) => (visits+(rest (saturatingAdd bytes length)).1,(rest (saturatingAdd bytes length)).2)

mutual
def serializedJsonLenInner (ancestors : List Nat) : Value → Measured
  | .none => (1,.ok 4)
  | .bool value => (1,.ok (if value then 4 else 5))
  | .str text => (1,.ok (serializedJsonStringLen text))
  -- Beyond 64 bits the decimal text is measured, which has this length too.
  | .int value => (1,.ok (signedDecimalLen value))
  | .float .none => (1,.error .float)
  | .float (some json) => (1,.ok json.val.length)
  | .sequence identity items =>
    if identity ∈ ancestors then (1,.error .cyclic)
    else
      let inner := serializedJsonSequenceLen (identity::ancestors) 2 false items
      (inner.1+1,inner.2)
  | .dict identity entries =>
    if identity ∈ ancestors then (1,.error .cyclic)
    else
      let inner := serializedJsonDictLen (identity::ancestors) 2 false entries
      (inner.1+1,inner.2)
  | .other identity => (1,.error (if identity ∈ ancestors then .cyclic else .unsupported))

def serializedJsonSequenceLen (ancestors : List Nat) (bytes : Nat) (behind : Bool) : Items → Measured
  | .nil => (0,.ok bytes)
  | .cons value rest =>
    adding (if behind then saturatingAdd bytes 1 else bytes) (serializedJsonLenInner ancestors value) fun bytes =>
      serializedJsonSequenceLen ancestors bytes true rest

def serializedJsonDictLen (ancestors : List Nat) (bytes : Nat) (behind : Bool) : Entries → Measured
  | .nil => (0,.ok bytes)
  | .cons .none _ _ => (0,.error .key)
  | .cons (some key) value rest =>
    let bytes := if behind then saturatingAdd bytes 1 else bytes
    adding (saturatingAdd (saturatingAdd bytes (serializedJsonStringLen key)) 1) (serializedJsonLenInner ancestors value) fun bytes =>
      serializedJsonDictLen ancestors bytes true rest
end

def serializedJsonLen (value : Value) : Measured := serializedJsonLenInner [] value

theorem stringLen_pos (text : List UInt8) : 1 ≤ serializedJsonStringLen text := by
  unfold serializedJsonStringLen
  refine List.foldlRecOn text _ (by decide) fun bytes positive byte _ => ?_
  simp only [saturatingAdd,usizeMax]
  omega

theorem signedDecimalLen_pos (value : Int) : 1 ≤ signedDecimalLen value := by
  unfold signedDecimalLen unsignedDecimalLen
  split <;> split <;> omega

/-- A visited value adds at least one byte, as long as the length does not saturate. -/
def Measured.Pays (start : Nat) (measured : Measured) : Prop :=
  ∀ bytes, measured.2 = .ok bytes → bytes < usizeMax → start + measured.1 ≤ bytes

theorem adding_pays {start bytes : Nat} {member : Measured} {rest : Nat → Measured} (least : start ≤ bytes ∨ usizeMax ≤ bytes)
    (first : member.Pays 0) (later : ∀ bytes, (rest bytes).Pays bytes) : (adding bytes member rest).Pays start := by
  rcases member with ⟨visits,error | length⟩
  · nofun
  · intro total ok small
    have := later _ total ok small
    have := first length rfl
    simp only [adding,saturatingAdd] at *
    omega

mutual
theorem value_pays (ancestors : List Nat) : ∀ value, (serializedJsonLenInner ancestors value).Pays 0
  | .none | .bool true | .bool false => by simp [Measured.Pays,serializedJsonLenInner]
  | .str text => by simpa [Measured.Pays,serializedJsonLenInner] using fun _ => stringLen_pos text
  | .int value => by simpa [Measured.Pays,serializedJsonLenInner] using fun _ => signedDecimalLen_pos value
  | .float .none | .other identity => by simp [Measured.Pays,serializedJsonLenInner]
  | .float (some json) => by simpa [Measured.Pays,serializedJsonLenInner] using fun _ => Nat.succ_le_of_lt (List.length_pos_iff.mpr json.property)
  | .sequence identity items => by
    unfold serializedJsonLenInner
    split
    · nofun
    · intro bytes ok small
      have := items_pay (identity::ancestors) items 2 false bytes ok small
      dsimp only
      omega
  | .dict identity entries => by
    unfold serializedJsonLenInner
    split
    · nofun
    · intro bytes ok small
      have := entries_pay (identity::ancestors) entries 2 false bytes ok small
      dsimp only
      omega

theorem items_pay (ancestors : List Nat) : ∀ items start behind, (serializedJsonSequenceLen ancestors start behind items).Pays start
  | .nil,start,behind => by
    rintro bytes ⟨⟩ _
    exact Nat.le_refl _
  | .cons value rest,start,behind => by
    refine adding_pays ?_ (value_pays ancestors value) fun bytes => items_pay ancestors rest bytes true
    simp only [saturatingAdd]
    split <;> omega

theorem entries_pay (ancestors : List Nat) : ∀ entries start behind, (serializedJsonDictLen ancestors start behind entries).Pays start
  | .nil,start,behind => by
    rintro bytes ⟨⟩ _
    exact Nat.le_refl _
  | .cons .none value rest,start,behind => by nofun
  | .cons (some key) value rest,start,behind => by
    refine adding_pays ?_ (value_pays ancestors value) fun bytes => entries_pay ancestors rest bytes true
    simp only [saturatingAdd]
    split <;> omega
end

/-- A list of two references to the next, and so on. -/
def doubled : Nat → Value
  | 0 => .sequence 0 .nil
  | depth+1 => .sequence (depth+1) (.cons (doubled depth) (.cons (doubled depth) .nil))

def decimal (value : Nat) : List UInt8 := if value < 10 then [.ofNat (48+value)] else decimal (value/10) ++ [.ofNat (48+value%10)]

def hexDigit (value : UInt8) : UInt8 := if value < 10 then 48+value else 87+value

def escape (byte : UInt8) : List UInt8 :=
  if byte = 34 ∨ byte = 92 then [92,byte]
  else if byte = 8 then [92,98]
  else if byte = 9 then [92,116]
  else if byte = 10 then [92,110]
  else if byte = 12 then [92,102]
  else if byte = 13 then [92,114]
  else if byte ≤ 31 then [92,117,48,48,hexDigit (byte/16),hexDigit (byte%16)] else [byte]

def jsonString (text : List UInt8) : List UInt8 := 34::text.flatMap escape ++ [34]

def comma (behind : Bool) : List UInt8 := if behind then [44] else []

mutual
/-- The compact JSON text of a value. -/
def Value.json : Value → List UInt8
  | .none => [110,117,108,108]
  | .bool true => [116,114,117,101]
  | .bool false => [102,97,108,115,101]
  | .str text => jsonString text
  | .int value => (if value < 0 then [45] else []) ++ decimal value.natAbs
  | .float json => json.elim [] (·.val)
  | .sequence _ items => 91::items.json false ++ [93]
  | .dict _ entries => 123::entries.json false ++ [125]
  | .other _ => []

def Items.json (behind : Bool) : Items → List UInt8
  | .nil => []
  | .cons value rest => comma behind ++ value.json ++ rest.json true

def Entries.json (behind : Bool) : Entries → List UInt8
  | .nil => []
  | .cons key value rest => comma behind ++ jsonString (key.getD []) ++ [58] ++ value.json ++ rest.json true
end

mutual
/-- Built from `None`, booleans, 64-bit integers, strings, lists, tuples and dicts with string keys. -/
def Value.plain : Value → Bool
  | .none | .bool _ | .str _ => true
  | .int value => -0x8000000000000000 ≤ value && value < 0x8000000000000000
  | .float _ | .other _ => false
  | .sequence _ items => items.plain
  | .dict _ entries => entries.plain

def Items.plain : Items → Bool
  | .nil => true
  | .cons value rest => value.plain && rest.plain

def Entries.plain : Entries → Bool
  | .nil => true
  | .cons key value rest => key.isSome && value.plain && rest.plain
end

mutual
/-- No container contains itself or one of those it stands in. -/
def Value.acyclic (above : List Nat) : Value → Bool
  | .sequence identity items => !above.contains identity && items.acyclic (identity::above)
  | .dict identity entries => !above.contains identity && entries.acyclic (identity::above)
  | _ => true

def Items.acyclic (above : List Nat) : Items → Bool
  | .nil => true
  | .cons value rest => value.acyclic above && rest.acyclic above

def Entries.acyclic (above : List Nat) : Entries → Bool
  | .nil => true
  | .cons _ value rest => value.acyclic above && rest.acyclic above
end

theorem decimal_length (value : Nat) : (decimal value).length = unsignedDecimalLen value := by
  fun_induction unsignedDecimalLen value with
  | case1 value small =>
    rw [decimal,if_pos small]
    rfl
  | case2 value large ih =>
    rw [decimal,if_neg large,List.length_append,ih]
    rfl

theorem escape_length (byte : UInt8) :
    (escape byte).length = if byte ∈ [34,92,8,9,10,12,13] then 2 else if byte ≤ 31 then 6 else 1 := by
  unfold escape
  split_ifs <;> simp_all

theorem unsignedDecimalLen_le (value : Nat) : unsignedDecimalLen value ≤ value+1 := by
  fun_induction unsignedDecimalLen value with
  | case1 value small => omega
  | case2 value large ih => omega

theorem saturatingAdd_min (first second : Nat) : saturatingAdd (min first usizeMax) second = min (first+second) usizeMax := by
  unfold saturatingAdd
  omega

theorem min_add_min (first second : Nat) : min (first + min second usizeMax) usizeMax = min (first+second) usizeMax := by omega

theorem jsonString_length (text : List UInt8) : serializedJsonStringLen text = min (jsonString text).length usizeMax := by
  have sum (start : Nat) : text.foldl (fun bytes byte => saturatingAdd bytes
      (if byte ∈ [34,92,8,9,10,12,13] then 2 else if byte ≤ 31 then 6 else 1)) (min start usizeMax) =
      min (start+(text.flatMap escape).length) usizeMax := by
    induction text generalizing start with
    | nil => rfl
    | cons byte rest ih =>
      rw [List.foldl_cons,← escape_length,saturatingAdd_min,ih,List.flatMap_cons,List.length_append,Nat.add_assoc]
  simp only [jsonString,List.length_append,List.length_cons,List.length_nil]
  exact (sum 2).trans (by omega)

/-- The measured length saturates, and a cycle is the only error. -/
def Measured.Is (acyclic : Bool) (length : Nat) (measured : Measured) : Prop :=
  measured.2 = if acyclic then .ok (min length usizeMax) else .error .cyclic

theorem adding_is {first later : Bool} {start length more : Nat} {member : Measured} {rest : Nat → Measured}
    (isFirst : member.Is first length) (isLater : ∀ bytes, (rest (min bytes usizeMax)).Is later (bytes+more)) :
    (adding (min start usizeMax) member rest).Is (first && later) (start+length+more) := by
  obtain ⟨visits,result⟩ := member
  cases first with
  | false =>
    cases isFirst
    rfl
  | true =>
    cases isFirst
    change (rest (saturatingAdd _ _)).2 = _
    rw [saturatingAdd_min,min_add_min]
    exact isLater (start+length)

theorem inside_is {above : List Nat} {identity length : Nat} {acyclic : Bool} {inner : Measured} (is : inner.Is acyclic length) :
    Measured.Is (!above.contains identity && acyclic) length
      (if identity ∈ above then (1,.error .cyclic) else (inner.1+1,inner.2)) := by
  by_cases repeated : identity ∈ above
  · simp [repeated,Measured.Is]
  · simpa [repeated,Measured.Is] using is

theorem comma_added (start : Nat) (behind : Bool) :
    (if behind then saturatingAdd (min start usizeMax) 1 else min start usizeMax) = min (start+(comma behind).length) usizeMax := by
  cases behind with
  | false => rfl
  | true => exact saturatingAdd_min start 1

mutual
theorem value_is (above : List Nat) : ∀ value : Value, value.plain = true →
    (serializedJsonLenInner above value).Is (value.acyclic above) value.json.length
  | .none,_ | .bool true,_ | .bool false,_ => rfl
  | .str text,_ => congrArg Except.ok (jsonString_length text)
  | .int value,plain => by
    have length : (Value.int value).json.length = signedDecimalLen value := by
      simp only [Value.json,signedDecimalLen,List.length_append,decimal_length]
      split <;> rfl
    have few := unsignedDecimalLen_le value.natAbs
    simp only [Value.plain,Bool.and_eq_true,decide_eq_true_eq] at plain
    refine congrArg Except.ok ?_
    rw [length,Nat.min_eq_left]
    simp only [signedDecimalLen,usizeMax]
    split <;> omega
  | .sequence identity items,plain => by
    have length : (Value.sequence identity items).json.length = 2+(items.json false).length := by
      simp [Value.json,Nat.add_comm 2]
    rw [length]
    exact inside_is (items_are (identity::above) items 2 false plain)
  | .dict identity entries,plain => by
    have length : (Value.dict identity entries).json.length = 2+(entries.json false).length := by
      simp [Value.json,Nat.add_comm 2]
    rw [length]
    exact inside_is (entries_are (identity::above) entries 2 false plain)

theorem items_are (above : List Nat) : ∀ (items : Items) (start : Nat) (behind : Bool), items.plain = true →
    (serializedJsonSequenceLen above (min start usizeMax) behind items).Is (items.acyclic above) (start+(items.json behind).length)
  | .nil,_,_,_ => rfl
  | .cons value rest,start,behind,plain => by
    obtain ⟨first,later⟩ := Bool.and_eq_true_iff.mp plain
    simp only [serializedJsonSequenceLen,Items.json,Items.acyclic,comma_added,List.length_append,← Nat.add_assoc]
    exact adding_is (value_is above value first) fun bytes => items_are above rest bytes true later

theorem entries_are (above : List Nat) : ∀ (entries : Entries) (start : Nat) (behind : Bool), entries.plain = true →
    (serializedJsonDictLen above (min start usizeMax) behind entries).Is (entries.acyclic above) (start+(entries.json behind).length)
  | .nil,_,_,_ => rfl
  | .cons (some key) value rest,start,behind,plain => by
    obtain ⟨first,later⟩ := Bool.and_eq_true_iff.mp plain
    rw [serializedJsonDictLen,comma_added,jsonString_length,saturatingAdd_min,min_add_min,saturatingAdd_min]
    simp only [Entries.json,Entries.acyclic,Option.getD_some,List.length_append,List.length_singleton,← Nat.add_assoc]
    exact adding_is (value_is above value first) fun bytes => entries_are above rest bytes true later
end

/-- A plain value is rejected exactly if it contains itself, and otherwise its measured length
is that of its JSON, as far as a `usize` holds it. -/
theorem measured_exactly (value : Value) (plain : value.plain = true) : (serializedJsonLen value).2 =
      if value.acyclic [] then .ok (min value.json.length usizeMax) else .error .cyclic :=
  value_is [] value plain

/-- A list that occurs twice in another one. -/
theorem shared_measured : (serializedJsonLen (doubled 1)).2 = .ok 7 :=
  measured_exactly (doubled 1) rfl

end BazelMcp.Measuring
