import BazelMcp.Types
import BazelMcp.Uuid

/-! Pages and the store's cursors. A cursor carries the digest of what it was made
for beside its position, and is refused where it was not made for. -/
namespace BazelMcp.Cursors

inductive StoreError where
  | invalidCursor
  | notFound
  | io
  | panicked
  deriving DecidableEq

structure PageRequest where
  cursor : Option (List Char) := none
  itemLimit : Nat := 50
  scanLimit : Nat := 1000
  deriving DecidableEq

structure Page (α : Type) where
  items : List α := []
  totalCount : Option Nat := none
  filteredCount : Option Nat := none
  nextCursor : Option (List Char) := none
  truncated : Bool := false
  itemCursors : List (List Char) := []
  deriving DecidableEq

/-- The four kinds of cursors: the version, the kind and the length that the
binary form starts with tell them apart. -/
inductive StoreCursor (Context : Type) where
  | invocation (context : Context) (requestedAtMs : Int) (id : Uuid)
  | deferred (context : Context) (createdAtMs : Int) (id : Uuid)
  | ordinal (context : Context) (ordinal : Int)
  | file (context : Context) (offset ordinal totalScanned filteredScanned : Nat)
  deriving DecidableEq

/-- The digest of the parts a cursor is bound to, taken to be injective, and the
text form of a cursor, taken to be read back as it was written. -/
structure CursorForm (Context : Type) where
  cursorContext : List (List Char) → Context
  encode : StoreCursor Context → List Char
  decode : List Char → Option (StoreCursor Context)
  context_injective : Function.Injective cursorContext
  decode_encode : ∀ cursor, decode (encode cursor) = some cursor

section Kinds
variable {Context : Type} [DecidableEq Context] (form : CursorForm Context)

def ordinalContext (scope invocationId : List Char) (filter : Option (List Char)) : Context :=
  form.cursorContext [scope,invocationId,filter.getD []]

def invocationContext (workspace state command : Option (List Char)) : Context :=
  form.cursorContext ["invocations".toList,workspace.getD [],state.getD [],command.getD []]

def deferredContext (retrieval : List Char) : Context := form.cursorContext ["deferred".toList,retrieval]

/-- Accepts a cursor of the right kind that was made in this context. -/
def decodeFor {α : Type} (select : StoreCursor Context → Option (Context × α)) (context : Context) (value : List Char) :
    Except StoreError α :=
  match (form.decode value).bind select with
  | none => .error .invalidCursor
  | some (made,position) => if made ≠ context then .error .invalidCursor else .ok position

def ordinalPart : StoreCursor Context → Option (Context × Int)
  | .ordinal context ordinal => some (context,ordinal)
  | _ => none

structure FilePosition where
  offset : Nat := 0
  ordinal : Nat := 0
  totalScanned : Nat := 0
  filteredScanned : Nat := 0
  deriving DecidableEq

def filePart : StoreCursor Context → Option (Context × FilePosition)
  | .file context offset ordinal total filtered => some (context,⟨offset,ordinal,total,filtered⟩)
  | _ => none

def invocationPart : StoreCursor Context → Option (Context × (Int × Uuid))
  | .invocation context requestedAtMs id => some (context,(requestedAtMs,id))
  | _ => none

def deferredPart : StoreCursor Context → Option (Context × (Int × Uuid))
  | .deferred context createdAtMs id => some (context,(createdAtMs,id))
  | _ => none

def resume {α : Type} (select : StoreCursor Context → Option (Context × α)) (context : Context) :
    Option (List Char) → Except StoreError (Option α)
  | none => .ok none
  | some value => (decodeFor form select context value).map some

variable {form}

omit [DecidableEq Context] in
theorem encode_injective : Function.Injective form.encode := by
  intro left right same
  have decoded := congrArg form.decode same
  rw [form.decode_encode,form.decode_encode] at decoded
  exact Option.some.inj decoded

variable {α β : Type} {context : Context} {cursor : StoreCursor Context} {select : StoreCursor Context → Option (Context × α)}
  {position : α}

theorem decodeFor_encode (selected : select cursor = some (context,position)) :
    decodeFor form select context (form.encode cursor) = .ok position := by
  simp [decodeFor,form.decode_encode,selected]

theorem decodeFor_other {made : Context} (selected : select cursor = some (made,position))
    (different : made ≠ context) : decodeFor form select context (form.encode cursor) = .error .invalidCursor := by
  simp [decodeFor,form.decode_encode,selected,different]

theorem resume_encode (selected : select cursor = some (context,position)) :
    resume form select context (some (form.encode cursor)) = .ok (some position) := by
  simp [resume,decodeFor_encode selected,Except.map]

section
variable {text : β → List Char} {position : β → α}
  (reads : ∀ found, resume form select context (some (text found)) = .ok (some (position found)))
include reads

theorem resume_map (start : Option β) : resume form select context (start.map text) = .ok (start.map position) := by
  cases start with
  | none => rfl
  | some found => exact reads found

variable (select) in
theorem resume_accepts {given : Option (List Char)} (accepted : ∀ value, given = some value → ∃ found, value = text found) :
    ∃ start, resume form select context given = .ok start := by
  cases given with
  | none => exact ⟨none,rfl⟩
  | some value =>
    obtain ⟨found,same⟩ := accepted value rfl
    exact ⟨_,same ▸ reads found⟩
end

end Kinds

/-! ### A form that can be evaluated -/

namespace Plain

abbrev Reader (α : Type) := List Char → Option (α × List Char)

def natText (value : Nat) : List Char := List.replicate value '1' ++ ['0']

def readNat : Reader Nat
  | '1'::rest => (readNat rest).map fun (value,rest) => (value+1,rest)
  | '0'::rest => some (0,rest)
  | _ => none

def intText : Int → List Char
  | .ofNat value => '+'::natText value
  | .negSucc value => '-'::natText value

def readInt : Reader Int
  | '+'::rest => (readNat rest).map fun (value,rest) => (.ofNat value,rest)
  | '-'::rest => (readNat rest).map fun (value,rest) => (.negSucc value,rest)
  | _ => none

def partText (part : List Char) : List Char := natText part.length ++ part

def readPart : Reader (List Char) := fun text =>
  (readNat text).bind fun (size,rest) => some (rest.take size,rest.drop size)

def partsText (parts : List (List Char)) : List Char := natText parts.length ++ parts.flatMap partText

def readSome : Nat → Reader (List (List Char))
  | 0, text => some ([],text)
  | count+1, text => (readPart text).bind fun (part,rest) => (readSome count rest).map fun (parts,rest) => (part::parts,rest)

def readParts : Reader (List (List Char)) := fun text => (readNat text).bind fun (count,rest) => readSome count rest

def readUuid : Reader Uuid := fun text =>
  (readNat text).bind fun (value,rest) => if bound : value < _ then some (⟨value,bound⟩,rest) else none

abbrev Cursor := StoreCursor (List (List Char))

def encode : Cursor → List Char
  | .invocation context time id => 'i'::partsText context ++ (intText time ++ natText id.val)
  | .deferred context time id => 'd'::partsText context ++ (intText time ++ natText id.val)
  | .ordinal context ordinal => 'o'::partsText context ++ intText ordinal
  | .file context offset ordinal total filtered =>
    'f'::partsText context ++ (natText offset ++ (natText ordinal ++ (natText total ++ natText filtered)))

def decode : List Char → Option Cursor
  | 'i'::text => do
    let (context,text) ← readParts text
    let (time,text) ← readInt text
    let (id,_) ← readUuid text
    return .invocation context time id
  | 'd'::text => do
    let (context,text) ← readParts text
    let (time,text) ← readInt text
    let (id,_) ← readUuid text
    return .deferred context time id
  | 'o'::text => do
    let (context,text) ← readParts text
    let (ordinal,_) ← readInt text
    return .ordinal context ordinal
  | 'f'::text => do
    let (context,text) ← readParts text
    let (offset,text) ← readNat text
    let (ordinal,text) ← readNat text
    let (total,text) ← readNat text
    let (filtered,_) ← readNat text
    return .file context offset ordinal total filtered
  | _ => none

theorem readNat_text (value : Nat) (rest : List Char) : readNat (natText value ++ rest) = some (value,rest) := by
  induction value with
  | zero => rfl
  | succ value ih =>
    change (readNat (natText value ++ rest)).map _ = _
    rw [ih]
    rfl

theorem readNat_only (value : Nat) : readNat (natText value) = some (value,[]) := by
  simpa using readNat_text value []

theorem readInt_text (value : Int) (rest : List Char) : readInt (intText value ++ rest) = some (value,rest) := by
  cases value with
  | ofNat value | negSucc value =>
    change (readNat (natText value ++ rest)).map _ = _
    rw [readNat_text]
    rfl

variable (parts : List (List Char))

theorem readSome_text (rest : List Char) : readSome parts.length (parts.flatMap partText ++ rest) = some (parts,rest) := by
  induction parts with
  | nil => rfl
  | cons part parts ih =>
    have first : readPart (partText part ++ (parts.flatMap partText ++ rest)) = some (part,parts.flatMap partText ++ rest) := by
      simp [readPart,partText,List.append_assoc,readNat_text]
    simp only [List.flatMap_cons,List.length_cons,readSome,List.append_assoc]
    rw [first]
    simp only [Option.bind_some]
    rw [ih]
    rfl

theorem readParts_text (rest : List Char) : readParts (partsText parts ++ rest) = some (parts,rest) := by
  simp only [readParts,partsText,List.append_assoc,readNat_text,Option.bind_some]
  exact readSome_text parts rest

theorem readUuid_text (id : Uuid) : readUuid (natText id.val) = some (id,[]) := by
  simp [readUuid,readNat_only]

theorem decode_encode (cursor : Cursor) : decode (encode cursor) = some cursor := by
  cases cursor with
  | invocation context time id | deferred context time id => simp [encode,decode,readParts_text,readInt_text,readUuid_text]
  | ordinal context ordinal =>
    have last : readInt (intText ordinal) = some (ordinal,[]) := by simpa using readInt_text ordinal []
    simp [encode,decode,readParts_text,last]
  | file context offset ordinal total filtered =>
    simp [encode,decode,readParts_text,readNat_text,readNat_only]

def form : CursorForm (List (List Char)) where
  cursorContext := id
  encode := encode
  decode := decode
  context_injective := Function.injective_id
  decode_encode := decode_encode

end Plain
end BazelMcp.Cursors
