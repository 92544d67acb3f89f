import BazelMcp.Cursors
import Mathlib.Tactic.Ring

/-! The store's cursors as bytes: version, kind, the digest of the parts they are bound
to, and a position of fixed length. The digest and base64 are parameters. -/
namespace BazelMcp.CursorBytes
open Cursors List

/-! ### Numbers as bytes, and texts behind their length -/

def leBytes : Nat → Nat → List UInt8
  | 0,_ => []
  | width+1,value => .ofNat value::leBytes width (value/256)

def ofLeBytes (bytes : List UInt8) : Nat := bytes.foldr (fun byte rest => byte.toNat+256*rest) 0

@[simp] theorem leBytes_length (width value : Nat) : (leBytes width value).length = width := by
  induction width generalizing value with
  | zero => rfl
  | succ width ih => simp [leBytes,ih]

@[simp] theorem ofLeBytes_leBytes (width value : Nat) : ofLeBytes (leBytes width value) = value % 256^width := by
  induction width generalizing value with
  | zero => simp [leBytes,ofLeBytes,Nat.mod_one]
  | succ width ih =>
    have later : ofLeBytes (leBytes (width+1) value) = value%256 + 256*ofLeBytes (leBytes width (value/256)) := by
      simp [leBytes,ofLeBytes]
    rw [later,ih,Nat.pow_succ',Nat.mod_mul]

/-- A `str` by its bytes, of which no allocation holds more than `isize::MAX`. -/
abbrev Str := {bytes : List UInt8 // bytes.length < 0x8000000000000000}

instance : Inhabited Str := ⟨[],by decide⟩

/-- What `cursor_context` feeds to the digest. -/
def message (parts : List Str) : List UInt8 := parts.flatMap fun part => leBytes 8 part.val.length ++ part.val

theorem message_injective {first second : List Str} (same : message first = message second) : first = second := by
  induction first generalizing second with
  | nil =>
    cases second with
    | nil => rfl
    | cons other others => simp [message,leBytes] at same
  | cons part rest ih =>
    cases second with
    | nil => simp [message,leBytes] at same
    | cons other others =>
      simp only [message,flatMap_cons,append_assoc] at same
      obtain ⟨lengths,behind⟩ := append_inj same (by simp)
      have small (part : Str) : part.val.length % 256^8 = part.val.length :=
        Nat.mod_eq_of_lt (Nat.lt_trans part.property (by decide))
      have length : part.val.length = other.val.length := by simpa only [ofLeBytes_leBytes,small] using congrArg ofLeBytes lengths
      obtain ⟨bytes,later⟩ := append_inj behind length
      rw [Subtype.ext bytes,ih later]

/-! ### The text of an identifier -/

def hexValue (digit : Char) : Option Nat :=
  if '0' ≤ digit ∧ digit ≤ '9' then some (digit.toNat-48)
  else if 'a' ≤ digit ∧ digit ≤ 'f' then some (digit.toNat-87)
  else if 'A' ≤ digit ∧ digit ≤ 'F' then some (digit.toNat-55) else none

/-- Reads so many digits, with or without the separators, up to the closing text. -/
def readDigits (separated : Bool) (closing : List Char) : Nat → Nat → List Char → Option Nat
  | 0,value,text => if text = closing then some value else none
  | left+1,value,text =>
    match (if separated then Uuid.separator (left+1) else []).isPrefixOf? text with
    | some (digit::rest) => (hexValue digit).bind fun digit => readDigits separated closing left (16*value+digit) rest
    | _ => none

/-- `Uuid::parse_str`: hyphenated, simple, braced or as a URN. -/
def parseStr (text : List Char) : Option Uuid :=
  (readDigits true [] 32 0 text <|> readDigits false [] 32 0 text <|>
    (['\x7b'].isPrefixOf? text).bind (readDigits true ['\x7d'] 32 0) <|>
    ("urn:uuid:".toList.isPrefixOf? text).bind (readDigits true [] 32 0)).map (Fin.ofNat _)

theorem hexValue_hexDigit : ∀ digit < 16, hexValue (Uuid.hexDigit digit) = some digit := by decide

theorem readDigits_digits (count value start : Nat) :
    readDigits true [] count start (Uuid.digits count value) = some (start*16^count + value % 16^count) := by
  induction count generalizing start with
  | zero => simp [readDigits,Uuid.digits,Nat.mod_one]
  | succ left ih =>
    have front : (Uuid.separator (left+1)).isPrefixOf? (Uuid.digits (left+1) value) =
        some (Uuid.hexDigit (value/16^left%16)::Uuid.digits left value) := by
      rw [Uuid.digits]
      unfold Uuid.separator
      split <;> simp [isPrefixOf?]
    rw [readDigits,if_pos rfl,front]
    simp only [hexValue_hexDigit _ (Nat.mod_lt _ (by decide)),Option.bind_some,ih,pow_succ,Nat.mod_mul]
    congr 1
    ring

theorem parseStr_text (uuid : Uuid) : parseStr uuid.text = some uuid := by
  have small : uuid.val % 16^32 = uuid.val := Nat.mod_eq_of_lt uuid.isLt
  have read := readDigits_digits 32 uuid.val 0
  rw [small,Nat.zero_mul,Nat.zero_add] at read
  rw [parseStr,Uuid.text,read]
  exact congrArg some (Fin.ext small)

/-! ### Cursors -/

/-- What a cursor is made for. -/
inductive Query where
  | invocations (workspace state command : Option Str)
  | deferred (retrieval : Str)
  | ordinal (scope invocationId : Str) (filter : Option Str)
  | file (scope invocationId : Str) (filter : Option Str)

namespace Query

def kind : Query → UInt8
  | .invocations .. => 1
  | .deferred _ => 2
  | .ordinal .. => 3
  | .file .. => 4

def length : Query → Nat
  | .invocations .. | .deferred _ => 42
  | .ordinal .. => 26
  | .file .. => 50

def parts : Query → List Str
  | .invocations workspace state command =>
    [⟨"invocations".toList.flatMap String.utf8EncodeChar,by decide⟩,workspace.getD default,state.getD default,command.getD default]
  | .deferred retrieval => [⟨"deferred".toList.flatMap String.utf8EncodeChar,by decide⟩,retrieval]
  | .ordinal scope invocationId filter | .file scope invocationId filter => [scope,invocationId,filter.getD default]

abbrev Position : Query → Type
  | .invocations .. | .deferred _ => Int64 × List Char
  | .ordinal .. => Int64
  | .file .. => UInt64 × UInt64 × UInt64 × UInt64

/-- The identifier of the position is written as `Uuid` writes it. -/
def Named : (query : Query) → query.Position → Prop
  | .invocations ..,(_,id) | .deferred _,(_,id) => ∃ uuid : Uuid, id = uuid.text
  | .ordinal ..,_ | .file ..,_ => True

end Query

def wordBytes (word : UInt64) : List UInt8 := leBytes 8 word.toNat

def timestampBytes (timestamp : Int64) (id : List Char) : Except StoreError (List UInt8) :=
  match parseStr id with
  | none => .error .invalidCursor
  | some uuid => .ok (wordBytes timestamp.toUInt64 ++ (leBytes 16 uuid.val).reverse)

def positionBytes : (query : Query) → query.Position → Except StoreError (List UInt8)
  | .invocations ..,(timestamp,id) | .deferred _,(timestamp,id) => timestampBytes timestamp id
  | .ordinal ..,ordinal => .ok (wordBytes ordinal.toUInt64)
  | .file ..,(offset,ordinal,totalScanned,filteredScanned) =>
    .ok (wordBytes offset ++ wordBytes ordinal ++ wordBytes totalScanned ++ wordBytes filteredScanned)

def readWord (bytes : List UInt8) (start : Nat) : UInt64 := .ofNat (ofLeBytes ((bytes.drop start).take 8))

def readTimestamp (bytes : List UInt8) : Int64 × List Char :=
  ((readWord bytes 18).toInt64,Uuid.text (Fin.ofNat _ (ofLeBytes ((bytes.drop 26).take 16).reverse)))

def readPosition (bytes : List UInt8) : (query : Query) → query.Position
  | .invocations .. | .deferred _ => readTimestamp bytes
  | .ordinal .. => (readWord bytes 18).toInt64
  | .file .. => (readWord bytes 18,readWord bytes 26,readWord bytes 34,readWord bytes 42)

/-- The digest, cut to sixteen bytes, and base64. -/
structure Codec (Text : Type) where
  digest : List UInt8 → {bytes : List UInt8 // bytes.length = 16}
  encode64 : List UInt8 → Text
  decode64 : Text → Option (List UInt8)
  decode_encode : ∀ bytes, decode64 (encode64 bytes) = some bytes

theorem readPosition_written {query : Query} {position : query.Position} (named : query.Named position) {context : List UInt8}
    (sixteen : context.length = 16) : ∃ bytes, positionBytes query position = .ok bytes ∧ bytes.length+18 = query.length ∧
      readPosition (1::query.kind::(context ++ bytes)) query = position := by
  cases query with
  | invocations workspace state command | deferred retrieval =>
    obtain ⟨timestamp,id⟩ := position
    obtain ⟨uuid,rfl⟩ := named
    have written : timestampBytes timestamp uuid.text = .ok (wordBytes timestamp.toUInt64 ++ (leBytes 16 uuid.val).reverse) := by
      rw [timestampBytes,parseStr_text]
    refine ⟨_,written,by simp [wordBytes,Query.length],?_⟩
    simp [readPosition,readTimestamp,readWord,wordBytes,drop_append,drop_of_length_le,take_of_length_le,sixteen,
      Nat.mod_eq_of_lt uuid.isLt]
  | ordinal scope invocationId filter =>
    refine ⟨_,rfl,by simp [wordBytes,Query.length],?_⟩
    simp [readPosition,readWord,wordBytes,take_of_length_le,sixteen]
  | file scope invocationId filter =>
    obtain ⟨offset,ordinal,totalScanned,filteredScanned⟩ := position
    refine ⟨_,rfl,by simp [wordBytes,Query.length],?_⟩
    simp [readPosition,readWord,wordBytes,drop_append,drop_of_length_le,take_of_length_le,sixteen]

namespace Codec
variable {Text : Type} (codec : Codec Text)

def cursorContext (parts : List Str) : List UInt8 := (codec.digest (message parts)).val

def encode (query : Query) (position : query.Position) : Except StoreError Text :=
  (positionBytes query position).map fun bytes =>
    codec.encode64 (1::query.kind::(codec.cursorContext query.parts ++ bytes))

def decodeExact (value : Text) (expectedLen : Nat) (kind : UInt8) : Except StoreError (List UInt8) :=
  match codec.decode64 value with
  | none => .error .invalidCursor
  | some bytes =>
    if bytes.length ≠ expectedLen ∨ bytes[0]? ≠ some 1 ∨ bytes[1]? ≠ some kind then .error .invalidCursor else .ok bytes

def decodeFor (query : Query) (value : Text) : Except StoreError query.Position :=
  match codec.decodeExact value query.length query.kind with
  | .error error => .error error
  | .ok bytes =>
    if (bytes.drop 2).take 16 ≠ codec.cursorContext query.parts then .error .invalidCursor else .ok (readPosition bytes query)

/-- A cursor is accepted exactly for its length, its kind and its context. -/
theorem decodeFor_written (made asked : Query) (bytes : List UInt8) :
    codec.decodeFor asked (codec.encode64 (1::made.kind::(codec.cursorContext made.parts ++ bytes))) =
      if (bytes.length+18 = asked.length ∧ made.kind = asked.kind) ∧
          codec.cursorContext made.parts = codec.cursorContext asked.parts then
        .ok (readPosition (1::made.kind::(codec.cursorContext made.parts ++ bytes)) asked) else .error .invalidCursor := by
  have sixteen : (codec.cursorContext made.parts).length = 16 := (codec.digest (message made.parts)).property
  have long : (1::made.kind::(codec.cursorContext made.parts ++ bytes)).length = bytes.length+18 := by simp [sixteen,Nat.add_comm 16]
  simp only [decodeFor,decodeExact,codec.decode_encode,long]
  by_cases fits : bytes.length+18 = asked.length ∧ made.kind = asked.kind
  · simp [fits,sixteen]
  · simp [not_and_or.mp fits,fits]

/-- The position is read back for the query that the cursor was made for, and no other query accepts
the cursor as long as the digests of the two do not collide. -/
theorem cursors_bound (made : Query) (position : made.Position) :
    (made.Named position → ∃ value, codec.encode made position = .ok value ∧ codec.decodeFor made value = .ok position) ∧
    ∀ value, codec.encode made position = .ok value → ∀ (asked : Query) (found : asked.Position),
      (codec.digest (message made.parts) = codec.digest (message asked.parts) → message made.parts = message asked.parts) →
      codec.decodeFor asked value = .ok found → asked.kind = made.kind ∧ asked.parts = made.parts := by
  constructor
  · intro named
    obtain ⟨bytes,written,long,read⟩ := readPosition_written named (codec.digest (message made.parts)).property
    refine ⟨_,by rw [encode,written,Except.map],?_⟩
    rw [decodeFor_written,if_pos ⟨⟨long,rfl⟩,rfl⟩]
    exact congrArg _ read
  · intro value encoded asked found distinct accepted
    unfold encode at encoded
    cases written : positionBytes made position with
    | error error =>
      rw [written] at encoded
      cases encoded
    | ok bytes =>
      rw [written] at encoded
      cases encoded
      rw [decodeFor_written] at accepted
      split at accepted
      · rename_i same
        exact ⟨same.1.2.symm,(message_injective (distinct (Subtype.ext same.2))).symm⟩
      · cases accepted

/-- A digest that keeps the last bytes, and no base64. -/
def plainCodec : Codec (List UInt8) where
  digest bytes := ⟨(bytes.reverse ++ replicate 16 0).take 16,by simp⟩
  encode64 := id
  decode64 := some
  decode_encode _ := rfl

def unfiltered : Query := .ordinal default default none

def filtered : Query := .ordinal default default (some ⟨[97],by decide⟩)

theorem other_filter_refused : ∃ value, plainCodec.encode unfiltered (7 : Int64) = .ok value ∧
    plainCodec.decodeFor unfiltered value = .ok (7 : Int64) ∧ ∀ found, plainCodec.decodeFor filtered value ≠ .ok found := by
  obtain ⟨value,encoded,read⟩ := (cursors_bound plainCodec unfiltered (7 : Int64)).1 trivial
  refine ⟨value,encoded,read,fun found accepted => ?_⟩
  have bound := (cursors_bound plainCodec unfiltered (7 : Int64)).2 value encoded filtered found (by decide) accepted
  exact absurd bound.2 (by decide)

/-- An identifier without hyphens comes back with them. -/
theorem simple_id_hyphenated : ∃ value, plainCodec.encode (.deferred default) ((0 : Int64),replicate 32 '0') = .ok value ∧
    plainCodec.decodeFor (.deferred default) value = .ok ((0 : Int64),Uuid.text 0) ∧ replicate 32 '0' ≠ Uuid.text 0 :=
  ⟨_,rfl,rfl,by decide⟩

end Codec
end BazelMcp.CursorBytes
