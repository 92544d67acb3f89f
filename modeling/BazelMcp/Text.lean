import Mathlib.Data.List.Infix

/-! String operations of the Rust standard library, over the characters of a
text. A text is compared, stripped and trimmed character by character; byte
positions are left to the UTF-8 module. -/
namespace BazelMcp.Text

def startsWith (text start : String) : Bool := start.toList.isPrefixOf text.toList

/-- `str::strip_prefix`. -/
def stripStart (text start : String) : Option String :=
  if startsWith text start then some (String.ofList (text.toList.drop start.toList.length)) else none

/-- The Unicode property `White_Space`, as `char::is_whitespace` reads it. -/
def isWhitespace (char : Char) : Bool :=
  let code := char.toNat
  (9 ≤ code && code ≤ 13) || code = 32 || code = 0x85 || code = 0xA0 || code = 0x1680 ||
    (0x2000 ≤ code && code ≤ 0x200A) || code = 0x2028 || code = 0x2029 || code = 0x202F ||
    code = 0x205F || code = 0x3000

def isBlank (text : String) : Bool := text.toList.all isWhitespace

def asciiLower (char : Char) : Char :=
  if 'A' ≤ char && char ≤ 'Z' then Char.ofNat (char.toNat+32) else char

def eqIgnoreAsciiCase (first second : String) : Bool :=
  first.toList.map asciiLower = second.toList.map asciiLower

/-- The part of a text before the first separator, or all of it. -/
def before (separator : Char) (text : String) : String :=
  String.ofList (text.toList.takeWhile (· ≠ separator))

/-! ### Texts given by their characters -/

def toAsciiLowercase (text : List Char) : List Char := text.map asciiLower

def contains : List Char → List Char → Bool
  | [], needle => needle.isEmpty
  | char::rest, needle => needle.isPrefixOf (char::rest) || contains rest needle

def trim (text : List Char) : List Char :=
  ((text.dropWhile isWhitespace).reverse.dropWhile isWhitespace).reverse

/-- The parts before and after the first occurrence of a separator. -/
def splitOnce (separator : List Char) : List Char → Option (List Char × List Char)
  | [] => if separator.isEmpty then some ([],[]) else none
  | char::rest =>
    if separator.isPrefixOf (char::rest) then some ([],(char::rest).drop separator.length)
    else (splitOnce separator rest).map fun (first,second) => (char::first,second)

-- The count is the number of characters still to skip of the occurrence replaced last.
def replaceGo (pattern new : List Char) : Nat → List Char → List Char
  | _, [] => []
  | skip+1, _::rest => replaceGo pattern new skip rest
  | 0, char::rest =>
    if pattern.isPrefixOf (char::rest) then new ++ replaceGo pattern new (pattern.length-1) rest
    else char :: replaceGo pattern new 0 rest

/-- `str::replace`; the empty pattern occurs before every character and at the end. -/
def replace (pattern new text : List Char) : List Char :=
  if pattern.isEmpty then new ++ text.flatMap (fun char => char :: new) else replaceGo pattern new 0 text

-- A carriage return belongs to the line end only in front of a newline.
def linesGo : List Char → List Char → List (List Char)
  | line, [] => if line.isEmpty then [] else [line]
  | line, char::rest =>
    if char = '\n' then (if line.getLast? = some '\r' then line.dropLast else line) :: linesGo [] rest
    else linesGo (line ++ [char]) rest

def lines (text : List Char) : List (List Char) := linesGo [] text

theorem linesGo_line (start line rest : List Char) (oneLine : '\n' ∉ line) (ends : (start ++ line).getLast? ≠ some '\r') :
    linesGo start (line ++ '\n' :: rest) = (start ++ line) :: linesGo [] rest := by
  induction line generalizing start with
  | nil =>
    rw [List.append_nil] at ends
    simp only [List.nil_append,linesGo,if_true,if_neg ends,List.append_nil]
  | cons char tail ih =>
    obtain ⟨differs,tailLine⟩ := not_or.mp (fun found => oneLine (List.mem_cons.mpr found))
    have step := ih (start ++ [char]) tailLine (by simpa using ends)
    simp only [List.cons_append,linesGo,if_neg (Ne.symm differs)]
    rw [step,List.append_assoc,List.singleton_append]

end BazelMcp.Text
