import Mathlib.Data.List.Sort
import Mathlib.Data.String.Basic

/-!
# JSON values and their compact encoding

The values a JSON text denotes, as a scripting language holds them after
decoding: integers are unbounded and kept apart from floating-point numbers,
an object is the list of its members in the order they were written. A
floating-point number is represented by the text that prints it, which
identifies it and is what the encoder emits.

`dumps` is the compact encoder without ASCII escaping: no blanks, `,` and `:`
as separators, and inside a string only the quotation mark, the backslash and
the control characters escaped. Texts are lists of characters; a text's
length in bytes is `String.utf8Len`.
-/

namespace Lib

inductive Json where
  | null
  | bool (b : Bool)
  | int (n : Int)
  | float (text : String)
  | str (s : String)
  | arr (items : List Json)
  | obj (members : List (String × Json))

namespace Json

instance : Inhabited Json := ⟨.null⟩

/-- The members of an object, the first of a repeated name winning. -/
def get? : Json → String → Option Json
  | .obj members, name => members.lookup name
  | _, _ => none

/-- The text of a string value. -/
def str? : Json → Option String
  | .str s => some s
  | _ => none

/-- The value of an integer, booleans not counted. -/
def int? : Json → Option Int
  | .int n => some n
  | _ => none

end Json

/-! ## Texts -/

def quoteMark : Char := Char.ofNat 34

def backslash : Char := Char.ofNat 92

/-- The lower-case hexadecimal digit of a number below sixteen. -/
def hexDigit (n : Nat) : Char :=
  if n < 10 then Char.ofNat (48 + n) else Char.ofNat (87 + n)

/-- The value of a hexadecimal digit, of either case. -/
def hexValue? (c : Char) : Option Nat :=
  let code := c.toNat
  if 48 ≤ code ∧ code ≤ 57 then some (code - 48)
  else if 97 ≤ code ∧ code ≤ 102 then some (code - 87)
  else if 65 ≤ code ∧ code ≤ 70 then some (code - 55)
  else none

/-- One character of a string body: the two delimiters and the five control
characters with a short escape first, then every other control character. -/
def escapeChar (c : Char) : List Char :=
  if c = quoteMark then [backslash, quoteMark]
  else if c = backslash then [backslash, backslash]
  else if c.toNat = 10 then [backslash, 'n']
  else if c.toNat = 13 then [backslash, 'r']
  else if c.toNat = 9 then [backslash, 't']
  else if c.toNat = 12 then [backslash, 'f']
  else if c.toNat = 8 then [backslash, 'b']
  else if c.toNat < 32 then
    [backslash, 'u', '0', '0', hexDigit (c.toNat / 16), hexDigit (c.toNat % 16)]
  else [c]

def quote (s : String) : List Char :=
  quoteMark :: (s.toList.flatMap escapeChar ++ [quoteMark])

/-! ## The encoder -/

namespace Json

mutual

def dumps : Json → List Char
  | .null => ['n', 'u', 'l', 'l']
  | .bool true => ['t', 'r', 'u', 'e']
  | .bool false => ['f', 'a', 'l', 's', 'e']
  | .int n => (toString n).toList
  | .float text => text.toList
  | .str s => quote s
  | .arr [] => ['[', ']']
  | .arr (v :: rest) => '[' :: (dumps v ++ dumpsItems rest)
  | .obj [] => ['\x7b', '\x7d']
  | .obj ((name, v) :: rest) =>
      '\x7b' :: (quote name ++ ':' :: (dumps v ++ dumpsMembers rest))

/-- The items after the first, with the closing bracket. -/
def dumpsItems : List Json → List Char
  | [] => [']']
  | v :: rest => ',' :: (dumps v ++ dumpsItems rest)

/-- The members after the first, with the closing brace. -/
def dumpsMembers : List (String × Json) → List Char
  | [] => ['\x7d']
  | (name, v) :: rest => ',' :: (quote name ++ ':' :: (dumps v ++ dumpsMembers rest))

end

mutual

/-- Every object's members in increasing order of their names. -/
def sortKeys : Json → Json
  | .arr items => .arr (sortItems items)
  | .obj members =>
      .obj ((sortMembers members).insertionSort fun a b => a.1 ≤ b.1)
  | v => v

def sortItems : List Json → List Json
  | [] => []
  | v :: rest => sortKeys v :: sortItems rest

def sortMembers : List (String × Json) → List (String × Json)
  | [] => []
  | (name, v) :: rest => (name, sortKeys v) :: sortMembers rest

end

/-- The encoding with sorted names: equal objects, equal texts. -/
def canonical (v : Json) : List Char := v.sortKeys.dumps

end Json

end Lib
