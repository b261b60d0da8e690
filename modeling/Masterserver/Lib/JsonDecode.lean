import Masterserver.Lib.Binary64

/-!
# Decoding JSON texts

The decoder of a scripting language's standard library: the grammar of RFC
8259 and the three constants `NaN`, `Infinity` and `-Infinity`. What becomes
of a constant, and which members an object may have, is up to the caller's two
hooks; they see what they are given in the order of the text.

A `\u` escape can name half of a surrogate pair, so a decoded text is a list
of code points, and `Decoded` is a value with such texts; one with an encoding
is a `Json` value. Every step down into a value is paid for with a character
of the text, so its length is fuel enough.
-/

namespace Lib

abbrev CodePoints := List Nat

instance : LawfulBEq CodePoints := inferInstanceAs (LawfulBEq (List Nat))

inductive Decoded where
  | null
  | bool (b : Bool)
  | int (n : Int)
  | float (negative : Bool) (digits : Nat) (exponent : Int)
  | str (text : CodePoints)
  | arr (items : List Decoded)
  | obj (members : List (CodePoints × Decoded))

/-! ## Texts -/

def isHighSurrogate (code : Nat) : Bool := decide (0xD800 ≤ code ∧ code < 0xDC00)

def isLowSurrogate (code : Nat) : Bool := decide (0xDC00 ≤ code ∧ code < 0xE000)

def isSurrogate (code : Nat) : Bool := isHighSurrogate code || isLowSurrogate code

/-- The code points of a text. -/
def codePoints (s : String) : CodePoints := s.toList.map Char.toNat

/-- The text of code points none of which is a surrogate. -/
def textOf (codes : CodePoints) : String := String.ofList (codes.map Char.ofNat)

/-- `len(text.encode("utf-8"))`, `none` where a surrogate does not encode. -/
def utf8Size (codes : CodePoints) : Option Nat :=
  if codes.any isSurrogate then none
  else some (String.utf8Len (codes.map Char.ofNat))

/-- A high half directly followed by a low one is the pair's code point. -/
def joinSurrogates : CodePoints → CodePoints
  | high :: low :: rest =>
      if isHighSurrogate high && isLowSurrogate low then
        (0x10000 + (high - 0xD800) * 0x400 + (low - 0xDC00)) :: joinSurrogates rest
      else high :: joinSurrogates (low :: rest)
  | codes => codes

/-! ## Tokens -/

def isBlank (c : Char) : Bool := c.toNat = 32 || c.toNat = 9 || c.toNat = 10 || c.toNat = 13

def skipBlank : List Char → List Char
  | [] => []
  | c :: rest => if isBlank c then skipBlank rest else c :: rest

/-- What follows a word the text starts with. -/
def afterWord : List Char → List Char → Option (List Char)
  | [], input => some input
  | w :: word, c :: input => if c = w then afterWord word input else none
  | _ :: _, [] => none

/-- The character a one-letter escape stands for. -/
def escaped? (c : Char) : Option Nat :=
  if c = quoteMark then some 34
  else if c = backslash then some 92
  else if c = '/' then some 47
  else if c = 'b' then some 8
  else if c = 'f' then some 12
  else if c = 'n' then some 10
  else if c = 'r' then some 13
  else if c = 't' then some 9
  else none

def hex4? (a b c d : Char) : Option Nat := do
  let a ← hexValue? a
  let b ← hexValue? b
  let c ← hexValue? c
  let d ← hexValue? d
  pure (4096 * a + 256 * b + 16 * c + d)

/-- The rest of a string after its opening quotation mark. -/
def scanString : List Char → Option (CodePoints × List Char)
  | [] => none
  | c :: rest =>
      if c = quoteMark then some ([], rest)
      else if c = backslash then
        match rest with
        | [] => none
        | e :: rest =>
            if e = 'u' then
              match rest with
              | h₁ :: h₂ :: h₃ :: h₄ :: rest => do
                  let code ← hex4? h₁ h₂ h₃ h₄
                  let (codes, rest) ← scanString rest
                  pure (code :: codes, rest)
              | _ => none
            else do
              let code ← escaped? e
              let (codes, rest) ← scanString rest
              pure (code :: codes, rest)
      else if c.toNat < 32 then none
      else do
        let (codes, rest) ← scanString rest
        pure (c.toNat :: codes, rest)

def digitsValue (digits : List Char) : Nat := Nat.ofDigitChars 10 digits 0

/-- The digits an integer's text may have. -/
def maxStrDigits : Nat := 4300

def takeDigits (input : List Char) : List Char × List Char :=
  (input.takeWhile Char.isDigit, input.dropWhile Char.isDigit)

/-- The fraction of a number, without its point: no digits, no fraction. -/
def scanFraction : List Char → List Char × List Char
  | '.' :: rest =>
      let (digits, after) := takeDigits rest
      if digits = [] then ([], '.' :: rest) else (digits, after)
  | input => ([], input)

/-- The exponent of a number, `none` if there is none. -/
def scanExponent : List Char → Option Int × List Char
  | [] => (none, [])
  | c :: rest =>
      let (negative, body) := match rest with
        | '-' :: body => (true, body)
        | '+' :: body => (false, body)
        | body => (false, body)
      let (digits, after) := takeDigits body
      if (c = 'e' ∨ c = 'E') ∧ digits ≠ [] then
        (some (if negative then -(digitsValue digits : Int) else digitsValue digits), after)
      else (none, c :: rest)

/-- The digits before the point: a zero stands alone. -/
def scanWhole : List Char → List Char × List Char
  | '0' :: rest => (['0'], rest)
  | input => takeDigits input

/-- A number without its sign. -/
def scanNumber (negative : Bool) (input : List Char) : Option (Decoded × List Char) :=
  let (whole, rest) := scanWhole input
  if whole = [] then none
  else
    let (fraction, rest) := scanFraction rest
    let (exponent, rest) := scanExponent rest
    if fraction = [] ∧ exponent = none then
      let n : Int := digitsValue whole
      if whole.length ≤ maxStrDigits then some (.int (if negative then -n else n), rest) else none
    else
      some (.float negative (digitsValue (whole ++ fraction))
        (exponent.getD 0 - fraction.length), rest)

/-! ## Values -/

/-- What the caller makes of a constant, which members it lets an object have,
and the error of a text that is not JSON. -/
structure DecodeHooks (ε : Type) where
  constant : String → Except ε Decoded
  pairs : List (CodePoints × Decoded) → Except ε Unit
  invalid : ε

variable {ε : Type} (hooks : DecodeHooks ε)

/-- `null`, the truth values and the constants. -/
def scanWord (input : List Char) : Except ε (Decoded × List Char) :=
  match afterWord ['n', 'u', 'l', 'l'] input, afterWord ['t', 'r', 'u', 'e'] input,
      afterWord ['f', 'a', 'l', 's', 'e'] input with
  | some rest, _, _ => .ok (.null, rest)
  | _, some rest, _ => .ok (.bool true, rest)
  | _, _, some rest => .ok (.bool false, rest)
  | none, none, none =>
      match afterWord "NaN".toList input, afterWord "Infinity".toList input,
          afterWord "-Infinity".toList input with
      | some rest, _, _ => do pure (← hooks.constant "NaN", rest)
      | _, some rest, _ => do pure (← hooks.constant "Infinity", rest)
      | _, _, some rest => do pure (← hooks.constant "-Infinity", rest)
      | none, none, none => .error hooks.invalid

/-- A value that is neither a string, an array nor an object. -/
def scanAtom (input : List Char) : Except ε (Decoded × List Char) :=
  let number := match input with
    | '-' :: rest => scanNumber true rest
    | input => scanNumber false input
  match number with
  | some result => .ok result
  | none => scanWord hooks input

/-- A member's name and the colon after it. -/
def scanName : List Char → Except ε (CodePoints × List Char)
  | [] => .error hooks.invalid
  | c :: rest =>
      if c = quoteMark then
        match scanString rest with
        | none => .error hooks.invalid
        | some (codes, rest) =>
            match skipBlank rest with
            | ':' :: rest => .ok (joinSurrogates codes, rest)
            | _ => .error hooks.invalid
      else .error hooks.invalid

mutual

def scanValue : Nat → List Char → Except ε (Decoded × List Char)
  | 0, _ => .error hooks.invalid
  | _ + 1, [] => .error hooks.invalid
  | fuel + 1, c :: rest =>
      if c = quoteMark then
        match scanString rest with
        | some (codes, rest) => .ok (.str (joinSurrogates codes), rest)
        | none => .error hooks.invalid
      else if c = '[' then
        match skipBlank rest with
        | ']' :: rest => .ok (.arr [], rest)
        | rest => do
            let (v, rest) ← scanValue fuel rest
            let (items, rest) ← scanItems fuel (skipBlank rest)
            pure (.arr (v :: items), rest)
      else if c = '\x7b' then
        match skipBlank rest with
        | '\x7d' :: rest => do
            hooks.pairs []
            pure (.obj [], rest)
        | rest => do
            let (name, rest) ← scanName hooks rest
            let (v, rest) ← scanValue fuel (skipBlank rest)
            let (members, rest) ← scanMembers fuel (skipBlank rest)
            hooks.pairs ((name, v) :: members)
            pure (.obj ((name, v) :: members), rest)
      else scanAtom hooks (c :: rest)

/-- The items after one, through the closing bracket. -/
def scanItems : Nat → List Char → Except ε (List Decoded × List Char)
  | fuel + 1, ',' :: rest => do
      let (v, rest) ← scanValue fuel (skipBlank rest)
      let (items, rest) ← scanItems fuel (skipBlank rest)
      pure (v :: items, rest)
  | _ + 1, ']' :: rest => .ok ([], rest)
  | _, _ => .error hooks.invalid

/-- The members after one, through the closing brace. -/
def scanMembers : Nat → List Char → Except ε (List (CodePoints × Decoded) × List Char)
  | fuel + 1, ',' :: rest => do
      let (name, rest) ← scanName hooks (skipBlank rest)
      let (v, rest) ← scanValue fuel (skipBlank rest)
      let (members, rest) ← scanMembers fuel (skipBlank rest)
      pure ((name, v) :: members, rest)
  | _ + 1, '\x7d' :: rest => .ok ([], rest)
  | _, _ => .error hooks.invalid

end

/-- `json.loads(text, object_pairs_hook=..., parse_constant=...)`. -/
def decodeJson (text : List Char) : Except ε Decoded := do
  let (v, rest) ← scanValue hooks (text.length + 1) (skipBlank text)
  if skipBlank rest = [] then pure v else .error hooks.invalid

/-! ## From decoded values to values -/

namespace Decoded

mutual

/-- The value, for one whose texts all encode. -/
def toJson : Decoded → Json
  | null => .null
  | bool b => .bool b
  | int n => .int n
  | float negative digits exponent => .float (printLiteral negative digits exponent)
  | str codes => .str (textOf codes)
  | arr items => .arr (toJsonItems items)
  | obj members => .obj (toJsonMembers members)

def toJsonItems : List Decoded → List Json
  | [] => []
  | v :: rest => toJson v :: toJsonItems rest

def toJsonMembers : List (CodePoints × Decoded) → List (String × Json)
  | [] => []
  | (codes, v) :: rest => (textOf codes, toJson v) :: toJsonMembers rest

end

end Decoded

end Lib
