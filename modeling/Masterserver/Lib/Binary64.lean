import Masterserver.Lib.Json

/-!
# Decimal literals and binary64 numbers

A floating-point literal of a JSON text denotes the binary64 number nearest to
it, ties to even, and infinity where that would need more than 53 bits at the
largest exponent. A number is printed with the fewest significant digits that
denote it, the nearest such decimal if there are several: plainly between
`1e-04` and `1e+16`, with an exponent outside.
-/

namespace Lib

/-- A finite binary64 number without its sign: `mantissa * 2 ^ exponent`. -/
structure Binary64 where
  mantissa : Nat
  exponent : Int
  deriving DecidableEq

/-- The number `n / d * 10 ^ e` or `n / d * 2 ^ e` as a fraction. -/
def scaled (base : Nat) (n d : Nat) (e : Int) : Nat × Nat :=
  if 0 ≤ e then (n * base ^ e.toNat, d) else (n, d * base ^ (-e).toNat)

/-- The integer nearest to `n / d`, ties to even. -/
def roundHalfEven (n d : Nat) : Nat :=
  let q := n / d
  let twice := 2 * (n % d)
  if twice < d ∨ (twice = d ∧ q % 2 = 0) then q else q + 1

/-- `⌊log2 (n / d)⌋`, for a positive fraction. -/
def log2Floor (n d : Nat) : Int :=
  let guess : Int := (Nat.log2 n : Int) - Nat.log2 d
  let (n', d') := scaled 2 n d (-guess)
  if n' < d' then guess - 1 else guess

/-- The binary64 number nearest to `n / d`; `none` is infinity. -/
def toBinary64 (n d : Nat) : Option Binary64 :=
  if n = 0 then some ⟨0, 0⟩
  else
    let exponent := max (-1074) (log2Floor n d - 52)
    let (n', d') := scaled 2 n d (-exponent)
    let mantissa := roundHalfEven n' d'
    let (mantissa, exponent) :=
      if mantissa = 2 ^ 53 then (2 ^ 52, exponent + 1) else (mantissa, exponent)
    if 971 < exponent then none else some ⟨mantissa, exponent⟩

/-- `⌊log10 (n / d)⌋` for a positive fraction, from a guess that is not too
large; `fuel` bounds the distance. -/
def log10Floor (n d : Nat) : Nat → Int → Int
  | 0, guess => guess
  | fuel + 1, guess =>
      let (n', d') := scaled 10 n d (-(guess + 1))
      if n' < d' then guess else log10Floor n d fuel (guess + 1)

/-- Among the decimals of `count` digits next to the number, the nearest one
that denotes it. -/
def decimalOf? (x : Binary64) (n d : Nat) (order : Int) (count : Nat) : Option (Nat × Int) :=
  let e := order - count + 1
  let (n', d') := scaled 10 n d (-e)
  let low := n' / d'
  let denotes (digits : Nat) : Bool :=
    let (p, q) := scaled 10 digits 1 e
    toBinary64 p q == some x
  let near := roundHalfEven n' d'
  let far := if near = low then low + 1 else low
  if denotes near then some (near, e) else if denotes far then some (far, e) else none

/-- The digits and exponent of the shortest decimal that denotes a number. -/
def shortest (x : Binary64) : Nat × Int :=
  let (n, d) := scaled 2 x.mantissa 1 x.exponent
  -- 10 ^ 3 < 2 ^ 10, so a third of the binary order is not too large.
  let order := log10Floor n d 1024 ((log2Floor n d - 1) * 3 / 10 - 1)
  ((List.range 17).findSome? fun i => decimalOf? x n d order (i + 1)).getD (0, 0)

def stripZeros : Nat → Nat → Int → Nat × Int
  | 0, n, e => (n, e)
  | fuel + 1, n, e => if n ≠ 0 ∧ n % 10 = 0 then stripZeros fuel (n / 10) (e + 1) else (n, e)

/-- `repr(x)` of a positive number, from its shortest digits. -/
def printDecimal (digits : Nat) (e : Int) : String :=
  let (digits, e) := stripZeros 20 digits e
  let text := toString digits
  let point : Int := text.length + e
  let zeros (n : Nat) : String := String.ofList (List.replicate n '0')
  if -4 < point ∧ point ≤ 16 then
    if point ≤ 0 then "0." ++ zeros (-point).toNat ++ text
    else if text.length ≤ point then text ++ zeros (point.toNat - text.length) ++ ".0"
    else
      String.ofList (text.toList.take point.toNat) ++ "." ++
        String.ofList (text.toList.drop point.toNat)
  else
    let power := point - 1
    let head := text.toList.take 1
    let tail := text.toList.drop 1
    let fraction := if tail = [] then "" else "." ++ String.ofList tail
    let magnitude := toString power.natAbs
    String.ofList head ++ fraction ++ (if power < 0 then "e-" else "e+") ++
      (if magnitude.length < 2 then "0" ++ magnitude else magnitude)

/-- `repr` of the number nearest to `n / d`. -/
def printRatio (n d : Nat) : String :=
  match toBinary64 n d with
  | none => "Infinity"
  | some x =>
      if x.mantissa = 0 then "0.0"
      else
        let (digits, e) := shortest x
        printDecimal digits e

/-- The text a floating-point literal is printed as once it has been read: its
sign, its significant digits and its decimal exponent are given. -/
def printLiteral (negative : Bool) (digits : Nat) (e : Int) : String :=
  let (n, d) := scaled 10 digits 1 e
  if negative then "-" ++ printRatio n d else printRatio n d

end Lib
