import Masterserver.Lib.Binary64
import Masterserver.Lib.JsonDecode
import Mathlib.Algebra.Order.Field.Rat
import Mathlib.Order.WithBot

/-!
# The numbers among JSON values

What a scripting language counts as a number, and the value it compares it by:
the truth values are zero and one, and a floating-point number may be
infinite. `number?` is `none` on everything else, where an order comparison
raises and an equality is false. `truthy` is what a value counts as in a
condition.
-/

namespace Lib

/-- A rational number or one of the two infinities. -/
abbrev Extended := WithBot (WithTop ℚ)

/-- The value of a number's text without its sign. -/
def magnitude (negative : Bool) (text : List Char) : Extended :=
  match scanNumber negative text with
  | some (.int n, _) => ((n : ℚ) : WithTop ℚ)
  | some (.float negative digits exponent, _) =>
      let (n, d) := scaled 10 digits 1 exponent
      (((if negative then -(n / d) else n / d : ℚ)) : WithTop ℚ)
  | _ => if negative then ⊥ else ((⊤ : WithTop ℚ) : Extended)

namespace Json

def number? : Json → Option Extended
  | .bool b => some (((b.toNat : ℚ)) : WithTop ℚ)
  | .int n => some ((n : ℚ) : WithTop ℚ)
  | .float text =>
      some (match text.toList with
        | '-' :: rest => magnitude true rest
        | rest => magnitude false rest)
  | _ => none

/-- `value == n` for an integer. -/
def equalsInt (value : Json) (n : Int) : Bool := value.number? == some (((n : ℚ) : WithTop ℚ))

/-- `bool(value)`. -/
def truthy : Json → Bool
  | .null => false
  | .str s => s != ""
  | .arr items => !items.isEmpty
  | .obj members => !members.isEmpty
  | number => !number.equalsInt 0

theorem number?_int (n : Int) : (Json.int n).number? = some ((n : ℚ) : WithTop ℚ) := rfl

end Json

example : (Json.float "-0.0").equalsInt 0 ∧ (Json.float "2e+16").equalsInt (2 * 10 ^ 16) ∧
    (Json.bool true).equalsInt 1 ∧ ¬(Json.float "Infinity").equalsInt 1 := by decide +kernel

end Lib
