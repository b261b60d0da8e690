import Masterserver.Lib.JsonWritten
import Masterserver.Lib.Rounding
import Masterserver.Proofs.StrictLanguage

/-!
# Numbers that are not finite

The strict decoder refuses the constants `NaN`, `Infinity` and `-Infinity` in
the hook it has for them. A literal with a fraction or an exponent does not
come by there. It is rounded to the nearest binary64 number, and one that is
half a unit below `2 ^ 1024` or above becomes an infinity, which the encoder
then writes as the constant that was to be kept out.

So the values of an accepted text are finite, and what is relayed of them is
JSON, exactly if no literal of the text is as large as that.
-/

namespace Lib.Decoded

/-- The exact value of a literal, without its sign, is one that rounds to a
finite number. -/
def InRange : Decoded → Prop
  | float _ digits exponent => (digits : ℚ) * 10 ^ exponent < overflowThreshold
  | _ => True

theorem inRange_float_iff (negative : Bool) (digits : Nat) (exponent : Int) :
    (float negative digits exponent).InRange ↔
      toBinary64 (scaled 10 digits 1 exponent).1 (scaled 10 digits 1 exponent).2 ≠ none := by
  have hratio := scaled_ratio (by norm_num : 0 < 10) digits 1 exponent
  rw [Ne, toBinary64_eq_none_iff _ (scaled_pos (by norm_num) digits one_pos exponent), hratio,
    not_le, Nat.cast_one, div_one, Nat.cast_ofNat]
  rfl

section Visits

variable {ok : String → Prop} {P : Decoded → Prop}

mutual

/-- A condition on the texts of the numbers, read off the values of the tree. -/
theorem floats_toJson
    (hfloat : ∀ negative digits exponent,
      ok (printLiteral negative digits exponent) ↔ P (float negative digits exponent))
    (hother : ∀ v, (∀ negative digits exponent, v ≠ float negative digits exponent) → P v) :
    ∀ v : Decoded, v.toJson.Floats ok ↔ ∀ u ∈ v.visits, P u
  | .null | .bool _ | .int _ | .str _ =>
      iff_of_true trivial fun _ hu => hother _ (by rw [List.mem_singleton.mp hu]; nofun)
  | .float negative digits exponent => by
      show _ ↔ ∀ u ∈ [float negative digits exponent], P u
      rw [List.forall_mem_singleton]
      exact hfloat negative digits exponent
  | .arr items => by
      rw [visits, List.forall_mem_cons]
      exact ((floatsItems_toJsonItems hfloat hother items).trans
        (and_iff_right (hother _ fun _ _ _ h => by cases h)).symm)
  | .obj members => by
      rw [visits, List.forall_mem_cons]
      exact ((floatsMembers_toJsonMembers hfloat hother members).trans
        (and_iff_right (hother _ fun _ _ _ h => by cases h)).symm)

theorem floatsItems_toJsonItems
    (hfloat : ∀ negative digits exponent,
      ok (printLiteral negative digits exponent) ↔ P (float negative digits exponent))
    (hother : ∀ v, (∀ negative digits exponent, v ≠ float negative digits exponent) → P v) :
    ∀ items : List Decoded,
      Json.FloatsItems ok (toJsonItems items) ↔ ∀ u ∈ visitsItems items, P u
  | [] => iff_of_true trivial nofun
  | v :: rest => by
      rw [visitsItems, List.forall_mem_append, ← floatsItems_toJsonItems hfloat hother rest,
        ← floats_toJson hfloat hother v, and_comm]
      rfl

theorem floatsMembers_toJsonMembers
    (hfloat : ∀ negative digits exponent,
      ok (printLiteral negative digits exponent) ↔ P (float negative digits exponent))
    (hother : ∀ v, (∀ negative digits exponent, v ≠ float negative digits exponent) → P v) :
    ∀ members : List (CodePoints × Decoded),
      Json.FloatsMembers ok (toJsonMembers members) ↔ ∀ u ∈ visitsMembers members, P u
  | [] => iff_of_true trivial nofun
  | (_, v) :: rest => by
      rw [visitsMembers, List.forall_mem_append, ← floatsMembers_toJsonMembers hfloat hother rest,
        ← floats_toJson hfloat hother v, and_comm]
      rfl

end

end Visits

end Lib.Decoded

namespace Masterserver

open Lib

/-! ## The constants -/

/-- The texts of the numbers that are not finite. -/
def nonFinite : List String := ["NaN", "Infinity", "-Infinity"]

/-- No number in the value is `NaN` or infinite. -/
def AllFinite (value : Json) : Prop := value.Floats (· ∉ nonFinite)

/-- A number is not one of the constants: it begins with a digit. -/
theorem not_mem_nonFinite {text : String} (h : IsFloatText text) : text ∉ nonFinite := by
  obtain ⟨negative, digits, exponent, h⟩ := h
  intro hmem
  generalize hchars : text.toList = chars at h
  cases h with
  | float hsign hwhole hfraction hexponent hpart =>
      obtain ⟨c, rest, rfl, hc⟩ := hwhole.head
      simp only [nonFinite, List.mem_cons, List.not_mem_nil, or_false] at hmem
      obtain rfl | rfl | rfl := hmem
      · cases hsign with
        | none =>
            rw [← (List.cons.inj hchars).1] at hc
            cases hc
        | minus => exact absurd (List.cons.inj hchars).1 (by decide)
      · cases hsign with
        | none =>
            rw [← (List.cons.inj hchars).1] at hc
            cases hc
        | minus => exact absurd (List.cons.inj hchars).1 (by decide)
      · cases hsign with
        | none =>
            rw [← (List.cons.inj hchars).1] at hc
            cases hc
        | minus =>
            rw [← (List.cons.inj (List.cons.inj hchars).2).1] at hc
            cases hc

/-! ## What is read -/

/-- A literal is read as a finite number, and then printed as a number, or it
is out of range. -/
theorem printLiteral_finite_iff (negative : Bool) (digits : Nat) (exponent : Int) :
    (printLiteral negative digits exponent ∉ nonFinite ↔
        (Decoded.float negative digits exponent).InRange) ∧
      (IsFloatText (printLiteral negative digits exponent) ↔
        (Decoded.float negative digits exponent).InRange) := by
  rw [Decoded.inRange_float_iff]
  obtain ⟨hnone, htext⟩ | ⟨hsome, htext⟩ := printLiteral_cases negative digits exponent
  · have hmem : printLiteral negative digits exponent ∈ nonFinite := by
      rw [htext]
      cases negative <;> decide
    exact ⟨iff_of_false (not_not_intro hmem) (not_not_intro hnone),
      iff_of_false (fun h => not_mem_nonFinite h hmem) (not_not_intro hnone)⟩
  · have hfloat : IsFloatText (printLiteral negative digits exponent) := ⟨negative, htext⟩
    exact ⟨iff_of_true (not_mem_nonFinite hfloat) hsome, iff_of_true hfloat hsome⟩

theorem inRange_of_not_float (v : Decoded)
    (h : ∀ negative digits exponent, v ≠ .float negative digits exponent) : v.InRange := by
  cases v with
  | float negative digits exponent => exact absurd rfl (h negative digits exponent)
  | _ => trivial

/-- Every literal of the text with a fraction or an exponent is in range. -/
def LiteralsInRange (text : List Char) : Prop :=
  ∀ v, JsonText text v → ∀ u ∈ v.visits, u.InRange

/-- No number of an accepted text becomes infinite, and what it is read as is
written as JSON again, if and only if its literals are in range. -/
theorem loadsStrict_finite_iff {limits : JsonLimits} {text : List Char} {value : Json}
    (h : loadsStrict limits text = .ok value) :
    (AllFinite value ∧ ∃ v, JsonText value.dumps v) ↔ LiteralsInRange text := by
  obtain ⟨-, -, v, hdecode, -, rfl⟩ := loadsStrict_ok.mp h
  have hjson := (decodeJson_strictHooks.mp hdecode).1
  have hfinite : AllFinite v.toJson ↔ ∀ u ∈ v.visits, u.InRange :=
    Decoded.floats_toJson (fun negative digits exponent =>
      (printLiteral_finite_iff negative digits exponent).1) inRange_of_not_float v
  have hwritten : v.toJson.Floats IsFloatText ↔ ∀ u ∈ v.visits, u.InRange :=
    Decoded.floats_toJson (fun negative digits exponent =>
      (printLiteral_finite_iff negative digits exponent).2) inRange_of_not_float v
  constructor
  · rintro ⟨hall, -⟩ v' hjson'
    obtain rfl := hjson.unique hjson'
    exact hfinite.mp hall
  · intro hliterals
    have hrange := hliterals v hjson
    exact ⟨hfinite.mpr hrange, jsonText_dumps hjson.short (hwritten.mpr hrange)⟩

/-- A half is a half. -/
theorem loadsStrict_finite_half :
    AllFinite (Decoded.float false 5 (-1)).toJson := by
  have hload : loadsStrict { maxBytes := 64 } ['0', '.', '5'] =
      .ok (Decoded.float false 5 (-1)).toJson :=
    loadsStrict_ok.mpr ⟨by decide, rfl, _, rfl, rfl, rfl⟩
  have hdecode : decodeJson strictHooks ['0', '.', '5'] = .ok (.float false 5 (-1)) := rfl
  refine ((loadsStrict_finite_iff hload).mpr ?_).1
  intro v hjson u hu
  obtain rfl := (decodeJson_strictHooks.mp hdecode).1.unique hjson
  obtain rfl := List.mem_singleton.mp hu
  rw [Decoded.inRange_float_iff]
  decide +kernel

/-- A literal with a large exponent is read as infinity. -/
theorem loadsStrict_infinite :
    ∃ value, loadsStrict { maxBytes := 64 } ['1', 'e', '9', '9', '9'] = .ok value ∧
      ¬ AllFinite value := by
  refine ⟨_, loadsStrict_ok.mpr ⟨by decide, rfl, .float false 1 999, rfl, rfl, rfl⟩, ?_⟩
  intro hfinite
  have hrange := (printLiteral_finite_iff false 1 999).1.mp hfinite
  rw [Decoded.inRange_float_iff] at hrange
  exact hrange (by decide +kernel)

end Masterserver
