import Masterserver.Lib.JsonComplete

/-!
# The integers that were read

A literal that is too long is not read, so no integer of a decoded value has
more digits than a text may have: what was read can be written and read again.
-/

namespace Lib

/-- The value of some digits has no more digits than there are. -/
theorem digitsValue_lt (digits : List Char) (h : ∀ c ∈ digits, c.isDigit = true) :
    digitsValue digits < 10 ^ digits.length := by
  unfold digitsValue
  have hstep (init : Nat) :
      Nat.ofDigitChars 10 digits init + 1 ≤ (init + 1) * 10 ^ digits.length := by
    induction digits generalizing init with
    | nil => simp
    | cons c rest ih =>
        have hc : c.toNat - '0'.toNat ≤ 9 := by
          have hdigit := h c List.mem_cons_self
          unfold Char.isDigit at hdigit
          rw [Bool.and_eq_true, decide_eq_true_eq, decide_eq_true_eq] at hdigit
          have hle : c.toNat ≤ '9'.toNat := hdigit.2
          exact Nat.sub_le_sub_right hle _
        have hrest := ih (fun c' hc' => h c' (List.mem_cons_of_mem c hc'))
          (10 * init + (c.toNat - '0'.toNat))
        rw [Nat.ofDigitChars_cons, List.length_cons, Nat.pow_succ]
        calc Nat.ofDigitChars 10 rest (10 * init + (c.toNat - '0'.toNat)) + 1
            ≤ (10 * init + (c.toNat - '0'.toNat) + 1) * 10 ^ rest.length := hrest
          _ ≤ ((init + 1) * 10) * 10 ^ rest.length := Nat.mul_le_mul_right _ (by omega)
          _ = (init + 1) * (10 ^ rest.length * 10) := by rw [Nat.mul_assoc, Nat.mul_comm 10]
  have := hstep 0
  omega

namespace Json

mutual

/-- No integer is too long to be read. -/
def Short : Json → Prop
  | .int n => (Nat.toDigits 10 n.natAbs).length ≤ maxStrDigits
  | .arr items => ShortItems items
  | .obj members => ShortMembers members
  | _ => True

def ShortItems : List Json → Prop
  | [] => True
  | v :: rest => Short v ∧ ShortItems rest

def ShortMembers : List (String × Json) → Prop
  | [] => True
  | (_, v) :: rest => Short v ∧ ShortMembers rest

end

mutual

def decidableShort : (v : Json) → Decidable v.Short
  | .null | .bool _ | .float _ | .str _ => isTrue trivial
  | .int _ => inferInstanceAs (Decidable (_ ≤ _))
  | .arr items => decidableShortItems items
  | .obj members => decidableShortMembers members

def decidableShortItems : (items : List Json) → Decidable (ShortItems items)
  | [] => isTrue trivial
  | v :: rest =>
      have := decidableShort v
      have := decidableShortItems rest
      inferInstanceAs (Decidable (_ ∧ _))

def decidableShortMembers : (members : List (String × Json)) → Decidable (ShortMembers members)
  | [] => isTrue trivial
  | (_, v) :: rest =>
      have := decidableShort v
      have := decidableShortMembers rest
      inferInstanceAs (Decidable (_ ∧ _))

end

instance : DecidablePred Short := decidableShort

theorem ShortMembers.lookup {members : List (String × Json)} (h : ShortMembers members)
    {name : String} {v : Json} (hv : members.lookup name = some v) : v.Short := by
  induction members with
  | nil => cases hv
  | cons member rest ih =>
      obtain ⟨key, w⟩ := member
      rw [List.lookup_cons] at hv
      split at hv
      · cases hv
        exact h.1
      · exact ih h.2 hv

end Json

def Part.Short : Part → Prop
  | .value v => v.toJson.Short
  | .items vs => Json.ShortItems (Decoded.toJsonItems vs)
  | .members ms => Json.ShortMembers (Decoded.toJsonMembers ms)

theorem NumberText.short {text : List Char} {v : Decoded} (h : NumberText text v) :
    v.toJson.Short := by
  cases h with
  | float => trivial
  | @int sign whole negative hsign hwhole hlength =>
      have hdigits : ∀ c ∈ whole, c.isDigit = true := by
        cases hwhole with
        | zero => exact List.forall_mem_singleton.mpr (by decide)
        | digits hc h => exact h.isDigit
      have hvalue := digitsValue_lt whole hdigits
      have habs : (if negative = true then -(digitsValue whole : Int)
          else digitsValue whole).natAbs = digitsValue whole := by
        split <;> simp
      show (Nat.toDigits 10 _).length ≤ maxStrDigits
      rw [habs, Nat.length_toDigits_le_iff (by decide) (by decide)]
      exact hvalue.trans_le (Nat.pow_le_pow_right (by decide) hlength)

theorem PartText.short {part : Part} {text : List Char} (h : PartText part text) : part.Short := by
  induction h with
  | null | true | false | str _ | emptyArr _ | emptyObj _ | lastItem _ | lastMember _ => trivial
  | number h => exact h.short
  | arr _ _ _ hfirst hmore => exact ⟨hfirst, hmore⟩
  | obj _ _ _ _ _ hfirst hmore => exact ⟨hfirst, hmore⟩
  | item _ _ _ _ hfirst hmore => exact ⟨hfirst, hmore⟩
  | member _ _ _ _ _ _ hfirst hmore => exact ⟨hfirst, hmore⟩

theorem JsonText.short {text : List Char} {v : Decoded} (h : JsonText text v) : v.toJson.Short := by
  obtain ⟨_, _, _, -, hpart, -⟩ := h
  exact hpart.short

end Lib
