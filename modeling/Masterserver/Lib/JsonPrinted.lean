import Masterserver.Lib.JsonDigits
import Masterserver.Lib.JsonRoundTrip

/-!
# What numbers are printed as

A finite number is printed as a number of the grammar, with a fraction or an
exponent; one beyond the range as the constant `Infinity`. Nothing is said
about which digits are printed, only that they begin with a zero just where a
zero may stand.
-/

namespace Lib

theorem digits_append {digits digits' : List Char} (h : Digits digits)
    (h' : ∀ c ∈ digits', c.isDigit = true) : Digits (digits ++ digits') where
  ne_nil := by simp [h.ne_nil]
  isDigit c hc := (List.mem_append.mp hc).elim (h.isDigit c) (h' c)

theorem digits_toDigits (n : Nat) : Digits (Nat.toDigits 10 n) where
  ne_nil := toDigits_ne_nil n
  isDigit _ hc := Nat.isDigit_of_mem_toDigits (by decide) (by decide) hc

theorem isDigit_replicate_zero (n : Nat) : ∀ c ∈ List.replicate n '0', c.isDigit = true := by
  intro c hc
  rw [(List.mem_replicate.mp hc).2]
  rfl

/-- The beginning of a positive number's digits, with any digits after it. -/
theorem wholeText_take {n : Nat} (hn : 0 < n) {k : Nat} (hk : 0 < k) (more : List Char)
    (hmore : ∀ c ∈ more, c.isDigit = true) :
    WholeText ((Nat.toDigits 10 n).take k ++ more) := by
  obtain ⟨c, tail, heq, hc⟩ := toDigits_eq_cons hn
  obtain ⟨k, rfl⟩ := Nat.exists_eq_succ_of_ne_zero hk.ne'
  have hdigits := digits_toDigits n
  rw [heq] at hdigits ⊢
  rw [List.take_succ_cons, List.cons_append]
  refine .digits hc ⟨by simp, ?_⟩
  intro c' hc'
  obtain rfl | hc' := List.mem_cons.mp hc'
  · exact hdigits.isDigit c' List.mem_cons_self
  · obtain hc' | hc' := List.mem_append.mp hc'
    · exact hdigits.isDigit c' (List.mem_cons_of_mem c (List.mem_of_mem_take hc'))
    · exact hmore c' hc'

theorem wholeText_toDigits (n : Nat) : WholeText (Nat.toDigits 10 n) := by
  obtain rfl | hn := Nat.eq_zero_or_pos n
  · exact .zero
  · have h := wholeText_take hn (List.length_pos_of_ne_nil (toDigits_ne_nil n)) [] nofun
    rwa [List.take_length, List.append_nil] at h

/-- The text of a number with a fraction or an exponent. -/
def FloatText (negative : Bool) (text : List Char) : Prop :=
  ∃ digits exponent, NumberText text (.float negative digits exponent)

theorem floatText_fraction {whole digits : List Char} (hwhole : WholeText whole)
    (hdigits : Digits digits) : FloatText false (whole ++ '.' :: digits) := by
  have h := NumberText.float .none hwhole (.some hdigits) .none fun h => hdigits.ne_nil h.1
  rw [List.nil_append, List.append_nil] at h
  exact ⟨_, _, h⟩

theorem floatText_exponent {whole fraction digits magnitude : List Char} {sign : Char}
    (hwhole : WholeText whole) (hfraction : FractionText fraction digits)
    (hsign : sign = '-' ∨ sign = '+') (hmagnitude : Digits magnitude) :
    FloatText false (whole ++ (fraction ++ 'e' :: sign :: magnitude)) := by
  have hexponent : ∃ power, ExponentText ('e' :: sign :: magnitude) (some power) := by
    obtain rfl | rfl := hsign
    · exact ⟨_, .minus (.inl rfl) hmagnitude⟩
    · exact ⟨_, .plus (.inl rfl) hmagnitude⟩
  obtain ⟨power, hexponent⟩ := hexponent
  have h := NumberText.float .none hwhole hfraction hexponent fun h => Option.some_ne_none _ h.2
  exact ⟨_, _, h⟩

theorem FloatText.negate {text : List Char} (h : FloatText false text) :
    FloatText true ('-' :: text) := by
  obtain ⟨digits, exponent, h⟩ := h
  cases h with
  | float hsign hwhole hfraction hexponent hpart =>
      cases hsign
      exact ⟨_, _, .float .minus hwhole hfraction hexponent hpart⟩

theorem toList_toString_nat (n : Nat) : (toString n).toList = Nat.toDigits 10 n := by
  rw [show toString n = n.repr from rfl, Nat.repr_eq_ofList_toDigits, String.toList_ofList]

/-- Stripping keeps a number positive, and leaves zero alone. -/
theorem stripZeros_spec (fuel n : Nat) (e : Int) (h : n ≠ 0 ∨ e = 0) :
    (stripZeros fuel n e).1 ≠ 0 ∨ stripZeros fuel n e = (0, 0) := by
  induction fuel generalizing n e with
  | zero =>
      rw [stripZeros]
      obtain hn | rfl := h
      · exact .inl hn
      · by_cases hn : n = 0
        · exact .inr (by rw [hn])
        · exact .inl hn
  | succ fuel ih =>
      rw [stripZeros]
      split
      · next hcond => exact ih _ _ (.inl (by omega))
      · obtain hn | rfl := h
        · exact .inl hn
        · by_cases hn : n = 0
          · exact .inr (by rw [hn])
          · exact .inl hn

/-- An exponent is printed with two digits or more. -/
theorem digits_magnitude (n : Nat) :
    Digits (if (toString n).length < 2 then "0" ++ toString n else toString n).toList := by
  by_cases hshort : (toString n).length < 2
  · rw [if_pos hshort, String.toList_append, toList_toString_nat]
    exact digits_append ⟨by simp, isDigit_replicate_zero 1⟩ (digits_toDigits n).isDigit
  · rw [if_neg hshort, toList_toString_nat]
    exact digits_toDigits n

/-- Where the decimal point stands decides between the three plain forms and
the one with an exponent. -/
theorem floatText_printDecimal (digits : Nat) (e : Int) (h : digits ≠ 0 ∨ e = 0) :
    FloatText false (printDecimal digits e).toList := by
  have hstrip := stripZeros_spec 20 digits e h
  unfold printDecimal
  generalize stripZeros 20 digits e = stripped at hstrip ⊢
  obtain ⟨n, e⟩ := stripped
  have hlist := toList_toString_nat n
  have hlength : (toString n).length = (Nat.toDigits 10 n).length := by
    rw [← String.length_toList, hlist]
  have hdigits := digits_toDigits n
  have hpositive := List.length_pos_of_ne_nil hdigits.ne_nil
  simp only [hlength, hlist]
  set point : Int := (Nat.toDigits 10 n).length + e with hpoint
  split
  · split
    · -- The point stands before the digits.
      have h0 : ∀ c ∈ List.replicate (-point).toNat '0' ++ Nat.toDigits 10 n,
          c.isDigit = true := by
        intro c hc
        obtain hc | hc := List.mem_append.mp hc
        · exact isDigit_replicate_zero _ c hc
        · exact hdigits.isDigit c hc
      have hfraction : Digits (List.replicate (-point).toNat '0' ++ Nat.toDigits 10 n) :=
        ⟨by simp [hdigits.ne_nil], h0⟩
      have htext := floatText_fraction .zero hfraction
      simpa [hlist] using htext
    · split
      · next hafter =>
          -- It stands after them, and zeros fill the gap.
          have hwhole : WholeText (Nat.toDigits 10 n ++
              List.replicate (point.toNat - (Nat.toDigits 10 n).length) '0') := by
            obtain hn | hzero := hstrip
            · have hw := wholeText_take (Nat.pos_of_ne_zero hn) hpositive
                (List.replicate (point.toNat - (Nat.toDigits 10 n).length) '0')
                (isDigit_replicate_zero _)
              rwa [List.take_length] at hw
            · cases hzero
              exact .zero
          have hfraction : Digits ['0'] := ⟨by simp, isDigit_replicate_zero 1⟩
          have htext := floatText_fraction hwhole hfraction
          simpa [hlist] using htext
      · next hbefore hafter =>
          -- It stands among them.
          have hn : n ≠ 0 := by
            rintro rfl
            obtain hn | hzero := hstrip
            · exact hn rfl
            · cases hzero
              exact hafter (by rw [hpoint]; simp)
          have hw := wholeText_take (Nat.pos_of_ne_zero hn) (k := point.toNat) (by omega) [] nofun
          rw [List.append_nil] at hw
          have hfraction : Digits ((Nat.toDigits 10 n).drop point.toNat) := by
            refine ⟨?_, fun c hc => hdigits.isDigit c (List.mem_of_mem_drop hc)⟩
            refine List.ne_nil_of_length_pos ?_
            rw [List.length_drop]
            omega
          have htext := floatText_fraction hw hfraction
          simpa using htext
  · next hfar =>
      -- One digit stands before the point, and the exponent says where it belongs.
      have hn : n ≠ 0 := by
        rintro rfl
        obtain hn | hzero := hstrip
        · exact hn rfl
        · cases hzero
          exact hfar (by rw [hpoint]; simp)
      have hw := wholeText_take (Nat.pos_of_ne_zero hn) (k := 1) one_pos [] nofun
      rw [List.append_nil] at hw
      have hfraction : ∃ digits, FractionText
          (if (Nat.toDigits 10 n).drop 1 = [] then "" else
            "." ++ String.ofList ((Nat.toDigits 10 n).drop 1)).toList digits := by
        by_cases hone : (Nat.toDigits 10 n).drop 1 = []
        · rw [if_pos hone]
          exact ⟨[], .none⟩
        · rw [if_neg hone, String.toList_append, String.toList_ofList,
            String.toList_ofList, List.singleton_append]
          exact ⟨_, .some ⟨hone, fun c hc => hdigits.isDigit c (List.mem_of_mem_drop hc)⟩⟩
      obtain ⟨digits, hfraction⟩ := hfraction
      have hmagnitude := digits_magnitude (point - 1).natAbs
      have hsign : (if point - 1 < 0 then "e-" else "e+").toList = ['e', '-'] ∨
          (if point - 1 < 0 then "e-" else "e+").toList = ['e', '+'] := by
        split
        · exact .inl rfl
        · exact .inr rfl
      rw [String.toList_append, String.toList_append, String.toList_append, String.toList_ofList,
        List.append_assoc, List.append_assoc]
      obtain hsign | hsign := hsign
      · rw [hsign]
        exact floatText_exponent hw hfraction (.inl rfl) hmagnitude
      · rw [hsign]
        exact floatText_exponent hw hfraction (.inr rfl) hmagnitude

/-- The shortest digits of a number that is not zero are those of a number, or
none were found. -/
theorem shortest_spec {x : Binary64} (hx : x.mantissa ≠ 0) :
    (shortest x).1 ≠ 0 ∨ (shortest x).2 = 0 := by
  have hdenotes (d : Nat) (e : Int) (h : (toBinary64 (scaled 10 d 1 e).1 (scaled 10 d 1 e).2 ==
      some x) = true) : d ≠ 0 := by
    rintro rfl
    have hzero : (scaled 10 0 1 e).1 = 0 := by
      unfold scaled
      split <;> simp
    rw [hzero, toBinary64, if_pos rfl, beq_iff_eq, Option.some.injEq] at h
    exact hx (by rw [← h])
  have hpick {denotes : Nat → Bool} {near far digits : Nat} {e e' : Int}
      (h : (if denotes near then some (near, e) else if denotes far then some (far, e)
        else none) = some (digits, e')) : denotes digits = true := by
    split at h
    · next hnear =>
        cases h
        exact hnear
    · split at h
      · next hfar =>
          cases h
          exact hfar
      · cases h
  have hdecimal {n d count : Nat} {order e : Int} {digits : Nat}
      (h : decimalOf? x n d order count = some (digits, e)) : digits ≠ 0 := by
    unfold decimalOf? at h
    exact hdenotes _ _ (@hpick (fun k => toBinary64 (scaled 10 k 1 (order - count + 1)).1
      (scaled 10 k 1 (order - count + 1)).2 == some x) _ _ _ _ _ h)
  unfold shortest
  simp only
  generalize hfound : (List.range 17).findSome? _ = found
  cases found with
  | none => exact .inr rfl
  | some found =>
      obtain ⟨i, -, hi⟩ := List.exists_of_findSome?_eq_some hfound
      exact .inl (hdecimal hi)

/-- A literal within the range is printed as a number with a fraction or an
exponent, one beyond it as the constant. -/
theorem printLiteral_cases (negative : Bool) (digits : Nat) (e : Int) :
    (toBinary64 (scaled 10 digits 1 e).1 (scaled 10 digits 1 e).2 = none ∧
        printLiteral negative digits e = if negative then "-Infinity" else "Infinity") ∨
      toBinary64 (scaled 10 digits 1 e).1 (scaled 10 digits 1 e).2 ≠ none ∧
        FloatText negative (printLiteral negative digits e).toList := by
  have hratio (n d : Nat) : (toBinary64 n d = none ∧ printRatio n d = "Infinity") ∨
      toBinary64 n d ≠ none ∧ FloatText false (printRatio n d).toList := by
    unfold printRatio
    split
    · next h => exact .inl ⟨h, rfl⟩
    · next x h =>
        refine .inr ⟨by rw [h]; nofun, ?_⟩
        split
        · exact floatText_fraction .zero ⟨by simp, isDigit_replicate_zero 1⟩
        · next hx => exact floatText_printDecimal _ _ (shortest_spec hx)
  unfold printLiteral
  simp only
  obtain ⟨hnone, htext⟩ | ⟨hsome, htext⟩ :=
    hratio (scaled 10 digits 1 e).1 (scaled 10 digits 1 e).2
  · refine .inl ⟨hnone, ?_⟩
    rw [htext]
    cases negative <;> rfl
  · refine .inr ⟨hsome, ?_⟩
    cases negative with
    | false => exact htext
    | true =>
        rw [if_pos rfl, String.toList_append]
        exact htext.negate

end Lib
