import Masterserver.Lib.Binary64
import Mathlib.Algebra.Order.Field.Power
import Mathlib.Algebra.Order.Ring.Rat
import Mathlib.Tactic.FieldSimp
import Mathlib.Tactic.Linarith
import Mathlib.Tactic.NormNum
import Mathlib.Tactic.Positivity
import Mathlib.Tactic.Ring

/-!
# What rounding to binary64 does

A fraction is scaled to 53 bits, rounded to an integer and scaled back. It
lies in one binade, `log2Floor_spec`, and the rounding reaches an even integer
exactly from half a unit below it on, `le_roundHalfEven_iff`. Out of range is
therefore what lies half a unit below `2 ^ 1024` or above,
`toBinary64_eq_none_iff`; a small integer is itself, and a large one stays
large.
-/

namespace Lib

/-- The number itself. -/
def Binary64.toRat (x : Binary64) : ℚ := x.mantissa * 2 ^ x.exponent

/-! ## Scaling -/

variable {n d : Nat}

theorem scaled_pos {base : Nat} (hbase : 0 < base) (n : Nat) (hd : 0 < d) (e : Int) :
    0 < (scaled base n d e).2 := by
  unfold scaled
  split
  · exact hd
  · positivity

theorem scaled_ratio {base : Nat} (hbase : 0 < base) (n d : Nat) (e : Int) :
    ((scaled base n d e).1 : ℚ) / (scaled base n d e).2 = n / d * base ^ e := by
  have hbase' : (base : ℚ) ≠ 0 := by positivity
  unfold scaled
  split
  · next he =>
      obtain ⟨k, rfl⟩ := Int.eq_ofNat_of_zero_le he
      simp only [Int.toNat_natCast, Nat.cast_mul, Nat.cast_pow, zpow_natCast]
      ring
  · next he =>
      obtain ⟨k, hk⟩ := Int.eq_ofNat_of_zero_le (show 0 ≤ -e by omega)
      obtain rfl : e = -(k : Int) := by omega
      simp only [neg_neg, Int.toNat_natCast, Nat.cast_mul, Nat.cast_pow, zpow_neg, zpow_natCast]
      rw [div_mul_eq_div_div, div_eq_mul_inv]

theorem log2_bounds {n : Nat} (hn : n ≠ 0) :
    (2 : ℚ) ^ (Nat.log2 n : Int) ≤ n ∧ (n : ℚ) < 2 ^ ((Nat.log2 n : Int) + 1) := by
  have hlow := Nat.log2_self_le hn
  have hhigh := Nat.lt_log2_self (n := n)
  constructor
  · rw [zpow_natCast]
    exact_mod_cast hlow
  · rw [show ((Nat.log2 n : Int) + 1) = ((Nat.log2 n + 1 : Nat) : Int) by push_cast; rfl,
      zpow_natCast]
    exact_mod_cast hhigh

/-- A positive fraction lies in the binade of its logarithm. -/
theorem log2Floor_spec (hn : n ≠ 0) (hd : 0 < d) :
    (2 : ℚ) ^ log2Floor n d ≤ n / d ∧ (n / d : ℚ) < 2 ^ (log2Floor n d + 1) := by
  have htwo : (2 : ℚ) ≠ 0 := by norm_num
  have hdpos : (0 : ℚ) < d := by exact_mod_cast hd
  obtain ⟨hnlow, hnhigh⟩ := log2_bounds hn
  obtain ⟨hdlow, hdhigh⟩ := log2_bounds hd.ne'
  set guess : Int := (Nat.log2 n : Int) - Nat.log2 d with hguess
  have hlow : (2 : ℚ) ^ (guess - 1) ≤ n / d := by
    rw [le_div_iff₀ hdpos]
    calc (2 : ℚ) ^ (guess - 1) * d
        ≤ 2 ^ (guess - 1) * 2 ^ ((Nat.log2 d : Int) + 1) := by gcongr
      _ = 2 ^ (Nat.log2 n : Int) := by
          rw [← zpow_add₀ htwo, hguess]
          congr 1
          ring
      _ ≤ n := hnlow
  have hhigh : (n / d : ℚ) < 2 ^ (guess + 1) := by
    rw [div_lt_iff₀ hdpos]
    calc (n : ℚ) < 2 ^ ((Nat.log2 n : Int) + 1) := hnhigh
      _ = 2 ^ (guess + 1) * 2 ^ (Nat.log2 d : Int) := by
          rw [← zpow_add₀ htwo, hguess]
          congr 1
          ring
      _ ≤ 2 ^ (guess + 1) * d := by gcongr
  have hratio := scaled_ratio (by norm_num : 0 < 2) n d (-guess)
  have hpos := scaled_pos (by norm_num : 0 < 2) n hd (-guess)
  have hpos' : (0 : ℚ) < (scaled 2 n d (-guess)).2 := by exact_mod_cast hpos
  have hguesspos : (0 : ℚ) < 2 ^ guess := by positivity
  -- The guess is one too large exactly if the scaled fraction is below one.
  have hbelow : (scaled 2 n d (-guess)).1 < (scaled 2 n d (-guess)).2 ↔ (n / d : ℚ) < 2 ^ guess := by
    rw [← Nat.cast_lt (α := ℚ), ← div_lt_one hpos', hratio, Nat.cast_ofNat, zpow_neg,
      ← div_eq_mul_inv, div_lt_one hguesspos]
  unfold log2Floor
  simp only [← hguess]
  split
  · next hlt =>
      rw [hbelow] at hlt
      refine ⟨hlow, ?_⟩
      rw [Int.sub_add_cancel]
      exact hlt
  · next hge =>
      rw [hbelow, not_lt] at hge
      exact ⟨hge, hhigh⟩

/-! ## Rounding -/

/-- An even integer is reached from half a unit below it on. -/
theorem le_roundHalfEven_iff (hd : 0 < d) {bound : Nat} (heven : bound % 2 = 0) :
    bound ≤ roundHalfEven n d ↔ 2 * bound * d ≤ 2 * n + d := by
  have hdiv := Nat.div_add_mod n d
  have hmod := Nat.mod_lt n hd
  unfold roundHalfEven
  simp only
  set q := n / d
  set r := n % d
  obtain hle | rfl | hgt : bound ≤ q ∨ bound = q + 1 ∨ q + 2 ≤ bound := by omega
  · have hmul : bound * d ≤ q * d := Nat.mul_le_mul_right d hle
    have hcomm : d * q = q * d := Nat.mul_comm d q
    refine iff_of_true ?_ ?_
    · split <;> omega
    · have : 2 * bound * d = 2 * (bound * d) := Nat.mul_assoc 2 bound d
      omega
  · have hexpand : 2 * (q + 1) * d = 2 * (d * q) + 2 * d := by ring
    rw [hexpand]
    split
    · next h => exact iff_of_false (by omega) (by omega)
    · next h => exact iff_of_true (le_refl _) (by omega)
  · have hmul : (q + 2) * d ≤ bound * d := Nat.mul_le_mul_right d hgt
    have hexpand : (q + 2) * d = d * q + 2 * d := by ring
    have : 2 * bound * d = 2 * (bound * d) := Nat.mul_assoc 2 bound d
    refine iff_of_false ?_ ?_
    · split <;> omega
    · omega

theorem roundHalfEven_le {bound : Nat} (h : n < bound * d) : roundHalfEven n d ≤ bound := by
  have hdiv := Nat.div_lt_of_lt_mul (Nat.mul_comm bound d ▸ h)
  unfold roundHalfEven
  simp only
  split <;> omega

theorem roundHalfEven_one (n : Nat) : roundHalfEven n 1 = n := by
  unfold roundHalfEven
  simp [Nat.mod_one]

/-! ## The nearest binary64 number -/

/-- From here on a number is rounded to infinity. -/
def overflowThreshold : ℚ := 2 ^ (1024 : Int) - 2 ^ (970 : Int)

theorem overflowThreshold_bounds :
    (2 : ℚ) ^ (1023 : Int) ≤ overflowThreshold ∧ overflowThreshold ≤ 2 ^ (1024 : Int) := by
  have hsplit : (2 : ℚ) ^ (1024 : Int) = 2 ^ (1023 : Int) + 2 ^ (1023 : Int) := by
    rw [show (1024 : Int) = 1023 + 1 by norm_num, zpow_add_one₀ (by norm_num)]
    ring
  have hle : (2 : ℚ) ^ (970 : Int) ≤ 2 ^ (1023 : Int) :=
    zpow_le_zpow_right₀ (by norm_num) (by norm_num)
  have hpos : (0 : ℚ) < 2 ^ (970 : Int) := by positivity
  unfold overflowThreshold
  generalize (2 : ℚ) ^ (1024 : Int) = whole at *
  generalize (2 : ℚ) ^ (1023 : Int) = half at *
  generalize (2 : ℚ) ^ (970 : Int) = unit at *
  constructor
  · linarith
  · linarith

/-- The exponent a number is rounded at. -/
def roundingExponent (n d : Nat) : Int := max (-1074) (log2Floor n d - 52)

/-- The integer it is rounded to there. -/
def roundedMantissa (n d : Nat) : Nat :=
  roundHalfEven (scaled 2 n d (-roundingExponent n d)).1 (scaled 2 n d (-roundingExponent n d)).2

theorem toBinary64_eq (hn : n ≠ 0) :
    toBinary64 n d =
      if roundedMantissa n d = 2 ^ 53 then
        if 971 < roundingExponent n d + 1 then none else some ⟨2 ^ 52, roundingExponent n d + 1⟩
      else if 971 < roundingExponent n d then none
      else some ⟨roundedMantissa n d, roundingExponent n d⟩ := by
  unfold toBinary64
  rw [if_neg hn]
  simp only [← roundingExponent.eq_def, ← roundedMantissa.eq_def]
  by_cases h : roundedMantissa n d = 2 ^ 53
  · simp only [if_pos h]
  · simp only [if_neg h]

theorem toRat_of_toBinary64 (hn : n ≠ 0) {x : Binary64} (h : toBinary64 n d = some x) :
    x.toRat = roundedMantissa n d * 2 ^ roundingExponent n d := by
  rw [toBinary64_eq hn] at h
  split at h
  · next hcarry =>
      split at h
      · cases h
      · cases h
        rw [Binary64.toRat, hcarry, zpow_add_one₀ (by norm_num)]
        push_cast
        ring
  · split at h
    · cases h
    · cases h
      rfl

/-- The rounded integer reaches an even bound half a unit below it. -/
theorem le_roundedMantissa_iff (n : Nat) (hd : 0 < d) (bound : Nat) (heven : bound % 2 = 0) :
    bound ≤ roundedMantissa n d ↔
      ((bound : ℚ) - 1 / 2) * 2 ^ roundingExponent n d ≤ n / d := by
  set e := roundingExponent n d with he
  have hpos := scaled_pos (by norm_num : 0 < 2) n hd (-e)
  have hpos' : (0 : ℚ) < (scaled 2 n d (-e)).2 := by exact_mod_cast hpos
  have hratio := scaled_ratio (by norm_num : 0 < 2) n d (-e)
  have hepos : (0 : ℚ) < 2 ^ e := by positivity
  unfold roundedMantissa
  rw [← he, le_roundHalfEven_iff hpos heven]
  rw [Nat.cast_ofNat, zpow_neg, ← div_eq_mul_inv, div_eq_iff hpos'.ne'] at hratio
  rw [← le_div_iff₀ hepos, ← Nat.cast_le (α := ℚ)]
  push_cast
  rw [hratio]
  constructor
  · intro h
    by_contra hlt
    rw [not_le] at hlt
    have hscaled := mul_lt_mul_of_pos_right hlt hpos'
    linarith
  · intro h
    have hscaled := mul_le_mul_of_nonneg_right h hpos'.le
    linarith

/-- Within its binade a number is rounded to at most 53 bits, or to `2 ^ 53`. -/
theorem roundedMantissa_le (hn : n ≠ 0) (hd : 0 < d) : roundedMantissa n d ≤ 2 ^ 53 := by
  set e := roundingExponent n d with he
  have hpos := scaled_pos (by norm_num : 0 < 2) n hd (-e)
  have hpos' : (0 : ℚ) < (scaled 2 n d (-e)).2 := by exact_mod_cast hpos
  have hratio := scaled_ratio (by norm_num : 0 < 2) n d (-e)
  have hepos : (0 : ℚ) < 2 ^ e := by positivity
  have hbinade : (n / d : ℚ) < 2 ^ (53 : Int) * 2 ^ e := by
    refine (log2Floor_spec hn hd).2.trans_le ?_
    rw [← zpow_add₀ (by norm_num)]
    refine zpow_le_zpow_right₀ (by norm_num) ?_
    rw [he]
    unfold roundingExponent
    omega
  unfold roundedMantissa
  rw [← he]
  refine roundHalfEven_le ?_
  rw [← Nat.cast_lt (α := ℚ)]
  push_cast
  rw [← div_lt_iff₀ hpos', hratio, Nat.cast_ofNat, zpow_neg, ← div_eq_mul_inv, div_lt_iff₀ hepos]
  exact_mod_cast hbinade

/-- Out of range is what rounds up to `2 ^ 1024`, or lies above. -/
theorem toBinary64_eq_none_iff (n : Nat) (hd : 0 < d) :
    toBinary64 n d = none ↔ overflowThreshold ≤ n / d := by
  obtain ⟨hlow, hhigh⟩ := overflowThreshold_bounds
  have hpositive : (0 : ℚ) < 2 ^ (1023 : Int) := by positivity
  obtain rfl | hn := Nat.eq_zero_or_pos n
  · refine iff_of_false ?_ ?_
    · unfold toBinary64
      simp
    · rw [Nat.cast_zero, zero_div, not_le]
      exact hpositive.trans_le hlow
  · have hn := hn.ne'
    obtain ⟨hbinade, hbinade'⟩ := log2Floor_spec hn hd
    have hcarry := le_roundedMantissa_iff n hd (2 ^ 53) (by norm_num)
    rw [toBinary64_eq hn]
    unfold roundingExponent at hcarry ⊢
    set k := log2Floor n d
    obtain hk | hk | hk : k ≤ 1022 ∨ k = 1023 ∨ 1024 ≤ k := by omega
    · refine iff_of_false ?_ ?_
      · rw [if_neg (show ¬ 971 < max (-1074) (k - 52) + 1 by omega),
          if_neg (show ¬ 971 < max (-1074) (k - 52) by omega)]
        split <;> nofun
      · have hstep : (2 : ℚ) ^ (k + 1) ≤ 2 ^ (1023 : Int) :=
          zpow_le_zpow_right₀ (by norm_num) (by omega)
        rw [not_le]
        exact (hbinade'.trans_le hstep).trans_le hlow
    · have hle := roundedMantissa_le hn hd
      have hexponent : max (-1074) (k - 52) = 971 := by omega
      have hthreshold : ((2 ^ 53 : Nat) - 1 / 2 : ℚ) * 2 ^ (971 : Int) = overflowThreshold := by
        unfold overflowThreshold
        rw [show (1024 : Int) = 53 + 971 by norm_num, zpow_add₀ (by norm_num),
          show (971 : Int) = 970 + 1 by norm_num, zpow_add_one₀ (by norm_num)]
        generalize (2 : ℚ) ^ (970 : Int) = unit
        push_cast
        norm_num
        ring
      rw [hexponent, hthreshold] at hcarry
      rw [hexponent, if_pos (show (971 : Int) < 971 + 1 by omega), if_neg (lt_irrefl (971 : Int)),
        ← hcarry]
      constructor
      · intro h
        split at h
        · next heq => exact heq.ge
        · cases h
      · intro h
        rw [if_pos (le_antisymm hle h)]
    · refine iff_of_true ?_ ?_
      · rw [if_pos (show 971 < max (-1074) (k - 52) + 1 by omega),
          if_pos (show 971 < max (-1074) (k - 52) by omega), ite_self]
      · have hstep : (2 : ℚ) ^ (1024 : Int) ≤ 2 ^ k := zpow_le_zpow_right₀ (by norm_num) hk
        exact hhigh.trans (hstep.trans hbinade)

/-! ## Integers -/

/-- An integer of at most 53 bits is itself. -/
theorem toBinary64_natCast (hn : n < 2 ^ 53) :
    ∃ x, toBinary64 n 1 = some x ∧ x.toRat = n := by
  obtain rfl | hpos := Nat.eq_zero_or_pos n
  · exact ⟨⟨0, 0⟩, rfl, by simp [Binary64.toRat]⟩
  · have hne := hpos.ne'
    have hlog : log2Floor n 1 < 53 := by
      have hbinade := (log2Floor_spec hne one_pos).1
      rw [Nat.cast_one, div_one] at hbinade
      have hlt : (2 : ℚ) ^ log2Floor n 1 < 2 ^ (53 : Int) :=
        hbinade.trans_lt (by exact_mod_cast hn)
      exact (zpow_lt_zpow_iff_right₀ (by norm_num)).mp hlt
    have hnonneg : 0 ≤ log2Floor n 1 := by
      have hbinade := (log2Floor_spec hne one_pos).2
      rw [Nat.cast_one, div_one] at hbinade
      have hone : (2 : ℚ) ^ (0 : Int) < 2 ^ (log2Floor n 1 + 1) := by
        rw [zpow_zero]
        exact lt_of_le_of_lt (by exact_mod_cast hpos) hbinade
      have := (zpow_lt_zpow_iff_right₀ (by norm_num : (1 : ℚ) < 2)).mp hone
      omega
    have hsome : toBinary64 n 1 ≠ none := by
      intro hnone
      rw [toBinary64_eq_none_iff n one_pos, Nat.cast_one, div_one] at hnone
      have hlt : (n : ℚ) < 2 ^ (1023 : Int) := by
        refine lt_of_lt_of_le (by exact_mod_cast hn : (n : ℚ) < 2 ^ (53 : Int)) ?_
        exact zpow_le_zpow_right₀ (by norm_num) (by norm_num)
      exact absurd (overflowThreshold_bounds.1.trans hnone) (not_le.mpr hlt)
    obtain ⟨x, hx⟩ := Option.ne_none_iff_exists'.mp hsome
    refine ⟨x, hx, ?_⟩
    -- At a negative exponent the scaling multiplies, and nothing is rounded.
    obtain ⟨k, hk⟩ := Int.eq_ofNat_of_zero_le (show 0 ≤ 52 - log2Floor n 1 by omega)
    have hexponent : roundingExponent n 1 = -(k : Int) := by
      unfold roundingExponent
      omega
    have hscaled : scaled 2 n 1 (-roundingExponent n 1) = (n * 2 ^ k, 1) := by
      rw [hexponent, neg_neg, scaled, if_pos (Int.natCast_nonneg k), Int.toNat_natCast]
    rw [toRat_of_toBinary64 hne hx, roundedMantissa, hscaled, roundHalfEven_one, hexponent,
      zpow_neg, zpow_natCast]
    push_cast
    have : (2 : ℚ) ^ k ≠ 0 := by positivity
    field_simp

/-- What is at least `2 ^ 53` is not rounded below it. -/
theorem le_toRat (hn : n ≠ 0) (hd : 0 < d) (h : (2 : ℚ) ^ (53 : Int) ≤ n / d) {x : Binary64}
    (hx : toBinary64 n d = some x) : (2 : ℚ) ^ (53 : Int) ≤ x.toRat := by
  obtain ⟨hbinade, hbinade'⟩ := log2Floor_spec hn hd
  have hlog : 53 ≤ log2Floor n d := by
    have hlt := h.trans_lt hbinade'
    have := (zpow_lt_zpow_iff_right₀ (by norm_num : (1 : ℚ) < 2)).mp hlt
    omega
  have hexponent : roundingExponent n d = log2Floor n d - 52 := by
    unfold roundingExponent
    omega
  have hmantissa : 2 ^ 52 ≤ roundedMantissa n d := by
    rw [le_roundedMantissa_iff n hd (2 ^ 52) (by norm_num), hexponent]
    refine le_trans ?_ hbinade
    calc (((2 ^ 52 : Nat) : ℚ) - 1 / 2) * 2 ^ (log2Floor n d - 52)
        ≤ 2 ^ (52 : Int) * 2 ^ (log2Floor n d - 52) := by
          gcongr
          norm_num
      _ = 2 ^ log2Floor n d := by
          rw [← zpow_add₀ (by norm_num)]
          congr 1
          ring
  rw [toRat_of_toBinary64 hn hx, hexponent]
  calc (2 : ℚ) ^ (53 : Int)
      ≤ 2 ^ log2Floor n d := zpow_le_zpow_right₀ (by norm_num) hlog
    _ = 2 ^ (52 : Int) * 2 ^ (log2Floor n d - 52) := by
        rw [← zpow_add₀ (by norm_num)]
        congr 1
        ring
    _ ≤ roundedMantissa n d * 2 ^ (log2Floor n d - 52) := by
        gcongr
        exact_mod_cast hmantissa

end Lib
