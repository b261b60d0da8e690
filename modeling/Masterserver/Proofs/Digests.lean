import Masterserver.Lib.JsonRoundTrip
import Masterserver.Proofs.Fields

/-!
# Hexadecimal texts

Bytes come back from their hexadecimal text, and a digest is known by its own:
two digests print alike only when they are equal.
-/

namespace Masterserver

open Lib Protocol

/-! ## Bytes -/

theorem isAsciiSpace_hexDigit : ∀ n, n < 16 → isAsciiSpace (hexDigit n) = false := by decide

theorem fromHexChars_hex (data : Bytes) :
    fromHexChars (data.flatMap fun b => [hexDigit (b.toNat / 16), hexDigit (b.toNat % 16)]) =
      some data := by
  induction data with
  | nil => rfl
  | cons b rest ih =>
      have hhigh : b.toNat / 16 < 16 := by
        have := b.toNat_lt
        omega
      have hlow : b.toNat % 16 < 16 := Nat.mod_lt _ (by decide)
      have hvalue : UInt8.ofNat (16 * (b.toNat / 16) + b.toNat % 16) = b := by
        rw [Nat.div_add_mod, UInt8.ofNat_toNat]
      rw [List.flatMap_cons, List.cons_append, List.cons_append, List.nil_append,
        fromHexChars_pair (isAsciiSpace_hexDigit _ hhigh), ih, hexValue?_hexDigit _ hhigh,
        hexValue?_hexDigit _ hlow]
      simp only [Option.bind_eq_bind, Option.bind_some, Option.pure_def, hvalue]

/-- `bytes.fromhex(data.hex())`. -/
theorem fromHex_hex (data : Bytes) : fromHex (hex data) = some data := by
  unfold fromHex hex
  rw [String.toList_ofList]
  exact fromHexChars_hex data

theorem length_hex (data : Bytes) : (hex data).length = 2 * data.length := by
  unfold hex
  rw [String.length_ofList]
  induction data with
  | nil => rfl
  | cons b rest ih =>
      rw [List.flatMap_cons, List.length_append, ih]
      simp only [List.length_cons, List.length_nil]
      omega

/-! ## Digests -/

theorem hexDigit_inj {m n : Nat} (hm : m < 16) (hn : n < 16) (h : hexDigit m = hexDigit n) :
    m = n := by
  have hvalue := congrArg hexValue? h
  rw [hexValue?_hexDigit m hm, hexValue?_hexDigit n hn] at hvalue
  exact Option.some.inj hvalue

/-- A number is known by its digits. -/
theorem mod_pow_eq_of_digits {b m n : Nat} :
    ∀ k, (∀ j, j < k → m / b ^ j % b = n / b ^ j % b) → m % b ^ k = n % b ^ k
  | 0, _ => by rw [Nat.pow_zero, Nat.mod_one, Nat.mod_one]
  | k + 1, h => by
      have hlower := mod_pow_eq_of_digits k fun j hj => h j (Nat.lt_succ_of_lt hj)
      rw [Nat.mod_pow_succ, Nat.mod_pow_succ, hlower, h k (Nat.lt_succ_self k)]

theorem hexdigest_inj {d d' : Digest} (h : hexdigest d = hexdigest d') : d = d' := by
  unfold hexdigest at h
  have hchars := List.map_inj_left.mp (String.ofList_injective h)
  have hdigits : ∀ j, j < 64 → d.val / 16 ^ j % 16 = d'.val / 16 ^ j % 16 := by
    intro j hj
    have hchar := hchars (63 - j) (List.mem_range.mpr (by omega))
    rw [show 63 - (63 - j) = j by omega] at hchar
    exact hexDigit_inj (Nat.mod_lt _ (by decide)) (Nat.mod_lt _ (by decide)) hchar
  have hmod := mod_pow_eq_of_digits 64 hdigits
  rw [show (16 : Nat) ^ 64 = 2 ^ 256 by decide, Nat.mod_eq_of_lt d.isLt,
    Nat.mod_eq_of_lt d'.isLt] at hmod
  exact Fin.ext hmod

end Masterserver
