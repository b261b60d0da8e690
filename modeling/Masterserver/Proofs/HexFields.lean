import Masterserver.Proofs.Fields

/-!
# The bytes of a hexadecimal field

`bytes.fromhex` skips blanks, and the two checks measure the text in different
units: `_hex_field` counts the bytes of its encoding, `_is_hex_bytes` its
characters. Both then compare the number of bytes decoded, and that closes the
gap: a blank, or a character of several bytes, takes room that a digit was
meant to have. What is left are the digits, and they denote the bytes place by
place.
-/

namespace Masterserver.Protocol

open Lib

/-- A text of the hexadecimal digits of `n` bytes. -/
def HexDigits (n : Nat) (text : String) : Prop :=
  text.length = 2 * n ∧ ∀ c ∈ text.toList, IsHexDigit c

/-- The byte at each place is written by the two digits at twice that place,
the high one first. -/
def Denotes (digits : List Char) (bytes : Bytes) : Prop :=
  digits.length = 2 * bytes.length ∧
    ∀ i b, bytes[i]? = some b → ∃ high low, digits[2 * i]?.bind hexValue? = some high ∧
      digits[2 * i + 1]?.bind hexValue? = some low ∧ b.toNat = 16 * high + low

theorem hexText_iff {n : Nat} {value : Json} {text : String} :
    HexText (n * 2) value text ↔ value = .str text ∧ HexDigits n text := by
  unfold HexText HexDigits
  rw [Nat.mul_comm]

theorem hexValue?_lt {c : Char} {v : Nat} (h : hexValue? c = some v) : v < 16 := by
  unfold hexValue? at h
  simp only at h
  split at h
  · cases h
    omega
  split at h
  · cases h
    omega
  split at h
  · cases h
    omega
  · cases h

theorem Denotes.cons {c d : Char} {rest : List Char} {bytes : Bytes} {high low : Nat}
    (hc : hexValue? c = some high) (hd : hexValue? d = some low) (h : Denotes rest bytes) :
    Denotes (c :: d :: rest) (UInt8.ofNat (16 * high + low) :: bytes) := by
  obtain ⟨hlength, hplaces⟩ := h
  refine ⟨?_, ?_⟩
  · simp only [List.length_cons]
    omega
  · intro i b hb
    cases i with
    | zero =>
        have hhigh := hexValue?_lt hc
        have hlow := hexValue?_lt hd
        have hbyte : UInt8.ofNat (16 * high + low) = b := by simpa using hb
        have hvalue : b.toNat = 16 * high + low := by
          rw [← hbyte, UInt8.toNat_ofNat']
          omega
        exact ⟨high, low, hc, hd, hvalue⟩
    | succ i =>
        exact hplaces i b hb

/-- Decoding gives the bytes that the digits denote. The induction is the
decoder's own; its blank case does not arise. -/
theorem denotes_of_fromHexChars {cs : List Char} {bytes : Bytes}
    (hdigits : ∀ c ∈ cs, IsHexDigit c) (h : fromHexChars cs = some bytes) : Denotes cs bytes := by
  induction cs using fromHexChars.induct generalizing bytes with
  | case1 =>
      cases h
      exact ⟨rfl, fun i b hb => by cases hb⟩
  | case2 c rest hblank ih =>
      exact absurd (hdigits c List.mem_cons_self) (not_isHexDigit_of_isAsciiSpace hblank)
  | case3 c hblank =>
      rw [fromHexChars, if_neg hblank] at h
      cases h
  | case4 c hblank d rest ih =>
      rw [Bool.not_eq_true] at hblank
      rw [fromHexChars_pair hblank] at h
      obtain ⟨high, hhigh, h⟩ := Option.bind_eq_some_iff.mp h
      obtain ⟨low, hlow, h⟩ := Option.bind_eq_some_iff.mp h
      obtain ⟨tail, htail, h⟩ := Option.bind_eq_some_iff.mp h
      cases h
      have hrest : ∀ x ∈ rest, IsHexDigit x := by
        intro x hx
        exact hdigits x (List.mem_cons_of_mem c (List.mem_cons_of_mem d hx))
      exact (ih hrest htail).cons hhigh hlow

/-- A field of `n` bytes is let through if and only if it is made of `2 n`
digits, and then it is the bytes they denote. The other check lets the same
texts through. -/
theorem hex_fields_exact (text field : String) {n : Nat} (hn : 1 ≤ n) :
    ((∃ bytes, hexField (.str text) field n = .ok bytes) ↔ HexDigits n text) ∧
      (∀ bytes, hexField (.str text) field n = .ok bytes →
        bytes.length = n ∧ Denotes text.toList bytes) ∧
      (isHexBytes text n = true ↔ HexDigits n text) := by
  refine ⟨?_, ?_, ?_⟩
  · constructor
    · rintro ⟨bytes, hok⟩
      obtain ⟨text', htext, -⟩ := (hexField_ok hn).mp hok
      obtain ⟨heq, hdigits⟩ := hexText_iff.mp htext
      cases heq
      exact hdigits
    · intro hdigits
      have htext := hexText_iff.mpr ⟨rfl, hdigits⟩
      obtain ⟨bytes, hbytes, -⟩ := exists_fromHex htext.2.1 hdigits.2
      exact ⟨bytes, (hexField_ok hn).mpr ⟨text, htext, hbytes⟩⟩
  · intro bytes hok
    obtain ⟨text', htext, hbytes⟩ := (hexField_ok hn).mp hok
    obtain ⟨heq, hlength, hdigits⟩ := hexText_iff.mp htext
    cases heq
    have hdenotes := denotes_of_fromHexChars hdigits hbytes
    have hcount := hdenotes.1
    rw [String.length_toList] at hcount
    exact ⟨by omega, hdenotes⟩
  · rw [isHexBytes_iff, Nat.mul_comm]
    exact Iff.rfl

/-- Both letter cases are digits. -/
theorem hex_fields_exact_two :
    ∃ bytes, hexField (.str "0aFF") "payload.keyId" 2 = .ok bytes ∧ bytes.length = 2 ∧
      Denotes "0aFF".toList bytes := by
  have hdigits : HexDigits 2 "0aFF" := by
    refine ⟨rfl, fun c hc => ?_⟩
    have hall := List.all_eq_true.mp
      (show "0aFF".toList.all (fun c => decide (IsHexDigit c)) = true by decide +kernel) c hc
    exact of_decide_eq_true hall
  have hn : 1 ≤ 2 := by omega
  obtain ⟨bytes, hok⟩ := (hex_fields_exact "0aFF" "payload.keyId" hn).1.mpr hdigits
  exact ⟨bytes, hok, (hex_fields_exact "0aFF" "payload.keyId" hn).2.1 bytes hok⟩

end Masterserver.Protocol
