import Masterserver.Lib.JsonDecode

/-!
# What the encoder writes, the decoder reads

The round trip is shown for the values without floating-point numbers whose
integers are not too long to be read and whose objects name each member once
(`Plain`); a text can be any text. The argument follows the encoder: a string
body is read back character by character, a number up to the character after
it, and the rest is an induction over the value. Twice the length of the
encoding is fuel enough, since every step down is paid for by a bracket and
every step along by a comma.
-/

namespace Lib

/-! ## Strings -/

theorem hexValue?_hexDigit : ∀ n, n < 16 → hexValue? (hexDigit n) = some n := by decide

theorem backslash_ne_quoteMark : backslash ≠ quoteMark := by decide

theorem scanString_quoteMark (rest : List Char) : scanString (quoteMark :: rest) = some ([], rest) := by
  rw [scanString.eq_def]
  simp

theorem scanString_plain {c : Char} (hquote : c ≠ quoteMark) (hslash : c ≠ backslash)
    (hcontrol : ¬ c.toNat < 32) (rest : List Char) :
    scanString (c :: rest) = (scanString rest).map fun p => (c.toNat :: p.1, p.2) := by
  rw [scanString.eq_def]
  simp only [if_neg hquote, if_neg hslash, if_neg hcontrol]
  cases scanString rest <;> rfl

theorem scanString_escape {e : Char} {code : Nat} (he : e ≠ 'u') (hcode : escaped? e = some code)
    (rest : List Char) :
    scanString (backslash :: e :: rest) =
      (scanString rest).map fun p => (code :: p.1, p.2) := by
  rw [scanString.eq_def]
  simp only [if_neg backslash_ne_quoteMark, if_true, if_neg he, hcode, Option.bind_eq_bind,
    Option.bind_some]
  cases scanString rest <;> rfl

theorem scanString_hex {h₁ h₂ h₃ h₄ : Char} {code : Nat} (hcode : hex4? h₁ h₂ h₃ h₄ = some code)
    (rest : List Char) :
    scanString (backslash :: 'u' :: h₁ :: h₂ :: h₃ :: h₄ :: rest) =
      (scanString rest).map fun p => (code :: p.1, p.2) := by
  rw [scanString.eq_def]
  simp only [if_neg backslash_ne_quoteMark, if_true, hcode, Option.bind_eq_bind,
    Option.bind_some]
  cases scanString rest <;> rfl

theorem scanString_escapeChar (c : Char) (rest : List Char) :
    scanString (escapeChar c ++ rest) =
      (scanString rest).map fun p => (c.toNat :: p.1, p.2) := by
  have hshort {e : Char} {n : Nat} (he : e ≠ 'u') (hn : escaped? e = some n) (hc : c.toNat = n) :
      scanString ([backslash, e] ++ rest) =
        (scanString rest).map fun p => (c.toNat :: p.1, p.2) := by
    rw [hc]
    exact scanString_escape he hn rest
  unfold escapeChar
  split
  · next h => exact hshort (by decide) rfl (by rw [h]; rfl)
  split
  · next h => exact hshort (by decide) rfl (by rw [h]; rfl)
  split
  · next h => exact hshort (by decide) rfl h
  split
  · next h => exact hshort (by decide) rfl h
  split
  · next h => exact hshort (by decide) rfl h
  split
  · next h => exact hshort (by decide) rfl h
  split
  · next h => exact hshort (by decide) rfl h
  split
  · next h =>
      -- The two digits of a control character, after two zeros.
      have hhigh := hexValue?_hexDigit (c.toNat / 16) (by omega)
      have hlow := hexValue?_hexDigit (c.toNat % 16) (by omega)
      have hcode : hex4? '0' '0' (hexDigit (c.toNat / 16)) (hexDigit (c.toNat % 16)) =
          some c.toNat := by
        have hsum : 16 * (c.toNat / 16) + c.toNat % 16 = c.toNat := by omega
        simp only [hex4?, show hexValue? '0' = some 0 from rfl, hhigh, hlow,
          Option.bind_eq_bind, Option.bind_some, Option.pure_def]
        exact congrArg some (by omega)
      exact scanString_hex hcode rest
  · next hquote hslash _ _ _ _ _ hcontrol => exact scanString_plain hquote hslash hcontrol rest

theorem scanString_body (cs rest : List Char) :
    scanString (cs.flatMap escapeChar ++ quoteMark :: rest) = some (cs.map Char.toNat, rest) := by
  induction cs with
  | nil => exact scanString_quoteMark rest
  | cons c cs ih =>
      rw [List.flatMap_cons, List.append_assoc, scanString_escapeChar, ih]
      rfl

theorem not_isSurrogate (c : Char) : isSurrogate c.toNat = false := by
  have hvalid := c.valid
  simp only [UInt32.isValidChar, Nat.isValidChar] at hvalid
  have hval : c.val.toNat = c.toNat := rfl
  unfold isSurrogate isHighSurrogate isLowSurrogate
  simp only [Bool.or_eq_false_iff, decide_eq_false_iff_not]
  omega

/-- The halves of a pair only ever come from escapes. -/
theorem joinSurrogates_toNat (cs : List Char) :
    joinSurrogates (cs.map Char.toNat) = cs.map Char.toNat := by
  induction cs with
  | nil => rfl
  | cons c rest ih =>
      cases rest with
      | nil => rfl
      | cons d tail =>
          have hhigh : isHighSurrogate c.toNat = false := by
            have h := not_isSurrogate c
            unfold isSurrogate at h
            exact (Bool.or_eq_false_iff.mp h).1
          simp only [List.map_cons] at ih ⊢
          rw [joinSurrogates, hhigh, Bool.false_and, if_neg Bool.false_ne_true, ih]

theorem textOf_codePoints (s : String) : textOf (codePoints s) = s := by
  unfold textOf codePoints
  rw [List.map_map]
  have hid : Char.ofNat ∘ Char.toNat = id := funext fun c => Char.ofNat_toNat c
  rw [hid, List.map_id, String.ofList_toList]

theorem scanString_quote (s : String) (rest : List Char) :
    ∃ body, quote s ++ rest = quoteMark :: body ∧
      scanString body = some (codePoints s, rest) := by
  refine ⟨s.toList.flatMap escapeChar ++ quoteMark :: rest, ?_, scanString_body _ _⟩
  simp [quote]

/-! ## Numbers -/

/-- What stands after a value inside an array or an object, or at the end. -/
def Delimited (rest : List Char) : Prop :=
  ∀ c tail, rest = c :: tail → c = ',' ∨ c = ']' ∨ c = '\x7d'

theorem delimited_nil : Delimited [] := by
  intro c tail h
  cases h

theorem delimited_cons {c : Char} (h : c = ',' ∨ c = ']' ∨ c = '\x7d') (tail : List Char) :
    Delimited (c :: tail) := by
  intro c' tail' heq
  cases heq
  exact h

theorem Delimited.not_isDigit {c : Char} {tail : List Char} (h : Delimited (c :: tail)) :
    c.isDigit = false := by
  rcases h c tail rfl with rfl | rfl | rfl <;> rfl

/-- The next character, if there is one, is no digit. -/
def NoDigit (rest : List Char) : Prop := ∀ c tail, rest = c :: tail → c.isDigit = false

theorem Delimited.noDigit {rest : List Char} (h : Delimited rest) : NoDigit rest := by
  rintro c tail rfl
  exact h.not_isDigit

theorem takeDigits_append {digits rest : List Char} (hd : ∀ c ∈ digits, c.isDigit = true)
    (hrest : NoDigit rest) : takeDigits (digits ++ rest) = (digits, rest) := by
  have hstop : rest.takeWhile Char.isDigit = [] ∧ rest.dropWhile Char.isDigit = rest := by
    cases rest with
    | nil => exact ⟨rfl, rfl⟩
    | cons c tail => simp [hrest c tail rfl]
  unfold takeDigits
  rw [List.takeWhile_append_of_pos hd, List.dropWhile_append_of_pos hd, hstop.1, hstop.2,
    List.append_nil]

theorem scanFraction_of_delimited {rest : List Char} (h : Delimited rest) :
    scanFraction rest = ([], rest) := by
  unfold scanFraction
  split
  · rcases h _ _ rfl with h | h | h <;> exact absurd h (by decide)
  · rfl

theorem scanExponent_of_delimited {rest : List Char} (h : Delimited rest) :
    scanExponent rest = (none, rest) := by
  cases rest with
  | nil => rfl
  | cons c tail =>
      have hno : ¬ (c = 'e' ∨ c = 'E') := by
        rcases h c tail rfl with rfl | rfl | rfl <;> decide
      simp [scanExponent, hno]

theorem digitChar_ne_zero : ∀ n, n < 10 → 0 < n → n.digitChar ≠ '0' := by decide

/-- Only zero is written with a leading zero. -/
theorem toDigits_eq_cons {n : Nat} (h : 0 < n) :
    ∃ c tail, Nat.toDigits 10 n = c :: tail ∧ c ≠ '0' := by
  induction n using Nat.strongRecOn with
  | ind n ih =>
      rw [Nat.toDigits_eq_if (by decide)]
      by_cases hsmall : n < 10
      · rw [if_pos hsmall]
        exact ⟨_, [], rfl, digitChar_ne_zero n hsmall h⟩
      · rw [if_neg hsmall]
        obtain ⟨c, tail, heq, hc⟩ := ih (n / 10) (by omega) (by omega)
        exact ⟨c, tail ++ [(n % 10).digitChar], by rw [heq]; rfl, hc⟩

theorem scanWhole_toDigits (n : Nat) {rest : List Char} (hrest : Delimited rest) :
    scanWhole (Nat.toDigits 10 n ++ rest) = (Nat.toDigits 10 n, rest) := by
  rcases Nat.eq_zero_or_pos n with rfl | hpos
  · rfl
  · obtain ⟨c, tail, heq, hc⟩ := toDigits_eq_cons hpos
    have hdigits : ∀ c ∈ Nat.toDigits 10 n, c.isDigit = true := fun c hc =>
      Nat.isDigit_of_mem_toDigits (by decide) (by decide) hc
    have htake := takeDigits_append hdigits hrest.noDigit
    rw [heq, List.cons_append] at htake ⊢
    unfold scanWhole
    split
    · next h => exact absurd (List.cons.inj h).1 hc
    · exact htake

theorem toDigits_ne_nil (n : Nat) : Nat.toDigits 10 n ≠ [] :=
  List.ne_nil_of_length_pos Nat.length_toDigits_pos

theorem scanNumber_toDigits (negative : Bool) (n : Nat) {rest : List Char}
    (hlen : (Nat.toDigits 10 n).length ≤ maxStrDigits) (hrest : Delimited rest) :
    scanNumber negative (Nat.toDigits 10 n ++ rest) =
      some (.int (if negative then -(n : Int) else n), rest) := by
  unfold scanNumber
  simp only [scanWhole_toDigits n hrest, scanFraction_of_delimited hrest,
    scanExponent_of_delimited hrest, if_neg (toDigits_ne_nil n), and_self, if_true, hlen,
    digitsValue, Nat.ofDigitChars_ten_toDigits]

theorem toList_toString_int (n : Int) :
    (toString n).toList =
      if n < 0 then '-' :: Nat.toDigits 10 n.natAbs else Nat.toDigits 10 n.natAbs := by
  have hrepr (m : Nat) : (toString m).toList = Nat.toDigits 10 m := by
    rw [show toString m = m.repr from rfl, Nat.repr_eq_ofList_toDigits, String.toList_ofList]
  cases n with
  | ofNat m =>
      rw [if_neg (by simp)]
      exact hrepr m
  | negSucc m =>
      rw [if_pos (Int.negSucc_lt_zero m)]
      have hsign : (toString (Int.negSucc m)).toList = '-' :: (toString (m + 1)).toList :=
        String.toList_append
      rw [hsign, hrepr]
      rfl

/-! ## Values -/

namespace Json

mutual

/-- No floating-point numbers, no integer too long to be read, and no member
named twice. -/
def Plain : Json → Prop
  | .null | .bool _ | .str _ => True
  | .int n => (Nat.toDigits 10 n.natAbs).length ≤ maxStrDigits
  | .float _ => False
  | .arr items => PlainItems items
  | .obj members => (members.map Prod.fst).Nodup ∧ PlainMembers members

def PlainItems : List Json → Prop
  | [] => True
  | v :: rest => Plain v ∧ PlainItems rest

def PlainMembers : List (String × Json) → Prop
  | [] => True
  | (_, v) :: rest => Plain v ∧ PlainMembers rest

end

mutual

/-- What a plain value is read back as. -/
def decoded : Json → Decoded
  | .null | .float _ => .null
  | .bool b => .bool b
  | .int n => .int n
  | .str s => .str (codePoints s)
  | .arr items => .arr (decodedItems items)
  | .obj members => .obj (decodedMembers members)

def decodedItems : List Json → List Decoded
  | [] => []
  | v :: rest => decoded v :: decodedItems rest

def decodedMembers : List (String × Json) → List (CodePoints × Decoded)
  | [] => []
  | (name, v) :: rest => (codePoints name, decoded v) :: decodedMembers rest

end

theorem map_fst_decodedMembers (members : List (String × Json)) :
    (decodedMembers members).map Prod.fst = members.map fun m => codePoints m.1 := by
  induction members with
  | nil => rfl
  | cons m rest ih =>
      obtain ⟨name, v⟩ := m
      simp only [decodedMembers, List.map_cons, ih]

mutual

theorem toJson_decoded : ∀ v : Json, v.Plain → v.decoded.toJson = v
  | .null, _ => rfl
  | .bool _, _ => rfl
  | .int _, _ => rfl
  | .float _, h => h.elim
  | .str s, _ => by
      simp only [decoded, Decoded.toJson, textOf_codePoints]
  | .arr items, h => by
      simp only [decoded, Decoded.toJson, toJsonItems_decodedItems items h]
  | .obj members, h => by
      simp only [decoded, Decoded.toJson, toJsonMembers_decodedMembers members h.2]

theorem toJsonItems_decodedItems : ∀ items : List Json, PlainItems items →
    Decoded.toJsonItems (decodedItems items) = items
  | [], _ => rfl
  | v :: rest, h => by
      simp only [decodedItems, Decoded.toJsonItems, toJson_decoded v h.1,
        toJsonItems_decodedItems rest h.2]

theorem toJsonMembers_decodedMembers : ∀ members : List (String × Json), PlainMembers members →
    Decoded.toJsonMembers (decodedMembers members) = members
  | [], _ => rfl
  | (name, v) :: rest, h => by
      simp only [decodedMembers, Decoded.toJsonMembers, textOf_codePoints, toJson_decoded v h.1,
        toJsonMembers_decodedMembers rest h.2]

end

/-! ## Reading a value back -/

theorem skipBlank_cons {c : Char} (h : isBlank c = false) (rest : List Char) :
    skipBlank (c :: rest) = c :: rest := by
  rw [skipBlank, if_neg (by rw [h]; exact Bool.false_ne_true)]

theorem isBlank_of_isDigit {c : Char} (h : c.isDigit = true) : isBlank c = false := by
  have hrange : 48 ≤ c.toNat ∧ c.toNat ≤ 57 := by
    simp only [Char.isDigit, Bool.and_eq_true, decide_eq_true_eq] at h
    exact ⟨h.1, h.2⟩
  unfold isBlank
  simp only [Bool.or_eq_false_iff, decide_eq_false_iff_not]
  omega

/-- How a number or a word begins. -/
structure AtomStart (c : Char) : Prop where
  notBlank : isBlank c = false
  notQuote : c ≠ quoteMark
  notBracket : c ≠ '['
  notBrace : c ≠ '\x7b'
  notClose : c ≠ ']'

theorem atomStart_of_isDigit {c : Char} (h : c.isDigit = true) : AtomStart c := by
  refine ⟨isBlank_of_isDigit h, ?_, ?_, ?_, ?_⟩ <;>
    (rintro rfl; exact absurd h (by decide))

/-- A plain value is a string, an array, an object, or an atom. -/
theorem dumps_int_eq_cons (n : Int) :
    ∃ c tail, (Json.int n).dumps = c :: tail ∧ AtomStart c := by
  unfold dumps
  rw [toList_toString_int]
  split
  · exact ⟨_, _, rfl, by decide, by decide, by decide, by decide, by decide⟩
  · cases hd : Nat.toDigits 10 n.natAbs with
    | nil => exact absurd hd (toDigits_ne_nil _)
    | cons d tail =>
        refine ⟨d, tail, rfl, atomStart_of_isDigit ?_⟩
        exact Nat.isDigit_of_mem_toDigits (by decide) (by decide) (hd ▸ List.mem_cons_self)

/-- The first character of a value's encoding is no blank and closes nothing. -/
theorem dumps_eq_cons (v : Json) (h : v.Plain) :
    ∃ c tail, v.dumps = c :: tail ∧ isBlank c = false ∧ c ≠ ']' := by
  cases v with
  | null => exact ⟨_, _, rfl, by decide, by decide⟩
  | bool b => cases b <;> exact ⟨_, _, rfl, by decide, by decide⟩
  | int n =>
      obtain ⟨c, tail, heq, hstart⟩ := dumps_int_eq_cons n
      exact ⟨c, tail, heq, hstart.notBlank, hstart.notClose⟩
  | float text => exact h.elim
  | str s => exact ⟨_, _, rfl, by decide, by decide⟩
  | arr items => cases items <;> exact ⟨_, _, rfl, by decide, by decide⟩
  | obj members => cases members <;> exact ⟨_, _, rfl, by decide, by decide⟩

theorem dumpsItems_delimited (items : List Json) (rest : List Char) :
    Delimited (dumpsItems items ++ rest) := by
  cases items <;> exact delimited_cons (by decide) _

theorem dumpsMembers_delimited (members : List (String × Json)) (rest : List Char) :
    Delimited (dumpsMembers members ++ rest) := by
  cases members <;> exact delimited_cons (by decide) _

theorem skipBlank_of_delimited {rest : List Char} (h : Delimited rest) :
    skipBlank rest = rest := by
  cases rest with
  | nil => rfl
  | cons c tail =>
      refine skipBlank_cons ?_ tail
      rcases h c tail rfl with rfl | rfl | rfl <;> rfl

variable {ε : Type} {hooks : DecodeHooks ε}

theorem scanName_quote (name : String) (rest : List Char) :
    scanName hooks (quote name ++ ':' :: rest) = .ok (codePoints name, rest) := by
  obtain ⟨body, heq, hscan⟩ := scanString_quote name (':' :: rest)
  rw [heq, scanName, if_pos rfl, hscan]
  simp only [skipBlank_cons (show isBlank ':' = false from rfl), codePoints,
    joinSurrogates_toNat]

theorem scanAtom_digits {n : Nat} {rest : List Char}
    (hlen : (Nat.toDigits 10 n).length ≤ maxStrDigits) (hrest : Delimited rest) :
    scanAtom hooks (Nat.toDigits 10 n ++ rest) = .ok (.int n, rest) := by
  have hnumber := scanNumber_toDigits false n hlen hrest
  rw [if_neg Bool.false_ne_true] at hnumber
  cases hd : Nat.toDigits 10 n with
  | nil => exact absurd hd (toDigits_ne_nil n)
  | cons d digits =>
      have hdigit : d.isDigit = true :=
        Nat.isDigit_of_mem_toDigits (by decide) (by decide) (hd ▸ List.mem_cons_self)
      rw [hd, List.cons_append] at hnumber
      rw [List.cons_append]
      unfold scanAtom
      split
      · next heq =>
          rw [(List.cons.inj heq).1] at hdigit
          exact absurd hdigit (by decide)
      · rw [hnumber]

theorem scanAtom_int {n : Int} {rest : List Char} (h : (Json.int n).Plain)
    (hrest : Delimited rest) :
    scanAtom hooks ((Json.int n).dumps ++ rest) = .ok (.int n, rest) := by
  unfold dumps
  rw [toList_toString_int]
  by_cases hneg : n < 0
  · have hn : -(n.natAbs : Int) = n := by omega
    have hnumber := scanNumber_toDigits true n.natAbs h hrest
    rw [if_pos rfl, hn] at hnumber
    rw [if_pos hneg, List.cons_append]
    simp only [scanAtom, hnumber]
  · have hn : (n.natAbs : Int) = n := by omega
    rw [if_neg hneg, scanAtom_digits h hrest, hn]

theorem scanValue_quote (fuel : Nat) (s : String) (rest : List Char) :
    scanValue hooks (fuel + 1) (quote s ++ rest) = .ok (.str (codePoints s), rest) := by
  obtain ⟨body, heq, hscan⟩ := scanString_quote s rest
  rw [heq, scanValue, if_pos rfl, hscan]
  simp only [codePoints, joinSurrogates_toNat]

theorem scanValue_atom {c : Char} (h : AtomStart c) (fuel : Nat) (rest : List Char) :
    scanValue hooks (fuel + 1) (c :: rest) = scanAtom hooks (c :: rest) := by
  rw [scanValue, if_neg h.notQuote, if_neg h.notBracket, if_neg h.notBrace]

theorem scanValue_arr {c : Char} (hblank : isBlank c = false) (hclose : c ≠ ']') (fuel : Nat)
    (rest : List Char) :
    scanValue hooks (fuel + 1) ('[' :: c :: rest) = (do
      let (v, rest) ← scanValue hooks fuel (c :: rest)
      let (items, rest) ← scanItems hooks fuel (skipBlank rest)
      pure (.arr (v :: items), rest)) := by
  rw [scanValue, if_neg (by decide), if_pos rfl, skipBlank_cons hblank]
  split
  · next heq => exact absurd (List.cons.inj heq).1 hclose
  · rfl

theorem scanValue_obj (fuel : Nat) (rest : List Char) :
    scanValue hooks (fuel + 1) ('\x7b' :: quoteMark :: rest) = (do
      let (name, rest) ← scanName hooks (quoteMark :: rest)
      let (v, rest) ← scanValue hooks fuel (skipBlank rest)
      let (members, rest) ← scanMembers hooks fuel (skipBlank rest)
      hooks.pairs ((name, v) :: members)
      pure (.obj ((name, v) :: members), rest)) := by
  rw [scanValue, if_neg (by decide), if_neg (by decide), if_pos rfl,
    skipBlank_cons (by decide)]
  split
  · next heq => exact absurd (List.cons.inj heq).1 (by decide)
  · rfl

theorem nodup_map_fst_decodedMembers {members : List (String × Json)}
    (h : (members.map Prod.fst).Nodup) : ((decodedMembers members).map Prod.fst).Nodup := by
  have hinj : Function.Injective codePoints :=
    Function.LeftInverse.injective textOf_codePoints
  have hcomp : (members.map fun m => codePoints m.1) = (members.map Prod.fst).map codePoints := by
    rw [List.map_map]
    rfl
  rw [map_fst_decodedMembers, hcomp]
  exact h.map hinj

theorem exists_fuel {n fuel : Nat} (hn : 0 < n) (h : n ≤ fuel) :
    ∃ f, fuel = f + 1 ∧ n - 1 ≤ f := by
  cases fuel with
  | zero => omega
  | succ f => exact ⟨f, rfl, by omega⟩

theorem skipBlank_dumps {v : Json} (h : v.Plain) (rest : List Char) :
    skipBlank (v.dumps ++ rest) = v.dumps ++ rest := by
  obtain ⟨c, tail, heq, hblank, -⟩ := dumps_eq_cons v h
  rw [heq]
  exact skipBlank_cons hblank _

mutual

theorem scanValue_dumps (hpairs : ∀ members, (members.map Prod.fst).Nodup →
      hooks.pairs members = .ok ()) : ∀ (v : Json) (fuel : Nat) (rest : List Char), v.Plain →
    Delimited rest → v.dumps.length ≤ fuel →
    scanValue hooks fuel (v.dumps ++ rest) = .ok (v.decoded, rest)
  | .null, fuel, rest, _, _, hfuel => by
      obtain ⟨f, rfl, -⟩ := exists_fuel (by decide) hfuel
      exact scanValue_atom ⟨by decide, by decide, by decide, by decide, by decide⟩ f _
  | .bool b, fuel, rest, _, _, hfuel => by
      obtain ⟨f, rfl, -⟩ := exists_fuel (by cases b <;> decide) hfuel
      cases b <;>
        exact scanValue_atom ⟨by decide, by decide, by decide, by decide, by decide⟩ f _
  | .int n, fuel, rest, h, hrest, hfuel => by
      obtain ⟨c, tail, heq, hstart⟩ := dumps_int_eq_cons n
      obtain ⟨f, rfl, -⟩ := exists_fuel (by rw [heq]; exact Nat.succ_pos _) hfuel
      have hatom : scanAtom hooks _ = _ := scanAtom_int h hrest
      rw [heq, List.cons_append] at hatom ⊢
      rw [scanValue_atom hstart, hatom]
      rfl
  | .float _, _, _, h, _, _ => h.elim
  | .str s, fuel, rest, _, _, hfuel => by
      obtain ⟨f, rfl, -⟩ := exists_fuel (by simp [dumps, quote]) hfuel
      exact scanValue_quote f s rest
  | .arr [], fuel, rest, _, _, hfuel => by
      obtain ⟨f, rfl, -⟩ := exists_fuel (by decide) hfuel
      rfl
  | .arr (v :: items), fuel, rest, h, _, hfuel => by
      simp only [dumps, List.length_cons, List.length_append] at hfuel
      obtain ⟨f, rfl, hf⟩ := exists_fuel (Nat.succ_pos _) hfuel
      obtain ⟨c, tail, heq, hblank, hclose⟩ := dumps_eq_cons v h.1
      have hv := scanValue_dumps hpairs v f (dumpsItems items ++ rest) h.1
        (dumpsItems_delimited _ _) (by omega)
      have hitems := scanItems_dumpsItems hpairs items f rest h.2 (by omega)
      simp only [dumps, List.cons_append, List.append_assoc]
      rw [heq, List.cons_append] at hv ⊢
      rw [scanValue_arr hblank hclose, hv]
      simp only [bind, Except.bind, skipBlank_of_delimited (dumpsItems_delimited items rest), hitems]
      rfl
  | .obj [], fuel, rest, _, _, hfuel => by
      obtain ⟨f, rfl, -⟩ := exists_fuel (by decide) hfuel
      have hempty : hooks.pairs [] = .ok () := hpairs [] List.nodup_nil
      simp only [dumps, List.cons_append, List.nil_append]
      rw [scanValue, if_neg (by decide), if_neg (by decide), if_pos rfl,
        skipBlank_cons (by decide)]
      simp only [bind, Except.bind, hempty]
      rfl
  | .obj ((name, v) :: members), fuel, rest, h, _, hfuel => by
      simp only [dumps, List.length_cons, List.length_append] at hfuel
      obtain ⟨f, rfl, hf⟩ := exists_fuel (Nat.succ_pos _) hfuel
      have hv := scanValue_dumps hpairs v f (dumpsMembers members ++ rest) h.2.1
        (dumpsMembers_delimited _ _) (by omega)
      have hmembers := scanMembers_dumpsMembers hpairs members f rest h.2.2 (by omega)
      have hname : scanName hooks _ = _ :=
        scanName_quote name (v.dumps ++ (dumpsMembers members ++ rest))
      have hunique := hpairs _ (nodup_map_fst_decodedMembers h.1)
      obtain ⟨body, hbody, -⟩ := scanString_quote name
        (':' :: (v.dumps ++ (dumpsMembers members ++ rest)))
      simp only [dumps, List.cons_append, List.append_assoc]
      rw [hbody] at hname ⊢
      rw [scanValue_obj, hname]
      simp only [bind, Except.bind, skipBlank_dumps h.2.1, hv,
        skipBlank_of_delimited (dumpsMembers_delimited members rest), hmembers]
      simp only [decodedMembers] at hunique
      rw [hunique]
      rfl

theorem scanItems_dumpsItems (hpairs : ∀ members, (members.map Prod.fst).Nodup →
      hooks.pairs members = .ok ()) : ∀ (items : List Json) (fuel : Nat) (rest : List Char),
    PlainItems items → (dumpsItems items).length ≤ fuel →
    scanItems hooks fuel (dumpsItems items ++ rest) = .ok (decodedItems items, rest)
  | [], fuel, rest, _, hfuel => by
      obtain ⟨f, rfl, -⟩ := exists_fuel (by decide) hfuel
      rfl
  | v :: items, fuel, rest, h, hfuel => by
      simp only [dumpsItems, List.length_cons, List.length_append] at hfuel
      obtain ⟨f, rfl, hf⟩ := exists_fuel (Nat.succ_pos _) hfuel
      have hv := scanValue_dumps hpairs v f (dumpsItems items ++ rest) h.1
        (dumpsItems_delimited _ _) (by omega)
      have hitems := scanItems_dumpsItems hpairs items f rest h.2 (by omega)
      simp only [dumpsItems, List.cons_append, List.append_assoc]
      rw [scanItems, skipBlank_dumps h.1, hv]
      simp only [bind, Except.bind, skipBlank_of_delimited (dumpsItems_delimited items rest), hitems]
      rfl

theorem scanMembers_dumpsMembers (hpairs : ∀ members, (members.map Prod.fst).Nodup →
      hooks.pairs members = .ok ()) : ∀ (members : List (String × Json)) (fuel : Nat)
    (rest : List Char), PlainMembers members → (dumpsMembers members).length ≤ fuel →
    scanMembers hooks fuel (dumpsMembers members ++ rest) = .ok (decodedMembers members, rest)
  | [], fuel, rest, _, hfuel => by
      obtain ⟨f, rfl, -⟩ := exists_fuel (by decide) hfuel
      rfl
  | (name, v) :: members, fuel, rest, h, hfuel => by
      simp only [dumpsMembers, List.length_cons, List.length_append] at hfuel
      obtain ⟨f, rfl, hf⟩ := exists_fuel (Nat.succ_pos _) hfuel
      have hv := scanValue_dumps hpairs v f (dumpsMembers members ++ rest) h.1
        (dumpsMembers_delimited _ _) (by omega)
      have hmembers := scanMembers_dumpsMembers hpairs members f rest h.2 (by omega)
      have hname : scanName hooks _ = _ :=
        scanName_quote name (v.dumps ++ (dumpsMembers members ++ rest))
      have hblank : skipBlank (quote name ++ ':' :: (v.dumps ++ (dumpsMembers members ++ rest))) =
          quote name ++ ':' :: (v.dumps ++ (dumpsMembers members ++ rest)) :=
        skipBlank_cons (by decide) _
      simp only [dumpsMembers, List.cons_append, List.append_assoc]
      rw [scanMembers, hblank, hname]
      simp only [bind, Except.bind, skipBlank_dumps h.1, hv,
        skipBlank_of_delimited (dumpsMembers_delimited members rest), hmembers]
      rfl

end

/-- The encoding of a plain value is decoded, and to that value. -/
theorem decodeJson_dumps (hpairs : ∀ members, (members.map Prod.fst).Nodup →
      hooks.pairs members = .ok ()) {v : Json} (h : v.Plain) :
    decodeJson hooks v.dumps = .ok v.decoded := by
  have hscan := scanValue_dumps hpairs v (v.dumps.length + 1) [] h delimited_nil (Nat.le_succ _)
  have hblank := skipBlank_dumps h []
  rw [List.append_nil] at hscan hblank
  unfold decodeJson
  simp only [hblank, hscan, bind, Except.bind]
  rfl

end Json

end Lib
