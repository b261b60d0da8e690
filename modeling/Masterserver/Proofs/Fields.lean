import Masterserver.Proofs.Validation

/-!
# The formats of the fields

What a field's validator lets through, as a property of the text. A
hexadecimal field is measured and decoded, and the two together leave digits
only. A ciphertext has no length of its own, so there the decoder's blanks
stay in.
-/

namespace Masterserver.Protocol

open Lib

/-! ## Hexadecimal texts -/

def IsHexDigit (c : Char) : Prop := (hexValue? c).isSome = true

instance : DecidablePred IsHexDigit := fun _ => inferInstanceAs (Decidable (_ = true))

/-- Pairs of digits, with blanks in front of a pair or at the end: what
`bytes.fromhex` decodes. -/
inductive HexPairs : List Char → Prop
  | nil : HexPairs []
  | blank {c : Char} {rest : List Char} (h : isAsciiSpace c = true) :
      HexPairs rest → HexPairs (c :: rest)
  | pair {c d : Char} {rest : List Char} (hc : IsHexDigit c) (hd : IsHexDigit d) :
      HexPairs rest → HexPairs (c :: d :: rest)

theorem not_isHexDigit_of_isAsciiSpace {c : Char} (h : isAsciiSpace c = true) :
    ¬IsHexDigit c := by
  unfold isAsciiSpace at h
  unfold IsHexDigit hexValue?
  simp only [Bool.or_eq_true, decide_eq_true_eq, Bool.and_eq_true] at h
  simp only
  rw [if_neg (by omega), if_neg (by omega), if_neg (by omega)]
  exact Bool.false_ne_true

theorem utf8Size_of_isHexDigit {c : Char} (h : IsHexDigit c) : c.utf8Size = 1 := by
  have hlt : c.toNat < 128 := by
    by_contra hge
    unfold IsHexDigit hexValue? at h
    simp only at h
    rw [if_neg (by omega), if_neg (by omega), if_neg (by omega)] at h
    exact Bool.false_ne_true h
  have : c.val ≤ 0x7f := by
    show c.val.toNat ≤ 0x7f
    have : c.val.toNat = c.toNat := rfl
    omega
  simp [Char.utf8Size, this]

theorem utf8Size_of_isAsciiSpace {c : Char} (h : isAsciiSpace c = true) : c.utf8Size = 1 := by
  unfold isAsciiSpace at h
  simp only [Bool.or_eq_true, decide_eq_true_eq, Bool.and_eq_true] at h
  have : c.val ≤ 0x7f := by
    show c.val.toNat ≤ 0x7f
    have : c.val.toNat = c.toNat := rfl
    omega
  simp [Char.utf8Size, this]

theorem fromHexChars_blank {c : Char} (h : isAsciiSpace c = true) (rest : List Char) :
    fromHexChars (c :: rest) = fromHexChars rest := by
  rw [fromHexChars.eq_def]
  exact if_pos h

theorem fromHexChars_pair {c : Char} (h : isAsciiSpace c = false) (d : Char) (rest : List Char) :
    fromHexChars (c :: d :: rest) = (do
      let high ← hexValue? c
      let low ← hexValue? d
      let tail ← fromHexChars rest
      pure (UInt8.ofNat (16 * high + low) :: tail)) := by
  rw [fromHexChars.eq_def]
  simp only [h, Bool.false_eq_true, if_false]

/-- What decodes is made of pairs, and every other character is a blank. -/
theorem hexPairs_of_fromHexChars {cs : List Char} {bytes : Bytes}
    (h : fromHexChars cs = some bytes) :
    HexPairs cs ∧ cs.length = 2 * bytes.length + cs.countP isAsciiSpace := by
  induction cs using fromHexChars.induct generalizing bytes with
  | case1 =>
      cases h
      exact ⟨.nil, rfl⟩
  | case2 c rest hblank ih =>
      rw [fromHexChars_blank hblank] at h
      obtain ⟨hpairs, hlength⟩ := ih h
      refine ⟨.blank hblank hpairs, ?_⟩
      rw [List.length_cons, List.countP_cons, if_pos hblank]
      omega
  | case3 c hblank =>
      rw [fromHexChars, if_neg hblank] at h
      cases h
  | case4 c hblank d rest ih =>
      rw [Bool.not_eq_true] at hblank
      rw [fromHexChars_pair hblank] at h
      obtain ⟨high, hhigh, low, hlow, tail, htail, rfl⟩ : ∃ high, hexValue? c = some high ∧
          ∃ low, hexValue? d = some low ∧ ∃ tail, fromHexChars rest = some tail ∧
            UInt8.ofNat (16 * high + low) :: tail = bytes := by
        simpa [Option.bind_eq_some_iff] using h
      have hc : IsHexDigit c := Option.isSome_iff_exists.mpr ⟨high, hhigh⟩
      have hd : IsHexDigit d := Option.isSome_iff_exists.mpr ⟨low, hlow⟩
      have hblank' : isAsciiSpace d = false := by
        rw [← Bool.not_eq_true]
        exact fun hd' => not_isHexDigit_of_isAsciiSpace hd' hd
      obtain ⟨hpairs, hlength⟩ := ih htail
      refine ⟨.pair hc hd hpairs, ?_⟩
      rw [List.countP_cons, List.countP_cons, hblank, hblank']
      simp only [List.length_cons, Bool.false_eq_true, if_false]
      omega

theorem fromHexChars_of_hexPairs {cs : List Char} (h : HexPairs cs) :
    ∃ bytes, fromHexChars cs = some bytes := by
  induction h with
  | nil => exact ⟨[], rfl⟩
  | blank hblank _ ih =>
      rw [fromHexChars_blank hblank]
      exact ih
  | @pair c d rest hc hd _ ih =>
      obtain ⟨bytes, hbytes⟩ := ih
      obtain ⟨high, hhigh⟩ := Option.isSome_iff_exists.mp hc
      obtain ⟨low, hlow⟩ := Option.isSome_iff_exists.mp hd
      have hblank : isAsciiSpace c = false := by
        rw [← Bool.not_eq_true]
        exact fun hc' => not_isHexDigit_of_isAsciiSpace hc' hc
      rw [fromHexChars_pair hblank, hhigh, hlow, hbytes]
      exact ⟨_, rfl⟩

/-- Only ASCII characters decode. -/
theorem HexPairs.utf8Len {cs : List Char} (h : HexPairs cs) : String.utf8Len cs = cs.length := by
  induction h with
  | nil => rfl
  | blank hblank _ ih =>
      rw [String.utf8Len_cons, ih, utf8Size_of_isAsciiSpace hblank, List.length_cons]
  | pair hc hd _ ih =>
      rw [String.utf8Len_cons, String.utf8Len_cons, ih, utf8Size_of_isHexDigit hc,
        utf8Size_of_isHexDigit hd]
      rfl

theorem utf8Len_of_forall {cs : List Char} (h : ∀ c ∈ cs, IsHexDigit c) :
    String.utf8Len cs = cs.length := by
  induction cs with
  | nil => rfl
  | cons c rest ih =>
      rw [String.utf8Len_cons, utf8Size_of_isHexDigit (h c List.mem_cons_self),
        ih fun x hx => h x (List.mem_cons_of_mem c hx), List.length_cons]

/-- Digits alone, an even number of them, are pairs. -/
theorem hexPairs_of_forall : ∀ {cs : List Char}, (∀ c ∈ cs, IsHexDigit c) →
    cs.length % 2 = 0 → HexPairs cs
  | [], _, _ => .nil
  | [_], _, h => by simp at h
  | c :: d :: rest, hcs, h =>
      .pair (hcs c (by simp)) (hcs d (by simp))
        (hexPairs_of_forall (fun x hx => hcs x (by simp [hx]))
          (by simp only [List.length_cons] at h; omega))

theorem HexPairs.forall_of_no_blank {cs : List Char} (h : HexPairs cs)
    (hno : ∀ c ∈ cs, isAsciiSpace c = false) : ∀ c ∈ cs, IsHexDigit c := by
  induction h with
  | nil => nofun
  | @blank c rest hblank _ _ =>
      rw [hno c List.mem_cons_self] at hblank
      cases hblank
  | @pair c d rest hc hd _ ih =>
      intro x hx
      rcases List.mem_cons.mp hx with rfl | hx
      · exact hc
      rcases List.mem_cons.mp hx with rfl | hx
      · exact hd
      · exact ih (fun y hy => hno y (by simp [hy])) x hx

/-! ## The fields -/

theorem utf8ByteSize_eq (s : String) : s.utf8ByteSize = String.utf8Len s.toList := by
  rw [← String.utf8ByteSize_ofList, String.ofList_toList]

/-- A text of this many hexadecimal digits. -/
def HexText (digits : Nat) (value : Json) (text : String) : Prop :=
  value = .str text ∧ text.length = digits ∧ ∀ c ∈ text.toList, IsHexDigit c

/-- A text whose encoding has between so many and so many bytes. -/
def TextOf (low high : Nat) (value : Json) (text : String) : Prop :=
  value = .str text ∧ low ≤ text.utf8ByteSize ∧ text.utf8ByteSize ≤ high

/-- The lower-case digest of a route. -/
def TagText (value : Json) (tag : String) : Prop :=
  value = .str tag ∧ tag.length = 64 ∧ ∀ c ∈ tag.toList, isLowerHex c = true

def maxCiphertextDigits : Nat := 96 * 1024

/-- A positive even number of digits. -/
def HexCiphertext (value : Json) : Prop :=
  ∃ text, value = .str text ∧ 0 < text.length ∧ text.length % 2 = 0 ∧
    text.length ≤ maxCiphertextDigits ∧ ∀ c ∈ text.toList, IsHexDigit c

/-- Pairs of digits with a blank among them, an even number of characters in
all. -/
def SpacedCiphertext (value : Json) : Prop :=
  ∃ text, value = .str text ∧ text.length % 2 = 0 ∧ text.length ≤ maxCiphertextDigits ∧
    HexPairs text.toList ∧ ∃ c ∈ text.toList, isAsciiSpace c = true

theorem exactText_ok {value : Json} {field text : String} {exact : Nat} (h : 0 < exact) :
    exactText value field exact = .ok text ↔ TextOf exact exact value text := by
  unfold exactText TextOf
  cases value with
  | str s =>
      simp only [fail]
      split
      · next hne =>
          refine ⟨(fun h => by cases h), ?_⟩
          rintro ⟨heq, hlow, hhigh⟩
          cases heq
          omega
      · next hsize =>
          rw [not_or, not_not] at hsize
          simp only [Except.ok.injEq, Json.str.injEq]
          refine ⟨fun h => ?_, fun h => h.1⟩
          subst h
          exact ⟨rfl, hsize.2.ge, hsize.2.le⟩
  | _ => exact ⟨(fun h => by cases h), fun h => by cases h.1⟩

theorem boundedText_ok {value : Json} {field text : String} {maximum : Nat} :
    boundedText value field maximum = .ok text ↔ TextOf 1 maximum value text := by
  unfold boundedText TextOf
  cases value with
  | str s =>
      simp only [fail]
      split
      · next hne =>
          refine ⟨(fun h => by cases h), ?_⟩
          rintro ⟨heq, hlow, hhigh⟩
          cases heq
          omega
      · next hlen =>
          simp only [Except.ok.injEq, Json.str.injEq]
          refine ⟨fun h => ?_, fun h => h.1⟩
          subst h
          exact ⟨rfl, by omega, by omega⟩
  | _ => exact ⟨(fun h => by cases h), fun h => by cases h.1⟩

theorem HexPairs.utf8ByteSize {text : String} (h : HexPairs text.toList) :
    text.utf8ByteSize = text.length := by
  rw [utf8ByteSize_eq, h.utf8Len, String.length_toList]

/-- A text that is twice as long as its bytes has no room for a blank. -/
theorem isHexDigit_of_fromHex {text : String} {bytes : Bytes} (h : fromHex text = some bytes)
    (hlength : text.length = bytes.length * 2) : ∀ c ∈ text.toList, IsHexDigit c := by
  obtain ⟨hpairs, hcount⟩ := hexPairs_of_fromHexChars h
  rw [String.length_toList] at hcount
  have hzero : text.toList.countP isAsciiSpace = 0 := by omega
  refine hpairs.forall_of_no_blank fun c hc => ?_
  simpa using List.countP_eq_zero.mp hzero c hc

/-- Digits alone decode, two to a byte. -/
theorem exists_fromHex {text : String} {n : Nat} (hlength : text.length = n * 2)
    (hdigits : ∀ c ∈ text.toList, IsHexDigit c) :
    ∃ bytes, fromHex text = some bytes ∧ bytes.length = n := by
  have hpairs : HexPairs text.toList :=
    hexPairs_of_forall hdigits (by rw [String.length_toList]; omega)
  obtain ⟨bytes, hbytes⟩ := fromHexChars_of_hexPairs hpairs
  have hzero : text.toList.countP isAsciiSpace = 0 := by
    rw [List.countP_eq_zero]
    exact fun c hc hblank => not_isHexDigit_of_isAsciiSpace hblank (hdigits c hc)
  have hcount := (hexPairs_of_fromHexChars hbytes).2
  rw [String.length_toList] at hcount
  exact ⟨bytes, hbytes, by omega⟩

theorem hexField_ok {value : Json} {field : String} {byteLength : Nat} {bytes : Bytes}
    (h : 0 < byteLength) :
    hexField value field byteLength = .ok bytes ↔
      ∃ text, HexText (byteLength * 2) value text ∧ fromHex text = some bytes := by
  unfold hexField
  rw [bind_eq_ok]
  have hexact {text : String} : exactText value field (byteLength * 2) = .ok text ↔
      TextOf (byteLength * 2) (byteLength * 2) value text := exactText_ok (by omega)
  constructor
  · rintro ⟨text, htext, hdecode⟩
    obtain ⟨hvalue, hlow, hhigh⟩ := hexact.mp htext
    cases hbytes : fromHex text with
    | none =>
        rw [hbytes] at hdecode
        cases hdecode
    | some decoded =>
        rw [hbytes] at hdecode
        simp only at hdecode
        split at hdecode
        · cases hdecode
        · next hlength =>
            cases hdecode
            rw [ne_eq, not_not] at hlength
            have hsize := HexPairs.utf8ByteSize (hexPairs_of_fromHexChars hbytes).1
            have htwice : text.length = bytes.length * 2 := by omega
            exact ⟨text, ⟨hvalue, by omega, isHexDigit_of_fromHex hbytes htwice⟩, hbytes⟩
  · rintro ⟨text, ⟨hvalue, hlength, hdigits⟩, hbytes⟩
    obtain ⟨decoded, hdecoded, hcount⟩ := exists_fromHex hlength hdigits
    rw [hbytes, Option.some.injEq] at hdecoded
    subst hdecoded
    have hsize := HexPairs.utf8ByteSize (hexPairs_of_fromHexChars hbytes).1
    refine ⟨text, hexact.mpr ⟨hvalue, by omega, by omega⟩, ?_⟩
    rw [hbytes]
    simp only
    rw [if_neg (by omega)]

theorem hexFieldText_ok {value : Json} {field text : String} {byteLength : Nat}
    (h : 0 < byteLength) :
    hexFieldText value field byteLength = .ok text ↔ HexText (byteLength * 2) value text := by
  unfold hexFieldText
  simp only [bind_eq_ok, hexField_ok h]
  constructor
  · rintro ⟨bytes, ⟨text', ⟨rfl, hdigits⟩, -⟩, htext⟩
    cases htext
    exact ⟨rfl, hdigits⟩
  · rintro ⟨rfl, hlength, hdigits⟩
    obtain ⟨bytes, hbytes, -⟩ := exists_fromHex hlength hdigits
    exact ⟨bytes, ⟨text, ⟨rfl, hlength, hdigits⟩, hbytes⟩, rfl⟩

theorem isHexBytes_iff {text : String} {length : Nat} :
    isHexBytes text length = true ↔
      text.length = length * 2 ∧ ∀ c ∈ text.toList, IsHexDigit c := by
  unfold isHexBytes
  split
  · next hlength =>
      constructor
      · intro h
        split at h
        · next bytes hbytes =>
            have hcount := of_decide_eq_true h
            exact ⟨hlength, isHexDigit_of_fromHex hbytes (by rw [hcount, hlength])⟩
        · cases h
      · rintro ⟨-, hdigits⟩
        obtain ⟨bytes, hbytes, hcount⟩ := exists_fromHex hlength hdigits
        rw [hbytes]
        exact decide_eq_true hcount
  · next hlength => exact ⟨nofun, fun h => absurd h.1 hlength⟩

theorem isHexDigit_of_isLowerHex {c : Char} (h : isLowerHex c = true) : IsHexDigit c := by
  unfold isLowerHex at h
  rw [Bool.and_eq_true] at h
  exact h.1

theorem validateRouteTag_ok {payload : Payload} {tag : String} :
    validateRouteTag payload = .ok tag ↔ TagText (payload.get "routeTag") tag := by
  unfold validateRouteTag
  rw [bind_eq_ok]
  constructor
  · rintro ⟨s, hs, h⟩
    obtain ⟨hvalue, hlow, hhigh⟩ := (exactText_ok (by decide)).mp hs
    split at h
    · next hlower =>
        cases h
        rw [List.all_eq_true] at hlower
        have hsize : tag.utf8ByteSize = tag.length := by
          rw [utf8ByteSize_eq, utf8Len_of_forall fun c hc => isHexDigit_of_isLowerHex (hlower c hc),
            String.length_toList]
        exact ⟨hvalue, by omega, hlower⟩
    · cases h
  · rintro ⟨hvalue, hlength, hlower⟩
    have hpairs : HexPairs tag.toList :=
      hexPairs_of_forall (fun c hc => isHexDigit_of_isLowerHex (hlower c hc))
        (by rw [String.length_toList]; omega)
    have hsize := HexPairs.utf8ByteSize hpairs
    refine ⟨tag, (exactText_ok (by decide)).mpr ⟨hvalue, by omega, by omega⟩, ?_⟩
    rw [if_pos (List.all_eq_true.mpr hlower)]
    rfl

/-- A ciphertext passes with blanks in it. -/
theorem validateCiphertext_ok {value : Json} :
    validateCiphertext value = .ok () ↔ HexCiphertext value ∨ SpacedCiphertext value := by
  have hstep : validateCiphertext value = .ok () ↔ ∃ text, TextOf 1 maxCiphertextDigits value text ∧
      text.length % 2 = 0 ∧ HexPairs text.toList := by
    unfold validateCiphertext
    rw [bind_eq_ok]
    refine exists_congr fun text => ?_
    rw [boundedText_ok]
    refine and_congr_right fun _ => ?_
    cases hbytes : fromHex text with
    | none =>
        simp only [fail_bind]
        refine ⟨fun h => ?_, fun h => ?_⟩
        · split at h <;> cases h
        · obtain ⟨bytes, hsome⟩ := fromHexChars_of_hexPairs h.2
          rw [fromHex, hsome] at hbytes
          cases hbytes
    | some bytes =>
        simp only [fail_bind]
        split
        · next hodd => exact ⟨nofun, fun h => absurd h.1 hodd⟩
        · next heven =>
            exact ⟨fun _ => ⟨not_not.mp heven, (hexPairs_of_fromHexChars hbytes).1⟩, fun _ => rfl⟩
  rw [hstep]
  constructor
  · rintro ⟨text, ⟨hvalue, hlow, hhigh⟩, heven, hpairs⟩
    have hsize := HexPairs.utf8ByteSize hpairs
    by_cases hblank : ∃ c ∈ text.toList, isAsciiSpace c = true
    · exact .inr ⟨text, hvalue, heven, by omega, hpairs, hblank⟩
    · refine .inl ⟨text, hvalue, by omega, heven, by omega, hpairs.forall_of_no_blank ?_⟩
      intro c hc
      rw [← Bool.not_eq_true]
      exact fun hc' => hblank ⟨c, hc, hc'⟩
  · rintro (⟨text, hvalue, hpos, heven, hle, hdigits⟩ | ⟨text, hvalue, heven, hle, hpairs, c, hc, -⟩)
    · have hpairs : HexPairs text.toList :=
        hexPairs_of_forall hdigits (by rw [String.length_toList]; exact heven)
      have hsize := HexPairs.utf8ByteSize hpairs
      exact ⟨text, ⟨hvalue, by omega, by omega⟩, heven, hpairs⟩
    · have hsize := HexPairs.utf8ByteSize hpairs
      have hpos := List.length_pos_of_mem hc
      rw [String.length_toList] at hpos
      exact ⟨text, ⟨hvalue, by omega, by omega⟩, heven, hpairs⟩

theorem validateSequence_ok {value : Json} {n : Nat} :
    validateSequence value = .ok n ↔ value = .int n ∧ n ≤ 0xFFFFFFFF := by
  unfold validateSequence
  cases value with
  | int i =>
      simp only
      split
      · simp only [Except.ok.injEq, Json.int.injEq]
        omega
      · refine ⟨nofun, ?_⟩
        rintro ⟨heq, hle⟩
        cases heq
        omega
  | _ => exact ⟨nofun, nofun⟩

theorem validateExpiry_ok {value : Json} {n : Int} :
    validateExpiry value = .ok n ↔ value = .int n := by
  unfold validateExpiry
  cases value with
  | int i => simp
  | _ => exact ⟨nofun, nofun⟩

/-! ## The payloads -/

/-- The fields of a signal are the ones its payload has, in their formats. -/
structure Signal.Reads (payload : Payload) (signal : Signal) : Prop where
  payload_eq : signal.payload = payload
  fields : (payload.map Prod.fst).Perm signalFields
  routeTag : TagText (payload.get "routeTag") signal.routeTag
  toSessionId : TextOf 1 64 (payload.get "toSessionId") signal.toSessionId
  fromSessionId : TextOf 1 64 (payload.get "fromSessionId") signal.fromSessionId
  messageId : TextOf 1 128 (payload.get "messageId") signal.messageId
  keyId : TextOf 1 128 (payload.get "keyId") signal.keyId
  senderKeyId : TextOf 64 64 (payload.get "senderKeyId") signal.senderKeyId
  senderIdentityKeyHex :
    HexText (65 * 2) (payload.get "senderIdentityKeyHex") signal.senderIdentityKeyHex
  encHex : ∃ text, HexText (65 * 2) (payload.get "encHex") text
  signatureHex : HexText (64 * 2) (payload.get "signatureHex") signal.signatureHex
  ciphertextHex : HexCiphertext (payload.get "ciphertextHex") ∨
    SpacedCiphertext (payload.get "ciphertextHex")
  sequence : payload.get "sequence" = .int signal.sequence ∧ signal.sequence ≤ 0xFFFFFFFF
  expiresAt : payload.get "expiresAt" = .int signal.expiresAt

theorem bind_unless_ok {α : Type} {c : Prop} [Decidable c] {code message : String}
    {f : Unit → Except Raised α} {a : α} :
    (if c then (fail code message >>= f) else f ()) = .ok a ↔ ¬c ∧ f () = .ok a := by
  split
  · next h => exact ⟨nofun, fun h' => absurd h h'.1⟩
  · next h => exact ⟨fun h' => ⟨h, h'⟩, fun h' => h'.2⟩

theorem hasExactly_iff {payload : Payload} {names : List String} :
    payload.hasExactly names = true ↔ (payload.map Prod.fst).Perm names := List.isPerm_iff

theorem validateSignalV2_ok {payload : Payload} {signal : Signal} :
    validateSignalV2 payload = .ok signal ↔ signal.Reads payload := by
  unfold validateSignalV2
  simp only [bind_eq_ok, bind_unless_ok, validateRouteTag_ok, boundedText_ok,
    exactText_ok (show 0 < 64 by decide), hexFieldText_ok (show 0 < 65 by decide),
    hexFieldText_ok (show 0 < 64 by decide), validateSequence_ok, validateExpiry_ok,
    Bool.not_eq_true', Bool.not_eq_false, hasExactly_iff]
  constructor
  · rintro ⟨routeTag, hroute, hfields, toSessionId, hto, fromSessionId, hfrom, messageId, hmessage,
      keyId, hkey, senderKeyId, hsender, senderIdentityKeyHex, hidentity, encHex, henc,
      signatureHex, hsignature, ⟨⟩, hciphertext, sequence, hsequence, expiresAt, hexpires, heq⟩
    cases heq
    exact ⟨rfl, hfields, hroute, hto, hfrom, hmessage, hkey, hsender, hidentity, ⟨encHex, henc⟩,
      hsignature, validateCiphertext_ok.mp hciphertext, hsequence, hexpires⟩
  · intro h
    obtain ⟨encHex, henc⟩ := h.encHex
    refine ⟨_, h.routeTag, h.fields, _, h.toSessionId, _, h.fromSessionId, _, h.messageId, _,
      h.keyId, _, h.senderKeyId, _, h.senderIdentityKeyHex, encHex, henc, _, h.signatureHex, (),
      validateCiphertext_ok.mpr h.ciphertextHex, _, h.sequence, _, h.expiresAt, ?_⟩
    rw [← h.payload_eq]
    rfl

end Masterserver.Protocol
