import Masterserver.App.Hpke
import Masterserver.App.V2
import Masterserver.Lib.Outcome
import Masterserver.Proofs.Digests

/-!
# What is sealed opens

The sender and the recipient reach one shared secret, each from its own private
key, and from it one key and nonce, so the AEAD takes back what it made. On the
way lies the hexadecimal text of a signal: the checks of the endpoint pass it
unless it is too long, and what the recipient decodes are the bytes sealed.

`Purpose` lists what HMAC is called for. The labels in front keep the messages
apart, so no data of one purpose can stand in for data of another.
-/

namespace Masterserver

open Lib Protocol

variable {PrivateKey PublicKey : Type} {p : HpkePrimitives PrivateKey PublicKey}

/-- What the library documents of its primitives. The AEAD takes plaintexts and
associated data of less than 2^31 - 1 bytes. -/
structure HpkePrimitives.Lawful (p : HpkePrimitives PrivateKey PublicKey) : Prop where
  hmac_length : ∀ key message, (p.hmacSha256 key message).length = 32
  publicBytes_length : ∀ key, (p.publicBytes key).length = 65
  publicBytes_head : ∀ key, (p.publicBytes key).head? = some 4
  fromEncodedPoint_publicBytes : ∀ key, p.fromEncodedPoint (p.publicBytes key) = some key
  exchange_comm : ∀ a b, p.exchange a (p.publicKey b) = p.exchange b (p.publicKey a)
  encrypt : ∀ key nonce plaintext aad, key.length = 16 → nonce.length = 12 →
    plaintext.length < 2 ^ 31 - 1 → aad.length < 2 ^ 31 - 1 →
    ∃ ciphertext, p.encrypt key nonce plaintext aad = some ciphertext ∧
      ciphertext.length = plaintext.length + 16
  decrypt : ∀ key nonce plaintext aad ciphertext,
    p.encrypt key nonce plaintext aad = some ciphertext →
    p.decrypt key nonce ciphertext aad = some plaintext

namespace Hpke

/-! ## Expansion -/

theorem expandBlocks_ok (h : p.Lawful) (prk info : Bytes) (blocks counter : Nat)
    (hcounter : counter + blocks ≤ 256) (previous : Bytes) :
    ∃ output, expandBlocks p prk info blocks counter previous = .ok output ∧
      output.length = 32 * blocks := by
  induction blocks generalizing counter previous with
  | zero => exact ⟨[], rfl, rfl⟩
  | succ blocks ih =>
      obtain ⟨rest, hrest, hlength⟩ := ih (counter + 1) (by omega)
        (p.hmacSha256 prk (previous ++ info ++ [UInt8.ofNat counter]))
      refine ⟨p.hmacSha256 prk (previous ++ info ++ [UInt8.ofNat counter]) ++ rest, ?_, ?_⟩
      · rw [expandBlocks, if_pos (by omega)]
        simp only [hrest]
        rfl
      · rw [List.length_append, h.hmac_length, hlength]
        omega

/-- Up to 255 blocks come out, cut to the length asked for. -/
theorem expand_ok (h : p.Lawful) (prk info : Bytes) {length : Nat} (hlength : length ≤ 8160) :
    ∃ output, expand p prk info length = .ok output ∧ output.length = length := by
  obtain ⟨output, hok, hsize⟩ := expandBlocks_ok h prk info ((length + 31) / 32) 1 (by omega) []
  refine ⟨output.take length, ?_, ?_⟩
  · rw [expand, hok]
    rfl
  · rw [List.length_take, hsize]
    omega

theorem labeledExpand_ok (h : p.Lawful) (prk suiteId label info : Bytes) {length : Nat}
    (hlength : length ≤ 8160) :
    ∃ output, labeledExpand p prk suiteId label info length = .ok output ∧
      output.length = length := by
  obtain ⟨output, hok, hsize⟩ := expand_ok h prk
    ([UInt8.ofNat (length / 256), UInt8.ofNat (length % 256)] ++ ascii "HPKE-v1" ++ suiteId ++
      label ++ info) hlength
  refine ⟨output, ?_, hsize⟩
  rw [labeledExpand, toBytes2, if_pos (by omega)]
  exact hok

theorem dhkemSharedSecret_ok (h : p.Lawful) (dh enc recipientPublicRaw : Bytes) :
    ∃ secret, dhkemSharedSecret p dh enc recipientPublicRaw = .ok secret := by
  obtain ⟨secret, hok, -⟩ := labeledExpand_ok h
    (labeledExtract p [] kemSuiteId (ascii "eae_prk") dh) kemSuiteId (ascii "shared_secret")
    (enc ++ recipientPublicRaw) (show 32 ≤ 8160 by omega)
  exact ⟨secret, hok⟩

/-- A key of 16 bytes and a nonce of 12. -/
theorem keySchedule_ok (h : p.Lawful) (sharedSecret info : Bytes) :
    ∃ key nonce, keySchedule p sharedSecret info = .ok (key, nonce) ∧ key.length = 16 ∧
      nonce.length = 12 := by
  unfold keySchedule
  simp only
  obtain ⟨key, hkey, hkeyLength⟩ := labeledExpand_ok h
    (labeledExtract p sharedSecret hpkeSuiteId (ascii "secret") []) hpkeSuiteId (ascii "key")
    ([0] ++ labeledExtract p [] hpkeSuiteId (ascii "psk_id_hash") [] ++
      labeledExtract p [] hpkeSuiteId (ascii "info_hash") info) (show 16 ≤ 8160 by omega)
  obtain ⟨nonce, hnonce, hnonceLength⟩ := labeledExpand_ok h
    (labeledExtract p sharedSecret hpkeSuiteId (ascii "secret") []) hpkeSuiteId
    (ascii "base_nonce")
    ([0] ++ labeledExtract p [] hpkeSuiteId (ascii "psk_id_hash") [] ++
      labeledExtract p [] hpkeSuiteId (ascii "info_hash") info) (show 12 ≤ 8160 by omega)
  refine ⟨key, nonce, ?_, hkeyLength, hnonceLength⟩
  rw [hkey, hnonce]
  rfl

/-! ## Sealing and opening -/

theorem deserializePublic_publicBytes (h : p.Lawful) (key : PublicKey) :
    deserializePublic p (p.publicBytes key) = .ok key := by
  rw [deserializePublic, if_neg, h.fromEncodedPoint_publicBytes]
  rw [h.publicBytes_length, h.publicBytes_head]
  simp

/-- What is sealed to a public key opens with the private one. -/
theorem openMessage_seal (h : p.Lawful) (recipient ephemeral : PrivateKey)
    (plaintext info aad : Bytes) (hplaintext : plaintext.length < 2 ^ 31 - 1)
    (haad : aad.length < 2 ^ 31 - 1) :
    ∃ enc ciphertext,
      seal_ p (p.publicBytes (p.publicKey recipient)) plaintext info aad ephemeral =
        .ok (enc, ciphertext) ∧
      enc.length = 65 ∧ ciphertext.length = plaintext.length + 16 ∧
      openMessage p recipient enc ciphertext info aad = .ok plaintext := by
  obtain ⟨secret, hsecret⟩ := dhkemSharedSecret_ok h
    (p.exchange ephemeral (p.publicKey recipient)) (p.publicBytes (p.publicKey ephemeral))
    (p.publicBytes (p.publicKey recipient))
  obtain ⟨key, nonce, hschedule, hkey, hnonce⟩ := keySchedule_ok h secret info
  obtain ⟨ciphertext, hencrypt, hlength⟩ :=
    h.encrypt key nonce plaintext aad hkey hnonce hplaintext haad
  refine ⟨p.publicBytes (p.publicKey ephemeral), ciphertext, ?_, h.publicBytes_length _, hlength,
    ?_⟩
  · simp only [seal_, deserializePublic_publicBytes h, bind, Except.bind, hsecret, hschedule,
      hencrypt]
    rfl
  · simp only [openMessage, deserializePublic_publicBytes h, bind, Except.bind,
      h.exchange_comm recipient ephemeral, hsecret, hschedule,
      h.decrypt key nonce plaintext aad ciphertext hencrypt]
    rfl

/-! ## As a signal -/

/-- The bytes a field of a signal's payload holds in hexadecimal. -/
def received (envelope : Json) (field : String) : Option Bytes :=
  (((envelope.get? "payload").bind fun payload => payload.get? field).bind Json.str?).bind fromHex

/-- What a recipient makes of a signal. -/
def openEnvelope (p : HpkePrimitives PrivateKey PublicKey) (recipient : PrivateKey)
    (info aad : Bytes) (envelope : Json) : Option Bytes := do
  let enc ← received envelope "encHex"
  let ciphertext ← received envelope "ciphertextHex"
  (openMessage p recipient enc ciphertext info aad).toOption

theorem received_outgoing {signal : Signal} {field : String} {data : Bytes} (id : Json)
    (h : signal.payload.lookup field = some (.str (hex data))) :
    received (V2.outgoing id signal) field = some data := by
  have hpayload : (V2.outgoing id signal).get? "payload" = some (.obj signal.payload) := rfl
  rw [received, hpayload, Option.bind_some, Json.get?, h, Option.bind_some, Json.str?,
    Option.bind_some, fromHex_hex]

theorem hexField_hex (data : Bytes) (field : String) (hdata : data ≠ []) :
    hexField (.str (hex data)) field data.length = .ok data := by
  have hlength : (hex data).length = data.length * 2 := by
    rw [length_hex, Nat.mul_comm]
  rw [hexField_ok (List.length_pos_iff.mpr hdata)]
  exact ⟨_, ⟨rfl, hlength, isHexDigit_of_fromHex (fromHex_hex data) hlength⟩, fromHex_hex data⟩

/-- The texts of up to 48 KiB pass as a ciphertext. -/
theorem validateCiphertext_hex {data : Bytes} (hdata : data ≠ []) :
    validateCiphertext (.str (hex data)) = .ok () ↔ data.length ≤ 48 * 1024 := by
  have hlength : (hex data).length = data.length * 2 := by
    rw [length_hex, Nat.mul_comm]
  have hpos := List.length_pos_iff.mpr hdata
  have hmax : maxCiphertextDigits = 2 * (48 * 1024) := rfl
  rw [validateCiphertext_ok]
  constructor
  · rintro (⟨text, htext, -, -, hle, -⟩ | ⟨text, htext, -, hle, -⟩)
    · cases htext
      omega
    · cases htext
      omega
  · intro hle
    exact .inl ⟨_, rfl, by omega, by omega, by omega,
      isHexDigit_of_fromHex (fromHex_hex data) hlength⟩

/-- What is sealed to a session's key and sent to it as a signal passes the
checks of its two fields, unless the plaintext has more than 49136 bytes, and
opens to what was sealed. -/
theorem sealed_signal_opens (h : p.Lawful) (recipient ephemeral : PrivateKey)
    (plaintext info aad : Bytes) (hplaintext : plaintext.length < 2 ^ 31 - 1)
    (haad : aad.length < 2 ^ 31 - 1) :
    ∃ enc ciphertext,
      seal_ p (p.publicBytes (p.publicKey recipient)) plaintext info aad ephemeral =
        .ok (enc, ciphertext) ∧
      hexField (.str (hex enc)) "payload.encHex" 65 = .ok enc ∧
      (validateCiphertext (.str (hex ciphertext)) = .ok () ↔ plaintext.length ≤ 49136) ∧
      ∀ (id : Json) (signal : Signal), signal.payload.lookup "encHex" = some (.str (hex enc)) →
        signal.payload.lookup "ciphertextHex" = some (.str (hex ciphertext)) →
        openEnvelope p recipient info aad (V2.outgoing id signal) = some plaintext := by
  obtain ⟨enc, ciphertext, hseal, henc, hlength, hopen⟩ :=
    openMessage_seal h recipient ephemeral plaintext info aad hplaintext haad
  have hne : enc ≠ [] := List.length_pos_iff.mp (by omega)
  have hne' : ciphertext ≠ [] := List.length_pos_iff.mp (by omega)
  refine ⟨enc, ciphertext, hseal, ?_, ?_, fun id signal hfield hfield' => ?_⟩
  · rw [← henc]
    exact hexField_hex enc _ hne
  · rw [validateCiphertext_hex hne']
    omega
  · rw [openEnvelope, received_outgoing id hfield, received_outgoing id hfield']
    simp only [Option.bind_eq_bind, Option.bind_some, hopen]
    rfl

/-- Primitives that hide nothing: a private key is its public key, and a
ciphertext the plaintext with sixteen bytes behind it. -/
def transparent : HpkePrimitives UInt8 UInt8 where
  hmacSha256 _ _ := List.replicate 32 0
  publicKey := id
  publicBytes key := 4 :: (List.replicate 63 0 ++ [key])
  fromEncodedPoint raw := raw.getLast?
  exchange a b := List.replicate 32 (a * b)
  encrypt _ _ plaintext _ := some (plaintext ++ List.replicate 16 0)
  decrypt _ _ ciphertext _ := some (ciphertext.take (ciphertext.length - 16))

theorem lawful_transparent : transparent.Lawful where
  hmac_length _ _ := List.length_replicate
  publicBytes_length key := by simp [transparent]
  publicBytes_head _ := rfl
  fromEncodedPoint_publicBytes key := by simp [transparent]
  exchange_comm a b := by simp [transparent, UInt8.mul_comm]
  encrypt _ _ plaintext _ _ _ _ _ := ⟨_, rfl, by simp⟩
  decrypt _ _ plaintext _ ciphertext h := by
    cases h
    simp [transparent]

/-- A signal that carries these bytes. -/
def carrying (enc ciphertext : Bytes) : Signal where
  payload := [("encHex", .str (hex enc)), ("ciphertextHex", .str (hex ciphertext))]
  routeTag := ""
  fromSessionId := "s"
  toSessionId := "t"
  messageId := ""
  sequence := 1
  expiresAt := 0
  keyId := ""
  senderKeyId := ""
  senderIdentityKeyHex := ""
  signatureHex := ""

theorem sealed_signal_opens_offer :
    ∃ enc ciphertext, seal_ transparent (transparent.publicBytes 7) (ascii "offer") defaultInfo []
        3 = .ok (enc, ciphertext) ∧
      hexField (.str (hex enc)) "payload.encHex" 65 = .ok enc ∧
      validateCiphertext (.str (hex ciphertext)) = .ok () ∧
      openEnvelope transparent 7 defaultInfo [] (V2.outgoing .null (carrying enc ciphertext)) =
        some (ascii "offer") := by
  have hlength : (ascii "offer").length = 5 := by decide +kernel
  obtain ⟨enc, ciphertext, hseal, henc, hciphertext, hopens⟩ := sealed_signal_opens
    lawful_transparent 7 3 (ascii "offer") defaultInfo [] (by omega) (by decide)
  exact ⟨enc, ciphertext, hseal, henc, hciphertext.mpr (by omega), hopens _ _ rfl rfl⟩

/-! ## What HMAC is called for -/

inductive Purpose
  | eaePrk
  | sharedSecret
  | pskIdHash
  | infoHash
  | secret
  | key
  | baseNonce
  deriving DecidableEq

namespace Purpose

/-- What stands in front of the data, the length asked for first where the call
is one of an expansion. -/
def front : Purpose → Bytes
  | .eaePrk => ascii "HPKE-v1" ++ kemSuiteId ++ ascii "eae_prk"
  | .sharedSecret => [0, 32] ++ ascii "HPKE-v1" ++ kemSuiteId ++ ascii "shared_secret"
  | .pskIdHash => ascii "HPKE-v1" ++ hpkeSuiteId ++ ascii "psk_id_hash"
  | .infoHash => ascii "HPKE-v1" ++ hpkeSuiteId ++ ascii "info_hash"
  | .secret => ascii "HPKE-v1" ++ hpkeSuiteId ++ ascii "secret"
  | .key => [0, 16] ++ ascii "HPKE-v1" ++ hpkeSuiteId ++ ascii "key"
  | .baseNonce => [0, 12] ++ ascii "HPKE-v1" ++ hpkeSuiteId ++ ascii "base_nonce"

/-- The number of the block, which is the first and only one. -/
def back : Purpose → Bytes
  | .sharedSecret | .key | .baseNonce => [1]
  | .eaePrk | .pskIdHash | .infoHash | .secret => []

def message (purpose : Purpose) (data : Bytes) : Bytes := purpose.front ++ data ++ purpose.back

def all : List Purpose := [eaePrk, sharedSecret, pskIdHash, infoHash, secret, key, baseNonce]

theorem mem_all (purpose : Purpose) : purpose ∈ all := by
  cases purpose <;> decide

theorem front_apart_all : ∀ a ∈ all, ∀ b ∈ all, a.front <+: b.front → a = b := by
  decide +kernel

theorem front_apart {a b : Purpose} (h : a.front <+: b.front) : a = b :=
  front_apart_all a (mem_all a) b (mem_all b) h

/-- A message tells its purpose and its data. -/
theorem message_inj {a b : Purpose} {x y : Bytes} (h : a.message x = b.message y) :
    a = b ∧ x = y := by
  have heq : a = b := by
    have hpre : a.front <+: b.message y := by
      rw [← h, message, List.append_assoc]
      exact List.prefix_append _ _
    have hpre' : b.front <+: b.message y := by
      rw [message, List.append_assoc]
      exact List.prefix_append _ _
    rcases List.prefix_or_prefix_of_prefix hpre hpre' with hab | hba
    · exact front_apart hab
    · exact (front_apart hba).symm
  subst heq
  exact ⟨rfl, List.append_cancel_left (List.append_cancel_right h)⟩

end Purpose

/-- One block, where no more is asked for. -/
theorem expand_one (prk info : Bytes) {length : Nat} (hpos : 0 < length) (hle : length ≤ 32) :
    expand p prk info length = .ok ((p.hmacSha256 prk (info ++ [1])).take length) := by
  have hblocks : (length + 31) / 32 = 1 := by omega
  rw [expand, hblocks]
  simp [expandBlocks, bind, Except.bind, pure, Except.pure]

theorem labeledExpand_one (prk suiteId label info : Bytes) {length : Nat} (hpos : 0 < length)
    (hle : length ≤ 32) :
    labeledExpand p prk suiteId label info length =
      .ok ((p.hmacSha256 prk ([0, UInt8.ofNat length] ++ ascii "HPKE-v1" ++ suiteId ++ label ++
        info ++ [1])).take length) := by
  have hhigh : length / 256 = 0 := by omega
  have hlow : length % 256 = length := by omega
  rw [labeledExpand, toBytes2, if_pos (by omega), hhigh, hlow]
  exact expand_one prk _ hpos hle

/-- The shared secret and the key schedule are HMACs of one message for each
purpose, and a message of one purpose is no message of another: whatever the
data, a message tells its purpose and its data. -/
theorem hmac_messages_apart (h : p.Lawful) :
    (∀ dh enc recipientPublicRaw, dhkemSharedSecret p dh enc recipientPublicRaw =
      .ok (p.hmacSha256 (extract p [] (Purpose.eaePrk.message dh))
        (Purpose.sharedSecret.message (enc ++ recipientPublicRaw)))) ∧
    (∀ sharedSecret info, ∃ secret context,
      secret = extract p sharedSecret (Purpose.secret.message []) ∧
      context = [0] ++ extract p [] (Purpose.pskIdHash.message []) ++
        extract p [] (Purpose.infoHash.message info) ∧
      keySchedule p sharedSecret info =
        .ok ((p.hmacSha256 secret (Purpose.key.message context)).take 16,
          (p.hmacSha256 secret (Purpose.baseNonce.message context)).take 12)) ∧
    ∀ (a b : Purpose) (x y : Bytes), a.message x = b.message y → a = b ∧ x = y := by
  refine ⟨fun dh enc raw => ?_, fun sharedSecret info => ⟨_, _, rfl, rfl, ?_⟩,
    fun a b x y => Purpose.message_inj⟩
  · rw [dhkemSharedSecret]
    simp only [labeledExpand_one _ _ _ _ (show 0 < 32 by decide) (le_refl 32)]
    rw [List.take_of_length_le (by rw [h.hmac_length])]
    simp [labeledExtract, Purpose.message, Purpose.front, Purpose.back]
  · rw [keySchedule]
    simp only [labeledExpand_one _ _ _ _ (show 0 < 16 by decide) (show 16 ≤ 32 by decide),
      labeledExpand_one _ _ _ _ (show 0 < 12 by decide) (show 12 ≤ 32 by decide)]
    simp [labeledExtract, Purpose.message, Purpose.front, Purpose.back, bind, Except.bind, pure,
      Except.pure]

theorem hmac_messages_apart_transparent : Purpose.key.message [1] ≠ Purpose.secret.message [1] :=
  fun heq => Purpose.noConfusion ((hmac_messages_apart lawful_transparent).2.2 _ _ _ _ heq).1

end Hpke

end Masterserver
