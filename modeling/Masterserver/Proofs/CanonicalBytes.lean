import Masterserver.App.Trust
import Masterserver.Lib.JsonSame
import Masterserver.Proofs.Digests
import Masterserver.Proofs.PeerTexts

/-!
# Canonical bytes

Over the values that are ever signed the canonical bytes are a name for the
value: they do not depend on the order of members, the strict decoder reads the
value back from them when its limits admit the value, and different values have
different bytes. So a hash or a signature over canonical bytes that belongs to
one value belongs to no other.

What the decoder measures is stated here of the value, not of what is decoded:
how deep it is, how many values are in it and how long its texts are. None of
that depends on the order of members either.
-/

namespace Lib.Json

mutual

/-- The values that are signed: no floating-point numbers, safe integers, and
every object names a member once. -/
def Signed : Json → Prop
  | .int n => n.natAbs < 2 ^ 53
  | .float _ => False
  | .arr items => SignedItems items
  | .obj members => (members.map Prod.fst).Nodup ∧ SignedMembers members
  | _ => True

def SignedItems : List Json → Prop
  | [] => True
  | v :: rest => Signed v ∧ SignedItems rest

def SignedMembers : List (String × Json) → Prop
  | [] => True
  | (_, v) :: rest => Signed v ∧ SignedMembers rest

end

mutual

/-- A value and the values in it. -/
def parts : Json → List Json
  | .arr items => .arr items :: partsItems items
  | .obj members => .obj members :: partsMembers members
  | v => [v]

def partsItems : List Json → List Json
  | [] => []
  | v :: rest => parts v ++ partsItems rest

def partsMembers : List (String × Json) → List Json
  | [] => []
  | (_, v) :: rest => parts v ++ partsMembers rest

end

/-- The texts of a value that are its own. -/
def texts : Json → List String
  | .str s => [s]
  | .obj members => members.map Prod.fst
  | _ => []

mutual

def depth : Json → Nat
  | .arr items => depthItems items + 1
  | .obj members => depthMembers members + 1
  | _ => 0

def depthItems : List Json → Nat
  | [] => 0
  | v :: rest => max (depth v) (depthItems rest)

def depthMembers : List (String × Json) → Nat
  | [] => 0
  | (_, v) :: rest => max (depth v) (depthMembers rest)

end

/-! ## Signed values are plain -/

theorem length_toDigits_of_safe {n : Nat} (h : n < 2 ^ 53) :
    (Nat.toDigits 10 n).length ≤ maxStrDigits := by
  rw [Nat.length_toDigits_le_iff (by decide) (by decide)]
  calc n < 2 ^ 53 := h
    _ ≤ 10 ^ 16 := by decide
    _ ≤ 10 ^ maxStrDigits := Nat.pow_le_pow_right (by decide) (by decide)

mutual

theorem Signed.plain : ∀ {v : Json}, v.Signed → v.Plain
  | .null, _ | .bool _, _ | .str _, _ => trivial
  | .int _, h => length_toDigits_of_safe h
  | .float _, h => h
  | .arr _, h => SignedItems.plain h
  | .obj _, h => ⟨h.1, SignedMembers.plain h.2⟩

theorem SignedItems.plain : ∀ {items : List Json}, SignedItems items → PlainItems items
  | [], _ => trivial
  | _ :: _, h => ⟨Signed.plain h.1, SignedItems.plain h.2⟩

theorem SignedMembers.plain : ∀ {members : List (String × Json)}, SignedMembers members →
    PlainMembers members
  | [], _ => trivial
  | (_, _) :: _, h => ⟨Signed.plain h.1, SignedMembers.plain h.2⟩

end

/-! ## What the decoder measures -/

theorem partsMembers_eq (members : List (String × Json)) :
    partsMembers members = (members.map Prod.snd).flatMap parts := by
  induction members with
  | nil => rfl
  | cons member rest ih => rw [partsMembers, ih, List.map_cons, List.flatMap_cons]

theorem partsItems_eq (items : List Json) : partsItems items = items.flatMap parts := by
  induction items with
  | nil => rfl
  | cons v rest ih => rw [partsItems, ih, List.flatMap_cons]

theorem decodedItems_eq (items : List Json) : decodedItems items = items.map decoded := by
  induction items with
  | nil => rfl
  | cons v rest ih => rw [decodedItems, ih, List.map_cons]

theorem decodedMembers_eq (members : List (String × Json)) :
    decodedMembers members = members.map fun member => (codePoints member.1, member.2.decoded) := by
  induction members with
  | nil => rfl
  | cons member rest ih => rw [decodedMembers, ih, List.map_cons]

theorem visitsItems_perm (items : List Decoded) :
    (Decoded.visitsItems items).Perm (items.flatMap Decoded.visits) := by
  rw [← Decoded.flatMap_visits_reverse]
  exact items.reverse_perm.flatMap_right _

/-- The values the decoder counts come from the parts of the value. -/
def CountsParts (v : Json) : Prop :=
  v.sortKeys.decoded.visits.Perm (v.parts.map fun part => part.sortKeys.decoded)

theorem countsParts_list {items : List Json} (ih : ∀ v ∈ items, v.CountsParts) :
    (items.flatMap fun v => v.sortKeys.decoded.visits).Perm
      ((items.flatMap parts).map fun part => part.sortKeys.decoded) := by
  rw [List.map_flatMap]
  exact List.Perm.flatMap_left items ih

theorem countsParts_arr {items : List Json} (ih : ∀ v ∈ items, v.CountsParts) :
    (arr items).CountsParts := by
  unfold CountsParts
  rw [parts, List.map_cons, partsItems_eq, sortKeys, decoded, Decoded.visits]
  refine List.Perm.cons _ ((visitsItems_perm _).trans ?_)
  rw [decodedItems_eq, sortItems_eq_map, List.map_map, List.flatMap_map]
  exact countsParts_list ih

theorem countsParts_obj {members : List (String × Json)}
    (ih : ∀ member ∈ members, member.2.CountsParts) : (obj members).CountsParts := by
  unfold CountsParts
  rw [parts, List.map_cons, partsMembers_eq, sortKeys_obj, decoded, Decoded.visits]
  refine List.Perm.cons _ ?_
  have hsorted : ((decodedMembers (sortedMembers members)).map Prod.snd).Perm
      ((members.map Prod.snd).map fun v => v.sortKeys.decoded) := by
    rw [decodedMembers_eq, List.map_map, List.map_map]
    have hperm := (sortedMembers_perm members).map fun member => member.2.decoded
    rw [sortMembers_eq_map, List.map_map] at hperm
    exact hperm
  rw [← Decoded.visitsItems_map_snd]
  refine (visitsItems_perm _).trans ((hsorted.flatMap_right _).trans ?_)
  rw [List.flatMap_map]
  refine countsParts_list fun v hv => ?_
  obtain ⟨member, hmember, rfl⟩ := List.mem_map.mp hv
  exact ih member hmember

mutual

theorem countsParts : ∀ v : Json, v.CountsParts
  | .null | .bool _ | .int _ | .float _ | .str _ => List.Perm.refl _
  | .arr items => countsParts_arr (countsParts_items items)
  | .obj members => countsParts_obj (countsParts_members members)

theorem countsParts_items : ∀ items : List Json, ∀ v ∈ items, v.CountsParts
  | [] => nofun
  | v :: rest => List.forall_mem_cons.mpr ⟨countsParts v, countsParts_items rest⟩

theorem countsParts_members : ∀ members : List (String × Json),
    ∀ member ∈ members, member.2.CountsParts
  | [] => nofun
  | (_, v) :: rest => List.forall_mem_cons.mpr ⟨countsParts v, countsParts_members rest⟩

end

theorem texts_decoded_perm (v : Json) :
    v.sortKeys.decoded.texts.Perm (v.texts.map codePoints) := by
  cases v with
  | obj members =>
      rw [sortKeys_obj, decoded, Decoded.texts, map_fst_decodedMembers, texts]
      have hperm := (map_fst_sortedMembers members).map codePoints
      rw [List.map_map] at hperm
      exact hperm
  | _ => exact List.Perm.refl _

theorem depthItems_eq (items : List Json) :
    depthItems items = (items.map depth).foldr max 0 := by
  induction items with
  | nil => rfl
  | cons v rest ih => rw [depthItems, ih, List.map_cons, List.foldr_cons]

theorem depthMembers_eq (members : List (String × Json)) :
    depthMembers members = (members.map fun member => member.2.depth).foldr max 0 := by
  induction members with
  | nil => rfl
  | cons member rest ih => rw [depthMembers, ih, List.map_cons, List.foldr_cons]

theorem depthItems_decoded (items : List Json) :
    Decoded.depthItems (decodedItems items) =
      (items.map fun v => v.decoded.depth).foldr max 0 := by
  induction items with
  | nil => rfl
  | cons v rest ih => rw [decodedItems, Decoded.depthItems, ih, List.map_cons, List.foldr_cons]

theorem depthMembers_decoded (members : List (String × Json)) :
    Decoded.depthMembers (decodedMembers members) =
      (members.map fun member => member.2.decoded.depth).foldr max 0 := by
  induction members with
  | nil => rfl
  | cons member rest ih =>
      rw [decodedMembers, Decoded.depthMembers, ih, List.map_cons, List.foldr_cons]

mutual

theorem depth_decoded : ∀ v : Json, v.sortKeys.decoded.depth = v.depth
  | .null | .bool _ | .int _ | .float _ | .str _ => rfl
  | .arr items => by
      rw [sortKeys, decoded, Decoded.depth, depth, depthItems_decoded, depthItems_eq,
        sortItems_eq_map, List.map_map]
      exact congrArg (fun depths => List.foldr max 0 depths + 1)
        (List.map_congr_left (depth_decoded_items items))
  | .obj members => by
      rw [sortKeys_obj, decoded, Decoded.depth, depth, depthMembers_decoded, depthMembers_eq]
      have hperm := (sortedMembers_perm members).map fun member => member.2.decoded.depth
      rw [hperm.foldr_eq, sortMembers_eq_map, List.map_map]
      exact congrArg (fun depths => List.foldr max 0 depths + 1)
        (List.map_congr_left (depth_decoded_members members))

theorem depth_decoded_items : ∀ items : List Json,
    ∀ v ∈ items, v.sortKeys.decoded.depth = v.depth
  | [] => nofun
  | v :: rest => List.forall_mem_cons.mpr ⟨depth_decoded v, depth_decoded_items rest⟩

theorem depth_decoded_members : ∀ members : List (String × Json),
    ∀ member ∈ members, member.2.sortKeys.decoded.depth = member.2.depth
  | [] => nofun
  | (_, v) :: rest => List.forall_mem_cons.mpr ⟨depth_decoded v, depth_decoded_members rest⟩

end

mutual

/-- The integers of a part are integers of the whole. -/
theorem Short.of_parts : ∀ {v : Json}, v.Short → ∀ {part : Json}, part ∈ v.parts → part.Short
  | .null, h, _, hpart | .bool _, h, _, hpart | .int _, h, _, hpart | .float _, h, _, hpart
  | .str _, h, _, hpart => List.mem_singleton.mp hpart ▸ h
  | .arr items, h, _, hpart => by
      rcases List.mem_cons.mp hpart with rfl | hpart
      · exact h
      · exact ShortItems.of_parts h hpart
  | .obj members, h, _, hpart => by
      rcases List.mem_cons.mp hpart with rfl | hpart
      · exact h
      · exact ShortMembers.of_parts h hpart

theorem ShortItems.of_parts : ∀ {items : List Json}, ShortItems items →
    ∀ {part : Json}, part ∈ partsItems items → part.Short
  | [], _, _, hpart => nomatch hpart
  | _ :: _, h, _, hpart => by
      rcases List.mem_append.mp hpart with hpart | hpart
      · exact Short.of_parts h.1 hpart
      · exact ShortItems.of_parts h.2 hpart

theorem ShortMembers.of_parts : ∀ {members : List (String × Json)}, ShortMembers members →
    ∀ {part : Json}, part ∈ partsMembers members → part.Short
  | [], _, _, hpart => nomatch hpart
  | (_, _) :: _, h, _, hpart => by
      rcases List.mem_append.mp hpart with hpart | hpart
      · exact Short.of_parts h.1 hpart
      · exact ShortMembers.of_parts h.2 hpart

end

end Lib.Json

namespace Masterserver

open Lib

/-! ## Bytes and texts -/

theorem toByteArray_canonicalJsonBytes (v : Json) :
    (canonicalJsonBytes v).toByteArray = (String.ofList v.canonical).toByteArray := by
  rw [String.toByteArray_ofList]
  rfl

theorem canonical_of_bytes {v w : Json} (h : canonicalJsonBytes v = canonicalJsonBytes w) :
    v.canonical = w.canonical := by
  have hbytes := congrArg List.toByteArray h
  rw [toByteArray_canonicalJsonBytes, toByteArray_canonicalJsonBytes] at hbytes
  exact String.ofList_injective (String.toByteArray_inj.mp hbytes)

theorem canonicalJsonBytes_eq_iff {v w : Json} (hv : v.Plain) (hw : w.Plain) :
    canonicalJsonBytes v = canonicalJsonBytes w ↔ Json.same v w = true := by
  rw [← Json.canonical_eq_iff hv hw]
  exact ⟨canonical_of_bytes, fun h => congrArg (List.flatMap String.utf8EncodeChar) h⟩

theorem length_canonicalJsonBytes (v : Json) :
    (canonicalJsonBytes v).length = String.utf8Len v.canonical := by
  unfold canonicalJsonBytes
  induction v.canonical with
  | nil => rfl
  | cons c rest ih =>
      rw [List.flatMap_cons, List.length_append, ih, String.length_utf8EncodeChar,
        String.utf8Len_cons, Nat.add_comm]

theorem fromUTF8?_toByteArray (text : String) : String.fromUTF8? text.toByteArray = some text := by
  unfold String.fromUTF8?
  rw [dif_pos text.isValidUTF8]
  rfl

theorem loadsStrictBytes_canonical (limits : JsonLimits) (v : Json) :
    loadsStrictBytes limits (canonicalJsonBytes v).toByteArray = loadsStrict limits v.canonical := by
  unfold loadsStrictBytes
  rw [toByteArray_canonicalJsonBytes, fromUTF8?_toByteArray]
  simp only [String.toList_ofList]

/-! ## Limits that admit a value -/

/-- The limits admit the value. -/
structure Sufficient (limits : JsonLimits) (v : Json) : Prop where
  bytes : (canonicalJsonBytes v).length ≤ limits.maxBytes
  nesting : v.depth ≤ limits.maxDepth
  nodes : v.parts.length ≤ limits.maxNodes
  strings : ∀ part ∈ v.parts, ∀ text ∈ part.texts, text.utf8ByteSize ≤ limits.maxStringBytes

theorem fits_codePoints {maxStringBytes : Nat} {text : String} :
    Fits maxStringBytes (codePoints text) ↔ text.utf8ByteSize ≤ maxStringBytes := by
  have hencodes : ∀ code ∈ codePoints text, isSurrogate code = false := by
    intro code hcode
    obtain ⟨c, -, rfl⟩ := List.mem_map.mp hcode
    exact not_isSurrogate c
  have htext : (codePoints text).map Char.ofNat = text.toList := by
    rw [← String.toList_ofList (l := (codePoints text).map Char.ofNat)]
    exact congrArg String.toList (textOf_codePoints text)
  rw [fits_iff hencodes, htext, ← String.utf8ByteSize_ofList, String.ofList_toList]

/-- The decoder reads the canonical text of a value exactly when its limits
admit the value, and then it reads the value with its members sorted. -/
theorem loadsStrict_canonical_iff {limits : JsonLimits} {v : Json} (h : v.Plain) {data : Json} :
    loadsStrict limits v.canonical = .ok data ↔ Sufficient limits v ∧ data = v.sortKeys := by
  have hsorted := Json.plain_sortKeys v h
  have hdecode : decodeJson strictHooks v.canonical = .ok v.sortKeys.decoded :=
    Json.decodeJson_dumps pairs_strictHooks hsorted
  have hnesting : checkNesting v.canonical limits.maxDepth = .ok () ↔ v.depth ≤ limits.maxDepth := by
    rw [checkNesting_json (decodeJson_strictHooks.mp hdecode).1, Json.depth_decoded]
  have htree : checkTree v.sortKeys.decoded limits.maxNodes limits.maxStringBytes = .ok () ↔
      v.parts.length ≤ limits.maxNodes ∧ ∀ part ∈ v.parts, ∀ text ∈ part.texts,
        text.utf8ByteSize ≤ limits.maxStringBytes := by
    have hparts : v.CountsParts := Json.countsParts v
    rw [checkTree_ok, hparts.length_eq, List.length_map]
    refine and_congr_right fun _ => ?_
    simp only [hparts.mem_iff, List.forall_mem_map, (Json.texts_decoded_perm _).mem_iff,
      fits_codePoints]
  rw [loadsStrict_ok, ← length_canonicalJsonBytes, hnesting]
  constructor
  · rintro ⟨hbytes, hdepth, decoded, hdecoded, hchecked, rfl⟩
    rw [hdecode] at hdecoded
    cases hdecoded
    obtain ⟨hnodes, hstrings⟩ := htree.mp hchecked
    exact ⟨⟨hbytes, hdepth, hnodes, hstrings⟩, Json.toJson_decoded _ hsorted⟩
  · rintro ⟨hs, rfl⟩
    exact ⟨hs.bytes, hs.nesting, _, hdecode, htree.mpr ⟨hs.nodes, hs.strings⟩,
      (Json.toJson_decoded _ hsorted).symm⟩

theorem exists_sufficient (v : Json) : ∃ limits, Sufficient limits v := by
  refine ⟨⟨(canonicalJsonBytes v).length, v.depth, v.parts.length,
    ((v.parts.flatMap Json.texts).map String.utf8ByteSize).sum⟩, le_rfl, le_rfl, le_rfl, ?_⟩
  intro part hpart text htext
  exact List.le_sum_of_mem
    (List.mem_map_of_mem (List.mem_flatMap.mpr ⟨part, hpart, htext⟩))

/-! ## Hashes and signatures -/

theorem contentHashHex_eq_iff {cr : Crypto} {messages : Set Bytes}
    (hash : Set.InjOn cr.sha256 messages) {v w : Json} (hv : canonicalJsonBytes v ∈ messages)
    (hw : canonicalJsonBytes w ∈ messages) :
    contentHashHex cr v = contentHashHex cr w ↔ canonicalJsonBytes v = canonicalJsonBytes w := by
  constructor
  · intro h
    exact hash hv hw (hexdigest_inj h)
  · intro h
    unfold contentHashHex
    rw [h]

/-- The signature was made over the message: a signature speaks of the digest
of what was signed. -/
structure SignatureOver (cr : Crypto) (key signature message : Bytes) : Prop where
  length : signature.length = 64
  verdict : ∀ other, verifySignature cr (some key) other signature = true ↔
    cr.sha256 other = cr.sha256 message

namespace NodeTrust

variable {cr : Crypto} {trust : NodeTrust}

theorem nodup_signObject : ["payload", "keyId", "signatureHex"].Nodup := by decide

/-- A signed object verifies when the signature over its payload does. -/
theorem verifySignedObject_signObject (payload : List (String × Json)) {signature : Bytes}
    (hlength : signature.length = 64) :
    trust.verifySignedObject cr (trust.signObject cr payload signature) =
      verifySignature cr (some trust.publicKeyRaw) (canonicalJsonBytes (.obj payload))
        signature := by
  have hnames : ((trust.signObject cr payload signature).map Prod.fst).isPerm
      ["payload", "keyId", "signatureHex"] = true := List.isPerm_iff.mpr (List.Perm.refl _)
  have hpayload : (trust.signObject cr payload signature).lookup "payload" =
      some (.obj payload) := rfl
  have hkeyId : (trust.signObject cr payload signature).lookup "keyId" =
      some (.str (hexdigest (cr.sha256 trust.publicKeyRaw))) := rfl
  have hsignature : (trust.signObject cr payload signature).lookup "signatureHex" =
      some (.str (hex signature)) := rfl
  unfold verifySignedObject
  rw [hnames, hpayload, hkeyId, hsignature]
  simp [fromHex_hex, hlength]

end NodeTrust

/-- Canonical bytes identify a signed value. They are those of the value with
its members in any other order. The strict decoder, under limits that admit
the value, and there are such limits, reads the same value back. Another signed
value has the same bytes exactly when it is the same value. So, over messages
on which the hash is free of collisions, two values have one content hash, and
a signature made over one value verifies for the other, exactly when they are
the same. -/
theorem canonical_bytes_identify {v w : Json} (hv : v.Signed) (hw : w.Signed) :
    (v.Reordered w → canonicalJsonBytes v = canonicalJsonBytes w) ∧
    ((∃ limits, Sufficient limits v) ∧ ∀ limits, Sufficient limits v →
      ∃ value, loadsStrictBytes limits (canonicalJsonBytes v).toByteArray = .ok value ∧
        value.same v = true) ∧
    (canonicalJsonBytes v = canonicalJsonBytes w ↔ v.same w = true) ∧
    ∀ (cr : Crypto) (messages : Set Bytes), Set.InjOn cr.sha256 messages →
      canonicalJsonBytes v ∈ messages → canonicalJsonBytes w ∈ messages →
        (contentHashHex cr v = contentHashHex cr w ↔ v.same w = true) ∧
        ∀ (trust : NodeTrust) (signature : Bytes) (payload : List (String × Json)),
          SignatureOver cr trust.publicKeyRaw signature (canonicalJsonBytes v) →
            w = .obj payload →
              (trust.verifySignedObject cr (trust.signObject cr payload signature) = true ↔
                v.same w = true) := by
  have hequal := canonicalJsonBytes_eq_iff hv.plain hw.plain
  refine ⟨fun h => ?_, ⟨exists_sufficient v, fun limits hs => ?_⟩, hequal,
    fun cr messages hash hmem hmem' => ⟨?_, fun trust signature payload hover hw => ?_⟩⟩
  · exact congrArg (List.flatMap String.utf8EncodeChar)
      (congrArg Json.dumps (h.sortKeys_eq hv.plain))
  · refine ⟨v.sortKeys, ?_, Json.same_sortKeys hv.plain⟩
    rw [loadsStrictBytes_canonical]
    exact (loadsStrict_canonical_iff hv.plain).mpr ⟨hs, rfl⟩
  · rw [contentHashHex_eq_iff hash hmem hmem', hequal]
  · subst hw
    rw [NodeTrust.verifySignedObject_signObject payload hover.length, hover.verdict, ← hequal]
    exact ⟨fun h => (hash hmem' hmem h).symm, fun h => congrArg cr.sha256 h.symm⟩

namespace Sample

/-- A hash that tells messages of different length apart, and signatures whose
first number is the hash. -/
def lengthCrypto : Crypto where
  sha256 message := Fin.ofNat _ message.length
  isPoint _ := true
  ecdsaVerify _ message r _ := (Fin.ofNat (2 ^ 256) message.length).val == r

def truth : Json := .obj [("b", .bool true), ("a", .int 7)]

def truthSorted : Json := .obj [("a", .int 7), ("b", .bool true)]

def one : Json := .obj [("a", .int 7), ("b", .int 1)]

def truthSignature : Bytes := List.replicate 31 0 ++ [16] ++ List.replicate 32 0

theorem signed_truth : truth.Signed := by
  refine ⟨by decide, trivial, ?_, trivial⟩
  show (7 : Int).natAbs < 2 ^ 53
  decide

theorem signed_truthSorted : truthSorted.Signed := by
  refine ⟨by decide, ?_, trivial, trivial⟩
  show (7 : Int).natAbs < 2 ^ 53
  decide

theorem signed_one : one.Signed := by
  refine ⟨by decide, ?_, ?_, trivial⟩
  · show (7 : Int).natAbs < 2 ^ 53
    decide
  · show (1 : Int).natAbs < 2 ^ 53
    decide

theorem injOn_lengthCrypto :
    Set.InjOn lengthCrypto.sha256 {canonicalJsonBytes truth, canonicalJsonBytes one} := by
  have hdifferent : lengthCrypto.sha256 (canonicalJsonBytes truth) ≠
      lengthCrypto.sha256 (canonicalJsonBytes one) := by decide
  rintro a (rfl | rfl) b (rfl | rfl) h
  · rfl
  · exact absurd h hdifferent
  · exact absurd h.symm hdifferent
  · rfl

theorem signatureOver_truth :
    SignatureOver lengthCrypto [4] truthSignature (canonicalJsonBytes truth) where
  length := by decide
  verdict other := by
    have hsigned : lengthCrypto.sha256 (canonicalJsonBytes truth) = Fin.ofNat _ 16 := by decide
    have hnumber : fromBytesBig (truthSignature.take 32) = (Fin.ofNat (2 ^ 256) 16).val := by decide
    rw [hsigned]
    show (if (false || truthSignature.length != 64) = true then false
      else lengthCrypto.ecdsaVerify [4] other (fromBytesBig (truthSignature.take 32))
        (fromBytesBig (truthSignature.drop 32))) = true ↔ _
    rw [if_neg (by decide), hnumber]
    exact beq_iff_eq.trans Fin.val_inj

end Sample

/-- The members of an object in another order have the same bytes; the number
one in place of a truth value has another hash, and no signature over the one
verifies for the other. -/
theorem canonical_bytes_identify_pair :
    canonicalJsonBytes Sample.truth = canonicalJsonBytes Sample.truthSorted ∧
      contentHashHex Sample.lengthCrypto Sample.truth ≠
        contentHashHex Sample.lengthCrypto Sample.one ∧
      (NodeTrust.mk [4]).verifySignedObject Sample.lengthCrypto
        ((NodeTrust.mk [4]).signObject Sample.lengthCrypto [("a", .int 7), ("b", .int 1)]
          Sample.truthSignature) ≠ true := by
  have hsame : Sample.truth.same Sample.truthSorted = true := by decide
  have hdiffer : ¬Sample.truth.same Sample.one = true := by decide
  have hsorted :=
    (canonical_bytes_identify Sample.signed_truth Sample.signed_truthSorted).2.2.1
  obtain ⟨hhash, hsignature⟩ :=
    (canonical_bytes_identify Sample.signed_truth Sample.signed_one).2.2.2 Sample.lengthCrypto
      _ Sample.injOn_lengthCrypto (.inl rfl) (.inr rfl)
  refine ⟨hsorted.mpr hsame, fun h => hdiffer (hhash.mp h), fun h => hdiffer ?_⟩
  exact (hsignature ⟨[4]⟩ _ _ Sample.signatureOver_truth rfl).mp h

end Masterserver
