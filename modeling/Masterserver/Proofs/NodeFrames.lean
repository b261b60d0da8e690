import Masterserver.Lib.JsonSize
import Masterserver.Proofs.CanonicalBytes

/-!
# The room a message takes on a link

A node checks the frames of a link with the limits it checks its clients'
frames with: the size, the nesting, the number of values and the length of the
texts. A message that a node writes around something it was sent is larger
than that, so what is left for the part it carries is less than the limits.
`Room` is that for each message, and `frameAdmitted_iff_room` says that it
decides.
-/

namespace Lib.Json

/-! ## Texts and sizes -/

mutual

/-- No text of a value is longer than the encoding. -/
theorem texts_le_size : ∀ v : Json, ∀ part ∈ v.parts, ∀ text ∈ part.texts,
    text.utf8ByteSize ≤ v.size
  | .null | .bool _ | .int _ | .float _ => by
      intro part hpart text htext
      rw [List.mem_singleton.mp hpart] at htext
      cases htext
  | .str s => by
      intro part hpart text htext
      rw [List.mem_singleton.mp hpart] at htext
      rw [List.mem_singleton.mp htext, size_str]
      have hle := utf8ByteSize_le_quotedSize s
      omega
  | .arr items => by
      intro part hpart text htext
      rcases List.mem_cons.mp hpart with rfl | hpart
      · cases htext
      · rw [partsItems_eq] at hpart
        obtain ⟨item, hitem, hpart⟩ := List.mem_flatMap.mp hpart
        exact (texts_le_size_items items item hitem part hpart text htext).trans (size_le_arr hitem)
  | .obj members => by
      intro part hpart text htext
      rcases List.mem_cons.mp hpart with rfl | hpart
      · obtain ⟨member, hmember, rfl⟩ := List.mem_map.mp htext
        have hle := utf8ByteSize_le_quotedSize member.1
        have hroom := member_le_obj hmember
        omega
      · rw [partsMembers_eq] at hpart
        obtain ⟨v, hv, hpart⟩ := List.mem_flatMap.mp hpart
        obtain ⟨member, hmember, rfl⟩ := List.mem_map.mp hv
        have htext := texts_le_size_members members member hmember part hpart text htext
        have hroom := member_le_obj hmember
        omega

theorem texts_le_size_items : ∀ items : List Json, ∀ v ∈ items, ∀ part ∈ v.parts,
    ∀ text ∈ part.texts, text.utf8ByteSize ≤ v.size
  | [] => List.forall_mem_nil _
  | v :: rest => List.forall_mem_cons.mpr ⟨texts_le_size v, texts_le_size_items rest⟩

theorem texts_le_size_members : ∀ members : List (String × Json), ∀ member ∈ members,
    ∀ part ∈ member.2.parts, ∀ text ∈ part.texts, text.utf8ByteSize ≤ member.2.size
  | [] => List.forall_mem_nil _
  | (_, v) :: rest => List.forall_mem_cons.mpr ⟨texts_le_size v, texts_le_size_members rest⟩

end

/-- An object of so many members without an array or an object among them. -/
structure Flat (n : Nat) (v : Json) : Prop where
  plain : v.Plain
  depth : v.depth = 1
  parts : v.parts.length = n + 1

theorem depthItems_of_forall {items : List Json} {n : Nat} (h : ∀ v ∈ items, v.depth = n) :
    depthItems items = if items = [] then 0 else n := by
  induction items with
  | nil => rfl
  | cons v rest ih =>
      obtain ⟨hv, hrest⟩ := List.forall_mem_cons.mp h
      rw [depthItems, hv, ih hrest, if_neg (List.cons_ne_nil _ _)]
      split
      · exact Nat.max_eq_left (Nat.zero_le n)
      · exact Nat.max_self n

theorem length_partsItems {items : List Json} {n : Nat} (h : ∀ v ∈ items, v.parts.length = n) :
    (partsItems items).length = n * items.length := by
  induction items with
  | nil => rfl
  | cons v rest ih =>
      obtain ⟨hv, hrest⟩ := List.forall_mem_cons.mp h
      rw [partsItems, List.length_append, hv, ih hrest, List.length_cons, Nat.mul_succ,
        Nat.add_comm]

/-- A value that is no array and no object. -/
def IsLeaf (v : Json) : Prop := v.depth = 0 ∧ v.parts.length = 1

theorem flat_obj {members : List (String × Json)} (hplain : (obj members).Plain)
    (hleaf : ∀ member ∈ members, member.2.IsLeaf) : Flat members.length (obj members) := by
  refine ⟨hplain, ?_, ?_⟩
  · have hdepths : depthMembers members = 0 := by
      clear hplain
      induction members with
      | nil => rfl
      | cons member rest ih =>
          obtain ⟨hmember, hrest⟩ := List.forall_mem_cons.mp hleaf
          rw [depthMembers, hmember.1, ih hrest, Nat.max_self]
    rw [Json.depth, hdepths]
  · have hparts : (partsMembers members).length = members.length := by
      clear hplain
      induction members with
      | nil => rfl
      | cons member rest ih =>
          obtain ⟨hmember, hrest⟩ := List.forall_mem_cons.mp hleaf
          rw [partsMembers, List.length_append, hmember.2, ih hrest, List.length_cons, Nat.add_comm]
    rw [Json.parts, List.length_cons, hparts]

end Lib.Json

namespace Masterserver

open Lib

variable {c : Config} {id : String}

theorem Config.maxJsonDepth_bounds (c : Config) : 2 ≤ c.maxJsonDepth ∧ c.maxJsonDepth ≤ 64 :=
  c.bounded_le "max_json_depth" _ 2 64 (by simp [ConfigFields.bounded])

theorem Config.maxJsonNodes_bounds (c : Config) :
    16 ≤ c.maxJsonNodes ∧ c.maxJsonNodes ≤ 100000 :=
  c.bounded_le "max_json_nodes" _ 16 100000 (by simp [ConfigFields.bounded])

/-- A frame of a link passes the size check and is decoded. -/
def FrameAdmitted (c : Config) (raw : List Char) : Prop :=
  String.utf8Len raw ≤ c.maxFrameBytes ∧ ∃ data, loadsStrict c.jsonLimits raw = .ok data

/-- The texts of a frame that is not too long are not too long. -/
theorem frameAdmitted_canonical {v : Json} (h : v.Plain) :
    FrameAdmitted c v.canonical ↔
      v.depth ≤ c.maxJsonDepth ∧ v.parts.length ≤ c.maxJsonNodes ∧ v.size ≤ c.maxFrameBytes := by
  unfold FrameAdmitted
  simp only [loadsStrict_canonical_iff h]
  constructor
  · rintro ⟨hbytes, _, hs, -⟩
    exact ⟨hs.nesting, hs.nodes, hbytes⟩
  · rintro ⟨hdepth, hnodes, hbytes⟩
    refine ⟨hbytes, v.sortKeys, ⟨?_, hdepth, hnodes, fun part hpart text htext => ?_⟩, rfl⟩
    · rw [length_canonicalJsonBytes]
      exact hbytes
    · exact (Json.texts_le_size v part hpart text htext).trans hbytes

namespace NodeMessage

/-! ## What a message adds to what it carries -/

/-- The types of the messages and the names of their members. -/
theorem quotedSize_names :
    quotedSize "protocol" = 10 ∧ quotedSize "type" = 6 ∧ quotedSize "id" = 4 ∧
    quotedSize "payload" = 9 ∧ quotedSize "particle-node/1" = 17 ∧ quotedSize "NODE_HELLO" = 12 ∧
    quotedSize "manifest" = 10 ∧ quotedSize "NODE_STATE" = 12 ∧ quotedSize "nodeId" = 8 ∧
    quotedSize "membershipEpoch" = 17 ∧ quotedSize "incarnation" = 13 ∧
    quotedSize "connectedNodeIds" = 18 ∧ quotedSize "sentAt" = 8 ∧ quotedSize "routeTag" = 10 ∧
    quotedSize "descriptor" = 12 ∧ quotedSize "ROUTE_QUERY" = 13 ∧ quotedSize "queryId" = 9 ∧
    quotedSize "ROUTE_RESULT" = 14 ∧ quotedSize "descriptors" = 13 ∧
    quotedSize "SIGNAL_FORWARD" = 16 ∧ quotedSize "requestId" = 11 ∧
    quotedSize "targetSessionId" = 17 ∧ quotedSize "envelope" = 10 ∧ quotedSize "ACK" = 5 ∧
    quotedSize "delivered" = 11 ∧ quotedSize "ROUTE_REGISTER" = 16 ∧
    quotedSize "ROUTE_REMOVE" = 14 := by
  decide +kernel

theorem frameAdmitted_toJson {msg : NodeMessage} (h : msg.payload.Plain) :
    FrameAdmitted c (msg.toJson id).canonical ↔
      msg.payload.depth + 1 ≤ c.maxJsonDepth ∧ msg.payload.parts.length + 4 ≤ c.maxJsonNodes ∧
        55 + quotedSize msg.type + quotedSize id + msg.payload.size ≤ c.maxFrameBytes := by
  have hplain : (msg.toJson id).Plain := ⟨nodup_envelope, trivial, trivial, trivial, h, trivial⟩
  have hdepth : (msg.toJson id).depth = msg.payload.depth + 1 := by
    simp [toJson, Json.depth, Json.depthMembers]
  have hparts : (msg.toJson id).parts.length = msg.payload.parts.length + 4 := by
    simp [toJson, Json.parts, Json.partsMembers]
  have hsize : (msg.toJson id).size =
      55 + quotedSize msg.type + quotedSize id + msg.payload.size := by
    have hnames := quotedSize_names
    unfold toJson
    rw [Json.size_obj (List.cons_ne_nil _ _)]
    simp only [List.map_cons, List.map_nil, List.sum_cons, List.sum_nil, Json.size_str]
    omega
  rw [frameAdmitted_canonical hplain, hdepth, hparts, hsize]

/-- The size of a payload of two members. -/
theorem size_pair (name name' : String) (v v' : Json) :
    (Json.obj [(name, v), (name', v')]).size =
      5 + quotedSize name + v.size + quotedSize name' + v'.size := by
  rw [Json.size_obj (List.cons_ne_nil _ _)]
  simp only [List.map_cons, List.map_nil, List.sum_cons, List.sum_nil]
  omega

/-- What a node writes: the objects in it are flat but for the envelope of a
signal, which is flat around a flat payload, and its numbers can be read. -/
def Written : NodeMessage → Prop
  | .nodeHello manifest => manifest.Plain
  | .nodeState _ epoch _ _ sentAt => (Json.int epoch).Plain ∧ (Json.int sentAt).Plain
  | .routeRegister _ descriptor => descriptor.Flat 5
  | .routeRemove _ descriptor => descriptor.Flat 2
  | .routeQuery _ _ => True
  | .routeResult _ descriptors => ∀ descriptor ∈ descriptors, descriptor.Flat 5
  | .signalForward _ _ _ envelope =>
      envelope.Plain ∧ envelope.depth = 2 ∧ envelope.parts.length = 17
  | .ack requestId _ => ∃ text, requestId = .str text

/-- The room a message leaves for what it carries, under its identifier. -/
def Room (c : Config) (id : String) : NodeMessage → Prop
  | .nodeHello manifest =>
      manifest.depth + 2 ≤ c.maxJsonDepth ∧ manifest.parts.length + 5 ≤ c.maxJsonNodes ∧
        80 + quotedSize id + manifest.size ≤ c.maxFrameBytes
  | .nodeState nodeId epoch incarnation connected sentAt =>
      3 ≤ c.maxJsonDepth ∧ connected.length + 10 ≤ c.maxJsonNodes ∧
        142 + quotedSize id + quotedSize nodeId + (Json.int epoch).size + quotedSize incarnation +
          (Json.arr (connected.map .str)).size + (Json.int sentAt).size ≤ c.maxFrameBytes
  | .routeRegister routeTag descriptor =>
      3 ≤ c.maxJsonDepth ∧
        98 + quotedSize id + quotedSize routeTag + descriptor.size ≤ c.maxFrameBytes
  | .routeRemove routeTag descriptor =>
      3 ≤ c.maxJsonDepth ∧
        96 + quotedSize id + quotedSize routeTag + descriptor.size ≤ c.maxFrameBytes
  | .routeQuery queryId routeTag =>
      92 + quotedSize id + quotedSize queryId + quotedSize routeTag ≤ c.maxFrameBytes
  | .routeResult queryId descriptors =>
      (if descriptors = [] then 3 else 4) ≤ c.maxJsonDepth ∧
        7 + 6 * descriptors.length ≤ c.maxJsonNodes ∧
        96 + quotedSize id + quotedSize queryId + (Json.arr descriptors).size ≤ c.maxFrameBytes
  | .signalForward requestId routeTag targetSessionId envelope =>
      4 ≤ c.maxJsonDepth ∧ 25 ≤ c.maxJsonNodes ∧
        128 + quotedSize id + quotedSize requestId + quotedSize routeTag +
          quotedSize targetSessionId + envelope.size ≤ c.maxFrameBytes
  | .ack requestId delivered =>
      87 + quotedSize id + requestId.size + (Json.bool delivered).size ≤ c.maxFrameBytes

instance Room.decidable (c : Config) (id : String) : ∀ msg, Decidable (Room c id msg)
  | .nodeHello _ => inferInstanceAs (Decidable (_ ∧ _ ∧ _))
  | .nodeState _ _ _ _ _ => inferInstanceAs (Decidable (_ ∧ _ ∧ _))
  | .routeRegister _ _ => inferInstanceAs (Decidable (_ ∧ _))
  | .routeRemove _ _ => inferInstanceAs (Decidable (_ ∧ _))
  | .routeQuery _ _ => inferInstanceAs (Decidable (_ ≤ _))
  | .routeResult _ _ => inferInstanceAs (Decidable (_ ∧ _ ∧ _))
  | .signalForward _ _ _ _ => inferInstanceAs (Decidable (_ ∧ _ ∧ _))
  | .ack _ _ => inferInstanceAs (Decidable (_ ≤ _))

theorem admitted_nodeHello {manifest : Json} (h : manifest.Plain) :
    FrameAdmitted c ((nodeHello manifest).toJson id).canonical ↔
      (nodeHello manifest).Room c id := by
  have hnames := quotedSize_names
  have htype : (nodeHello manifest).type = "NODE_HELLO" := rfl
  have hplain : (nodeHello manifest).payload.Plain :=
    ⟨(by decide : ["manifest"].Nodup), h, trivial⟩
  have hdepth : (nodeHello manifest).payload.depth = manifest.depth + 1 := by
    simp [payload, Json.depth, Json.depthMembers]
  have hparts : (nodeHello manifest).payload.parts.length = manifest.parts.length + 1 := by
    simp [payload, Json.parts, Json.partsMembers]
  have hsize : (nodeHello manifest).payload.size = 13 + manifest.size := by
    unfold payload
    rw [Json.size_obj (List.cons_ne_nil _ _)]
    simp only [List.map_cons, List.map_nil, List.sum_cons, List.sum_nil]
    omega
  rw [frameAdmitted_toJson hplain, hdepth, hparts, hsize, htype]
  unfold Room
  omega

theorem admitted_nodeState {nodeId incarnation : String} {epoch : Nat} {connected : List String}
    {sentAt : Int} (h : (nodeState nodeId epoch incarnation connected sentAt).Written) :
    FrameAdmitted c ((nodeState nodeId epoch incarnation connected sentAt).toJson id).canonical ↔
      (nodeState nodeId epoch incarnation connected sentAt).Room c id := by
  have hnames := quotedSize_names
  have hitems : Json.PlainItems (connected.map .str) := by
    rw [Json.plainItems_iff, List.forall_mem_map]
    exact fun _ _ => trivial
  have hleaf : ∀ v ∈ connected.map Json.str, v.depth = 0 ∧ v.parts.length = 1 :=
    List.forall_mem_map.mpr fun _ _ => ⟨rfl, rfl⟩
  have hdepths : Json.depthItems (connected.map .str) = 0 := by
    rw [Json.depthItems_of_forall fun v hv => (hleaf v hv).1, ite_self]
  have hcount : (Json.partsItems (connected.map .str)).length = connected.length := by
    rw [Json.length_partsItems fun v hv => (hleaf v hv).2, List.length_map, one_mul]
  have htype : (nodeState nodeId epoch incarnation connected sentAt).type = "NODE_STATE" := rfl
  have hplain : (nodeState nodeId epoch incarnation connected sentAt).payload.Plain :=
    ⟨(by decide : ["nodeId", "membershipEpoch", "incarnation", "connectedNodeIds", "sentAt"].Nodup),
      trivial, h.1, trivial, hitems, h.2, trivial⟩
  have hdepth : (nodeState nodeId epoch incarnation connected sentAt).payload.depth = 2 := by
    simp [payload, Json.depth, Json.depthMembers, hdepths]
  have hparts : (nodeState nodeId epoch incarnation connected sentAt).payload.parts.length =
      connected.length + 6 := by
    simp [payload, Json.parts, Json.partsMembers, hcount]
  have hsize : (nodeState nodeId epoch incarnation connected sentAt).payload.size =
      75 + quotedSize nodeId + (Json.int epoch).size + quotedSize incarnation +
        (Json.arr (connected.map .str)).size + (Json.int sentAt).size := by
    unfold payload
    rw [Json.size_obj (List.cons_ne_nil _ _)]
    simp only [List.map_cons, List.map_nil, List.sum_cons, List.sum_nil, Json.size_str]
    omega
  rw [frameAdmitted_toJson hplain, hdepth, hparts, hsize, htype]
  unfold Room
  omega

theorem admitted_announcement {msg : NodeMessage} {n : Nat} {routeTag : String} {descriptor : Json}
    (hpayload : msg.payload = .obj [("routeTag", .str routeTag), ("descriptor", descriptor)])
    (hn : n ≤ 5) (h : descriptor.Flat n) :
    FrameAdmitted c (msg.toJson id).canonical ↔ 3 ≤ c.maxJsonDepth ∧
      82 + quotedSize msg.type + quotedSize id + quotedSize routeTag + descriptor.size ≤
        c.maxFrameBytes := by
  have hnames := quotedSize_names
  have hplain : msg.payload.Plain := by
    rw [hpayload]
    exact ⟨(by decide : ["routeTag", "descriptor"].Nodup), trivial, h.plain, trivial⟩
  have hdepth : msg.payload.depth = 2 := by
    simp [hpayload, Json.depth, Json.depthMembers, h.depth]
  have hparts : msg.payload.parts.length = n + 3 := by
    simp [hpayload, Json.parts, Json.partsMembers, h.parts]
  have hsize : msg.payload.size = 27 + quotedSize routeTag + descriptor.size := by
    rw [hpayload, size_pair, Json.size_str]
    omega
  have hnodes := c.maxJsonNodes_bounds
  rw [frameAdmitted_toJson hplain, hdepth, hparts, hsize]
  omega

theorem admitted_routeQuery {queryId routeTag : String} :
    FrameAdmitted c ((routeQuery queryId routeTag).toJson id).canonical ↔
      (routeQuery queryId routeTag).Room c id := by
  have hnames := quotedSize_names
  have htype : (routeQuery queryId routeTag).type = "ROUTE_QUERY" := rfl
  have hplain : (routeQuery queryId routeTag).payload.Plain :=
    ⟨(by decide : ["queryId", "routeTag"].Nodup), trivial, trivial, trivial⟩
  have hdepth : (routeQuery queryId routeTag).payload.depth = 1 := rfl
  have hparts : (routeQuery queryId routeTag).payload.parts.length = 3 := rfl
  have hsize : (routeQuery queryId routeTag).payload.size =
      24 + quotedSize queryId + quotedSize routeTag := by
    unfold payload
    rw [size_pair, Json.size_str, Json.size_str]
    omega
  have hnodes := c.maxJsonNodes_bounds
  have hlevels := c.maxJsonDepth_bounds
  rw [frameAdmitted_toJson hplain, hdepth, hparts, hsize, htype]
  unfold Room
  omega

theorem admitted_routeResult {queryId : String} {descriptors : List Json}
    (h : ∀ descriptor ∈ descriptors, descriptor.Flat 5) :
    FrameAdmitted c ((routeResult queryId descriptors).toJson id).canonical ↔
      (routeResult queryId descriptors).Room c id := by
  have hnames := quotedSize_names
  have hitems : Json.PlainItems descriptors :=
    Json.plainItems_iff.mpr fun descriptor hmem => (h descriptor hmem).plain
  have hdepths : Json.depthItems descriptors = if descriptors = [] then 0 else 1 :=
    Json.depthItems_of_forall fun descriptor hmem => (h descriptor hmem).depth
  have hcount : (Json.partsItems descriptors).length = 6 * descriptors.length :=
    Json.length_partsItems fun descriptor hmem => (h descriptor hmem).parts
  have htype : (routeResult queryId descriptors).type = "ROUTE_RESULT" := rfl
  have hplain : (routeResult queryId descriptors).payload.Plain :=
    ⟨(by decide : ["queryId", "descriptors"].Nodup), trivial, hitems, trivial⟩
  have hdepth : (routeResult queryId descriptors).payload.depth =
      (if descriptors = [] then 0 else 1) + 2 := by
    simp [payload, Json.depth, Json.depthMembers, hdepths]
  have hparts : (routeResult queryId descriptors).payload.parts.length =
      6 * descriptors.length + 3 := by
    simp [payload, Json.parts, Json.partsMembers, hcount]
  have hsize : (routeResult queryId descriptors).payload.size =
      27 + quotedSize queryId + (Json.arr descriptors).size := by
    unfold payload
    rw [size_pair, Json.size_str]
    omega
  rw [frameAdmitted_toJson hplain, hdepth, hparts, hsize, htype]
  simp only [Room]
  by_cases hnil : descriptors = []
  · rw [if_pos hnil, if_pos hnil]
    omega
  · rw [if_neg hnil, if_neg hnil]
    omega

theorem admitted_signalForward {requestId routeTag target : String} {envelope : Json}
    (h : (signalForward requestId routeTag target envelope).Written) :
    FrameAdmitted c ((signalForward requestId routeTag target envelope).toJson id).canonical ↔
      (signalForward requestId routeTag target envelope).Room c id := by
  obtain ⟨henvelope, hlevels, hnodes⟩ := h
  have hnames := quotedSize_names
  have htype : (signalForward requestId routeTag target envelope).type = "SIGNAL_FORWARD" := rfl
  have hplain : (signalForward requestId routeTag target envelope).payload.Plain :=
    ⟨nodup_signalForward, trivial, trivial, trivial, henvelope, trivial⟩
  have hdepth : (signalForward requestId routeTag target envelope).payload.depth = 3 := by
    simp [payload, Json.depth, Json.depthMembers, hlevels]
  have hparts : (signalForward requestId routeTag target envelope).payload.parts.length = 21 := by
    simp [payload, Json.parts, Json.partsMembers, hnodes]
  have hsize : (signalForward requestId routeTag target envelope).payload.size =
      57 + quotedSize requestId + quotedSize routeTag + quotedSize target + envelope.size := by
    unfold payload
    rw [Json.size_obj (List.cons_ne_nil _ _)]
    simp only [List.map_cons, List.map_nil, List.sum_cons, List.sum_nil, Json.size_str]
    omega
  rw [frameAdmitted_toJson hplain, hdepth, hparts, hsize, htype]
  unfold Room
  omega

theorem admitted_ack {requestId : String} {delivered : Bool} :
    FrameAdmitted c ((ack (.str requestId) delivered).toJson id).canonical ↔
      (ack (.str requestId) delivered).Room c id := by
  have hnames := quotedSize_names
  have htype : (ack (.str requestId) delivered).type = "ACK" := rfl
  have hplain : (ack (.str requestId) delivered).payload.Plain :=
    ⟨nodup_ack, trivial, trivial, trivial⟩
  have hdepth : (ack (.str requestId) delivered).payload.depth = 1 := rfl
  have hparts : (ack (.str requestId) delivered).payload.parts.length = 3 := rfl
  have hsize : (ack (.str requestId) delivered).payload.size =
      27 + (Json.str requestId).size + (Json.bool delivered).size := by
    unfold payload
    rw [size_pair]
    omega
  have hnodes := c.maxJsonNodes_bounds
  have hlevels := c.maxJsonDepth_bounds
  rw [frameAdmitted_toJson hplain, hdepth, hparts, hsize, htype]
  unfold Room
  omega

/-- The frame of a message that a node writes is admitted if and only if the
message leaves room for what it carries. -/
theorem frameAdmitted_iff_room {msg : NodeMessage} (h : msg.Written) :
    FrameAdmitted c (msg.toJson id).canonical ↔ msg.Room c id := by
  cases msg with
  | nodeHello manifest => exact admitted_nodeHello h
  | nodeState nodeId epoch incarnation connected sentAt => exact admitted_nodeState h
  | routeRegister routeTag descriptor =>
      have hnames := quotedSize_names
      have htype : (routeRegister routeTag descriptor).type = "ROUTE_REGISTER" := rfl
      rw [admitted_announcement rfl le_rfl h, htype]
      unfold Room
      omega
  | routeRemove routeTag descriptor =>
      have hnames := quotedSize_names
      have htype : (routeRemove routeTag descriptor).type = "ROUTE_REMOVE" := rfl
      rw [admitted_announcement rfl (by omega) h, htype]
      unfold Room
      omega
  | routeQuery queryId routeTag => exact admitted_routeQuery
  | routeResult queryId descriptors => exact admitted_routeResult h
  | signalForward requestId routeTag target envelope => exact admitted_signalForward h
  | ack requestId delivered =>
      obtain ⟨text, rfl⟩ := h
      exact admitted_ack

end NodeMessage

end Masterserver
