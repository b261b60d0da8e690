import Masterserver.Proofs.DeliveryReports
import Masterserver.Proofs.SentMessages

/-!
# Room on a link

A node checks what comes over a link with the limits it checks its clients'
frames with, and what it sends a peer is larger than what it was sent: a
signal gets an envelope, and descriptors come together in one answer. Every
message a node sends is `Written`, so whether the peer takes it is decided by
the room it leaves, `sent_frames_admitted_iff`. A signal that the sender's
loop accepted can be one that the peer hangs up on.
-/

namespace Masterserver

open Lib Protocol NodeMesh

namespace Exchange

open ServerRun

variable {f : Fleet} {cr : Crypto} {w : Exchange}

/-- The runs in which every clock reads a float. -/
def datedSystem (f : Fleet) (cr : Crypto) : System Exchange ExchangeEvent :=
  (exchangeSystem f cr).restrict fun _ e => e.event.now.Dated

/-- The envelope of a checked signal has three members more than its payload,
which has twelve. -/
theorem written_outgoing {limits : JsonLimits} {raw : List Char} {data : Json}
    {id : Option String} {signal : Signal} {requestId routeTag target : String}
    (hloads : loadsStrict limits raw = .ok data)
    (hvalid : validateV2Message data = .ok ⟨id, .signal signal⟩) :
    (NodeMessage.signalForward requestId routeTag target
      (V2.outgoing (idJson id) signal)).Written := by
  have hplain := plain_outgoing hloads hvalid
  have hgrammar : SignalPayload AnyCiphertext signal.payload :=
    signalPayload_iff.mpr ⟨signal, validateSignalV2_of_message hvalid rfl⟩
  have hlength : signal.payload.length = 12 := by
    rw [← List.length_map Prod.fst, hgrammar.fields.length_eq]
    rfl
  have hflat : Json.Flat signal.payload.length (.obj signal.payload) :=
    flat_of_plainly hplain.2.2.2.2.1 (plainly_of_signalPayload hgrammar)
  have hid : (idJson id).IsLeaf := by
    cases id with
    | none => exact ⟨rfl, rfl⟩
    | some text => exact ⟨rfl, rfl⟩
  have hdepth := hflat.depth
  have hparts := hflat.parts
  rw [Json.depth] at hdepth
  rw [Json.parts, List.length_cons, hlength] at hparts
  refine ⟨hplain, ?_, ?_⟩
  · simp only [V2.outgoing, messageOf, Json.depth, Json.depthMembers, hid.1]
    omega
  · simp only [V2.outgoing, messageOf, Json.parts, Json.partsMembers, List.length_cons,
      List.length_append, List.length_nil, hid.2]
    omega

/-- The requests and answers an event sends. -/
theorem written_of_course (h : w.Honest f) {node : String} {e : ServerEvent} {server' : Server}
    {entries : List Entry} (hcarried : w.Carried f node e.op)
    (hcourse : Course (f.config node) (w.nodes node) e server' entries) :
    ∀ send ∈ exchangeSends entries, send.message.Written := by
  cases hcourse with
  | idle _ hsends =>
      rw [hsends]
      exact List.forall_mem_nil _
  | asked _ hloads hvalid _ _ _ hsends =>
      rw [hsends, List.forall_mem_singleton]
      exact written_outgoing hloads hvalid
  | served hop hlink hread _ _ _ hentries hanswers =>
      rw [hop] at hcarried
      obtain ⟨p, -, -, -, htext, hgenuine⟩ :=
        h.carried hlink hcarried hread (List.mem_cons_self ..)
      cases hgenuine with
      | answer => exact absurd (read_ack htext).1 (by decide)
      | @request _ _ _ requestId _ _ _ hplain =>
          obtain ⟨-, -, hrequest, -, -⟩ := read_signalForward hplain htext
          rw [hentries]
          rcases hanswers with heffects | ⟨target, delivered, -, heffects⟩
          · rw [heffects, hrequest]
            exact List.forall_mem_singleton.mpr ⟨requestId, rfl⟩
          · rw [heffects, hrequest]
            exact List.forall_mem_singleton.mpr ⟨requestId, rfl⟩
  | acked _ _ _ _ _ _ hentries =>
      rw [hentries]
      exact List.forall_mem_nil _

/-- A frame that is too long or is not decoded ends the loop of its link. -/
theorem ended_of_not_admitted {m : MeshConfig} {now : Clocks} {n : String} {link : Nat}
    {bucket : TokenBucket} {raw : List Char} {server : Server}
    (h : ¬FrameAdmitted m.toConfig raw) :
    (server.receiveNodeFrame m cr now n link bucket raw).2.next = .ended := by
  unfold Server.receiveNodeFrame
  split
  · rfl
  next hsize =>
  simp only
  split
  · rfl
  split
  · rfl
  next data hloads => exact absurd ⟨not_lt.mp hsize, data, hloads⟩ h

/-- Every message in the log of a node is one a node writes. -/
structure Legible (w : Exchange) : Prop where
  spoke : ∀ node, (w.nodes node).Spoke
  exchanges : ∀ node, ∀ send ∈ exchangeSends (w.nodes node).log, send.message.Written

theorem legible_of_reachable (h : (datedSystem f cr).Reachable w) : w.Legible := by
  obtain ⟨es, htrace⟩ := h
  induction htrace with
  | start hi =>
      obtain ⟨incarnation, clocks, rfl⟩ := hi
      refine ⟨fun node => ⟨?_, ?_⟩, fun _ => List.forall_mem_nil _⟩
      · intro tag key d hentry
        cases hentry
      · intro actor send hmem
        cases hmem
  | @snoc _ w _ e htrace hstep ih =>
      obtain ⟨hnow, hallowed, rfl⟩ := hstep
      have hhonest := honest_of_reachable htrace.reachable.of_restrict
      obtain ⟨entries, hlog, hcourse⟩ :=
        course_after (f.config e.node) cr (f.trust e.node) (w.nodes e.node) e.event
      refine ⟨?_, ?_⟩
      · exact (Function.forall_update_iff w.nodes fun _ s => s.Spoke).mpr
          ⟨(ih.spoke e.node).after hnow, fun other _ => ih.spoke other⟩
      · refine (Function.forall_update_iff w.nodes fun _ s =>
          ∀ send ∈ exchangeSends s.log, send.message.Written).mpr
            ⟨?_, fun other _ => ih.exchanges other⟩
        intro send hmem
        rw [hlog, exchangeSends, List.filterMap_append] at hmem
        rcases List.mem_append.mp hmem with hmem | hmem
        · exact ih.exchanges e.node send hmem
        · exact written_of_course hhonest hallowed.2.2.2.1 hcourse send hmem

theorem Legible.written (h : w.Legible) {node : String} {actor : Actor} {send : Send}
    (hsent : ⟨actor, .toNode send⟩ ∈ (w.nodes node).log) : send.message.Written := by
  cases hexchange : send.message.isExchange with
  | false => exact (h.spoke node).said actor send hsent hexchange
  | true =>
      refine h.exchanges node send (List.mem_filterMap.mpr ⟨_, hsent, ?_⟩)
      show (if send.message.isExchange then some send else none) = some send
      rw [if_pos hexchange]

/-- In every run: a frame that a node puts on a link, whatever the identifier of
the message, passes the size check of the node at the other end and is decoded
there if and only if the message leaves room for what it carries; and a frame
that does not ends the loop of the link. -/
theorem sent_frames_admitted_iff (h : (datedSystem f cr).Reachable w) {node : String}
    {actor : Actor} {send : Send} (hsent : ⟨actor, .toNode send⟩ ∈ (w.nodes node).log)
    (receiver id : String) :
    (FrameAdmitted (f.config receiver).toConfig (send.message.toJson id).canonical ↔
      send.message.Room (f.config receiver).toConfig id) ∧
    (¬FrameAdmitted (f.config receiver).toConfig (send.message.toJson id).canonical →
      ∀ (now : Clocks) (link : Nat) (bucket : TokenBucket) (server : Server),
        (server.receiveNodeFrame (f.config receiver) cr now node link bucket
          (send.message.toJson id).canonical).2.next = .ended) := by
  refine ⟨NodeMessage.frameAdmitted_iff_room ((legible_of_reachable h).written hsent), ?_⟩
  intro hrefused now link bucket server
  exact ended_of_not_admitted hrefused

end Exchange

/-! ### A message that leaves room and one that does not -/

namespace Sample

open Exchange

/-- A run at time 0 reads floats. -/
theorem reachable_dated {f : Fleet} (events : List ExchangeEvent)
    (h : System.Meets (fun w e => w.allowed f e ∧ e.event.now.wall = 0)
      (Exchange.after f crypto) ⟨fun node => start (f.config node), [], ∅, []⟩ events) :
    (datedSystem f crypto).Reachable
      (events.foldl (Exchange.after f crypto)
        ⟨fun node => start (f.config node), [], ∅, []⟩) := by
  refine System.Reachable.restrict_mono (fun _ e hzero => ?_)
    (System.Reachable.restrict_restrict (System.reachable_foldl (.start ?_) events h))
  · unfold Clocks.Dated
    rw [hzero, abs_zero]
    exact pow_pos (by norm_num) _
  · exact ⟨fun _ => "", fun _ => ⟨0, 0⟩, rfl⟩

/-- Frames of 1200 bytes are the longest, and the manifests of the nodes pass. -/
def narrowPair : MeshConfig :=
  { MeshConfig.pair with
    toConfig := ⟨{ maxFrameBytes := 1200 }, by decide +kernel⟩
    local_notMem := by decide }

def narrowPartner : MeshConfig :=
  { partner with
    toConfig := ⟨{ maxFrameBytes := 1200, nodeId := "node-b" }, by decide +kernel⟩
    local_notMem := by decide }

def narrowFleet : Fleet where
  members := {"particle-node-local", "node-b"}
  config node := if node = "node-b" then narrowPartner else narrowPair
  trust _ := Sample.trust
  config_nodeId := by decide
  config_trusted := by decide

/-- The frames of the run have `#` for 64 zeros. -/
def widened (text : List Char) : List Char :=
  text.flatMap fun c => if c = '#' then List.replicate 64 '0' else [c]

def narrowHello (m : MeshConfig) : Json :=
  messageOf sessionV2 "HELLO" [("payload", .obj [
    ("grant", .obj [("payload", .obj [("format", .str "particle-admission/2"),
        ("issuer", .str m.nodeId), ("keyHash", .str "#"), ("nonceHash", .str "#"),
        ("protocol", .str sessionV2), ("issuedAt", .int 0), ("expiresAt", .int 1000)]),
      ("keyId", .str "#"), ("signatureHex", .str "##")]),
    ("identityKeyHex", .str "##00"), ("encryptionKeyHex", .str "##00")])]

def narrowFrame (node sid requestId : String) (ids : List String) (message : Json) :
    List ExchangeEvent :=
  [eventAt node (.loop sid) [],
    eventAt node (.frame sid (widened message.dumps) { draws with requestId := requestId }) ids]

def narrowAttached (node sid : String) : List ExchangeEvent :=
  eventAt node (.connect .v2 sid) [] ::
    (narrowFrame node sid (sid ++ "1") [] (narrowHello (narrowFleet.config node)) ++
      narrowFrame node sid (sid ++ "2") []
        (messageOf sessionV2 "PROVE" [("payload", .obj [("signatureHex", .str "##")])]) ++
      narrowFrame node sid (sid ++ "3") []
        (messageOf routeV2 "ATTACH_ROUTE" [("payload", .obj [("routeTag", .str "#")])]))

/-- A signal in a frame of less than 1200 bytes. -/
def bulkySignal : Json :=
  messageOf Protocol.signalV2 "SIGNAL" [("payload", .obj [("routeTag", .str "#"),
    ("fromSessionId", .str "s"), ("toSessionId", .str "t"), ("messageId", .str "0"),
    ("sequence", .int 1), ("expiresAt", .int 0), ("keyId", .str "#"), ("senderKeyId", .str "#"),
    ("senderIdentityKeyHex", .str "##00"), ("encHex", .str "##00"), ("ciphertextHex", .str "###"),
    ("signatureHex", .str "##")])]

/-- The same on its way to the other node. -/
def bulkyForward : List Char :=
  widened ((NodeMessage.signalForward "q" "#" "t" (.obj [("protocol", .str Protocol.signalV2),
    ("type", .str "SIGNAL"), ("id", .null),
    ("payload", (bulkySignal.get? "payload").getD .null)])).toJson "m1").canonical

/-- What the other node says of the session that attaches there. -/
def announced : List Char :=
  widened ((NodeMessage.routeRegister "#" (.obj [("sessionId", .str "t"),
    ("encryptionKeyHex", .str "##00"), ("keyId", .str "#"), ("nodeId", .str "node-b"),
    ("expiresAt", .int 90)])).toJson "m0").canonical

def squeezed : List ExchangeEvent :=
  [eventAt "particle-node-local" (.linkUp "node-b" 0) [],
    eventAt "node-b" (.linkUp "particle-node-local" 0) []] ++
    narrowAttached "particle-node-local" "s" ++ narrowAttached "node-b" "t" ++
    [eventAt "particle-node-local" (.nodeFrame 0 announced) []] ++
    narrowFrame "particle-node-local" "s" "q" ["m1"] bulkySignal ++
    [eventAt "node-b" (.nodeFrame 0 bulkyForward) []]

def startNarrow : Exchange := ⟨fun node => start (narrowFleet.config node), [], ∅, []⟩

def ranSqueezed : Exchange := squeezed.foldl (Exchange.after narrowFleet crypto) startNarrow

def longForward (p : Posted) : Bool :=
  p.source == "particle-node-local" && p.target == "node-b" &&
    decide (narrowPartner.maxFrameBytes < String.utf8Len p.text)

/-- A link comes up, and the state of the node is sent over it. -/
def greeting : List ExchangeEvent :=
  [eventAt "particle-node-local" (.linkUp "node-b" 0) [],
    eventAt "particle-node-local" (.rebalance 0) ["m0"]]

def greeted : Exchange := greeting.foldl (Exchange.after narrowFleet crypto) startNarrow

/-- The state of a node, with room for it at `node-b`. -/
def roomyState (send : Send) : Bool :=
  send.message.type == "NODE_STATE" && decide (send.message.Room narrowPartner.toConfig "m0")

end Sample

namespace Exchange

/-- The state that goes over a new link is decoded at the other end. -/
theorem sent_frames_admitted_iff_announced :
    ∃ actor send, ⟨actor, .toNode send⟩ ∈ (Sample.greeted.nodes "particle-node-local").log ∧
      send.message.type = "NODE_STATE" ∧
      FrameAdmitted (Sample.narrowFleet.config "node-b").toConfig
        (send.message.toJson "m0").canonical := by
  have hrun : System.Meets (fun w e => w.allowed Sample.narrowFleet e ∧ e.event.now.wall = 0)
        (Exchange.after Sample.narrowFleet Sample.crypto) Sample.startNarrow Sample.greeting ∧
      ((Sample.greeted.nodes "particle-node-local").log.any fun entry =>
        entry.effect.send?.any Sample.roomyState) = true := by
    decide +kernel
  obtain ⟨hmeets, hany⟩ := hrun
  obtain ⟨⟨actor, effect⟩, hmem, hsend⟩ := List.any_eq_true.mp hany
  cases effect with
  | toNode send =>
      obtain ⟨htype, hroom⟩ := (Bool.and_eq_true _ _).mp hsend
      exact ⟨actor, send, hmem, beq_iff_eq.mp htype,
        (sent_frames_admitted_iff (Sample.reachable_dated _ hmeets) hmem "node-b" "m0").1.mpr
          (of_decide_eq_true hroom)⟩
  | _ => cases hsend

/-- The signal of a client is handed over, and the other node hangs up. -/
theorem bulky_signal_ends_link :
    (datedSystem Sample.narrowFleet Sample.crypto).Reachable Sample.ranSqueezed ∧
      (∃ p ∈ Sample.ranSqueezed.wire, p.source = "particle-node-local" ∧ p.target = "node-b" ∧
        ¬FrameAdmitted (Sample.narrowFleet.config "node-b").toConfig p.text) ∧
      (Sample.ranSqueezed.nodes "node-b").links.get? 0 = none := by
  have hrun : System.Meets (fun w e => w.allowed Sample.narrowFleet e ∧ e.event.now.wall = 0)
        (Exchange.after Sample.narrowFleet Sample.crypto) Sample.startNarrow Sample.squeezed ∧
      Sample.ranSqueezed.wire.any Sample.longForward = true ∧
      ((Sample.ranSqueezed.nodes "node-b").links.get? 0).isNone = true := by
    decide +kernel
  obtain ⟨hmeets, hwire, hlink⟩ := hrun
  refine ⟨Sample.reachable_dated _ hmeets, ?_, Option.isNone_iff_eq_none.mp hlink⟩
  obtain ⟨p, hp, hlong⟩ := List.any_eq_true.mp hwire
  simp only [Sample.longForward, Bool.and_eq_true, beq_iff_eq, decide_eq_true_eq] at hlong
  obtain ⟨⟨hsource, htarget⟩, hlong⟩ := hlong
  exact ⟨p, hp, hsource, htarget, fun hadmitted => absurd hadmitted.1 (not_le.mpr hlong)⟩

end Exchange

end Masterserver
