import Masterserver.Proofs.NodeFrames
import Masterserver.Proofs.PeerTexts
import Masterserver.Proofs.Requests

/-!
# What a node says to its peers

Every message a node sends of its own accord is `Written`. A registered
descriptor is an object of five members however it came into the registry: the
node has made it itself, or the validator let it through. A step that begins
with such a registry ends with one and sends nothing else, and so for a run
(`Spoke`). The requests and answers about signals are left to `WireRoom`: what
they carry was checked elsewhere.
-/

namespace Masterserver

open Lib Protocol NodeMesh

variable {m : MeshConfig} {cr : Crypto} {trust : NodeTrust}

/-! ## Flat objects -/

theorem flat_of_plainly {payload : Payload} (hplain : (Json.obj payload).Plain)
    (hflat : payload.Plainly) : Json.Flat payload.length (.obj payload) := by
  refine Json.flat_obj hplain fun member hmem => ?_
  have hvalue := get_of_mem hplain.1 hmem
  rcases hflat member.1 (List.mem_map_of_mem hmem) with ⟨text, htext⟩ | ⟨n, hn⟩
  · rw [← hvalue, htext]
    exact ⟨rfl, rfl⟩
  · rw [← hvalue, hn]
    exact ⟨rfl, rfl⟩

theorem Payload.short_get {payload : Payload} (h : Json.ShortMembers payload) (name : String) :
    (payload.get name).Short := by
  unfold Payload.get
  cases hlookup : payload.lookup name with
  | none => trivial
  | some v => exact h.lookup hlookup

/-- A descriptor that a peer may announce. -/
theorem flat_of_validDescriptor {descriptor : Json}
    (hvalid : validDescriptor false descriptor = true) (hshort : descriptor.Short) :
    descriptor.Flat 5 := by
  unfold validDescriptor at hvalid
  split at hvalid
  · next members =>
      simp only [Bool.false_eq_true, if_false, Bool.and_eq_true] at hvalid
      obtain ⟨⟨⟨⟨hfields, hsession, hnode⟩, hkey⟩, hkeyId⟩, hexpires⟩ := hvalid
      have hnames := hasExactly_iff.mp hfields
      have hlength := hnames.length_eq
      rw [List.length_map] at hlength
      have htext : ∀ {name : String} {ok : String → Bool},
          (Payload.get members name).str?.any ok = true →
            ∃ text, Payload.get members name = .str text := by
        intro name ok hany
        obtain ⟨text, htext, -⟩ := (Option.any_eq_true _ _).mp hany
        exact ⟨text, str?_eq_some.mp htext⟩
      have hflat : Payload.Plainly members := by
        intro name hname
        have hname := hnames.mem_iff.mp hname
        simp only [List.mem_cons, List.not_mem_nil, or_false] at hname
        rcases hname with rfl | rfl | rfl | rfl | rfl
        · exact .inl (htext hsession)
        · exact .inl (htext hkey)
        · exact .inl (htext hkeyId)
        · exact .inl (htext hnode)
        · obtain ⟨n, hn⟩ := Option.isSome_iff_exists.mp hexpires
          exact .inr ⟨n, int?_eq_some.mp hn⟩
      have hobj := flat_of_plainly
        (plain_of_flat (hnames.nodup_iff.mpr (by decide)) hshort hflat) hflat
      rw [hlength] at hobj
      exact hobj
  · cases hvalid

/-- The digits of the largest finite float, before the point. -/
def maxDateDigits : Nat := 309

/-- The reading of a clock is a float. -/
def Clocks.Dated (now : Clocks) : Prop := |now.wall| < 10 ^ maxDateDigits

theorem natAbs_pyInt_le (x : Seconds) : ((pyInt x).natAbs : Seconds) ≤ |x| := by
  rw [Nat.cast_natAbs, Int.cast_abs]
  unfold pyInt
  split
  · next hpos =>
      have hfloor : (0 : Seconds) ≤ ⌊x⌋ := by exact_mod_cast Int.floor_nonneg.mpr hpos
      rw [abs_of_nonneg hpos, abs_of_nonneg hfloor]
      exact Int.floor_le x
  · next hneg =>
      rw [not_le] at hneg
      have hceil : (⌈x⌉ : Seconds) ≤ 0 := by exact_mod_cast Int.ceil_nonpos.mpr hneg.le
      rw [abs_of_neg hneg, abs_of_nonpos hceil]
      exact neg_le_neg (Int.le_ceil x)

/-- The seconds of a date are not too many digits. -/
theorem plain_seconds {x : Seconds} {n : Nat} (h : |x| < 10 ^ n) (hpos : 0 < n)
    (hn : n ≤ maxStrDigits) : (Json.int (pyInt x)).Plain := by
  have hlt : (pyInt x).natAbs < 10 ^ n := by
    rw [← Nat.cast_lt (α := Seconds), Nat.cast_pow, Nat.cast_ofNat]
    exact (natAbs_pyInt_le x).trans_lt h
  have hdigits : (Nat.toDigits 10 (pyInt x).natAbs).length ≤ n :=
    (Nat.length_toDigits_le_iff (by decide) hpos).mpr hlt
  exact hdigits.trans hn

theorem flat_localDescriptor {now : Clocks} (hnow : now.Dated) (d : Hub.PeerDescriptor) :
    (localDescriptor m now.wall d).Flat 5 := by
  have hexpires : (Json.int (pyInt (now.wall + m.routeLeaseSeconds))).Plain := by
    obtain ⟨hpos, hle⟩ := m.routeLeaseSeconds_bounds
    have hday : m.routeLeaseSeconds ≤ 10 ^ maxDateDigits :=
      calc m.routeLeaseSeconds ≤ 86400 := hle
        _ ≤ 10 ^ 5 := by norm_num
        _ ≤ 10 ^ maxDateDigits := pow_le_pow_right₀ (by norm_num) (by decide)
    have hbound : (0 : Seconds) < 10 ^ maxDateDigits := pow_pos (by norm_num) _
    refine plain_seconds (n := maxDateDigits + 1) ?_ (by decide) (by decide)
    calc |now.wall + m.routeLeaseSeconds| ≤ |now.wall| + |m.routeLeaseSeconds| := abs_add_le _ _
      _ = |now.wall| + m.routeLeaseSeconds := by rw [abs_of_pos hpos]
      _ < 10 ^ maxDateDigits + 10 ^ maxDateDigits := add_lt_add_of_lt_of_le hnow hday
      _ ≤ 10 ^ maxDateDigits * 10 := by linarith
      _ = 10 ^ (maxDateDigits + 1) := (pow_succ _ _).symm
  have htext : ∀ value : Option String,
      ((value.map Json.str).getD .null).Plain ∧ ((value.map Json.str).getD .null).IsLeaf := by
    intro value
    cases value with
    | none => exact ⟨trivial, rfl, rfl⟩
    | some text => exact ⟨trivial, rfl, rfl⟩
  have hnodup : ["sessionId", "encryptionKeyHex", "keyId", "nodeId", "expiresAt"].Nodup := by decide
  have hplain : (localDescriptor m now.wall d).Plain :=
    ⟨hnodup, trivial, (htext d.encryptionKeyHex).1, (htext d.keyId).1, trivial, hexpires, trivial⟩
  refine Json.flat_obj hplain ?_
  simp only [List.forall_mem_cons]
  exact ⟨⟨rfl, rfl⟩, (htext d.encryptionKeyHex).2, (htext d.keyId).2, ⟨rfl, rfl⟩, ⟨rfl, rfl⟩,
    List.forall_mem_nil _⟩

/-! ## The registry -/

namespace NodeMesh

variable {mesh mesh' : NodeMesh} {hub : Hub} {tag sid : String}

/-- Every registered descriptor is an object of five members. -/
def Held (mesh : NodeMesh) : Prop := ∀ tag key d, mesh.entry tag key = some d → d.raw.Flat 5

theorem Held.sheds (h : mesh.Held) (hsheds : Sheds mesh mesh') : mesh'.Held :=
  fun tag key d hd => h tag key d (hsheds tag key d hd)

theorem Held.insertDescriptor (h : mesh.Held) {d : Descriptor} (hflat : d.raw.Flat 5) :
    (mesh.insertDescriptor m tag d).Held := by
  intro t key d' hd'
  obtain heq | ⟨-, -, heq⟩ := entry_insertDescriptor m mesh tag t d key
  · exact h t key d' (heq ▸ hd')
  · rw [heq] at hd'
    cases hd'
    exact hflat

theorem Held.applyRouteMessage (h : mesh.Held) {now : Seconds} {msgType : RouteMessageType}
    {descriptor : Json} (hflat : msgType = .register → descriptor.Flat 5) :
    (mesh.applyRouteMessage m hub now msgType tag descriptor).Held := by
  unfold NodeMesh.applyRouteMessage
  split
  · split
    · exact h.sheds (sheds_removeDescriptor mesh tag _)
    split
    · next d hd =>
        split
        · refine h.insertDescriptor ?_
          rw [Descriptor.raw_of_ofJson? hd]
          exact hflat rfl
        · exact h
    · exact h
    · split
      · exact h
      · next route hroute => exact h.sheds (sheds_storeRoute mesh hroute)
  · exact h

/-- A peer announces what the validator lets through. -/
theorem Held.handleRouteMessage (h : mesh.Held) {now : Seconds} {n : String} {payload : Payload}
    (hshort : Json.ShortMembers payload) :
    (mesh.handleRouteMessage m cr hub now n .register payload).Held := by
  unfold NodeMesh.handleRouteMessage
  simp only
  split
  · split
    · next hok =>
        simp only [Bool.and_eq_true] at hok
        obtain ⟨⟨⟨-, hvalid⟩, -⟩, -⟩ := hok
        exact h.applyRouteMessage fun _ =>
          flat_of_validDescriptor hvalid (Payload.short_get hshort _)
    · exact h
  · exact h

end NodeMesh

/-! ## What a step says -/

/-- What a node says, the requests and answers about signals apart. -/
def NodeMessage.Said (msg : NodeMessage) : Prop := msg.isExchange = false → msg.Written

section Sends

variable {hub : Hub} {now : Clocks} {mesh : NodeMesh}

/-- The registry is in order, and so is what is sent. -/
structure Spoken (mesh : NodeMesh) (sends : List Send) : Prop where
  held : mesh.Held
  said : ∀ send ∈ sends, send.message.Said

theorem spoken_silent (h : mesh.Held) : Spoken mesh [] :=
  ⟨h, List.forall_mem_nil _⟩

theorem spoken_replicate (h : mesh.Held) {msgType : RouteMessageType} {routeTag : String}
    {descriptor : Json} (hregister : msgType = .register → descriptor.Flat 5)
    (hremove : msgType = .remove → descriptor.Flat 2) :
    Spoken (mesh.replicate m cr hub now.wall msgType routeTag descriptor).1
      (mesh.replicate m cr hub now.wall msgType routeTag descriptor).2 := by
  unfold replicate
  refine foldl_invariant (P := fun acc : NodeMesh × List Send => Spoken acc.1 acc.2) _
    (spoken_silent h) ?_
  intro acc owner _ hacc
  unfold replicateTo
  split
  · exact ⟨hacc.held.applyRouteMessage hregister, hacc.said⟩
  split
  · refine ⟨hacc.held, fun send hmem => ?_⟩
    rcases List.mem_append.mp hmem with hmem | hmem
    · exact hacc.said send hmem
    · rw [List.mem_singleton.mp hmem]
      intro _
      cases msgType with
      | register => exact hregister rfl
      | remove => exact hremove rfl
  · exact hacc

theorem spoken_registerLocalRoute (h : mesh.Held) (hnow : now.Dated) (routeTag sid : String) :
    Spoken (mesh.registerLocalRoute m cr hub now.wall routeTag sid).1
      (mesh.registerLocalRoute m cr hub now.wall routeTag sid).2 := by
  unfold registerLocalRoute
  split
  · exact spoken_silent h
  · exact spoken_replicate h (fun _ => flat_localDescriptor hnow _) fun hremove => by
      cases hremove

theorem spoken_removeLocalRoute (h : mesh.Held) (routeTag sid : String) :
    Spoken (mesh.removeLocalRoute m cr hub now.wall routeTag sid).1
      (mesh.removeLocalRoute m cr hub now.wall routeTag sid).2 := by
  refine spoken_replicate h (fun hregister => by cases hregister) fun _ => ?_
  have hplain : (Json.obj [("sessionId", .str sid), ("nodeId", .str m.nodeId)]).Plain :=
    ⟨(by decide : ["sessionId", "nodeId"].Nodup), trivial, trivial, trivial⟩
  refine Json.flat_obj hplain ?_
  simp only [List.forall_mem_cons]
  exact ⟨⟨rfl, rfl⟩, ⟨rfl, rfl⟩, List.forall_mem_nil _⟩

/-- The answer to a ROUTE_QUERY has what is registered. -/
theorem spoken_handleRouteQuery (h : mesh.Held) (link : Nat) (payload : Payload) :
    Spoken (mesh.handleRouteQuery m now.wall link payload).1
      (mesh.handleRouteQuery m now.wall link payload).2 := by
  unfold handleRouteQuery
  split
  · split
    · have hpruned : (mesh.pruneRoutes now.wall).Held := h.sheds (sheds_pruneRoutes mesh)
      refine ⟨hpruned, fun send hmem => ?_⟩
      rw [List.mem_singleton.mp hmem]
      intro _ descriptor hdescriptor
      obtain ⟨d, hd, rfl⟩ := List.mem_map.mp hdescriptor
      obtain ⟨key, hkey⟩ := Dict.mem_values.mp (List.mem_of_mem_take hd)
      exact hpruned _ key d hkey
    · exact spoken_silent h
  · exact spoken_silent h

theorem written_stateMessage (hnow : now.Dated) (mesh : NodeMesh) :
    (mesh.stateMessage m now.wall).Written := by
  have hepoch := (m.toConfig.bounded_le "node_mesh_membership_epoch" m.nodeMeshMembershipEpoch
    1 (2 ^ 31 - 1) (by simp [ConfigFields.bounded])).2
  exact ⟨Json.length_toDigits_of_safe
    (show (m.nodeMeshMembershipEpoch : Int).natAbs < 2 ^ 53 by omega),
    plain_seconds hnow (by decide) (by decide)⟩

end Sends

/-! ### The steps of a handler -/

/-- What a step says, from a registry in order. -/
def Step.Spoken (step : Step) : Prop := Masterserver.Spoken step.server.mesh step.sends

theorem filterMap_send? (sends : List Send) :
    (sends.map Effect.toNode).filterMap Effect.send? = sends := by
  rw [List.filterMap_map]
  exact List.filterMap_some

theorem Spoken.step {server : Server} {sends : List Send} {effects : List Effect} {next : Next}
    (h : Masterserver.Spoken server.mesh sends) (heffects : effects.filterMap Effect.send? = []) :
    Step.Spoken ⟨server, sends.map .toNode ++ effects, next⟩ := by
  unfold Step.Spoken Step.sends
  rw [List.filterMap_append, filterMap_send?, heffects, List.append_nil]
  exact h

theorem spoken_withMesh {server : Server} {mesh : NodeMesh} {sends : List Send}
    (h : Masterserver.Spoken mesh sends) : (server.withMesh mesh sends).Spoken := by
  unfold Step.Spoken Step.sends Server.withMesh Server.done
  rw [filterMap_send?]
  exact h

section Steps

variable {server : Server} {step : Step} {now : Clocks} {sid : String} {id : Json}

theorem Server.Alone.spoken (halone : server.Alone step) (h : server.mesh.Held) : step.Spoken := by
  unfold Step.Spoken
  rw [halone.mesh, halone.sends]
  exact spoken_silent h

namespace V2

theorem spoken_handleAttachRoute (h : server.mesh.Held) (hnow : now.Dated) (routeTag : String) :
    (handleAttachRoute m cr now sid id routeTag server).Spoken := by
  unfold handleAttachRoute
  simp only
  split
  · exact spoken_silent h
  split
  · exact spoken_silent h
  · exact spoken_silent h
  · exact (spoken_registerLocalRoute h hnow routeTag sid).step rfl

theorem spoken_handleDiscover (h : server.mesh.Held) (sess : Session) (routeTag : String) :
    (handleDiscover m cr now sid id sess routeTag server).Spoken := by
  unfold handleDiscover
  simp only
  split
  · exact spoken_silent h
  split
  · exact spoken_silent h
  split
  · exact spoken_silent (h.sheds (sheds_discover m cr _ now.wall server.mesh routeTag))
  · exact spoken_silent (h.sheds (sheds_discover m cr _ now.wall server.mesh routeTag))

theorem spoken_relaySignal (h : server.mesh.Held) (draws : Draws) (signal : Signal) :
    (relaySignal m now sid id draws signal server).Spoken := by
  have hlookup : (recipientKeyId now signal.toSessionId server).1.mesh.Held := by
    unfold recipientKeyId
    split
    · exact h
    · exact h.sheds (sheds_remoteDescriptor server.mesh signal.toSessionId)
  unfold relaySignal
  simp only
  split
  · exact spoken_silent hlookup
  split
  · exact spoken_silent hlookup
  generalize (recipientKeyId now signal.toSessionId server).1.mesh = mesh at hlookup ⊢
  obtain hnone | ⟨owner, link, -, -, hsome⟩ :=
    forwardSignal_cases m mesh draws.requestId signal.routeTag signal.toSessionId
      (outgoing id signal)
  · rw [hnone]
    exact spoken_silent hlookup
  · rw [hsome]
    refine ⟨hlookup, fun send hmem => ?_⟩
    rw [List.mem_singleton.mp hmem]
    intro hexchange
    cases hexchange

theorem spoken_handleSignal (h : server.mesh.Held) (draws : Draws) (sess : Session)
    (signal : Signal) : (handleSignal m cr now sid id draws sess signal server).Spoken := by
  have hrelay : ∀ server' : Server, server'.mesh = server.mesh →
      (relaySignal m now sid id draws signal server').Spoken :=
    fun server' hmesh => spoken_relaySignal (hmesh ▸ h) draws signal
  unfold handleSignal
  simp only
  split
  · exact spoken_silent h
  split
  · exact spoken_silent h
  split
  · exact spoken_silent h
  split
  · exact spoken_silent h
  split
  · exact spoken_silent h
  split
  · exact spoken_silent h
  split
  · exact spoken_silent h
  split
  · exact spoken_silent h
  split
  · exact spoken_silent h
  · exact hrelay _ rfl

theorem spoken_handle (h : server.mesh.Held) (hnow : now.Dated) (draws : Draws) (sess : Session)
    (request : V2Request) : (handle m cr trust now sid id draws sess request server).Spoken := by
  unfold handle
  split
  · exact spoken_silent h
  cases request with
  | hello grant identityKeyHex encryptionKeyHex =>
      exact (alone_handleHello now draws sess grant identityKeyHex encryptionKeyHex).spoken h
  | prove signatureHex => exact (alone_handleProve now sess signatureHex).spoken h
  | ping => exact (alone_handlePing now).spoken h
  | attachRoute routeTag => exact spoken_handleAttachRoute h hnow routeTag
  | detachRoute routeTag => exact (spoken_removeLocalRoute h routeTag sid).step rfl
  | discover routeTag => exact spoken_handleDiscover h sess routeTag
  | signal signal => exact spoken_handleSignal h draws sess signal

theorem spoken_receiveFrame (h : server.mesh.Held) (hnow : now.Dated) (draws : Draws)
    (raw : List Char) : (receiveFrame m cr trust now sid draws raw server).Spoken := by
  unfold receiveFrame
  split
  · next step heq => exact (alone_admitFrame heq).spoken h
  next server' data heq =>
  obtain ⟨-, -, hmesh⟩ := admitFrame_ok heq
  have h' : server'.mesh.Held := hmesh ▸ h
  split
  · exact spoken_silent h'
  · exact spoken_silent h'
  split
  · exact spoken_silent h'
  · exact spoken_handle h' hnow draws _ _

end V2

theorem spoken_handleSignalForward {link : Nat} {payload : Payload} (h : server.mesh.Held)
    (hstep : server.handleSignalForward m now link payload = some step) : step.Spoken := by
  have hsaid (delivered : Bool) :
      ∀ send ∈ [(⟨link, .ack (payload.get "requestId") delivered⟩ : Send)], send.message.Said := by
    intro send hmem
    rw [List.mem_singleton.mp hmem]
    intro hexchange
    cases hexchange
  unfold Server.handleSignalForward at hstep
  split at hstep
  · cases hstep
  simp only at hstep
  split at hstep
  · split at hstep
    · cases hstep
      exact ⟨h, hsaid _⟩
    · cases hstep
      exact ⟨h, hsaid false⟩
  · cases hstep
    exact ⟨h, hsaid false⟩

/-- What a node answers a peer. -/
theorem spoken_handleMessage {n : String} {link : Nat} {type : String} {payload : Payload}
    (h : server.mesh.Held) (hshort : Json.ShortMembers payload)
    (hstep : server.handleMessage m cr now n link type payload = some step) : step.Spoken := by
  unfold Server.handleMessage at hstep
  simp only at hstep
  split at hstep
  · cases hstep
    exact spoken_withMesh (spoken_silent (h.handleRouteMessage hshort))
  split at hstep
  · cases hstep
    exact spoken_withMesh (spoken_silent (h.sheds (sheds_handleRouteMessage m cr _ _ _ n payload)))
  split at hstep
  · cases hstep
    exact spoken_withMesh (spoken_handleRouteQuery h link payload)
  split at hstep
  · obtain ⟨mesh, hmesh, rfl⟩ := Option.map_eq_some_iff.mp hstep
    refine spoken_withMesh (spoken_silent ?_)
    unfold handleRouteResult at hmesh
    split at hmesh
    · cases hmesh
    · cases hmesh
      exact h
    · cases hmesh
      exact h.sheds (.of_eq rfl)
  split at hstep
  · exact spoken_handleSignalForward h hstep
  split at hstep
  · obtain ⟨mesh, hmesh, rfl⟩ := Option.map_eq_some_iff.mp hstep
    refine spoken_withMesh (spoken_silent ?_)
    unfold handleAck at hmesh
    split at hmesh
    · cases hmesh
    · cases hmesh
      exact h
    · cases hmesh
      exact h.sheds (.of_eq rfl)
  split at hstep
  · cases hstep
    exact spoken_withMesh (spoken_silent (h.sheds (sheds_handleNodeState _ _ _ n _)))
  · cases hstep
    exact spoken_silent h

/-- A frame of a link. -/
theorem spoken_receiveNodeFrame {n : String} {link : Nat} {bucket : TokenBucket} {raw : List Char}
    (h : server.mesh.Held) :
    (server.receiveNodeFrame m cr now n link bucket raw).2.Spoken := by
  unfold Server.receiveNodeFrame
  split
  · exact spoken_silent h
  simp only
  split
  · exact spoken_silent h
  split
  · exact spoken_silent h
  next data hloads =>
  split
  · exact spoken_silent h
  · exact spoken_silent h
  next type id payload hvalid =>
  split
  · exact spoken_silent h
  obtain ⟨-, -, decoded, hdecoded, -, rfl⟩ := loadsStrict_ok.mp hloads
  have hdata := (decodeJson_strictHooks.mp hdecoded).1.short
  obtain ⟨⟨members, hmembers, -, -, -, -, hpayload⟩, -, -⟩ := validNodeEnvelope_some.mp hvalid
  rw [hmembers] at hdata
  have hshort := Payload.short_get hdata "payload"
  rw [hpayload] at hshort
  generalize hhub : (server.hub.checkAndMarkSeen m.toConfig now.monotonic
    s!"node:{n}:{id}" m.dedupeWindowSeconds).1 = hub
  have h' : ({ server with hub := hub } : Server).mesh.Held := h
  cases hstep : ({ server with hub := hub } : Server).handleMessage m cr now n link type
      payload with
  | none => exact spoken_silent h
  | some step => exact spoken_handleMessage h' hshort hstep

end Steps

/-! ## The log of a run -/

namespace ServerRun

variable {s s' : ServerRun} {e : ServerEvent} {sid : String} {conn : Connection}

/-- The registry is in order, and so is what was sent. -/
structure Spoke (s : ServerRun) : Prop where
  held : s.server.mesh.Held
  said : ∀ actor send, ⟨actor, .toNode send⟩ ∈ s.log → send.message.Said

theorem Spoke.add (h : s.Spoke) {entries : List Entry} (hlog : s'.log = s.log ++ entries)
    (hheld : s'.server.mesh.Held)
    (hsaid : ∀ actor send, ⟨actor, .toNode send⟩ ∈ entries → send.message.Said) : s'.Spoke := by
  refine ⟨hheld, fun actor send hmem => ?_⟩
  rw [hlog] at hmem
  rcases List.mem_append.mp hmem with hmem | hmem
  · exact h.said actor send hmem
  · exact hsaid actor send hmem

theorem Spoke.quiet (h : s.Spoke) (hlog : s'.log = s.log)
    (hsheds : Sheds s.server.mesh s'.server.mesh) : s'.Spoke := by
  have hnothing : s'.log = s.log ++ [] := by rw [hlog, List.append_nil]
  exact h.add hnothing (h.held.sheds hsheds) fun _ _ hmem => absurd hmem List.not_mem_nil

theorem Spoke.effects (h : s.Spoke) {step : Step} (hstep : step.Spoken) {actor : Actor}
    (hlog : s'.log = s.log ++ step.effects.map (Entry.mk actor))
    (hmesh : s'.server.mesh = step.server.mesh) : s'.Spoke := by
  refine h.add hlog (hmesh ▸ hstep.held) fun actor' send hmem => ?_
  obtain ⟨effect, heffect, heq⟩ := List.mem_map.mp hmem
  cases heq
  exact hstep.said send (Step.mem_sends.mpr heffect)

theorem Spoke.applyStep (h : s.Spoke) {step : Step} (hstep : step.Spoken) :
    (s.applyStep sid conn step).Spoke :=
  h.effects hstep (log_applyStep sid conn step) rfl

/-- Sends of the node itself. -/
theorem Spoke.sends (h : s.Spoke) {mesh : NodeMesh} {sends : List Send}
    (hsends : Masterserver.Spoken mesh sends) (hmesh : s'.server.mesh = mesh)
    (hlog : s'.log = s.log ++ sends.map fun send => Entry.mk .itself (.toNode send)) :
    s'.Spoke := by
  refine h.add hlog (hmesh ▸ hsends.held) fun actor send hmem => ?_
  obtain ⟨send', hmem', heq⟩ := List.mem_map.mp hmem
  cases heq
  exact hsends.said send hmem'

theorem Spoke.ask (h : s.Spoke) (queryIds : List String) :
    (s.ask m sid conn queryIds).Spoke := by
  unfold ServerRun.ask
  split
  · next routeTag _ _ queries _ =>
      obtain ⟨⟨_, hmesh⟩, hsends⟩ := askAll_queries (m := m) routeTag queries queryIds s.server.mesh
      have hspoken : Masterserver.Spoken (askAll m routeTag queries queryIds s.server.mesh).2.1
          (askAll m routeTag queries queryIds s.server.mesh).2.2 := by
        refine ⟨?_, fun send hmem _ => ?_⟩
        · rw [hmesh]
          exact h.held.sheds (.of_eq rfl)
        · obtain ⟨queryId, hmessage⟩ := hsends send hmem
          rw [hmessage]
          exact trivial
      exact h.sends hspoken rfl rfl
  · exact h

theorem Spoke.clientEvent (h : s.Spoke) {now : Clocks} (hnow : now.Dated) (op : ServerOp) :
    (s.clientEvent m cr trust now sid conn op).Spoke := by
  have hsame : ∀ s' : ServerRun, s'.log = s.log → s'.server.mesh = s.server.mesh → s'.Spoke :=
    fun s' hlog hmesh => h.quiet hlog (.of_eq (by rw [hmesh]))
  have htimeout : ∀ error, (s.server.proofTimeout error).Spoken :=
    fun error => Server.Alone.spoken ⟨rfl, rfl⟩ h.held
  cases op with
  | loop _ =>
      simp only [ServerRun.clientEvent]
      split
      · unfold ServerRun.loop
        split
        · exact hsame _ rfl rfl
        split
        · exact hsame _ rfl rfl
        split
        · exact h.applyStep (htimeout _)
        · exact hsame _ rfl rfl
      · exact h
  | frame _ raw draws =>
      simp only [ServerRun.clientEvent]
      split
      · unfold ServerRun.frame
        split
        · exact h.applyStep ((V1.alone_receiveFrame _ _ _ _ _ _ s.server).spoken h.held)
        · exact h.applyStep (V2.spoken_receiveFrame h.held hnow draws raw)
      · exact h
  | timeout _ =>
      simp only [ServerRun.clientEvent]
      split
      · split
        · exact h.applyStep (htimeout _)
        · exact h
      · exact h
  | disconnect _ =>
      simp only [ServerRun.clientEvent]
      split
      · exact hsame _ rfl rfl
      · exact hsame _ rfl rfl
      · exact h
  | ask _ queryIds => exact h.ask queryIds
  | answered _ queryId arrived =>
      simp only [ServerRun.clientEvent, ServerRun.answered]
      split
      · split
        · exact h.quiet (List.append_nil _) (.of_eq rfl)
        · exact h
      · exact h
  | resume _ arrived =>
      simp only [ServerRun.clientEvent, ServerRun.resume]
      split
      · exact h.applyStep ((V1.alone_relayTo _ _ s.server).spoken h.held)
      · split
        · exact h.applyStep (spoken_silent (h.held.sheds (sheds_discovered m _ _ _ _ _)))
        · exact h
      · exact h.applyStep (spoken_silent (h.held.sheds (.of_eq rfl)))
      · exact h
  | finish _ =>
      simp only [ServerRun.clientEvent, ServerRun.finish]
      split
      · exact hsame _ rfl rfl
      · exact hsame _ rfl rfl
      · next routeTag rest _ =>
          have hremoved : (V2.removeRoute m cr now sid routeTag s.server).Spoken :=
            spoken_withMesh (spoken_removeLocalRoute h.held routeTag sid)
          exact h.effects hremoved rfl rfl
      · exact hsame _ rfl rfl
      · exact h
  | _ => exact h

theorem Spoke.nodeFrame (h : s.Spoke) (now : Clocks) (socket : Nat) (raw : List Char) :
    (s.nodeFrame m cr now socket raw).Spoke := by
  unfold ServerRun.nodeFrame
  split
  · exact h
  next link _ =>
  have hstep : (s.server.receiveNodeFrame m cr now link.nodeId socket link.bucket raw).2.Spoken :=
    spoken_receiveNodeFrame h.held
  generalize s.server.receiveNodeFrame m cr now link.nodeId socket link.bucket raw = result
    at hstep ⊢
  obtain ⟨bucket, step⟩ := result
  have hserved : Spoke { s with
      server := step.server
      links := s.links.set socket { link with bucket := bucket }
      log := s.log ++ step.effects.map (Entry.mk (.node link.nodeId)) } := h.effects hstep rfl rfl
  simp only
  split
  · exact hserved
  · exact hserved.quiet (log_linkDown now socket) (sheds_linkDown _ now socket).2

theorem Spoke.serverEvent (h : s.Spoke) {now : Clocks} (hnow : now.Dated) (op : ServerOp) :
    (s.serverEvent m cr now op).Spoke := by
  cases op with
  | connect endpoint sid =>
      simp only [ServerRun.serverEvent, ServerRun.connect]
      split
      · exact h
      · exact h.quiet rfl .refl
  | linkUp nodeId socket =>
      refine h.quiet ?_ (sheds_linkUp s now nodeId socket).2
      obtain heq | ⟨hlog, -⟩ := linkUp_cases m cr s now nodeId socket
      · exact congrArg ServerRun.log heq
      · exact hlog
  | linkDown socket => exact h.quiet (log_linkDown now socket) (sheds_linkDown s now socket).2
  | nodeFrame socket raw => exact h.nodeFrame now socket raw
  | rebalance index =>
      simp only [ServerRun.serverEvent, ServerRun.rebalance]
      split
      · exact h
      next task _ =>
      unfold rebalanceStep
      split
      · exact h.sends (spoken_registerLocalRoute h.held hnow _ _) rfl rfl
      · exact h.quiet rfl .refl
      · refine h.sends ⟨h.held, fun send hmem _ => ?_⟩ rfl rfl
        obtain ⟨socket, -, rfl⟩ := List.mem_map.mp hmem
        exact written_stateMessage hnow s.server.mesh
  | membershipTick =>
      refine h.sends ⟨h.held.sheds (sheds_reconcileMembership s.server.mesh now.monotonic),
        fun send hmem _ => ?_⟩ rfl rfl
      obtain ⟨link, -, rfl⟩ := List.mem_map.mp hmem
      exact written_stateMessage hnow _
  | _ => exact h.quiet rfl .refl

theorem Spoke.after (h : s.Spoke) (hnow : e.now.Dated) : (s.after m cr trust e).Spoke := by
  have happly : (s.apply m cr trust e.now e.op).Spoke := by
    unfold ServerRun.apply
    split
    · exact h.serverEvent hnow e.op
    · split
      · exact h
      · exact h.clientEvent hnow e.op
  exact happly.quiet rfl .refl

end ServerRun

end Masterserver
