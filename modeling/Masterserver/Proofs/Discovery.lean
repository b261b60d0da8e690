import Masterserver.Lib.DictMerge
import Masterserver.Proofs.Departures
import Masterserver.Proofs.PeersReply
import Masterserver.Proofs.SplitBrain

/-!
# Whose keys a PEERS reply shows

A session's keys are those of the one HELLO it had accepted, and a descriptor
of this node shows the keys the session had when it was made. So the own
registry never has wrong keys for a session that is here; the answers of other
nodes can. `discover_shows_own_keys` says of the runs in which they do not that
every reply shows a hosted session with its own keys.
-/

namespace Masterserver

open Lib Hub NodeMesh Protocol

/-- Two objects show the same keys. -/
structure Carries (descriptor : Json) (p : PeerDescriptor) : Prop where
  encryptionKeyHex : descriptor.get? "encryptionKeyHex" = p.toJson.get? "encryptionKeyHex"
  keyId : descriptor.get? "keyId" = p.toJson.get? "keyId"

theorem eq_of_carries {descriptor : Json} {p : PeerDescriptor} {encryptionKey : String}
    (h : Carries descriptor p) (hkey : descriptor.get? "encryptionKeyHex" = some (.str encryptionKey)) :
    p.encryptionKeyHex = some encryptionKey := by
  have hshown : some (Json.str encryptionKey) =
      some ((p.encryptionKeyHex.map Json.str).getD .null) := hkey.symm.trans h.encryptionKeyHex
  cases hp : p.encryptionKeyHex with
  | none =>
      rw [hp] at hshown
      cases hshown
  | some key =>
      rw [hp] at hshown
      cases hshown
      rfl

/-- One HELLO with that key was accepted, and a proof for it. -/
def ProvenWith (effects : List Effect) (encryptionKey : String) : Prop :=
  ∃ hello, helloes effects = [hello] ∧ hello.encryptionKeyHex = some encryptionKey ∧
    ∃ check ∈ proofChecks effects, check.verified = true

/-- What `peer_descriptor` says of a session with that key. -/
def descriptorOf (cr : Crypto) (sid encryptionKey : String) : PeerDescriptor :=
  ⟨sid, some encryptionKey, keyIdOf cr encryptionKey⟩

def Phase.isWaiting : Phase → Bool
  | .waiting _ => true
  | _ => false

namespace ServerRun

variable {m : MeshConfig} {cr : Crypto} {trust : NodeTrust} {s s' : ServerRun} {sid : String}
variable {e : ServerEvent}

/-! ## The keys of a session -/

theorem Sound.provenWith (h : Sound m cr trust s) {p : PeerDescriptor}
    (hp : s.server.hub.peerDescriptor sid = some p) :
    ∃ encryptionKey, ProvenWith (s.effectsOf sid) encryptionKey ∧
      p = descriptorOf cr sid encryptionKey := by
  obtain ⟨conn, hconn, hv2⟩ := h.second_of_peerDescriptor hp
  unfold Hub.peerDescriptor at hp
  split at hp
  · cases hp
  next sess hs =>
  split at hp
  · cases hp
  next hok =>
  cases hp
  simp only [Bool.or_eq_true, Bool.not_eq_true', not_or, Bool.not_eq_false] at hok
  obtain ⟨conn', hello, signature, hconn', hby⟩ := h.provenBy hs hok.1
  rw [hconn] at hconn'
  cases hconn'
  have hadm := hby.admitted
  rw [hv2] at hadm
  obtain ⟨grant, now, key, encryptionKey, -, -, henc, -, -⟩ := hadm
  have hcred := hby.credentials
  have hkey : sess.encryptionKeyHex = some encryptionKey :=
    (congrArg Credentials.encryptionKeyHex hcred).trans henc
  have hkeyId : sess.encryptionKeyId = keyIdOf cr encryptionKey := by
    have hid := congrArg Credentials.encryptionKeyId hcred
    simpa [Hello.credentials, henc, Session.credentials] using hid
  refine ⟨encryptionKey, ⟨hello, hby.helloes, henc, _, hby.checked, rfl⟩, ?_⟩
  unfold descriptorOf
  rw [hkey, hkeyId]

theorem Sound.peerDescriptor_of_provenWith (h : Sound m cr trust s) {sess : Session}
    {encryptionKey : String} (hs : s.server.hub.sessions.get? sid = some sess)
    (hproven : ProvenWith (s.effectsOf sid) encryptionKey) :
    s.server.hub.peerDescriptor sid = some (descriptorOf cr sid encryptionKey) := by
  obtain ⟨hello, hhelloes, henc, check, hcheck, hverified⟩ := hproven
  obtain ⟨conn, state, -, hrec, hdesc⟩ := h.session hs
  obtain ⟨hello', signature, hphase⟩ := hrec.settled check hcheck hverified
  have heq : hello' = hello := by
    have hlist := hrec.helloes
    rw [hhelloes, hphase] at hlist
    exact (List.singleton_inj.mp hlist).symm
  subst heq
  have hadm : hello'.Admitted m.toConfig cr trust conn.endpoint :=
    hrec.admitted hello' (by rw [hphase]; exact List.mem_singleton.mpr rfl)
  have hkey : ∃ key, hello'.identityKeyHex = some key := by
    cases hend : conn.endpoint with
    | v1 =>
        rw [hend] at hadm
        rw [hadm.2] at henc
        cases henc
    | v2 =>
        rw [hend] at hadm
        obtain ⟨grant, now, key, encryptionKey', -, hkey, -⟩ := hadm
        exact ⟨key, hkey⟩
  obtain ⟨key, hkey⟩ := hkey
  have hcred : sess.credentials = hello'.credentials cr true := by
    rw [hdesc.credentials, hphase]
    rfl
  have hp : sess.proven = true := congrArg Credentials.proven hcred
  have hversion : sess.protocolVersion = 2 := by
    have hversion := congrArg Credentials.protocolVersion hcred
    simpa [Hello.credentials, hkey, Session.credentials] using hversion
  have hkeyHex : sess.encryptionKeyHex = some encryptionKey :=
    (congrArg Credentials.encryptionKeyHex hcred).trans henc
  have hkeyId : sess.encryptionKeyId = keyIdOf cr encryptionKey := by
    have hid := congrArg Credentials.encryptionKeyId hcred
    simpa [Hello.credentials, henc, Session.credentials] using hid
  unfold Hub.peerDescriptor descriptorOf
  rw [hs]
  simp only [hp, hversion, hkeyHex, hkeyId]
  rfl

/-- A session has one HELLO accepted in its life, so its key stays. -/
theorem Sound.provenWith_later (h : Sound m cr trust s') {effects : List Effect}
    {encryptionKey : String} (hproven : ProvenWith effects encryptionKey)
    (hextends : effects <+: s'.effectsOf sid) :
    ProvenWith (s'.effectsOf sid) encryptionKey := by
  obtain ⟨hello, hhelloes, henc, check, hcheck, hverified⟩ := hproven
  obtain ⟨endpoint, ⟨state, htrace, -⟩, -⟩ := h.represented sid
  have hrec := records_of_trace htrace
  obtain ⟨later, heq⟩ := hextends
  have hlength : (helloes (effects ++ later)).length ≤ 1 := by
    rw [heq, hrec.helloes]
    cases state.phase with
    | connected => exact Nat.zero_le 1
    | challenged hello => exact Nat.le_refl 1
    | proven hello signature => exact Nat.le_refl 1
  rw [helloes_append, hhelloes, List.length_append, List.length_singleton] at hlength
  have hnil : helloes later = [] := List.length_eq_zero_iff.mp (by omega)
  refine ⟨hello, ?_, henc, check, ?_, hverified⟩
  · rw [← heq, helloes_append, hhelloes, hnil, List.append_nil]
  · rw [← heq, proofChecks_append]
    exact List.mem_append_left _ hcheck

/-- The object shows the keys of the session, whether it is still here or not. -/
def Owned (cr : Crypto) (s : ServerRun) (sid : String) (descriptor : Json) : Prop :=
  ∃ encryptionKey, ProvenWith (s.effectsOf sid) encryptionKey ∧
    Carries descriptor (descriptorOf cr sid encryptionKey)

theorem Owned.after {descriptor : Json} (h : Owned cr s sid descriptor)
    (hs' : Sound m cr trust (s.after m cr trust e)) :
    Owned cr (s.after m cr trust e) sid descriptor := by
  obtain ⟨encryptionKey, hproven, hcarries⟩ := h
  exact ⟨encryptionKey, hs'.provenWith_later hproven (effectsOf_extends_after s e sid), hcarries⟩

/-- The session is here, and the object shows what `peer_descriptor` says of it. -/
def OwnKeys (hub : Hub) (sid : String) (descriptor : Json) : Prop :=
  ∃ p, hub.peerDescriptor sid = some p ∧ Carries descriptor p

theorem Owned.ownKeys {descriptor : Json} (h : Owned cr s sid descriptor)
    (hs : Sound m cr trust s) {sess : Session}
    (hsess : s.server.hub.sessions.get? sid = some sess) :
    OwnKeys s.server.hub sid descriptor := by
  obtain ⟨encryptionKey, hproven, hcarries⟩ := h
  exact ⟨_, hs.peerDescriptor_of_provenWith hsess hproven, hcarries⟩

theorem Sound.owned_of_peerDescriptor (h : Sound m cr trust s) {p : PeerDescriptor}
    {descriptor : Json} (hp : s.server.hub.peerDescriptor sid = some p)
    (hcarries : Carries descriptor p) : Owned cr s sid descriptor := by
  obtain ⟨encryptionKey, hproven, rfl⟩ := h.provenWith hp
  exact ⟨encryptionKey, hproven, hcarries⟩

/-! ## Sessions that are not here -/

theorem quietAt_none {hub hub' : Hub} (h : QuietAt sid hub hub')
    (hnone : hub.sessions.get? sid = none) : hub'.sessions.get? sid = none := by
  rw [Option.eq_none_iff_forall_ne_some]
  intro sess hs
  obtain ⟨sess₀, hs₀, -⟩ := h.session sess hs
  rw [hnone] at hs₀
  cases hs₀

/-- The loop of a removed session does not bring it back. -/
theorem quiet_receiveFrame_unhosted (m : MeshConfig) (cr : Crypto) (trust : NodeTrust)
    (now : Clocks) (endpoint : Endpoint) (draws : Draws) (raw : List Char) {server : Server}
    (hnone : server.hub.sessions.get? sid = none) :
    server.hub.Quiet (match endpoint with
      | .v1 => V1.receiveFrame m.toConfig cr now.monotonic sid draws raw server
      | .v2 => V2.receiveFrame m cr trust now sid draws raw server).server.hub := by
  cases endpoint with
  | v1 =>
      have hadmitted := admitFrame_quiet m.toConfig sendError now.monotonic sid raw server
      simp only [V1.receiveFrame]
      split
      · next step heq =>
          rw [heq] at hadmitted
          exact hadmitted.1
      next server' data heq =>
      rw [heq] at hadmitted
      have hnone' := quietAt_none (hadmitted.1.quietAt sid) hnone
      split
      · exact hadmitted.1
      · exact hadmitted.1
      split
      · exact hadmitted.1
      · next sess hs =>
          rw [hnone'] at hs
          cases hs
  | v2 =>
      have hadmitted := admitFrame_quiet m.toConfig (fun code message => v2Error code message .null)
        now.monotonic sid raw server
      simp only [V2.receiveFrame]
      split
      · next step heq =>
          rw [heq] at hadmitted
          exact hadmitted.1
      next server' data heq =>
      rw [heq] at hadmitted
      have hnone' := quietAt_none (hadmitted.1.quietAt sid) hnone
      split
      · exact hadmitted.1
      · exact hadmitted.1
      split
      · exact hadmitted.1
      · next sess hs =>
          rw [hnone'] at hs
          cases hs

theorem quiet_clientEvent_unhosted (m : MeshConfig) (cr : Crypto) (trust : NodeTrust)
    (now : Clocks) (conn : Connection) (op : ServerOp)
    (hnone : s.server.hub.sessions.get? sid = none) :
    s.server.hub.Quiet (s.clientEvent m cr trust now sid conn op).server.hub := by
  unfold clientEvent
  split
  · split
    · unfold ServerRun.loop
      split
      · exact .refl _
      · next sess hs =>
          rw [hnone] at hs
          cases hs
    · exact .refl _
  · split
    · exact quiet_receiveFrame_unhosted m cr trust now conn.endpoint _ _ hnone
    · exact .refl _
  · split
    · split
      · exact .refl _
      · exact .refl _
    · exact .refl _
  · split
    · exact .refl _
    · exact .refl _
    · exact .refl _
  · unfold ServerRun.ask
    split
    · exact .refl _
    · exact .refl _
  · unfold ServerRun.answered
    split
    · split
      · exact .refl _
      · exact .refl _
    · exact .refl _
  · unfold ServerRun.resume
    split
    · exact (V1.quiet_relayTo _ _ _).1
    · split
      · exact .refl _
      · exact .refl _
    · exact .refl _
    · exact .refl _
  · unfold ServerRun.finish
    split
    · exact .refl _
    · exact .refl _
    · exact .refl _
    · exact quiet_removeSessionBy clamp sid
    · exact .refl _
  · exact .refl _

theorem unhosted_after (hnone : s.server.hub.sessions.get? sid = none)
    (hop : ∀ endpoint, e.op ≠ .connect endpoint sid) :
    (s.after m cr trust e).server.hub.sessions.get? sid = none := by
  show (s.apply m cr trust e.now e.op).server.hub.sessions.get? sid = none
  unfold ServerRun.apply
  split
  · by_cases hconnect : ∃ endpoint other, e.op = .connect endpoint other
    · obtain ⟨endpoint, other, hconnect⟩ := hconnect
      simp only [hconnect, ServerRun.serverEvent, ServerRun.connect]
      split
      · exact hnone
      · have hne : sid ≠ other := fun heq => hop endpoint (heq ▸ hconnect)
        rw [Hub.createSession, Dict.get?_set_of_ne _ _ hne]
        exact hnone
    · have hcalm : Calm s (s.serverEvent m cr e.now e.op) :=
        calm_serverEvent m cr s e.now fun endpoint other heq => hconnect ⟨endpoint, other, heq⟩
      exact quietAt_none (hcalm.quiet.quietAt sid) hnone
  next other _ =>
  split
  · exact hnone
  next conn hconn =>
  by_cases heq : sid = other
  · subst heq
    exact quietAt_none ((quiet_clientEvent_unhosted m cr trust e.now conn e.op hnone).quietAt sid)
      hnone
  · obtain ⟨effects, hmoved⟩ := moved_clientEvent m cr trust e.now hconn e.op
    exact quietAt_none (hmoved.keeps.others sid heq) hnone

/-! ## What a DISCOVER collects -/

/-- A descriptor that was cached: it is current, and a session that is here
was not given to another node. -/
structure Collected (m : MeshConfig) (hub : Hub) (now : Seconds) (descriptor : Json)
    (key : String) (d : Descriptor) : Prop where
  ofJson : Descriptor.ofJson? descriptor = some d
  key : key = d.sessionId
  current : descriptorIsCurrent m now d.expiresAt = true
  unhosted : d.nodeId ≠ m.nodeId → hub.sessions.get? d.sessionId = none

theorem get?_collect {hub : Hub} {now : Seconds} {acc : NodeMesh × Dict String Descriptor}
    {descriptor : Json} {key : String} {d : Descriptor}
    (h : (collect m hub now acc descriptor).2.get? key = some d) :
    acc.2.get? key = some d ∨ Collected m hub now descriptor key d := by
  unfold collect cacheDescriptor at h
  simp only at h
  split at h
  · next d' hcached hd' =>
      rw [Dict.get?_set] at h
      split at h
      · next heq =>
          cases h
          rw [hd'] at hcached
          simp only at hcached
          split at hcached
          · cases hcached
          next hok =>
          simp only [ownsSession, Bool.or_eq_true, Bool.not_eq_true', not_or, Bool.not_eq_false,
            Bool.and_eq_false_iff, decide_eq_false_iff_not, not_not] at hok
          refine .inr ⟨hd', heq, hok.1, fun hne => ?_⟩
          obtain hlocal | hnot := hok.2.1
          · exact absurd hlocal hne
          · exact Dict.not_contains_iff.mp hnot
      · exact .inl h
  · exact .inl h

theorem get?_foldl_collect {hub : Hub} {now : Seconds}
    (acc : NodeMesh × Dict String Descriptor) (descriptors : List Json) {key : String}
    {d : Descriptor} (h : (descriptors.foldl (collect m hub now) acc).2.get? key = some d) :
    acc.2.get? key = some d ∨ ∃ descriptor ∈ descriptors, Collected m hub now descriptor key d := by
  have hall : ∀ key d, (descriptors.foldl (collect m hub now) acc).2.get? key = some d →
      acc.2.get? key = some d ∨
        ∃ descriptor ∈ descriptors, Collected m hub now descriptor key d := by
    refine foldl_invariant (P := fun acc' : NodeMesh × Dict String Descriptor =>
      ∀ key d, acc'.2.get? key = some d → acc.2.get? key = some d ∨
        ∃ descriptor ∈ descriptors, Collected m hub now descriptor key d) descriptors
      (fun key d hd => .inl hd) ?_
    intro acc' descriptor hmem ih key d hd
    obtain hd | hcollected := get?_collect hd
    · exact ih key d hd
    · exact .inr ⟨descriptor, hmem, hcollected⟩
  exact hall key d h

/-- The own registry's descriptors, those that were cached. -/
theorem get?_discover {hub : Hub} {now : Seconds} {mesh : NodeMesh} {routeTag key : String}
    {d : Descriptor} (h : (mesh.discover m cr hub now routeTag).2.1.get? key = some d) :
    Collected m hub now d.raw key d ∧ ∃ k, mesh.entry routeTag k = some d := by
  obtain hempty | ⟨descriptor, hmem, hcollected⟩ := get?_foldl_collect _ _ h
  · cases hempty
  obtain ⟨d', hd', rfl⟩ := List.mem_map.mp hmem
  obtain ⟨k, hk⟩ := Dict.mem_values.mp hd'
  have heq : some d' = some d :=
    (Descriptor.ofJson?_eq d'.raw_sessionId d'.raw_nodeId d'.raw_expiresAt).symm.trans
      hcollected.ofJson
  cases heq
  have hentry : (mesh.pruneRoutes now).entry routeTag k = some d := hk
  rw [entry_pruneRoutes] at hentry
  exact ⟨hcollected, k, (Option.filter_eq_some_iff.mp hentry).1⟩

/-! ## The invariant -/

/-- The sessions of this node that a DISCOVER found have their own keys, and
those of other nodes are not here. -/
def FoundRight (m : MeshConfig) (cr : Crypto) (s : ServerRun) (found : Dict String Descriptor) :
    Prop :=
  ∀ key d, found.get? key = some d → key = d.sessionId ∧
    (d.nodeId = m.nodeId → Owned cr s d.sessionId d.raw) ∧
    (d.nodeId ≠ m.nodeId → s.server.hub.sessions.get? d.sessionId = none)

structure RightKeys (m : MeshConfig) (cr : Crypto) (s : ServerRun) : Prop where
  registry : ∀ tag key d, s.server.mesh.entry tag key = some d → d.nodeId = m.nodeId →
    Owned cr s d.sessionId d.raw
  peers : ∀ sid conn id routeTag peers found queries, s.connections.get? sid = some conn →
    conn.endpoint = .v2 → conn.phase = .waiting (.discover id routeTag peers found queries) →
    ∀ p ∈ peers, Owned cr s p.sessionId p.toJson
  found : ∀ sid conn id routeTag peers found queries, s.connections.get? sid = some conn →
    conn.endpoint = .v2 → conn.phase = .waiting (.discover id routeTag peers found queries) →
    FoundRight m cr s found

/-- A new session has the identifier of one that a waiting DISCOVER found at
another node. -/
def Reuses (m : MeshConfig) (s : ServerRun) (e : ServerEvent) : Prop :=
  ∃ endpoint sid conn id routeTag peers found queries key d,
    e.op = .connect endpoint d.sessionId ∧ s.connections.get? sid = some conn ∧
    conn.phase = .waiting (.discover id routeTag peers found queries) ∧
    found.get? key = some d ∧ d.nodeId ≠ m.nodeId

theorem Sound.owned_of_route (h : Sound m cr trust s) {hub : Hub}
    (hsessions : hub.sessions = s.server.hub.sessions) {now : Seconds} {routeTag : String}
    {exclude : Option String} {p : PeerDescriptor}
    (hp : p ∈ hub.routePeerDescriptors now routeTag exclude) :
    Owned cr s p.sessionId p.toJson := by
  obtain ⟨other, -, hother⟩ := List.mem_filterMap.mp hp
  unfold Hub.peerDescriptor at hother
  rw [hsessions] at hother
  have hpeer : s.server.hub.peerDescriptor other = some p := hother
  rw [Hub.peerDescriptor_sessionId hpeer]
  exact h.owned_of_peerDescriptor hpeer ⟨rfl, rfl⟩

/-- What a DISCOVER finds here. -/
theorem RightKeys.discover (h : RightKeys m cr s) {hub : Hub}
    (hsessions : hub.sessions = s.server.hub.sessions) (now : Seconds) (routeTag : String) :
    FoundRight m cr s (s.server.mesh.discover m cr hub now routeTag).2.1 := by
  intro key d hd
  obtain ⟨hcollected, k, hentry⟩ := get?_discover hd
  refine ⟨hcollected.key, h.registry routeTag k d hentry, fun hne => ?_⟩
  rw [← hsessions]
  exact hcollected.unhosted hne

theorem FoundRight.after {found : Dict String Descriptor} (h : FoundRight m cr s found)
    (hs' : Sound m cr trust (s.after m cr trust e))
    (hconnect : ∀ key d endpoint, found.get? key = some d → d.nodeId ≠ m.nodeId →
      e.op ≠ .connect endpoint d.sessionId) : FoundRight m cr (s.after m cr trust e) found := by
  intro key d hd
  obtain ⟨hkey, hlocal, hremote⟩ := h key d hd
  exact ⟨hkey, fun heq => (hlocal heq).after hs', fun hne =>
    unhosted_after (hremote hne) fun endpoint => hconnect key d endpoint hd hne⟩

theorem RightKeys.next (h : RightKeys m cr s) (hs : Sound m cr trust s) (hlinks : s.PeerLinks m)
    (hallowed : s.allowed m e.op) (hreuses : ¬Reuses m s e) :
    RightKeys m cr (s.after m cr trust e) := by
  have hs' : Sound m cr trust (s.after m cr trust e) := hs.after hallowed
  have hwaiting : ∀ sid conn' id routeTag peers found queries',
      (s.after m cr trust e).connections.get? sid = some conn' → conn'.endpoint = .v2 →
      conn'.phase = .waiting (.discover id routeTag peers found queries') →
      (∀ p ∈ peers, Owned cr (s.after m cr trust e) p.sessionId p.toJson) ∧
        FoundRight m cr (s.after m cr trust e) found := by
    intro sid conn' id routeTag peers found queries' hconn' hv2 hphase'
    have hkept : (∃ conn queries, s.connections.get? sid = some conn ∧ conn.endpoint = .v2 ∧
          conn.phase = .waiting (.discover id routeTag peers found queries)) →
        (∀ p ∈ peers, Owned cr (s.after m cr trust e) p.sessionId p.toJson) ∧
          FoundRight m cr (s.after m cr trust e) found := by
      rintro ⟨conn, queries, hconn, hend, hphase⟩
      refine ⟨fun p hp => (h.peers sid conn id routeTag peers found queries hconn hend hphase p
        hp).after hs', ?_⟩
      refine (h.found sid conn id routeTag peers found queries hconn hend hphase).after hs' ?_
      intro key d endpoint hd hne hop
      exact hreuses ⟨endpoint, sid, conn, id, routeTag, peers, found, queries, key, d, hop, hconn,
        hphase, hd, hne⟩
    cases discovery_after m cr trust s e with
    | standBy hstandBy => exact hkept (hstandBy.waits sid conn' _ _ _ _ _ hconn' hv2 hphase')
    | message hop hconn hstep hconnections =>
        rw [hconnections, applyStep, setPhase, Dict.get?_set] at hconn'
        split at hconn'
        · cases hconn'
          cases hstep with
          | answered _ _ _ hnext =>
              rw [hnext] at hphase'
              cases hphase'
          | waits hsessions _ _ hnext =>
              rw [hnext] at hphase'
              cases hphase'
              refine ⟨fun p hp => (hs.owned_of_route hsessions hp).after hs',
                (h.discover hsessions e.now.wall _).after hs' fun _ _ _ _ _ heq => ?_⟩
              rw [hop] at heq
              cases heq
        · exact hkept ⟨conn', queries', hconn', hv2, hphase'⟩
    | resumed hop hconn hphase hanswered hconnections =>
        rw [hconnections, applyStep, setPhase, Dict.get?_set] at hconn'
        split at hconn'
        · cases hconn'
          cases hphase'
        · exact hkept ⟨conn', queries', hconn', hv2, hphase'⟩
  refine ⟨fun tag key d hd hlocal => ?_, ?_, ?_⟩
  · have hevolves : Evolves m cr s e (s.after m cr trust e).server :=
      evolves_after hs hallowed hlinks
    obtain hbefore | ⟨-, hnew⟩ := hevolves.adds tag key d hd
    · exact (h.registry tag key d hbefore hlocal).after hs'
    · obtain ⟨⟨p, hp, rfl⟩, -⟩ := hnew hlocal
      exact hs'.owned_of_peerDescriptor hp ⟨rfl, rfl⟩
  · intro sid conn id routeTag peers found queries hconn hv2 hphase
    exact (hwaiting sid conn id routeTag peers found queries hconn hv2 hphase).1
  · intro sid conn id routeTag peers found queries hconn hv2 hphase
    exact (hwaiting sid conn id routeTag peers found queries hconn hv2 hphase).2

/-- Another node's answer gives a session that is here, as one of this node,
with other keys than its own. -/
def Substitutes (m : MeshConfig) (s : ServerRun) (e : ServerEvent) : Prop :=
  ∃ sid arrived conn id routeTag peers found queries descriptors descriptor d sess,
    e.op = .resume sid arrived ∧ s.connections.get? sid = some conn ∧
    conn.phase = .waiting (.discover id routeTag peers found queries) ∧
    allAnswered queries = true ∧ .answered descriptors ∈ queries ∧ descriptor ∈ descriptors ∧
    Descriptor.ofJson? descriptor = some d ∧ d.nodeId = m.nodeId ∧
    descriptorIsCurrent m e.now.wall d.expiresAt = true ∧
    s.server.hub.sessions.get? d.sessionId = some sess ∧
    ¬OwnKeys s.server.hub d.sessionId descriptor

/-- The runs in which no node substitutes a key and no identifier is reused. -/
def honestSystem (m : MeshConfig) (cr : Crypto) (trust : NodeTrust) :
    System ServerRun ServerEvent :=
  (serverSystem m cr trust).restrict fun s e => ¬Reuses m s e ∧ ¬Substitutes m s e

theorem rightKeys_of_reachable (h : (honestSystem m cr trust).Reachable s) :
    RightKeys m cr s := by
  obtain ⟨es, htrace⟩ := h
  induction htrace with
  | start hi =>
      obtain ⟨incarnation, clocks, rfl⟩ := hi
      refine ⟨nofun, ?_, ?_⟩
      · intro sid conn id routeTag peers found queries hconn
        cases hconn
      · intro sid conn id routeTag peers found queries hconn
        cases hconn
  | snoc htrace hstep ih =>
      obtain ⟨⟨hreuses, -⟩, ⟨-, hallowed⟩, rfl⟩ := hstep
      have hreach := htrace.reachable.of_restrict
      exact ih.next (sound_of_reachable hreach) (peerLinks_of_reachable hreach) hallowed hreuses

/-! ## The reply -/

/-- What a reply lists was among the descriptors it was made from. -/
theorem mem_peersReply {id id' : Json} {routeTag routeTag' : String}
    {peers : List PeerDescriptor} {found : Dict String Descriptor} {listed : List Json}
    (h : V2.answer id' routeV2 "PEERS" [("routeTag", .str routeTag'), ("peers", .arr listed)] =
      V2.peersReply m sid id routeTag peers found) {peer : Json} (hpeer : peer ∈ listed) :
    (∃ p ∈ peers, peer = p.toJson) ∨ ∃ key d, found.get? key = some d ∧ peer = d.raw := by
  unfold V2.peersReply V2.answer messageOf at h
  simp only [Effect.reply.injEq, Json.obj.injEq, Json.arr.injEq, List.cons.injEq, Prod.mk.injEq,
    true_and, and_true] at h
  rw [h.2.2] at hpeer
  obtain ⟨key, hget⟩ := Dict.mem_values.mp (List.mem_of_mem_take hpeer)
  obtain hlocal | hfound := List.mem_append.mp (List.mem_of_mem_filter (Dict.get?_setAll_empty hget))
  · obtain ⟨p, hp, heq⟩ := List.mem_map.mp hlocal
    cases heq
    exact .inl ⟨p, hp, rfl⟩
  · obtain ⟨d, hd, heq⟩ := List.mem_map.mp hfound
    cases heq
    obtain ⟨key, hkey⟩ := Dict.mem_values.mp hd
    exact .inr ⟨key, d, hkey, rfl⟩

theorem sessionId_of_raw {d : Descriptor} {target : String}
    (h : d.raw.get? "sessionId" = some (.str target)) : d.sessionId = target := by
  have hraw := d.raw_sessionId
  rw [h] at hraw
  exact (Option.some.inj hraw).symm

/-- A right table shows a hosted session with its own keys. -/
theorem FoundRight.ownKeys {found : Dict String Descriptor} (h : FoundRight m cr s found)
    (hs : Sound m cr trust s) {key : String} {d : Descriptor} (hd : found.get? key = some d)
    {sess : Session} (hsess : s.server.hub.sessions.get? d.sessionId = some sess) :
    OwnKeys s.server.hub d.sessionId d.raw := by
  obtain ⟨-, hlocal, hremote⟩ := h key d hd
  by_cases heq : d.nodeId = m.nodeId
  · exact (hlocal heq).ownKeys hs hsess
  · rw [hremote heq] at hsess
    cases hsess

/-- In every run in which no node substitutes a key and no identifier is
reused: a PEERS reply of the second endpoint shows a session that is here with
the keys `peer_descriptor` has for it. -/
theorem discover_shows_own_keys (h : (honestSystem m cr trust).Reachable s)
    (hstep : (honestSystem m cr trust).step s e s') {conn : Connection} {id : Json}
    {routeTag : String} {listed : List Json} {peer : Json} {target : String} {sess : Session}
    (hconn : s.connections.get? sid = some conn) (hv2 : conn.endpoint = .v2)
    (hreply : V2.answer id routeV2 "PEERS" [("routeTag", .str routeTag), ("peers", .arr listed)] ∈
      (s'.effectsOf sid).drop (s.effectsOf sid).length)
    (hpeer : peer ∈ listed) (hid : peer.get? "sessionId" = some (.str target))
    (hsess : s.server.hub.sessions.get? target = some sess) :
    OwnKeys s.server.hub target peer := by
  obtain ⟨⟨-, hhonest⟩, -, rfl⟩ := hstep
  have hs := sound_of_reachable h.of_restrict
  have hright := rightKeys_of_reachable h
  have hmade : ∀ {id' : Json} {routeTag' : String} {peers : List PeerDescriptor}
      {found : Dict String Descriptor} {other : String},
      V2.answer id routeV2 "PEERS" [("routeTag", .str routeTag), ("peers", .arr listed)] =
        V2.peersReply m other id' routeTag' peers found →
      (∀ p ∈ peers, Owned cr s p.sessionId p.toJson) →
      (∀ key d, found.get? key = some d → d.sessionId = target →
        OwnKeys s.server.hub d.sessionId d.raw) →
      OwnKeys s.server.hub target peer := by
    intro id' routeTag' peers found other heq hpeers hfound
    obtain ⟨p, hp, rfl⟩ | ⟨key, d, hd, rfl⟩ := mem_peersReply heq hpeer
    · cases hid
      exact (hpeers p hp).ownKeys hs hsess
    · obtain rfl := sessionId_of_raw hid
      exact hfound key d hd rfl
  cases discovery_after m cr trust s e with
  | standBy hstandBy =>
      have hnot := hstandBy.unanswered sid conn _ hconn hv2 hreply
      rw [V2.isPeers_answer] at hnot
      cases hnot
  | @message other _ _ conn' step hop hconn' hdiscovers _ hlog =>
      have heffects : (s.after m cr trust e).effectsOf sid =
          (s.applyStep other conn' step).effectsOf sid := by
        unfold effectsOf
        rw [hlog]
      rw [heffects, effectsOf_applyStep, List.drop_left] at hreply
      split at hreply
      · cases hdiscovers with
        | answered hsessions _ heffects _ =>
            rw [heffects, List.mem_singleton] at hreply
            refine hmade hreply (fun p hp => hs.owned_of_route hsessions hp) ?_
            rintro key d hd rfl
            exact (hright.discover hsessions e.now.wall _).ownKeys hs hd hsess
        | waits _ _ heffects _ =>
            rw [heffects] at hreply
            cases hreply
      · cases hreply
  | @resumed other conn' arrived id' routeTag' peers found queries hop hconn' hphase hanswered _
      hlog =>
      have heffects : (s.after m cr trust e).effectsOf sid = (s.applyStep other conn'
          (V2.finishDiscover m e.now other id' routeTag' peers found queries
            s.server)).effectsOf sid := by
        unfold effectsOf
        rw [hlog]
      rw [heffects, effectsOf_applyStep, List.drop_left] at hreply
      split at hreply
      · next heq =>
        subst heq
        rw [hconn] at hconn'
        cases hconn'
        refine hmade (List.mem_singleton.mp hreply)
          (hright.peers sid conn _ _ _ _ _ hconn hv2 hphase) ?_
        rintro key d hd rfl
        obtain hfound | ⟨descriptor, hmem, hcollected⟩ := get?_foldl_collect _ _ hd
        · exact (hright.found sid conn _ _ _ _ _ hconn hv2 hphase).ownKeys hs hfound hsess
        · obtain ⟨query, hquery, hdescriptor⟩ := List.mem_flatMap.mp hmem
          cases query with
          | answered descriptors =>
              by_cases hlocal : d.nodeId = m.nodeId
              · rw [Descriptor.raw_of_ofJson? hcollected.ofJson]
                by_contra hnot
                exact hhonest ⟨sid, arrived, conn, id', routeTag', peers, found, queries,
                  descriptors, descriptor, d, sess, hop, hconn, hphase, hanswered, hquery,
                  hdescriptor, hcollected.ofJson, hlocal, hcollected.current, hsess, hnot⟩
              · rw [hcollected.unhosted hlocal] at hsess
                cases hsess
          | _ => cases hdescriptor
      · cases hreply

/-- The two conditions are about waiting DISCOVERs. -/
theorem honest_of_none_waits (h : s.connections.values.all (fun conn => !conn.phase.isWaiting) = true)
    (e : ServerEvent) : ¬Reuses m s e ∧ ¬Substitutes m s e := by
  have hnone : ∀ {sid : String} {conn : Connection} {on : Waiting},
      s.connections.get? sid = some conn → conn.phase ≠ .waiting on := by
    intro sid conn on hconn hphase
    have hnot := List.all_eq_true.mp h conn (Dict.mem_values.mpr ⟨sid, hconn⟩)
    rw [hphase] at hnot
    cases hnot
  constructor
  · rintro ⟨endpoint, sid, conn, id, routeTag, peers, found, queries, key, d, -, hconn, hphase, -⟩
    exact hnone hconn hphase
  · rintro ⟨sid, arrived, conn, id, routeTag, peers, found, queries, descriptors, descriptor, d, sess,
      -, hconn, hphase, -⟩
    exact hnone hconn hphase

end ServerRun

/-! ## An honest reply and a substituted key -/

namespace Sample

def discoverV2 : Json :=
  messageOf routeV2 "DISCOVER" [("payload", .obj [("routeTag", zeros 64)])]

/-- Two clients are on the route of zeros, and one is about to ask who is there. -/
def asking (m : MeshConfig) : List ServerEvent := pair m ++ [event 0 (.loop "t")]

def beforeAsked : ServerRun := run .alone (asking .alone)

def asked : ServerEvent := event 0 (.frame "t" discoverV2.dumps draws)

/-- What a peer may send in answer to the question `q`: a descriptor of this
node's session under another key. -/
def substituted (m : MeshConfig) (sid : String) : Json :=
  let ones (n : Nat) : Json := .str (String.ofList (List.replicate n '1'))
  messageOf node "ROUTE_RESULT" [("id", .str "r"), ("payload", .obj [("queryId", .str "q"),
    ("descriptors", .arr [.obj [("sessionId", .str sid), ("encryptionKeyHex", ones 130),
      ("keyId", ones 64), ("nodeId", .str m.nodeId), ("expiresAt", .int 90)]])])]

/-- The peer is linked, the other client asks, and the peer answers. -/
def substituting (m : MeshConfig) (peer : String) : List ServerEvent :=
  event 0 (.linkUp peer 1) :: (pair m ++ message 0 "t" discoverV2 ++
    [event 0 (.ask "t" ["q"]), event 0 (.nodeFrame 1 (substituted m "s").dumps),
      event 0 (.answered "t" "q" true)])

def beforeAnswered : ServerRun := run nodeA (substituting nodeA "node-b")

def answered : ServerEvent := event 0 (.resume "t" true)

/-- Whether a PEERS reply shows a session with a key. -/
def shows (target encryptionKey : String) (effect : Effect) : Bool :=
  match effect with
  | .reply (.obj [(protocol, .str route), (type, .str peers), (inReplyTo, _),
      (payload, .obj [(routeTag, .str _), (list, .arr listed)])]) =>
      decide (protocol = "protocol" ∧ route = routeV2 ∧ type = "type" ∧ peers = "PEERS" ∧
        inReplyTo = "inReplyTo" ∧ payload = "payload" ∧ routeTag = "routeTag" ∧ list = "peers") &&
        listed.any fun peer =>
          (peer.get? "sessionId").bind Json.str? == some target &&
            (peer.get? "encryptionKeyHex").bind Json.str? == some encryptionKey
  | _ => false

theorem eq_of_str? {value : Option Json} {text : String}
    (h : value.bind Json.str? = some text) : value = some (.str text) := by
  obtain ⟨json, rfl, hstr⟩ := Option.bind_eq_some_iff.mp h
  cases json with
  | str text' =>
      cases hstr
      rfl
  | _ => cases hstr

/-- Whether a PEERS reply lists a peer that passes a test. -/
def listsPeer (test : Json → Bool) (effect : Effect) : Bool :=
  match effect with
  | .reply (.obj [(protocol, .str route), (type, .str peers), (inReplyTo, _),
      (payload, .obj [(routeTag, .str _), (list, .arr listed)])]) =>
      decide (protocol = "protocol" ∧ route = routeV2 ∧ type = "type" ∧ peers = "PEERS" ∧
        inReplyTo = "inReplyTo" ∧ payload = "payload" ∧ routeTag = "routeTag" ∧ list = "peers") &&
        listed.any test
  | _ => false

theorem reply_of_listsPeer {test : Json → Bool} {effects : List Effect}
    (h : effects.any (listsPeer test) = true) :
    ∃ id routeTag listed peer,
      V2.answer id routeV2 "PEERS" [("routeTag", .str routeTag), ("peers", .arr listed)] ∈ effects ∧
      peer ∈ listed ∧ test peer = true := by
  obtain ⟨effect, hmem, hlists⟩ := List.any_eq_true.mp h
  unfold listsPeer at hlists
  split at hlists
  · rw [Bool.and_eq_true, decide_eq_true_eq] at hlists
    obtain ⟨⟨rfl, rfl, rfl, rfl, rfl, rfl, rfl, rfl⟩, hlisted⟩ := hlists
    obtain ⟨peer, hpeer, htest⟩ := List.any_eq_true.mp hlisted
    exact ⟨_, _, _, peer, hmem, hpeer, htest⟩
  · cases hlists

theorem reply_of_shows {target encryptionKey : String} {effects : List Effect}
    (h : effects.any (shows target encryptionKey) = true) :
    ∃ id routeTag listed peer,
      V2.answer id routeV2 "PEERS" [("routeTag", .str routeTag), ("peers", .arr listed)] ∈ effects ∧
      peer ∈ listed ∧ peer.get? "sessionId" = some (.str target) ∧
      peer.get? "encryptionKeyHex" = some (.str encryptionKey) := by
  obtain ⟨id, routeTag, listed, peer, hmem, hpeer, hkeys⟩ := reply_of_listsPeer h
  rw [Bool.and_eq_true, beq_iff_eq, beq_iff_eq] at hkeys
  exact ⟨id, routeTag, listed, peer, hmem, hpeer, eq_of_str? hkeys.1, eq_of_str? hkeys.2⟩

theorem reachable_honest (m : MeshConfig) (events : List ServerEvent)
    (h : System.Meets
      (fun s e => (s.clocks.before e.now ∧ s.allowed m e.op) ∧
        s.connections.values.all (fun conn => !conn.phase.isWaiting) = true)
      (ServerRun.after m crypto trust) (start m) events) :
    (ServerRun.honestSystem m crypto trust).Reachable (run m events) := by
  refine System.Reachable.restrict_mono (fun s e h => ServerRun.honest_of_none_waits h e)
    (System.Reachable.restrict_restrict (System.reachable_foldl (.start ?_) events h))
  exact ⟨"", ⟨0, 0⟩, rfl⟩

end Sample

namespace ServerRun

/-- A client is shown the other with its own keys. -/
theorem discover_shows_own_keys_pair :
    ∃ id routeTag listed peer,
      V2.answer id routeV2 "PEERS" [("routeTag", .str routeTag), ("peers", .arr listed)] ∈
        ((Sample.beforeAsked.after .alone Sample.crypto Sample.trust Sample.asked).effectsOf
          "t").drop (Sample.beforeAsked.effectsOf "t").length ∧
      peer ∈ listed ∧ OwnKeys Sample.beforeAsked.server.hub "s" peer := by
  have hrun : System.Meets
        (fun s e => (s.clocks.before e.now ∧ s.allowed .alone e.op) ∧
          s.connections.values.all (fun conn => !conn.phase.isWaiting) = true)
        (ServerRun.after .alone Sample.crypto Sample.trust) (Sample.start .alone)
        (Sample.asking .alone) ∧
      (Sample.beforeAsked.clocks.before Sample.asked.now ∧
        Sample.beforeAsked.allowed .alone Sample.asked.op) ∧
      Sample.beforeAsked.connections.values.all (fun conn => !conn.phase.isWaiting) = true ∧
      (((Sample.beforeAsked.after .alone Sample.crypto Sample.trust Sample.asked).effectsOf
        "t").drop (Sample.beforeAsked.effectsOf "t").length).any
          (Sample.shows "s" (String.ofList (List.replicate 130 '0'))) = true ∧
      (Sample.beforeAsked.connections.get? "t").any (fun conn => conn.endpoint = .v2) = true ∧
      Sample.beforeAsked.server.hub.sessions.contains "s" = true := by
    decide +kernel
  obtain ⟨hmeets, hallowed, hnone, hshows, hconn, hsess⟩ := hrun
  obtain ⟨id, routeTag, listed, peer, hreply, hpeer, hid, -⟩ := Sample.reply_of_shows hshows
  rw [Option.any_eq_true] at hconn
  obtain ⟨conn, hconn, hv2⟩ := hconn
  obtain ⟨sess, hsess⟩ := Dict.contains_iff.mp hsess
  exact ⟨id, routeTag, listed, peer, hreply, hpeer,
    discover_shows_own_keys (Sample.reachable_honest .alone _ hmeets)
      ⟨honest_of_none_waits hnone Sample.asked, hallowed, rfl⟩ hconn (of_decide_eq_true hv2) hreply
      hpeer hid hsess⟩

/-- A peer's answer puts another key in the place of a session's own. -/
theorem discover_shows_substituted_key :
    ∃ (s s' : ServerRun) (e : ServerEvent) (conn : Connection) (id : Json) (routeTag : String)
      (listed : List Json) (peer : Json) (sess : Session),
      (serverSystem nodeA Sample.crypto Sample.trust).Reachable s ∧
      (serverSystem nodeA Sample.crypto Sample.trust).step s e s' ∧
      s.connections.get? "t" = some conn ∧ conn.endpoint = .v2 ∧
      V2.answer id routeV2 "PEERS" [("routeTag", .str routeTag), ("peers", .arr listed)] ∈
        (s'.effectsOf "t").drop (s.effectsOf "t").length ∧
      peer ∈ listed ∧ peer.get? "sessionId" = some (.str "s") ∧
      s.server.hub.sessions.get? "s" = some sess ∧ ¬OwnKeys s.server.hub "s" peer := by
  have hrun : System.Meets (fun s e => s.clocks.before e.now ∧ s.allowed nodeA e.op)
        (ServerRun.after nodeA Sample.crypto Sample.trust) (Sample.start nodeA)
        (Sample.substituting nodeA "node-b") ∧
      (Sample.beforeAnswered.clocks.before Sample.answered.now ∧
        Sample.beforeAnswered.allowed nodeA Sample.answered.op) ∧
      (((Sample.beforeAnswered.after nodeA Sample.crypto Sample.trust Sample.answered).effectsOf
        "t").drop (Sample.beforeAnswered.effectsOf "t").length).any
          (Sample.shows "s" (String.ofList (List.replicate 130 '1'))) = true ∧
      (Sample.beforeAnswered.connections.get? "t").any (fun conn => conn.endpoint = .v2) = true ∧
      Sample.beforeAnswered.server.hub.sessions.contains "s" = true ∧
      (Sample.beforeAnswered.server.hub.peerDescriptor "s").all (fun p =>
        p.encryptionKeyHex ≠ some (String.ofList (List.replicate 130 '1'))) = true := by
    decide +kernel
  obtain ⟨hmeets, hallowed, hshows, hconn, hsess, hkey⟩ := hrun
  obtain ⟨id, routeTag, listed, peer, hreply, hpeer, hid, henc⟩ := Sample.reply_of_shows hshows
  rw [Option.any_eq_true] at hconn
  obtain ⟨conn, hconn, hv2⟩ := hconn
  obtain ⟨sess, hsess⟩ := Dict.contains_iff.mp hsess
  refine ⟨_, _, Sample.answered, conn, id, routeTag, listed, peer, sess,
    Sample.reachable_run nodeA _ hmeets, ⟨hallowed, rfl⟩, hconn, of_decide_eq_true hv2, hreply,
    hpeer, hid, hsess, ?_⟩
  rintro ⟨p, hp, hcarries⟩
  rw [Option.all_eq_true] at hkey
  refine absurd ?_ (of_decide_eq_true (hkey p hp))
  exact eq_of_carries hcarries henc

end ServerRun

end Masterserver
