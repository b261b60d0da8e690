import Masterserver.Proofs.Requests
import Masterserver.Proofs.SplitBrain
import Masterserver.Runs.Links

/-!
# One live link to a node

The table of connections and the tasks of the sockets agree: a node's entry is
the socket whose claim was granted and whose loop has not ended, and there is
no second such socket, since a claim is only granted while there is no entry.
A refused socket was never in the table and is never put there, and what a
loop's cleanup takes out is the loop's own entry.
-/

namespace Masterserver

open Lib Protocol

variable {p : PinnedConfig} {cr : Crypto} {trust : NodeTrust}

/-- The node an attempt holds the link of. -/
def Attempt.node? : Attempt → Option String
  | .claimed nodeId | .looping nodeId => some nodeId
  | _ => none

namespace LinkRun

variable {s s' : LinkRun} {e : LinkEvent} {socket : Nat}

/-- The table of connections. -/
abbrev connections (s : LinkRun) : Dict String Nat := s.run.server.mesh.connections

/-- The node whose link a socket holds. -/
def nodeOf (s : LinkRun) (socket : Nat) : Option String :=
  (s.attempts.get? socket).bind Attempt.node?

structure Held (s : LinkRun) : Prop where
  live : ∀ nodeId socket, s.connections.get? nodeId = some socket ↔ s.nodeOf socket = some nodeId
  links : ∀ socket, (s.run.links.get? socket).map Link.nodeId = s.nodeOf socket
  recorded : ∀ nodeId socket,
    (nodeId, socket) ∈ s.claims ∧ socket ∉ s.ended ↔ s.nodeOf socket = some nodeId
  ended : ∀ socket ∈ s.ended, s.attempts.get? socket = some .closed
  refused : ∀ nodeId socket, (nodeId, socket) ∈ s.refused →
    s.attempts.get? socket = some .closed ∧ ∀ other, (other, socket) ∉ s.claims

theorem get?_setAttempt (s : LinkRun) (socket : Nat) (attempt : Attempt) (other : Nat) :
    (s.setAttempt socket attempt).attempts.get? other =
      if other = socket then some attempt else s.attempts.get? other := by
  show (s.attempts.set socket attempt).get? other = _
  rw [Dict.get?_set]

theorem nodeOf_setAttempt (s : LinkRun) (socket : Nat) (attempt : Attempt) (other : Nat) :
    (s.setAttempt socket attempt).nodeOf other =
      if other = socket then attempt.node? else s.nodeOf other := by
  unfold nodeOf
  rw [get?_setAttempt]
  split
  · rfl
  · rfl

theorem held_new (p : PinnedConfig) (incarnation : String) (clocks : Clocks) :
    (new p incarnation clocks).Held where
  live _ _ := ⟨nofun, nofun⟩
  links _ := rfl
  recorded _ _ := ⟨fun h => absurd h.1 List.not_mem_nil, nofun⟩
  ended _ h := absurd h List.not_mem_nil
  refused _ _ h := absurd h List.not_mem_nil

/-- What the tasks do to the rest of the server. -/
theorem Held.ofRun (h : s.Held) {run : ServerRun}
    (hconnections : run.server.mesh.connections = s.connections)
    (hlinks : ∀ socket, (run.links.get? socket).map Link.nodeId =
      (s.run.links.get? socket).map Link.nodeId) : { s with run := run }.Held where
  live nodeId socket := by
    show run.server.mesh.connections.get? nodeId = some socket ↔ _
    rw [hconnections]
    exact h.live nodeId socket
  links socket := (hlinks socket).trans (h.links socket)
  recorded := h.recorded
  ended := h.ended
  refused := h.refused

/-- A socket that is not closed has not ended and was not refused. -/
theorem Held.not_ended (h : s.Held) (hopen : s.attempts.get? socket ≠ some .closed) :
    socket ∉ s.ended := fun hmem => hopen (h.ended socket hmem)

/-- A task moves on without taking or giving up a link. -/
theorem Held.setAttempt (h : s.Held) {attempt : Attempt} (hnode : attempt.node? = s.nodeOf socket)
    (hopen : s.attempts.get? socket ≠ some .closed) : (s.setAttempt socket attempt).Held := by
  have hsame (other : Nat) : (s.setAttempt socket attempt).nodeOf other = s.nodeOf other := by
    rw [nodeOf_setAttempt]
    split
    · next heq => rw [heq, hnode]
    · rfl
  have hclosed (other : Nat) (hother : s.attempts.get? other = some .closed) :
      (s.setAttempt socket attempt).attempts.get? other = some .closed := by
    rw [get?_setAttempt, if_neg]
    · exact hother
    · intro heq
      rw [heq] at hother
      exact hopen hother
  refine ⟨?_, ?_, ?_, ?_, ?_⟩
  · intro nodeId other
    rw [hsame]
    exact h.live nodeId other
  · intro other
    rw [hsame]
    exact h.links other
  · intro nodeId other
    rw [hsame]
    exact h.recorded nodeId other
  · intro other hother
    exact hclosed other (h.ended other hother)
  · intro nodeId other hother
    obtain ⟨hattempt, hclaims⟩ := h.refused nodeId other hother
    exact ⟨hclosed other hattempt, hclaims⟩

theorem linkUp_granted (m : MeshConfig) (cr : Crypto) (r : ServerRun) (now : Clocks)
    {nodeId : String} (h : (r.server.mesh.claimConnection nodeId socket).2 = true) :
    (r.linkUp m cr now nodeId socket).links =
        r.links.set socket ⟨nodeId, Server.nodeBucket now.monotonic⟩ ∧
      (r.linkUp m cr now nodeId socket).server.mesh.connections =
        r.server.mesh.connections.set nodeId socket := by
  unfold ServerRun.linkUp
  obtain heq | heq := NodeMesh.claimConnection_cases r.server.mesh nodeId socket
  · rw [heq] at h
    cases h
  · rw [heq]
    have hchanged := @ServerRun.sameRequests_topologyChanged m cr r now
      { r.server.mesh with connections := r.server.mesh.connections.set nodeId socket }
      (some socket)
    exact ⟨rfl, hchanged.connections⟩

/-- The only entry a claim can find is its own. -/
theorem get?_of_granted {mesh : NodeMesh} {nodeId : String} {other : Nat}
    (h : (mesh.claimConnection nodeId socket).2 = true)
    (hentry : mesh.connections.get? nodeId = some other) : other = socket := by
  unfold NodeMesh.claimConnection at h
  simp only [hentry] at h
  split at h
  · cases h
  · next heq => exact not_not.mp heq

/-- A socket that has not had a link was never granted a claim. -/
theorem Held.not_claimed (h : s.Held) (hopen : s.attempts.get? socket ≠ some .closed)
    (hfree : s.nodeOf socket = none) (nodeId : String) : (nodeId, socket) ∉ s.claims := by
  intro hmem
  have hnode := (h.recorded nodeId socket).mp ⟨hmem, h.not_ended hopen⟩
  rw [hfree] at hnode
  cases hnode

/-- A claim is granted while there is no other entry. -/
theorem Held.granted (h : s.Held) (now : Clocks) {nodeId : String}
    (hopen : s.attempts.get? socket ≠ some .closed) (hfree : s.nodeOf socket = none)
    (hgranted : (s.run.server.mesh.claimConnection nodeId socket).2 = true) :
    Held { s.setAttempt socket (.claimed nodeId) with
      run := s.run.linkUp p.toMeshConfig cr now nodeId socket
      claims := s.claims ++ [(nodeId, socket)] } := by
  obtain ⟨hlinks, hconnections⟩ := linkUp_granted p.toMeshConfig cr s.run now hgranted
  have hnone : s.connections.get? nodeId = none := by
    rw [Option.eq_none_iff_forall_ne_some]
    intro other hentry
    have hown := get?_of_granted hgranted hentry
    subst hown
    have hnode := (h.live nodeId other).mp hentry
    rw [hfree] at hnode
    cases hnode
  refine ⟨?_, ?_, ?_, ?_, ?_⟩
  · intro other socket'
    show (s.run.linkUp p.toMeshConfig cr now nodeId socket).server.mesh.connections.get? other =
      some socket' ↔ (s.setAttempt socket (.claimed nodeId)).nodeOf socket' = some other
    rw [hconnections, Dict.get?_set, nodeOf_setAttempt]
    by_cases hother : other = nodeId
    · subst hother
      rw [if_pos rfl, Option.some.injEq]
      split
      · next heq => exact ⟨fun _ => rfl, fun _ => heq.symm⟩
      · next hne =>
          have hnode : s.nodeOf socket' ≠ some other := by
            rw [Ne, ← h.live other socket', hnone]
            exact fun heq => by cases heq
          exact ⟨fun heq => absurd heq.symm hne, fun heq => absurd heq hnode⟩
    · rw [if_neg hother]
      split
      · next heq =>
          subst heq
          have hnode : s.connections.get? other ≠ some socket' := by
            rw [Ne, h.live other socket', hfree]
            exact fun heq => by cases heq
          exact ⟨fun heq => absurd heq hnode,
            fun heq => absurd (Option.some.inj heq).symm hother⟩
      · exact h.live other socket'
  · intro socket'
    show ((s.run.linkUp p.toMeshConfig cr now nodeId socket).links.get? socket').map
      Link.nodeId = (s.setAttempt socket (.claimed nodeId)).nodeOf socket'
    rw [hlinks, Dict.get?_set, nodeOf_setAttempt]
    split
    · rfl
    · exact h.links socket'
  · intro other socket'
    show (other, socket') ∈ s.claims ++ [(nodeId, socket)] ∧ socket' ∉ s.ended ↔
      (s.setAttempt socket (.claimed nodeId)).nodeOf socket' = some other
    rw [nodeOf_setAttempt, List.mem_append, List.mem_singleton, Prod.mk.injEq]
    split
    · next heq =>
        subst heq
        have hnot : (other, socket') ∉ s.claims := h.not_claimed hopen hfree other
        have hended := h.not_ended hopen
        constructor
        · rintro ⟨hmem | ⟨rfl, -⟩, -⟩
          · exact absurd hmem hnot
          · rfl
        · intro hnode
          exact ⟨.inr ⟨(Option.some.inj hnode).symm, rfl⟩, hended⟩
    · next hne =>
        rw [← h.recorded other socket']
        refine and_congr_left fun _ => ⟨fun hmem => ?_, .inl⟩
        exact hmem.resolve_right fun heq => hne heq.2
  · intro socket' hmem
    have hne : socket' ≠ socket := by
      rintro rfl
      exact h.not_ended hopen hmem
    exact (get?_setAttempt s socket _ socket').trans ((if_neg hne).trans (h.ended socket' hmem))
  · intro other socket' hmem
    obtain ⟨hattempt, hclaims⟩ := h.refused other socket' hmem
    have hne : socket' ≠ socket := by
      rintro rfl
      exact hopen hattempt
    refine ⟨(get?_setAttempt s socket _ socket').trans ((if_neg hne).trans hattempt), ?_⟩
    intro other' hmem'
    rcases List.mem_append.mp hmem' with hmem' | hmem'
    · exact hclaims other' hmem'
    · exact hne (Prod.mk.inj (List.mem_singleton.mp hmem')).2

theorem Held.refuse (h : s.Held) (nodeId : String) (hopen : s.attempts.get? socket ≠ some .closed)
    (hfree : s.nodeOf socket = none) :
    Held { s.setAttempt socket .closed with refused := s.refused ++ [(nodeId, socket)] } := by
  have hclosed : (s.setAttempt socket .closed).Held := h.setAttempt (by rw [hfree]; rfl) hopen
  refine ⟨hclosed.live, hclosed.links, hclosed.recorded, hclosed.ended, ?_⟩
  intro other socket' hmem
  rcases List.mem_append.mp hmem with hmem | hmem
  · exact hclosed.refused other socket' hmem
  · cases List.mem_singleton.mp hmem
    refine ⟨?_, h.not_claimed hopen hfree⟩
    exact (get?_setAttempt s socket .closed socket).trans (if_pos rfl)

theorem Held.claim (h : s.Held) (now : Clocks) (nodeId : String)
    (hopen : s.attempts.get? socket ≠ some .closed) (hfree : s.nodeOf socket = none) :
    (s.claim p cr now nodeId socket).Held := by
  unfold LinkRun.claim
  split
  · next hgranted => exact h.granted now hopen hfree hgranted
  · exact h.refuse nodeId hopen hfree

/-- The end of a loop takes out the entry of its own socket. -/
theorem Held.hangUp (h : s.Held) (now : Clocks) {nodeId : String}
    (hnode : s.nodeOf socket = some nodeId) (hopen : s.attempts.get? socket ≠ some .closed) :
    ({ s with run := s.run.linkDown p.toMeshConfig cr now socket }.close socket).Held := by
  obtain ⟨link, hlink, hlinkNode⟩ : ∃ link, s.run.links.get? socket = some link ∧
      link.nodeId = nodeId := Option.map_eq_some_iff.mp ((h.links socket).trans hnode)
  subst hlinkNode
  have hown := (h.live link.nodeId socket).mpr hnode
  obtain ⟨hlinks, -, hconnections⟩ :=
    ServerRun.linkDown_of_link p.toMeshConfig cr s.run now hlink
  rw [if_pos hown] at hconnections
  refine ⟨?_, ?_, ?_, ?_, ?_⟩
  · intro other socket'
    show (s.run.linkDown p.toMeshConfig cr now socket).server.mesh.connections.get? other =
      some socket' ↔ (s.setAttempt socket .closed).nodeOf socket' = some other
    rw [hconnections, Dict.get?_erase_eq_some, nodeOf_setAttempt, h.live other socket']
    split
    · next heq =>
        subst heq
        rw [hnode]
        exact ⟨fun hboth => absurd (Option.some.inj hboth.2).symm hboth.1, nofun⟩
    · next hne =>
        refine ⟨And.right, fun hother => ⟨fun heq => ?_, hother⟩⟩
        subst heq
        have hentry := (h.live _ socket').mpr hother
        rw [hown] at hentry
        exact hne (Option.some.inj hentry).symm
  · intro socket'
    show ((s.run.linkDown p.toMeshConfig cr now socket).links.get? socket').map Link.nodeId =
      (s.setAttempt socket .closed).nodeOf socket'
    rw [hlinks, Dict.get?_erase, nodeOf_setAttempt]
    split
    · rfl
    · exact h.links socket'
  · intro other socket'
    show (other, socket') ∈ s.claims ∧ socket' ∉ s.ended ++ [socket] ↔
      (s.setAttempt socket .closed).nodeOf socket' = some other
    rw [nodeOf_setAttempt, List.mem_append, List.mem_singleton, not_or]
    split
    · next heq => exact ⟨fun hboth => absurd heq hboth.2.2, nofun⟩
    · next hne =>
        rw [← h.recorded other socket']
        exact ⟨fun hboth => ⟨hboth.1, hboth.2.1⟩, fun hboth => ⟨hboth.1, hboth.2, hne⟩⟩
  · intro socket' hmem
    refine (get?_setAttempt s socket .closed socket').trans ?_
    split
    · rfl
    · next hne =>
        refine h.ended socket' ((List.mem_append.mp hmem).resolve_right fun hmem => ?_)
        exact hne (List.mem_singleton.mp hmem)
  · intro other socket' hmem
    obtain ⟨hattempt, hclaims⟩ := h.refused other socket' hmem
    refine ⟨(get?_setAttempt s socket .closed socket').trans ?_, hclaims⟩
    split
    · rfl
    · exact hattempt

/-- A frame is handled, or it ends the loop. -/
theorem nodeFrame_cases (m : MeshConfig) (cr : Crypto) (r : ServerRun) (now : Clocks) {link : Link}
    (hlink : r.links.get? socket = some link) (raw : List Char) :
    ∃ r' : ServerRun, r'.server.mesh.connections = r.server.mesh.connections ∧
      (∀ other, (r'.links.get? other).map Link.nodeId = (r.links.get? other).map Link.nodeId) ∧
      (r.nodeFrame m cr now socket raw = r' ∨
        r.nodeFrame m cr now socket raw = r'.linkDown m cr now socket) := by
  unfold ServerRun.nodeFrame
  simp only [hlink]
  have htreats := Server.receiveNodeFrame_treats m cr now link.nodeId socket link.bucket raw
    r.server
  generalize (r.server.receiveNodeFrame m cr now link.nodeId socket link.bucket raw) = result
    at htreats ⊢
  obtain ⟨bucket, step⟩ := result
  refine ⟨{ r with
    server := step.server
    links := r.links.set socket { link with bucket := bucket }
    log := r.log ++ step.effects.map (Entry.mk (.node link.nodeId)) }, htreats.connections, ?_, ?_⟩
  · intro other
    simp only [Dict.get?_set]
    split
    · next heq =>
        subst heq
        rw [hlink]
        rfl
    · rfl
  · simp only
    split
    · exact .inl rfl
    · exact .inr rfl

/-! ## Events -/

/-- Two servers have the same entries and the links of the same nodes. -/
structure SameLinks (r r' : ServerRun) : Prop where
  connections : r'.server.mesh.connections = r.server.mesh.connections
  links : ∀ socket, (r'.links.get? socket).map Link.nodeId =
    (r.links.get? socket).map Link.nodeId

theorem SameLinks.refl (r : ServerRun) : SameLinks r r := ⟨rfl, fun _ => rfl⟩

/-- What an event does that finds a socket's task at some stage. -/
inductive Moves (p : PinnedConfig) (cr : Crypto) (s : LinkRun) (socket : Nat) (attempt : Attempt) :
    LinkRun → Prop
  | rests {run : ServerRun} (hrun : SameLinks s.run run) :
      Moves p cr s socket attempt { s with run := run }
  | advances {run : ServerRun} {next : Attempt} (hopen : attempt ≠ .closed)
      (hsame : next.node? = attempt.node?) (hrun : SameLinks s.run run) :
      Moves p cr s socket attempt { s.setAttempt socket next with run := run }
  | claims (now : Clocks) (nodeId : String) (hopen : attempt ≠ .closed)
      (hfree : attempt.node? = none) : Moves p cr s socket attempt (s.claim p cr now nodeId socket)
  | ends {run : ServerRun} {nodeId : String} (now : Clocks) (hloop : attempt = .looping nodeId)
      (hrun : SameLinks s.run run) : Moves p cr s socket attempt
        ({ s with run := run.linkDown p.toMeshConfig cr now socket }.close socket)

theorem nodeOf_of_get? {attempt : Attempt} (h : s.attempts.get? socket = some attempt) :
    s.nodeOf socket = attempt.node? := by
  unfold nodeOf
  rw [h]
  rfl

theorem Held.moves (h : s.Held) {attempt : Attempt} (hattempt : s.attempts.get? socket = some attempt)
    (hmoves : Moves p cr s socket attempt s') : s'.Held := by
  have hnode := nodeOf_of_get? hattempt
  have hnot (hopen : attempt ≠ .closed) : s.attempts.get? socket ≠ some .closed := by
    rw [hattempt]
    exact fun heq => hopen (Option.some.inj heq)
  cases hmoves with
  | rests hrun => exact h.ofRun hrun.connections hrun.links
  | advances hopen hsame hrun =>
      exact (h.setAttempt (hsame.trans hnode.symm) (hnot hopen)).ofRun hrun.connections hrun.links
  | claims now nodeId hopen hfree => exact h.claim now nodeId (hnot hopen) (hnode.trans hfree)
  | ends now hloop hrun =>
      subst hloop
      exact (h.ofRun hrun.connections hrun.links).hangUp now hnode (hnot nofun)

theorem Held.frame_moves (h : s.Held) (now : Clocks) {nodeId : String}
    (hattempt : s.attempts.get? socket = some (.looping nodeId)) (raw : List Char) :
    Moves p cr s socket (.looping nodeId) (s.frame p cr now socket raw) := by
  obtain ⟨link, hlink, -⟩ : ∃ link, s.run.links.get? socket = some link ∧ link.nodeId = nodeId :=
    Option.map_eq_some_iff.mp ((h.links socket).trans (nodeOf_of_get? hattempt))
  obtain ⟨r, hconnections, hlinks, heq⟩ :=
    nodeFrame_cases p.toMeshConfig cr s.run now hlink raw
  have hthere := hlinks socket
  rw [hlink] at hthere
  obtain ⟨link', hlink', -⟩ := Option.map_eq_some_iff.mp hthere
  unfold LinkRun.frame
  rcases heq with heq | heq
  · rw [heq]
    simp only
    rw [if_pos (Dict.contains_iff.mpr ⟨link', hlink'⟩)]
    exact .rests ⟨hconnections, hlinks⟩
  · rw [heq]
    have hgone : (r.linkDown p.toMeshConfig cr now socket).links.contains socket = false := by
      rw [(ServerRun.linkDown_of_link p.toMeshConfig cr r now hlink').1, Dict.contains_erase]
      simp
    simp only
    rw [hgone, if_neg Bool.false_ne_true]
    exact .ends now rfl ⟨hconnections, hlinks⟩

/-- Every event of a socket is one of the four. -/
theorem Held.socketEvent_moves (h : s.Held) (now : Clocks) {attempt : Attempt} {op : LinkOp}
    (hsocket : op.socket? = some socket) (hattempt : s.attempts.get? socket = some attempt) :
    Moves p cr s socket attempt (s.socketEvent p cr now attempt op) := by
  have hrests : Moves p cr s socket attempt s := .rests (.refl _)
  have hcloses (hopen : attempt ≠ .closed) (hfree : attempt.node? = none) :
      Moves p cr s socket attempt (s.setAttempt socket .closed) :=
    .advances hopen hfree.symm (.refl _)
  cases op with
  | hello socket' raw =>
      cases hsocket
      cases attempt with
      | inbound =>
          simp only [LinkRun.socketEvent, helloInbound]
          split
          · exact hcloses nofun rfl
          split
          · exact hcloses nofun rfl
          split
          · split
            · exact .advances nofun rfl (.refl _)
            · exact hcloses nofun rfl
          · exact hcloses nofun rfl
      | outbound node =>
          simp only [LinkRun.socketEvent, helloOutbound]
          split
          · exact hcloses nofun rfl
          split
          · exact .claims now _ nofun rfl
          · exact hcloses nofun rfl
      | _ => exact hrests
  | sent socket' =>
      cases hsocket
      cases attempt with
      | welcomed nodeId => exact .claims now nodeId nofun rfl
      | _ => exact hrests
  | fail socket' =>
      cases hsocket
      cases attempt with
      | inbound => exact hcloses nofun rfl
      | outbound node => exact hcloses nofun rfl
      | welcomed nodeId => exact hcloses nofun rfl
      | _ => exact hrests
  | start socket' =>
      cases hsocket
      cases attempt with
      | claimed nodeId =>
          refine .advances nofun rfl ⟨rfl, fun other => ?_⟩
          show ((s.run.links.set socket _).get? other).map Link.nodeId =
            (s.run.links.get? other).map Link.nodeId
          rw [Dict.get?_set]
          split
          · next heq =>
              subst heq
              rw [h.links other, nodeOf_of_get? hattempt]
              rfl
          · rfl
      | _ => exact hrests
  | frame socket' raw =>
      cases hsocket
      cases attempt with
      | looping nodeId => exact h.frame_moves now hattempt raw
      | _ => exact hrests
  | hangUp socket' =>
      cases hsocket
      cases attempt with
      | looping nodeId => exact .ends now rfl (.refl _)
      | _ => exact hrests
  | _ => exact hrests

/-- Nothing else touches the links. -/
theorem other_apply (m : MeshConfig) (cr : Crypto) (trust : NodeTrust) (r : ServerRun)
    (now : Clocks) {op : ServerOp} (hop : isLinks op = false) :
    SameLinks r (r.apply m cr trust now op) := by
  have hsame {r' : ServerRun} (hconnections : r'.server.mesh.connections = r.server.mesh.connections)
      (hlinks : r'.links = r.links) : SameLinks r r' :=
    ⟨hconnections, fun socket => by rw [hlinks]⟩
  unfold ServerRun.apply
  cases hclient : op.client? with
  | none =>
      refine hsame (ServerRun.mild_serverEvent m cr r ⟨now, op⟩ ?_).connections ?_
      · cases op <;> first | rfl | cases hop
      cases op with
      | connect endpoint sid =>
          simp only [ServerRun.serverEvent, ServerRun.connect]
          split
          · rfl
          · rfl
      | rebalance index =>
          simp only [ServerRun.serverEvent, ServerRun.rebalance]
          split
          · rfl
          unfold ServerRun.rebalanceStep
          split
          · rfl
          · rfl
          · rfl
      | linkUp nodeId socket => cases hop
      | linkDown socket => cases hop
      | nodeFrame socket raw => cases hop
      | _ => rfl
  | some sid =>
      simp only
      split
      · exact .refl r
      next conn _ =>
      have hmild : ServerRun.Mild m r ⟨now, op⟩ (r.clientEvent m cr trust now sid conn op) :=
        ServerRun.mild_clientEvent hclient
      exact hsame hmild.connections (ServerRun.links_clientEvent m cr trust r now sid conn op)

/-- An event leaves the sockets alone, opens a new one, or finds one at some
stage. -/
inductive Happens (p : PinnedConfig) (cr : Crypto) (s : LinkRun) (op : LinkOp) : LinkRun → Prop
  | rests {run : ServerRun} (hrun : SameLinks s.run run) : Happens p cr s op { s with run := run }
  | opens {socket : Nat} {attempt : Attempt} (hnew : s.attempts.get? socket = none)
      (hfree : attempt.node? = none) : Happens p cr s op (s.setAttempt socket attempt)
  | moves {next : LinkRun} {socket : Nat} {attempt : Attempt}
      (hsocket : op.socket? = some socket) (hattempt : s.attempts.get? socket = some attempt)
      (hmoves : Moves p cr s socket attempt next) : Happens p cr s op next

theorem Held.happens (h : s.Held) (now : Clocks) {op : LinkOp} (hallowed : s.allowed p op) :
    Happens p cr s op (s.apply p cr trust now op) := by
  unfold LinkRun.apply
  split
  · exact .opens hallowed rfl
  · unfold LinkRun.dial
    split
    · exact .opens hallowed.1 rfl
    · exact .rests (.refl _)
  · exact .rests (other_apply p.toMeshConfig cr trust s.run now hallowed.1)
  · next _ _ _ _ =>
      cases hop : op.socket? with
      | none => exact .rests (.refl _)
      | some socket =>
          rw [Option.bind_some]
          split
          · exact .rests (.refl _)
          · next hattempt => exact .moves hop hattempt (h.socketEvent_moves now hop hattempt)

theorem Held.ofHappens {op : LinkOp} (h : s.Held) (hop : Happens p cr s op s') : s'.Held := by
  cases hop with
  | rests hrun => exact h.ofRun hrun.connections hrun.links
  | @opens socket attempt hnew hfree =>
      refine h.setAttempt ?_ ?_
      · unfold nodeOf
        rw [hnew, hfree]
        rfl
      · rw [hnew]
        nofun
  | moves _ hattempt hmoves => exact h.moves hattempt hmoves

theorem Held.after (h : s.Held) (hallowed : s.allowed p e.op) :
    (s.after p cr trust e).Held := by
  have hhappens : Happens p cr s e.op (s.apply p cr trust e.now e.op) := h.happens e.now hallowed
  exact (h.ofHappens hhappens).ofRun rfl fun _ => rfl

theorem held_of_reachable (h : (linkSystem p cr trust).Reachable s) : s.Held := by
  refine h.invariant ?_ fun s e s' hs hstep => ?_
  · rintro s ⟨incarnation, clocks, rfl⟩
    exact held_new p incarnation clocks
  · obtain ⟨⟨-, hallowed⟩, rfl⟩ := hstep
    exact hs.after hallowed

/-! ## What an event leaves of a link -/

/-- The receive loop of a socket ends. -/
def LoopEnds (s s' : LinkRun) (nodeId : String) (socket : Nat) : Prop :=
  s.attempts.get? socket = some (.looping nodeId) ∧ s'.attempts.get? socket = some .closed

theorem nodeOf_claim (p : PinnedConfig) (cr : Crypto) (s : LinkRun) (now : Clocks)
    (nodeId : String) {socket other : Nat} (hne : other ≠ socket) :
    (s.claim p cr now nodeId socket).nodeOf other = s.nodeOf other := by
  unfold LinkRun.claim
  split
  · exact (nodeOf_setAttempt s socket _ other).trans (if_neg hne)
  · exact (nodeOf_setAttempt s socket _ other).trans (if_neg hne)

/-- A socket that holds a link goes on holding it, or its loop ends. -/
theorem held_or_ends {op : LinkOp} {nodeId : String} {other : Nat}
    (hop : Happens p cr s op s') (hnode : s.nodeOf other = some nodeId) :
    s'.nodeOf other = some nodeId ∨ LoopEnds s s' nodeId other := by
  cases hop with
  | rests hrun => exact .inl hnode
  | @opens socket attempt hnew hfree =>
      have hne : other ≠ socket := by
        rintro rfl
        unfold nodeOf at hnode
        rw [hnew] at hnode
        cases hnode
      rw [nodeOf_setAttempt, if_neg hne]
      exact .inl hnode
  | @moves _ socket attempt hsocket hattempt hmoves =>
      have hown (heq : other = socket) : attempt.node? = some nodeId := by
        rw [← nodeOf_of_get? hattempt, ← heq]
        exact hnode
      cases hmoves with
      | rests hrun => exact .inl hnode
      | @advances run next hopen hsame hrun =>
          refine .inl ((nodeOf_setAttempt s socket next other).trans ?_)
          split
          · next heq => rw [hsame, hown heq]
          · exact hnode
      | claims now nodeId' hopen hfree =>
          have hne : other ≠ socket := by
            intro heq
            rw [hown heq] at hfree
            cases hfree
          rw [nodeOf_claim p cr s now nodeId' hne]
          exact .inl hnode
      | @ends run nodeId' now hloop hrun =>
          subst hloop
          by_cases heq : other = socket
          · subst heq
            have hname : nodeId' = nodeId := Option.some.inj (hown rfl)
            subst hname
            exact .inr ⟨hattempt, (get?_setAttempt s other .closed other).trans (if_pos rfl)⟩
          · exact .inl ((nodeOf_setAttempt s socket .closed other).trans ((if_neg heq).trans hnode))

/-- The socket of a refused claim leaves the table alone, then and later. -/
theorem connections_of_refused {op : LinkOp} {nodeId : String} (h : s.Held)
    (hop : Happens p cr s op s') (hsocket : op.socket? = some socket)
    (hrefused : (nodeId, socket) ∈ s'.refused) : s'.connections = s.connections := by
  cases hop with
  | rests hrun => exact hrun.connections
  | opens _ _ => rfl
  | @moves _ socket' attempt hsocket' hattempt hmoves =>
      rw [hsocket] at hsocket'
      cases hsocket'
      have hnew (hopen : attempt ≠ .closed) : (nodeId, socket) ∉ s.refused := by
        intro hmem
        rw [(h.refused nodeId socket hmem).1] at hattempt
        exact hopen (Option.some.inj hattempt).symm
      cases hmoves with
      | rests hrun => exact hrun.connections
      | advances hopen hsame hrun => exact hrun.connections
      | claims now nodeId' hopen hfree =>
          unfold LinkRun.claim at hrefused ⊢
          split
          · next hgranted =>
              rw [if_pos hgranted] at hrefused
              exact absurd hrefused (hnew hopen)
          · rfl
      | ends now hloop hrun =>
          rw [hloop] at hnew
          exact absurd hrefused (hnew nofun)

/-- In every run, the entry of a node is the first socket whose claim was
granted and whose loop has not ended, no two sockets run a loop for one node,
and a step takes an entry out, or puts another in its place, exactly when the
loop of the entry's own socket ends. The socket of a refused claim does not
change the table, neither then nor by anything it does later. -/
theorem one_live_link (h : (linkSystem p cr trust).Reachable s) :
    (∀ nodeId, s.connections.get? nodeId =
      (s.claims.find? fun claim => claim.1 == nodeId && decide (claim.2 ∉ s.ended)).map Prod.snd) ∧
    (∀ nodeId socket socket', s.attempts.get? socket = some (.looping nodeId) →
      s.attempts.get? socket' = some (.looping nodeId) → socket = socket') ∧
    ∀ e s', (linkSystem p cr trust).step s e s' →
      (∀ nodeId socket, s.connections.get? nodeId = some socket →
        (s'.connections.get? nodeId ≠ some socket ↔ LoopEnds s s' nodeId socket)) ∧
      ∀ nodeId socket, (nodeId, socket) ∈ s'.refused → e.op.socket? = some socket →
        s'.connections = s.connections := by
  have hheld := held_of_reachable h
  refine ⟨fun nodeId => ?_, fun nodeId socket socket' hloop hloop' => ?_, fun e s' hstep => ?_⟩
  · cases hfind : s.claims.find? fun claim =>
      claim.1 == nodeId && decide (claim.2 ∉ s.ended) with
    | none =>
        rw [Option.map_none, Option.eq_none_iff_forall_ne_some]
        intro socket hentry
        obtain ⟨hmem, hlive⟩ := (hheld.recorded nodeId socket).mpr ((hheld.live _ _).mp hentry)
        have hnot := List.find?_eq_none.mp hfind _ hmem
        simp [hlive] at hnot
    | some claim =>
        obtain ⟨node, socket⟩ := claim
        have hmem := List.mem_of_find?_eq_some hfind
        have hcond := List.find?_some hfind
        rw [Bool.and_eq_true, beq_iff_eq, decide_eq_true_eq] at hcond
        obtain ⟨rfl, hlive⟩ := hcond
        exact (hheld.live node socket).mpr ((hheld.recorded node socket).mp ⟨hmem, hlive⟩)
  · have hentry := (hheld.live nodeId socket).mpr (nodeOf_of_get? hloop)
    have hentry' := (hheld.live nodeId socket').mpr (nodeOf_of_get? hloop')
    exact Option.some.inj (hentry.symm.trans hentry')
  · obtain ⟨⟨-, hallowed⟩, rfl⟩ := hstep
    have hafter : (s.after p cr trust e).Held := hheld.after hallowed
    have hhappens : Happens p cr s e.op (s.apply p cr trust e.now e.op) :=
      hheld.happens e.now hallowed
    refine ⟨fun nodeId socket hentry => ⟨fun hgone => ?_, fun hends hentry' => ?_⟩,
      fun nodeId socket hrefused hsocket => ?_⟩
    · have hnode := (hheld.live nodeId socket).mp hentry
      refine (held_or_ends hhappens hnode).resolve_left fun hnode' => ?_
      exact hgone ((hafter.live nodeId socket).mpr hnode')
    · have hnode := (hafter.live nodeId socket).mp hentry'
      rw [nodeOf_of_get? hends.2] at hnode
      cases hnode
    · have hsame : (s.apply p cr trust e.now e.op).connections = s.connections :=
        connections_of_refused hheld hhappens hsocket hrefused
      exact hsame

end LinkRun

namespace Sample

open LinkRun

/-- The first node, with a pin for the second. -/
def pinnedA : PinnedConfig where
  toMeshConfig := nodeA
  serverKeyPin _ := "0000000000000000000000000000000000000000000000000000000000000000"
  pins_lowerHex _ _ := by decide

/-- The hello of the second node. -/
def helloB : Json :=
  messageOf Protocol.node "NODE_HELLO" [("id", .str "1"), ("payload", .obj [("manifest", .obj [
    ("payload", .obj [("format", .str "particle-node-manifest/2"), ("nodeId", .str "node-b"),
      ("networkRootId", .str nodeA.networkRootId),
      ("networkRootVersion", .int nodeA.networkRootVersion),
      ("networkRootRollbackVersion", .int nodeA.networkRootRollbackVersion),
      ("protocols", .arr []), ("endpoints", .obj []), ("signingPublicKeyHex", .str "04"),
      ("signingKeyId", zeros 64),
      ("signingKeyValidity", .obj [("activatesAt", .int 0), ("expiresAt", .int 9)]),
      ("issuedAt", .int 0), ("expiresAt", .int 9)]),
    ("keyId", zeros 64), ("signatureHex", zeros 128)])])]

def linkEvent (op : LinkOp) : LinkEvent := ⟨⟨0, 0⟩, op⟩

/-- The second node is dialled twice, and answers twice. -/
def dialledTwice : List LinkEvent :=
  [linkEvent (.dial 1 "node-b"), linkEvent (.dial 2 "node-b"),
    linkEvent (.hello 1 helloB.dumps), linkEvent (.hello 2 helloB.dumps), linkEvent (.start 1)]

def linkRun : LinkRun :=
  dialledTwice.foldl (LinkRun.after pinnedA crypto Sample.trust) (.new pinnedA "" ⟨0, 0⟩)

end Sample

namespace LinkRun

/-- The second socket is refused, and the first is the node's entry. -/
theorem one_live_link_dialled_twice :
    Sample.linkRun.refused = [("node-b", 2)] ∧
      Sample.linkRun.connections.get? "node-b" = some 1 := by
  have hrun : System.Meets (fun s e => s.run.clocks.before e.now ∧ s.allowed Sample.pinnedA e.op)
        (LinkRun.after Sample.pinnedA Sample.crypto Sample.trust) (.new Sample.pinnedA "" ⟨0, 0⟩)
        Sample.dialledTwice ∧
      Sample.linkRun.refused = [("node-b", 2)] ∧ Sample.linkRun.claims = [("node-b", 1)] ∧
      Sample.linkRun.ended = [] := by
    decide +kernel
  obtain ⟨hmeets, hrefused, hclaims, hended⟩ := hrun
  have hreach : (linkSystem Sample.pinnedA Sample.crypto Sample.trust).Reachable
      Sample.linkRun := by
    refine System.reachable_foldl (.start ?_) _ hmeets
    exact ⟨"", ⟨0, 0⟩, rfl⟩
  refine ⟨hrefused, ((one_live_link hreach).1 "node-b").trans ?_⟩
  rw [hclaims, hended]
  rfl

end LinkRun

end Masterserver
