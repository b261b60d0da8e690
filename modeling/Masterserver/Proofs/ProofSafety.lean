import Masterserver.Proofs.ServerRuns

/-!
# Only a proof makes a session proven

What the session machine guarantees, read off the records of a whole server:
a session of the second endpoint is proven through its one accepted HELLO and
a verified signature under the key the grant was for; keys and the proof stay
as they are; a session has three proof checks; and only proven sessions are in
the route table.
-/

namespace Masterserver

open Lib Hub

namespace ServerRun

variable {m : MeshConfig} {cr : Crypto} {trust : NodeTrust} {s s' : ServerRun} {sid : String}
variable {sess sess' : Session}

/-- How a session of the second endpoint came to be proven: its only accepted
HELLO had a grant that was verified for the identity key, and a signature over
that HELLO's challenge verified under the same key. -/
def ProvenUnder (m : MeshConfig) (cr : Crypto) (trust : NodeTrust) (effects : List Effect)
    (sess : Session) : Prop :=
  ∃ hello grant now key signature, helloes effects = [hello] ∧
    hello.admission = some (grant, now) ∧ sess.identityKeyHex = some key ∧
    trust.verifyAdmission cr m.toConfig now grant key = some true ∧
    ⟨fromHex key, hello.challenge, signature, true⟩ ∈ proofChecks effects ∧
    verifySignature cr (fromHex key) hello.challenge signature = true

/-- A session in the hub has a connection, the endpoint its machine runs under,
and a machine state its record shows. -/
theorem Sound.session (h : Sound m cr trust s) (hs : s.server.hub.sessions.get? sid = some sess) :
    ∃ (conn : Connection) (state : SessionState), s.connections.get? sid = some conn ∧
      state.Records m.toConfig cr trust conn.endpoint sid (s.effectsOf sid) ∧
      state.Describes cr s.server.hub sid sess := by
  obtain ⟨conn, hconn⟩ := h.connected sid sess hs
  obtain ⟨endpoint, ⟨state, htrace, hdesc⟩, hend⟩ := h.represented sid
  rw [← hend conn hconn] at htrace
  exact ⟨conn, state, hconn, records_of_trace htrace, hdesc sess hs⟩

/-- Where the credentials of a proven session are from: its HELLO, the only one
that was accepted, and a signature over that HELLO's challenge. -/
structure ProvenBy (c : Config) (cr : Crypto) (trust : NodeTrust) (endpoint : Endpoint)
    (effects : List Effect) (sess : Session) (hello : Hello) (signature : Bytes) : Prop where
  helloes : helloes effects = [hello]
  admitted : hello.Admitted c cr trust endpoint
  credentials : sess.credentials = hello.credentials cr true
  checked : ⟨hello.publicKeyRaw, hello.challenge, signature, true⟩ ∈ proofChecks effects
  verified : verifySignature cr hello.publicKeyRaw hello.challenge signature = true

theorem Sound.provenBy (h : Sound m cr trust s) (hs : s.server.hub.sessions.get? sid = some sess)
    (hp : sess.proven = true) :
    ∃ conn hello signature, s.connections.get? sid = some conn ∧
      ProvenBy m.toConfig cr trust conn.endpoint (s.effectsOf sid) sess hello signature := by
  obtain ⟨conn, state, hconn, hrec, hdesc⟩ := h.session hs
  obtain ⟨hello, signature, hphase⟩ := ProofPhase.eq_proven hdesc.credentials hp
  obtain ⟨hcheck, hsignature⟩ := hrec.proved hello signature hphase
  refine ⟨conn, hello, signature, hconn, ?_, ?_, ?_, hcheck, hsignature⟩
  · rw [hrec.helloes, hphase]
    rfl
  · exact hrec.admitted hello (by rw [hphase]; exact List.mem_singleton.mpr rfl)
  · rw [hdesc.credentials, hphase]
    rfl

theorem Sound.provenUnder (h : Sound m cr trust s) {conn : Connection}
    (hs : s.server.hub.sessions.get? sid = some sess)
    (hconn : s.connections.get? sid = some conn) (hv2 : conn.endpoint = .v2)
    (hp : sess.proven = true) : ProvenUnder m cr trust (s.effectsOf sid) sess := by
  obtain ⟨conn', hello, signature, hconn', hby⟩ := h.provenBy hs hp
  rw [hconn] at hconn'
  cases hconn'
  have hadm := hby.admitted
  rw [hv2] at hadm
  obtain ⟨grant, now, key, encryptionKey, hgrant, hkey, -, hraw, hverify⟩ := hadm
  have hcheck := hby.checked
  have hsignature := hby.verified
  rw [hraw] at hcheck hsignature
  have hidentity := congrArg Credentials.identityKeyHex hby.credentials
  exact ⟨hello, grant, now, key, signature, hby.helloes, hgrant, hidentity.trans hkey, hverify,
    hcheck, hsignature⟩

/-- The keys of a record, and whether it is proven. -/
structure SameKeys (sess sess' : Session) : Prop where
  identityKeyHex : sess'.identityKeyHex = sess.identityKeyHex
  encryptionKeyHex : sess'.encryptionKeyHex = sess.encryptionKeyHex
  publicKeyRaw : sess'.publicKeyRaw = sess.publicKeyRaw
  proven : sess.proven = true → sess'.proven = true

/-- The phase of a record with an accepted HELLO. -/
theorem Records.phase_of_hello {c : Config} {endpoint : Endpoint} {effects : List Effect}
    {state : SessionState} {hello : Hello}
    (h : state.Records c cr trust endpoint sid effects) (hh : hello ∈ helloes effects) :
    state.phase = .challenged hello ∨ ∃ signature, state.phase = .proven hello signature := by
  rw [h.helloes] at hh
  cases hphase : state.phase with
  | connected =>
      rw [hphase] at hh
      cases hh
  | challenged hello' =>
      rw [hphase] at hh
      rcases List.mem_singleton.mp hh with rfl
      exact .inl rfl
  | proven hello' signature =>
      rw [hphase] at hh
      rcases List.mem_singleton.mp hh with rfl
      exact .inr ⟨signature, rfl⟩

/-- Two records that the same HELLO decides. -/
theorem sameKeys_of_hello {hub hub' : Hub} {state state' : SessionState} {hello : Hello}
    (hdesc : state.Describes cr hub sid sess) (hdesc' : state'.Describes cr hub' sid sess')
    (hphase : state.phase = .challenged hello ∨ ∃ signature, state.phase = .proven hello signature)
    (hphase' : state'.phase = .challenged hello ∨
      ∃ signature, state'.phase = .proven hello signature)
    (hproven : (∃ signature, state.phase = .proven hello signature) →
      ∃ signature, state'.phase = .proven hello signature) : SameKeys sess sess' := by
  obtain ⟨proven, hcred⟩ : ∃ proven, sess.credentials = hello.credentials cr proven := by
    obtain hphase | ⟨signature, hphase⟩ := hphase
    · exact ⟨false, by rw [hdesc.credentials, hphase]; rfl⟩
    · exact ⟨true, by rw [hdesc.credentials, hphase]; rfl⟩
  obtain ⟨proven', hcred'⟩ : ∃ proven, sess'.credentials = hello.credentials cr proven := by
    obtain hphase | ⟨signature, hphase⟩ := hphase'
    · exact ⟨false, by rw [hdesc'.credentials, hphase]; rfl⟩
    · exact ⟨true, by rw [hdesc'.credentials, hphase]; rfl⟩
  refine ⟨?_, ?_, ?_, ?_⟩
  · exact (congrArg Credentials.identityKeyHex hcred').trans
      (congrArg Credentials.identityKeyHex hcred).symm
  · exact (congrArg Credentials.encryptionKeyHex hcred').trans
      (congrArg Credentials.encryptionKeyHex hcred).symm
  · exact (congrArg Credentials.publicKeyRaw hcred').trans
      (congrArg Credentials.publicKeyRaw hcred).symm
  · intro hp
    obtain ⟨hello', signature, hphase₀⟩ := ProofPhase.eq_proven hdesc.credentials hp
    obtain hphase | ⟨signature', hphase⟩ := hphase
    · rw [hphase₀] at hphase
      cases hphase
    · obtain ⟨signature'', hphase''⟩ := hproven ⟨signature', hphase⟩
      have hp' := congrArg Credentials.proven hdesc'.credentials
      rw [hphase''] at hp'
      exact hp'

/-- Once a HELLO was accepted, the keys stay, and so does the proof. -/
theorem Sound.sameKeys (h : Sound m cr trust s) (h' : Sound m cr trust s')
    (hextends : s.effectsOf sid <+: s'.effectsOf sid)
    (hs : s.server.hub.sessions.get? sid = some sess)
    (hs' : s'.server.hub.sessions.get? sid = some sess')
    (hhello : helloes (s.effectsOf sid) ≠ []) : SameKeys sess sess' := by
  obtain ⟨_, state, -, hrec, hdesc⟩ := h.session hs
  obtain ⟨_, state', -, hrec', hdesc'⟩ := h'.session hs'
  obtain ⟨more, hmore⟩ := hextends
  obtain ⟨hello, hmem⟩ := List.exists_mem_of_ne_nil _ hhello
  have hmem' : hello ∈ helloes (s'.effectsOf sid) := by
    rw [← hmore, helloes_append]
    exact List.mem_append_left _ hmem
  have hphase' := Records.phase_of_hello hrec' hmem'
  refine sameKeys_of_hello hdesc hdesc' (Records.phase_of_hello hrec hmem) hphase' ?_
  rintro ⟨signature, hphase⟩
  obtain ⟨hcheck, -⟩ := hrec.proved hello signature hphase
  have hcheck' : (⟨hello.publicKeyRaw, hello.challenge, signature, true⟩ : ProofCheck) ∈
      proofChecks (s'.effectsOf sid) := by
    rw [← hmore, proofChecks_append]
    exact List.mem_append_left _ hcheck
  obtain ⟨hello', signature', hproven⟩ := hrec'.settled _ hcheck' rfl
  obtain hphase' | hphase' := hphase'
  · rw [hproven] at hphase'
    cases hphase'
  · exact hphase'

theorem Sound.proofChecks_le (h : Sound m cr trust s) (sid : String) :
    (proofChecks (s.effectsOf sid)).length ≤ 3 := by
  obtain ⟨endpoint, ⟨state, htrace, -⟩, -⟩ := h.represented sid
  have hrec := records_of_trace htrace
  rw [hrec.attempts]
  exact hrec.attempts_le

theorem Sound.proven_of_subscribed (h : Sound m cr trust s) {rid : String}
    (hsub : s.server.hub.Subscribed rid sid) :
    ∃ sess, s.server.hub.sessions.get? sid = some sess ∧ sess.proven = true := by
  obtain ⟨sess, hs, hmem⟩ := (h.consistent.subscribed_iff_attached rid sid).mp hsub
  obtain ⟨_, state, -, -, hdesc⟩ := h.session hs
  exact ⟨sess, hs, hdesc.routes ⟨rid, hmem⟩⟩

/-- In every state of every run: a session of the second endpoint that is
proven is so under its key; in every state after one where its HELLO was
accepted a session has the keys it had, and stays proven; three proof checks
were made for a session at most; and only proven sessions are subscribed. -/
theorem proof_machine_safe (h : (serverSystem m cr trust).Reachable s) :
    (∀ sid sess conn, s.server.hub.sessions.get? sid = some sess →
      s.connections.get? sid = some conn → conn.endpoint = .v2 → sess.proven = true →
      ProvenUnder m cr trust (s.effectsOf sid) sess) ∧
    (∀ s' sid sess sess', (serverSystem m cr trust).Leads s s' →
      s.server.hub.sessions.get? sid = some sess →
      s'.server.hub.sessions.get? sid = some sess' →
      helloes (s.effectsOf sid) ≠ [] → SameKeys sess sess') ∧
    (∀ sid, (proofChecks (s.effectsOf sid)).length ≤ 3) ∧
    ∀ rid sid, s.server.hub.Subscribed rid sid →
      ∃ sess, s.server.hub.sessions.get? sid = some sess ∧ sess.proven = true := by
  have hsound := sound_of_reachable h
  refine ⟨?_, ?_, hsound.proofChecks_le, fun rid sid => hsound.proven_of_subscribed⟩
  · intro sid sess conn hs hconn hv2 hp
    exact hsound.provenUnder hs hconn hv2 hp
  · intro s' sid sess sess' hleads hs hs' hhello
    exact hsound.sameKeys (sound_of_reachable (hleads.reachable h)) (effectsOf_extends hleads sid)
      hs hs' hhello

end ServerRun

/-! ## A run

A node on its own, with primitives that accept everything: a client connects
to the second endpoint, proves its key and attaches to a route. -/

namespace Sample

open Protocol

def crypto : Crypto := ⟨fun _ => 0, fun _ => true, fun _ _ _ _ => true⟩

def trust : NodeTrust := ⟨[1]⟩

def draws : Draws := ⟨List.replicate 32 1, "q", "", rfl⟩

/-- A text of zeros. -/
def zeros (n : Nat) : Json := .str (String.ofList (List.replicate n '0'))

def grant (m : MeshConfig) : Json :=
  .obj [("payload", .obj [("format", .str "particle-admission/2"), ("issuer", .str m.nodeId),
      ("keyHash", zeros 64), ("nonceHash", zeros 64), ("protocol", .str sessionV2),
      ("issuedAt", .int 0), ("expiresAt", .int 1000)]),
    ("keyId", zeros 64), ("signatureHex", zeros 128)]

def helloV2 (m : MeshConfig) : Json :=
  messageOf sessionV2 "HELLO" [("payload", .obj [("grant", grant m),
    ("identityKeyHex", zeros 130), ("encryptionKeyHex", zeros 130)])]

def proveV2 : Json := messageOf sessionV2 "PROVE" [("payload", .obj [("signatureHex", zeros 128)])]

def attachV2 : Json :=
  messageOf routeV2 "ATTACH_ROUTE" [("payload", .obj [("routeTag", zeros 64)])]

def event (now : Seconds) (op : ServerOp) : ServerEvent := ⟨⟨now, now⟩, op⟩

/-- A message arrives at a connection that is at the top of its loop. -/
def message (now : Seconds) (sid : String) (message : Json) : List ServerEvent :=
  [event now (.loop sid), event now (.frame sid message.dumps draws)]

/-- A client connects, proves its key and attaches to the route of zeros. -/
def attachedClient (m : MeshConfig) (sid : String) : List ServerEvent :=
  event 0 (.connect .v2 sid) ::
    (message 0 sid (helloV2 m) ++ message 0 sid proveV2 ++ message 0 sid attachV2)

def start (m : MeshConfig) : ServerRun := .new m "" ⟨0, 0⟩

/-- Where a run leads. -/
def run (m : MeshConfig) (events : List ServerEvent) : ServerRun :=
  events.foldl (ServerRun.after m crypto trust) (start m)

theorem reachable_run (m : MeshConfig) (events : List ServerEvent)
    (h : System.Meets (fun s e => s.clocks.before e.now ∧ s.allowed m e.op)
      (ServerRun.after m crypto trust) (start m) events) :
    (serverSystem m crypto trust).Reachable (run m events) :=
  System.reachable_foldl (.start (S := serverSystem m crypto trust) ⟨"", ⟨0, 0⟩, rfl⟩) events h

end Sample

namespace ServerRun

/-- A proven session. -/
theorem proof_machine_safe_proven :
    ∃ s : ServerRun, (serverSystem .alone Sample.crypto Sample.trust).Reachable s ∧
      ∃ sess, s.server.hub.sessions.get? "s" = some sess ∧
        ProvenUnder .alone Sample.crypto Sample.trust (s.effectsOf "s") sess := by
  have hrun : System.Meets (fun s e => s.clocks.before e.now ∧ s.allowed .alone e.op)
        (ServerRun.after .alone Sample.crypto Sample.trust) (Sample.start .alone)
        (Sample.attachedClient .alone "s") ∧
      (((Sample.run .alone (Sample.attachedClient .alone "s")).server.hub.sessions.get? "s").any
        fun sess => sess.proven) = true ∧
      (((Sample.run .alone (Sample.attachedClient .alone "s")).connections.get? "s").any
        fun conn => conn.endpoint = .v2) = true := by
    decide +kernel
  obtain ⟨hmeets, hsess, hconn⟩ := hrun
  have hreach := Sample.reachable_run .alone _ hmeets
  obtain ⟨sess, hs, hp⟩ := (Option.any_eq_true _ _).mp hsess
  obtain ⟨conn, hc, hv2⟩ := (Option.any_eq_true _ _).mp hconn
  exact ⟨_, hreach, sess, hs,
    (proof_machine_safe hreach).1 "s" sess conn hs hc (of_decide_eq_true hv2) hp⟩

end ServerRun

end Masterserver
