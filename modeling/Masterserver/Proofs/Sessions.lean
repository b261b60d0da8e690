import Masterserver.Proofs.HubRoutes
import Masterserver.Runs.Session

/-!
# The hub's records and the session machine

A session's record shows the state of its machine: the flags and keys follow
the phase, the watermark is the machine's, a session has routes only once it
is proven, and the tokens left in its proof bucket and the checks made are
three together.

Most of what happens to a hub is quiet: it may drop sessions and routes, and
otherwise leaves all of that as it is. What is not quiet is a step of the
machine of one session.
-/

namespace Masterserver

open Lib

/-- The fields of a record the proof decides. -/
structure Credentials where
  proven : Bool
  challenge : Option Bytes
  publicKeyRaw : Option Bytes
  identityKeyHex : Option String
  identityKeyId : Option String
  encryptionKeyHex : Option String
  encryptionKeyId : Option String
  protocolVersion : Nat

def Session.credentials (sess : Session) : Credentials :=
  ⟨sess.proven, sess.challenge, sess.publicKeyRaw, sess.identityKeyHex, sess.identityKeyId,
    sess.encryptionKeyHex, sess.encryptionKeyId, sess.protocolVersion⟩

/-- The identifier of a key: the digest of its bytes. -/
def keyIdOf (cr : Crypto) (keyHex : String) : Option String :=
  (fromHex keyHex).map fun key => hexdigest (cr.sha256 key)

/-- The record of a session whose HELLO was accepted. Only the second endpoint
gives a session an identity. -/
def Hello.credentials (cr : Crypto) (hello : Hello) (proven : Bool) : Credentials where
  proven := proven
  challenge := if proven then none else some hello.challenge
  publicKeyRaw := hello.publicKeyRaw
  identityKeyHex := hello.identityKeyHex
  identityKeyId := hello.identityKeyHex.bind (keyIdOf cr)
  encryptionKeyHex := hello.encryptionKeyHex
  encryptionKeyId := hello.encryptionKeyHex.bind (keyIdOf cr)
  protocolVersion := if hello.identityKeyHex.isSome then 2 else 1

def ProofPhase.credentials (cr : Crypto) : ProofPhase → Credentials
  | .connected => ⟨false, none, none, none, none, none, none, 1⟩
  | .challenged hello => hello.credentials cr false
  | .proven hello _ => hello.credentials cr true

/-- What is left of three proof checks: the bucket has not been made, or it
does not refill. -/
def WithinBudget (attempts : Nat) : Option TokenBucket → Prop
  | none => attempts = 0
  | some bucket => bucket.refillPerSec = 0 ∧ bucket.tokens + attempts ≤ 3

structure SessionState.Describes (cr : Crypto) (state : SessionState) (hub : Hub) (sid : String)
    (sess : Session) : Prop where
  credentials : sess.credentials = state.phase.credentials cr
  watermark : sess.lastSignalSequence = state.watermark
  routes : sess.routes.Nonempty → sess.proven = true
  budget : WithinBudget state.attempts (hub.rateLimiter.buckets.get? (sid, .prove))

/-- What a session's handlers did so far is a run of its machine, and the
record, while it is there, shows the state it led to. -/
def Represented (c : Config) (cr : Crypto) (trust : NodeTrust) (endpoint : Endpoint) (hub : Hub)
    (sid : String) (effects : List Effect) : Prop :=
  ∃ state, (sessionMachine c cr trust endpoint sid).Trace effects state ∧
    ∀ sess, hub.sessions.get? sid = some sess → state.Describes cr hub sid sess

/-! ## Quiet steps -/

namespace Hub

variable {hub hub' hub'' : Hub}

/-- For one session: it may be gone or have fewer routes. -/
structure QuietAt (sid : String) (hub hub' : Hub) : Prop where
  session : ∀ sess', hub'.sessions.get? sid = some sess' →
    ∃ sess, hub.sessions.get? sid = some sess ∧ sess'.credentials = sess.credentials ∧
      sess'.lastSignalSequence = sess.lastSignalSequence ∧ sess'.routes ⊆ sess.routes
  bucket : hub'.rateLimiter.buckets.get? (sid, .prove) =
      hub.rateLimiter.buckets.get? (sid, .prove) ∨
    hub'.sessions.get? sid = none ∧ hub'.rateLimiter.buckets.get? (sid, .prove) = none

structure Quiet (hub hub' : Hub) : Prop where
  quietAt : ∀ sid, QuietAt sid hub hub'
  consistent : hub.Consistent → hub'.Consistent

theorem QuietAt.refl (sid : String) (hub : Hub) : QuietAt sid hub hub :=
  ⟨fun sess h => ⟨sess, h, rfl, rfl, Finset.Subset.refl _⟩, .inl rfl⟩

theorem QuietAt.trans {sid : String} (h : QuietAt sid hub hub') (h' : QuietAt sid hub' hub'') :
    QuietAt sid hub hub'' where
  session sess'' hs'' := by
    obtain ⟨sess', hs', hc', hw', hr'⟩ := h'.session sess'' hs''
    obtain ⟨sess, hs, hc, hw, hr⟩ := h.session sess' hs'
    exact ⟨sess, hs, hc'.trans hc, hw'.trans hw, hr'.trans hr⟩
  bucket := by
    obtain heq' | hgone' := h'.bucket
    · obtain heq | ⟨hnone, hgone⟩ := h.bucket
      · exact .inl (heq'.trans heq)
      · refine .inr ⟨?_, heq'.trans hgone⟩
        rw [Option.eq_none_iff_forall_ne_some]
        intro sess'' hs''
        obtain ⟨sess', hs', -⟩ := h'.session sess'' hs''
        rw [hnone] at hs'
        cases hs'
    · exact .inr hgone'

/-- The bucket of a session that is there is the one it had. -/
theorem QuietAt.bucket_eq {sid : String} {sess' : Session} (h : QuietAt sid hub hub')
    (hs' : hub'.sessions.get? sid = some sess') :
    hub'.rateLimiter.buckets.get? (sid, .prove) =
      hub.rateLimiter.buckets.get? (sid, .prove) := by
  obtain heq | ⟨hnone, -⟩ := h.bucket
  · exact heq
  · rw [hnone] at hs'
    cases hs'

theorem Quiet.refl (hub : Hub) : hub.Quiet hub := ⟨fun sid => .refl sid hub, id⟩

theorem Quiet.trans (h : hub.Quiet hub') (h' : hub'.Quiet hub'') : hub.Quiet hub'' :=
  ⟨fun sid => (h.quietAt sid).trans (h'.quietAt sid), fun hc => h'.consistent (h.consistent hc)⟩

/-- Nothing a quiet step speaks about has changed. -/
theorem Quiet.of_eq (hs : hub'.sessions = hub.sessions) (hr : hub'.routes = hub.routes)
    (hl : ∀ sid, hub'.rateLimiter.buckets.get? (sid, .prove) =
      hub.rateLimiter.buckets.get? (sid, .prove)) : hub.Quiet hub' where
  quietAt sid :=
    ⟨fun sess h => ⟨sess, hs ▸ h, rfl, rfl, Finset.Subset.refl _⟩, .inl (hl sid)⟩
  consistent h := h.of_sessions hr hs

theorem QuietAt.of_set {sid s : String} {sess sess' : Session}
    (hset : hub'.sessions = hub.sessions.set sid sess') (hs : hub.sessions.get? sid = some sess)
    (hc : sess'.credentials = sess.credentials)
    (hw : sess'.lastSignalSequence = sess.lastSignalSequence) (hr : sess'.routes ⊆ sess.routes)
    (hl : hub'.rateLimiter = hub.rateLimiter) : QuietAt s hub hub' where
  session t ht := by
    rw [hset, Dict.get?_set] at ht
    split at ht
    · next heq =>
        subst heq
        cases ht
        exact ⟨sess, hs, hc, hw, hr⟩
    · exact ⟨t, ht, rfl, rfl, Finset.Subset.refl _⟩
  bucket := .inl (by rw [hl])

theorem quietAt_updateSession (sid s : String) {f : Session → Session}
    (hc : ∀ sess, (f sess).credentials = sess.credentials)
    (hw : ∀ sess, (f sess).lastSignalSequence = sess.lastSignalSequence)
    (hr : ∀ sess, (f sess).routes ⊆ sess.routes) :
    QuietAt s hub (hub.updateSession sid f) := by
  unfold updateSession
  cases hs : hub.sessions.get? sid with
  | none => exact .refl s hub
  | some sess => exact .of_set rfl hs (hc sess) (hw sess) (hr sess) rfl

theorem quietAt_updateSession_of_ne {sid s : String} (hne : s ≠ sid) (f : Session → Session) :
    QuietAt s hub (hub.updateSession sid f) where
  session t ht := by
    rw [get?_updateSession, if_neg hne] at ht
    exact ⟨t, ht, rfl, rfl, Finset.Subset.refl _⟩
  bucket := .inl (by rw [rateLimiter_updateSession])

theorem quiet_updateSession (sid : String) {f : Session → Session}
    (hc : ∀ sess, (f sess).credentials = sess.credentials)
    (hw : ∀ sess, (f sess).lastSignalSequence = sess.lastSignalSequence)
    (hr : ∀ sess, (f sess).routes = sess.routes) : hub.Quiet (hub.updateSession sid f) :=
  ⟨fun s => quietAt_updateSession sid s hc hw fun sess => (hr sess).subset,
    fun h => consistent_updateSession h sid hr⟩

theorem quiet_touchHeartbeat (now : Seconds) (sid : String) :
    hub.Quiet (hub.touchHeartbeat now sid) :=
  quiet_updateSession sid (fun _ => rfl) (fun _ => rfl) fun _ => rfl

theorem quiet_checkRate (now : Seconds) (sid : String) {op : Operation} (hop : op ≠ .prove) :
    hub.Quiet (hub.checkRate now sid op).1 := by
  refine .of_eq rfl rfl fun s => ?_
  unfold checkRate RateLimiterRegistry.check
  exact Dict.get?_set_of_ne _ _ fun heq => hop (congrArg Prod.snd heq).symm

theorem quiet_consumeMessage (now : Seconds) : hub.Quiet (hub.consumeMessage now).1 :=
  .of_eq rfl rfl fun _ => rfl

theorem quiet_checkAndMarkSeen (c : Config) (now : Seconds) (key : String) (ttl : Seconds) :
    hub.Quiet (hub.checkAndMarkSeen c now key ttl).1 := by
  obtain ⟨seen, heq⟩ := checkAndMarkSeen_hub hub c now key ttl
  rw [heq]
  exact .of_eq rfl rfl fun _ => rfl

theorem quiet_pruneDedupe (now : Seconds) : hub.Quiet (hub.pruneDedupe now) :=
  .of_eq rfl rfl fun _ => rfl

theorem quietAt_discardRoute (rid sid s : String) : QuietAt s hub (hub.discardRoute rid sid) :=
  quietAt_updateSession sid s (fun _ => rfl) (fun _ => rfl) fun _ => Finset.erase_subset _ _

theorem quietAt_detachRoute (sid rid s : String) : QuietAt s hub (hub.detachRoute sid rid) := by
  rw [detachRoute_eq]
  have hdrop : QuietAt s hub (hub.dropLease sid rid) :=
    ⟨fun sess h => ⟨sess, by rwa [sessions_dropLease] at h, rfl, rfl, Finset.Subset.refl _⟩,
      .inl (by rw [rateLimiter_dropLease])⟩
  exact hdrop.trans (quietAt_discardRoute rid sid s)

theorem quiet_detachRoute (sid rid : String) : hub.Quiet (hub.detachRoute sid rid) :=
  ⟨quietAt_detachRoute sid rid, fun h => consistent_detachRoute h sid rid⟩

theorem rateLimiter_detachAll (sid : String) (rids : List String) :
    (hub.detachAll sid rids).rateLimiter = hub.rateLimiter :=
  foldl_invariant (P := fun h : Hub => h.rateLimiter = hub.rateLimiter) rids rfl
    fun h rid _ heq => by
      rw [detachRoute_eq, discardRoute, rateLimiter_updateSession, rateLimiter_dropLease, heq]

theorem rateLimiter_removeSessionBy (clamp : Int → Int) {sid s : String} (op : Operation)
    (hne : s ≠ sid) :
    (hub.removeSessionBy clamp sid).rateLimiter.buckets.get? (s, op) =
      hub.rateLimiter.buckets.get? (s, op) := by
  cases hs : hub.sessions.get? sid with
  | none => rw [removeSessionBy_of_none clamp hs]
  | some sess =>
      rw [removeSessionBy_of_some clamp hs]
      simp only [rateLimiter_detachAll, RateLimiterRegistry.dropSession]
      rw [Dict.get?_filter]
      cases hub.rateLimiter.buckets.get? (s, op) with
      | none => rfl
      | some bucket => simp [hne]

theorem bucket_removeSessionBy (clamp : Int → Int) {sid : String} {sess : Session}
    (hs : hub.sessions.get? sid = some sess) (op : Operation) :
    (hub.removeSessionBy clamp sid).rateLimiter.buckets.get? (sid, op) = none := by
  rw [removeSessionBy_of_some clamp hs]
  simp only [rateLimiter_detachAll, RateLimiterRegistry.dropSession]
  rw [Dict.get?_filter]
  cases hub.rateLimiter.buckets.get? (sid, op) with
  | none => rfl
  | some bucket => simp

theorem quiet_removeSessionBy (clamp : Int → Int) (sid : String) :
    hub.Quiet (hub.removeSessionBy clamp sid) where
  quietAt s :=
    { session := fun sess h => by
        rw [sessions_removeSessionBy] at h
        exact ⟨sess, (Dict.get?_erase_eq_some.mp h).2, rfl, rfl, Finset.Subset.refl _⟩
      bucket := by
        by_cases hne : s = sid
        · subst hne
          cases hs : hub.sessions.get? s with
          | none =>
              rw [removeSessionBy_of_none clamp hs]
              exact .inl rfl
          | some sess =>
              refine .inr ⟨?_, bucket_removeSessionBy clamp hs .prove⟩
              rw [sessions_removeSessionBy, Dict.get?_erase_self]
        · exact .inl (rateLimiter_removeSessionBy clamp .prove hne) }
  consistent h := consistent_removeSessionBy clamp h sid

theorem quiet_pruneStaleSessions (c : Config) (now : Seconds) :
    hub.Quiet (hub.pruneStaleSessions c now) :=
  foldl_invariant (P := fun h => hub.Quiet h) (hub.staleSessions c now) (.refl hub)
    fun _ sid _ h => h.trans (quiet_removeSessionBy clamp sid)

theorem quietAt_pruneRoute (now : Seconds) (rid s : String) :
    QuietAt s hub (hub.pruneRoute now rid) := by
  unfold pruneRoute
  split
  · exact .refl s hub
  · next route _ =>
      refine foldl_invariant (P := fun h => QuietAt s hub h) _ ?_ ?_
      · exact ⟨fun sess h => ⟨sess, h, rfl, rfl, Finset.Subset.refl _⟩, .inl rfl⟩
      · intro h sid _ hq
        exact hq.trans (quietAt_discardRoute rid sid s)

theorem quiet_pruneRoutes (now : Seconds) : hub.Quiet (hub.pruneRoutes now) :=
  ⟨fun s => foldl_invariant (P := fun h => QuietAt s hub h) hub.routes.keys (.refl s hub)
      fun _ rid _ h => h.trans (quietAt_pruneRoute now rid s),
    fun h => consistent_pruneRoutes h now⟩

theorem quiet_sendSession (c : Config) (sid : String) (data : Json) :
    hub.Quiet (hub.sendSession c sid data).1 := by
  refine ⟨fun s => ?_, fun h => consistent_sendSession h c sid data⟩
  obtain he | ⟨sess, hs, -, -, heq⟩ := sendSession_cases hub c sid data
  · rw [he]
    exact .refl s hub
  · rw [heq]
    exact .of_set rfl hs rfl rfl (Finset.Subset.refl _) rfl

theorem quiet_writerDequeue (sid : String) : hub.Quiet (hub.writerDequeue sid) := by
  refine ⟨fun s => ?_, fun h => consistent_writerDequeue h sid⟩
  obtain he | ⟨sess, frame, rest, -, hs, -, heq⟩ := writerDequeue_cases hub sid
  · rw [he]
    exact .refl s hub
  · rw [heq]
    exact .of_set rfl hs rfl rfl (Finset.Subset.refl _) rfl

theorem quietAt_writerStep {writers : Dict String Writer} (clamp : Int → Int) (sid s : String)
    (frame : Frame) :
    QuietAt s hub { hub.releaseFrameBy clamp sid frame with writers := writers } := by
  cases hs : hub.sessions.get? sid with
  | none =>
      rw [releaseFrameBy_of_none clamp frame hs]
      exact ⟨fun sess h => ⟨sess, h, rfl, rfl, Finset.Subset.refl _⟩, .inl rfl⟩
  | some sess =>
      rw [releaseFrameBy_of_some clamp frame hs]
      exact .of_set rfl hs rfl rfl (Finset.Subset.refl _) rfl

theorem quiet_writerSent (sid : String) : hub.Quiet (hub.writerSent sid) := by
  refine ⟨fun s => ?_, fun h => consistent_writerSentBy clamp h sid⟩
  unfold writerSent
  obtain he | ⟨frame, next, -, -, heq⟩ := writerSentBy_cases hub clamp sid
  · rw [he]
    exact .refl s hub
  · rw [heq]
    exact quietAt_writerStep clamp sid s frame

theorem quiet_writerFailed (sid : String) : hub.Quiet (hub.writerFailed sid) := by
  refine ⟨fun s => ?_, fun h => consistent_writerFailedBy clamp h sid⟩
  unfold writerFailed
  obtain he | ⟨w, -, -, heq⟩ | ⟨frame, -, heq⟩ := writerFailedBy_cases hub clamp sid
  · rw [he]
    exact .refl s hub
  · rw [heq]
    exact ⟨fun sess h => ⟨sess, h, rfl, rfl, Finset.Subset.refl _⟩, .inl rfl⟩
  · rw [heq]
    exact quietAt_writerStep clamp sid s frame

end Hub

end Masterserver
