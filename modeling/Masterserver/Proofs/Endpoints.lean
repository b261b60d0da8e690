import Masterserver.App.Routes
import Masterserver.App.V2
import Masterserver.Proofs.Sessions

/-!
# The handlers follow the session machine

What each handler of the two endpoints does to the hub is quiet for every
other session, and for its own session a step of the machine that the handler
has recorded.
-/

namespace Masterserver

open Lib Hub

variable {c : Config} {cr : Crypto} {trust : NodeTrust} {endpoint : Endpoint}
variable {hub hub' : Hub} {sid : String} {es es' : List Effect}

/-! ## The record and the machine -/

/-- One more check, paid for with a token. -/
theorem WithinBudget.tryConsume {attempts : Nat} {bucket : TokenBucket}
    (h : bucket.refillPerSec = 0 ∧ bucket.tokens + attempts ≤ 3) (now : Seconds) :
    WithinBudget attempts (some (bucket.tryConsume now 1).2) ∧
      ((bucket.tryConsume now 1).1 = true →
        attempts < 3 ∧ WithinBudget (attempts + 1) (some (bucket.tryConsume now 1).2)) := by
  obtain ⟨hrefill, htokens⟩ := h
  have hle : (bucket.refill now).tokens ≤ bucket.tokens := by
    simp only [TokenBucket.refill, hrefill, mul_zero, add_zero]
    exact min_le_right _ _
  unfold TokenBucket.tryConsume
  simp only
  split
  · refine ⟨⟨hrefill, ?_⟩, nofun⟩
    linarith
  · next hlt =>
      rw [not_lt] at hlt
      refine ⟨⟨hrefill, ?_⟩, fun _ => ⟨?_, hrefill, ?_⟩⟩
      · simp only
        linarith
      · have hlt3 : (attempts : ℚ) < 3 := by linarith
        exact_mod_cast hlt3
      · simp only
        push_cast
        linarith

/-- The proof bucket before a check is the stored one or a full one. -/
theorem WithinBudget.bucket {attempts : Nat}
    (h : WithinBudget attempts (hub.rateLimiter.buckets.get? (sid, .prove))) (now : Seconds) :
    (hub.rateLimiter.bucket now sid .prove).refillPerSec = 0 ∧
      (hub.rateLimiter.bucket now sid .prove).tokens + attempts ≤ 3 := by
  unfold RateLimiterRegistry.bucket
  cases hb : hub.rateLimiter.buckets.get? (sid, .prove) with
  | none =>
      rw [hb] at h
      have h0 : attempts = 0 := h
      subst h0
      exact ⟨rfl, by simp [TokenBucket.new, Operation.limits]⟩
  | some b =>
      rw [hb] at h
      exact h

theorem get?_checkRate_prove (now : Seconds) (sid : String) :
    (hub.checkRate now sid .prove).1.rateLimiter.buckets.get? (sid, .prove) =
      some ((hub.rateLimiter.bucket now sid .prove).tryConsume now 1).2 :=
  Dict.get?_set_self _ _ _

theorem SessionState.Describes.quietAt {state : SessionState} {sess sess' : Session}
    (h : state.Describes cr hub sid sess) (hc : sess'.credentials = sess.credentials)
    (hw : sess'.lastSignalSequence = sess.lastSignalSequence) (hr : sess'.routes ⊆ sess.routes)
    (hb : hub'.rateLimiter.buckets.get? (sid, .prove) =
      hub.rateLimiter.buckets.get? (sid, .prove)) : state.Describes cr hub' sid sess' where
  credentials := hc.trans h.credentials
  watermark := hw.trans h.watermark
  routes hne := by
    have hp : sess'.proven = sess.proven := congrArg Credentials.proven hc
    rw [hp]
    exact h.routes (hne.mono hr)
  budget := by
    rw [hb]
    exact h.budget

/-- Something quiet happened, and nothing the machine sees was done. -/
theorem Represented.quiet (h : Represented c cr trust endpoint hub sid es) (hq : QuietAt sid hub hub')
    (he : ∀ e ∈ es', e.quiet = true) : Represented c cr trust endpoint hub' sid (es ++ es') := by
  obtain ⟨state, htrace, hdesc⟩ := h
  refine ⟨state, trace_append_quiet htrace he, ?_⟩
  intro sess' hs'
  obtain ⟨sess, hs, hc, hw, hr⟩ := hq.session sess' hs'
  exact (hdesc sess hs).quietAt hc hw hr (hq.bucket_eq hs')

theorem Represented.quiet_nil (h : Represented c cr trust endpoint hub sid es)
    (hq : QuietAt sid hub hub') : Represented c cr trust endpoint hub' sid es := by
  rw [← List.append_nil es]
  exact h.quiet hq nofun

/-- The phases the two flags tell apart. -/
theorem ProofPhase.eq_connected {phase : ProofPhase} {sess : Session}
    (h : sess.credentials = phase.credentials cr) (hc : sess.challenge = none)
    (hp : sess.proven = false) : phase = .connected := by
  have hchallenge : sess.challenge = (phase.credentials cr).challenge :=
    congrArg Credentials.challenge h
  have hproven : sess.proven = (phase.credentials cr).proven := congrArg Credentials.proven h
  cases phase with
  | connected => rfl
  | challenged hello =>
      rw [hc] at hchallenge
      cases hchallenge
  | proven hello signature =>
      rw [hp] at hproven
      cases hproven

theorem ProofPhase.eq_challenged {phase : ProofPhase} {sess : Session} {challenge : Bytes}
    (h : sess.credentials = phase.credentials cr) (hc : sess.challenge = some challenge) :
    ∃ hello, phase = .challenged hello ∧ sess.publicKeyRaw = hello.publicKeyRaw ∧
      challenge = hello.challenge := by
  have hchallenge : sess.challenge = (phase.credentials cr).challenge :=
    congrArg Credentials.challenge h
  have hkey : sess.publicKeyRaw = (phase.credentials cr).publicKeyRaw :=
    congrArg Credentials.publicKeyRaw h
  rw [hc] at hchallenge
  cases phase with
  | connected => cases hchallenge
  | challenged hello => exact ⟨hello, rfl, hkey, Option.some.inj hchallenge⟩
  | proven hello signature => cases hchallenge

theorem ProofPhase.eq_proven {phase : ProofPhase} {sess : Session}
    (h : sess.credentials = phase.credentials cr) (hp : sess.proven = true) :
    ∃ hello signature, phase = .proven hello signature := by
  have hproven : sess.proven = (phase.credentials cr).proven := congrArg Credentials.proven h
  rw [hp] at hproven
  cases phase with
  | connected => cases hproven
  | challenged hello => cases hproven
  | proven hello signature => exact ⟨hello, signature, rfl⟩

/-- An accepted HELLO. -/
theorem Represented.hello {sess sess' : Session} {hello : Hello}
    (h : Represented c cr trust endpoint hub sid es) (hs : hub.sessions.get? sid = some sess)
    (hs' : hub'.sessions.get? sid = some sess') (hc : sess.challenge = none)
    (hp : sess.proven = false) (hadm : hello.Admitted c cr trust endpoint)
    (hnew : sess.credentials = ProofPhase.connected.credentials cr →
      sess'.credentials = hello.credentials cr false)
    (hw : sess'.lastSignalSequence = sess.lastSignalSequence) (hr : sess'.routes = sess.routes)
    (hl : hub'.rateLimiter = hub.rateLimiter) :
    Represented c cr trust endpoint hub' sid (es ++ [.hello hello]) := by
  obtain ⟨⟨phase, attempts, watermark⟩, htrace, hdesc⟩ := h
  have hd := hdesc sess hs
  have hphase : phase = .connected := ProofPhase.eq_connected hd.credentials hc hp
  subst hphase
  refine ⟨_, htrace.snoc (.hello hadm), ?_⟩
  intro t ht
  rw [hs'] at ht
  cases ht
  refine ⟨hnew hd.credentials, hw.trans hd.watermark, ?_, ?_⟩
  · intro hne
    rw [hr] at hne
    have hproven := hd.routes hne
    rw [hp] at hproven
    cases hproven
  · rw [hl]
    exact hd.budget

/-- A proof check: the token it took, and what became of the session. -/
theorem Represented.proofCheck {sess : Session} {check : ProofCheck} {now : Seconds}
    {challenge : Bytes} (h : Represented c cr trust endpoint hub sid es)
    (hs : hub.sessions.get? sid = some sess) (hchallenge : sess.challenge = some challenge)
    (hallowed : (hub.checkRate now sid .prove).2 = true)
    (hcheck : check = ⟨sess.publicKeyRaw, challenge, check.signature,
      verifySignature cr sess.publicKeyRaw challenge check.signature⟩)
    (hl : hub'.rateLimiter = (hub.checkRate now sid .prove).1.rateLimiter)
    (hfailed : check.verified = false → hub'.sessions.get? sid = some sess)
    (hproved : check.verified = true → ∃ heartbeat, hub'.sessions.get? sid =
      some { sess with proven := true, challenge := none, lastHeartbeat := heartbeat }) :
    Represented c cr trust endpoint hub' sid (es ++ [.proofCheck check]) := by
  obtain ⟨⟨phase, attempts, watermark⟩, htrace, hdesc⟩ := h
  have hd := hdesc sess hs
  obtain ⟨hello, hphase, hkey, heq⟩ := ProofPhase.eq_challenged hd.credentials hchallenge
  simp only at hphase
  subst hphase heq
  have hof : check.Of cr hello := by
    rw [hcheck]
    exact ⟨hkey, rfl, rfl⟩
  obtain ⟨hlt, hbudget⟩ := (WithinBudget.tryConsume (hd.budget.bucket now) now).2 hallowed
  have hbudget' : WithinBudget (attempts + 1) (hub'.rateLimiter.buckets.get? (sid, .prove)) := by
    rw [hl, get?_checkRate_prove]
    exact hbudget
  cases hv : check.verified with
  | false =>
      refine ⟨_, htrace.snoc (.failed hlt hof hv), ?_⟩
      intro t ht
      rw [hfailed hv] at ht
      cases ht
      exact ⟨hd.credentials, hd.watermark, hd.routes, hbudget'⟩
  | true =>
      refine ⟨_, htrace.snoc (.proved hlt hof hv), ?_⟩
      intro t ht
      obtain ⟨heartbeat, hs'⟩ := hproved hv
      rw [hs'] at ht
      cases ht
      refine ⟨?_, hd.watermark, fun _ => rfl, hbudget'⟩
      have hcred := hd.credentials
      simp only [Session.credentials, ProofPhase.credentials, Hello.credentials,
        Credentials.mk.injEq] at hcred ⊢
      tauto

/-- A token is taken and nothing is checked. -/
theorem Represented.proofToken {now : Seconds} (h : Represented c cr trust endpoint hub sid es) :
    Represented c cr trust endpoint (hub.checkRate now sid .prove).1 sid es := by
  obtain ⟨state, htrace, hdesc⟩ := h
  refine ⟨state, htrace, ?_⟩
  intro sess hs
  have hd := hdesc sess hs
  refine ⟨hd.credentials, hd.watermark, hd.routes, ?_⟩
  rw [get?_checkRate_prove]
  exact (WithinBudget.tryConsume (hd.budget.bucket now) now).1

/-- A signal passed the replay check. -/
theorem Represented.accepted {sess : Session} {signal : Protocol.Signal}
    (h : Represented c cr trust endpoint hub sid es) (hs : hub.sessions.get? sid = some sess)
    (hp : sess.proven = true) (hlt : sess.lastSignalSequence < signal.sequence)
    (hfrom : signal.fromSessionId = sid)
    (hvalid : Protocol.validateSignalV2 signal.payload = .ok signal) :
    Represented c cr trust endpoint
      (hub.updateSession sid fun sess => { sess with lastSignalSequence := signal.sequence }) sid
      (es ++ [.signalAccepted signal]) := by
  obtain ⟨⟨phase, attempts, watermark⟩, htrace, hdesc⟩ := h
  have hd := hdesc sess hs
  obtain ⟨hello, signature, hphase⟩ := ProofPhase.eq_proven hd.credentials hp
  simp only at hphase
  subst hphase
  have hwatermark : watermark < signal.sequence := by
    have hw := hd.watermark
    simp only at hw
    omega
  refine ⟨_, htrace.snoc (.accepted hwatermark hfrom hvalid), ?_⟩
  intro t ht
  rw [get?_updateSession, if_pos rfl, hs] at ht
  cases ht
  refine ⟨hd.credentials, rfl, hd.routes, ?_⟩
  rw [rateLimiter_updateSession]
  exact hd.budget

/-- A proven session may get routes. -/
theorem Represented.attached {sess : Session} {routes : Finset String}
    (h : Represented c cr trust endpoint hub sid es) (hs : hub.sessions.get? sid = some sess)
    (hp : sess.proven = true)
    (hs' : hub'.sessions.get? sid = some { sess with routes := routes })
    (hl : hub'.rateLimiter = hub.rateLimiter) : Represented c cr trust endpoint hub' sid es := by
  obtain ⟨state, htrace, hdesc⟩ := h
  refine ⟨state, htrace, ?_⟩
  intro t ht
  rw [hs'] at ht
  cases ht
  have hd := hdesc sess hs
  refine ⟨hd.credentials, hd.watermark, fun _ => hp, ?_⟩
  rw [hl]
  exact hd.budget

/-! ## What a handler keeps -/

/-- A handler's step: its own session's machine goes on with what was
recorded, every other session sees something quiet. -/
structure Keeps (c : Config) (cr : Crypto) (trust : NodeTrust) (endpoint : Endpoint)
    (sid : String) (hub hub' : Hub) (effects : List Effect) : Prop where
  represented : ∀ es, Represented c cr trust endpoint hub sid es →
    Represented c cr trust endpoint hub' sid (es ++ effects)
  others : ∀ other, other ≠ sid → QuietAt other hub hub'
  consistent : hub.Consistent → hub'.Consistent

theorem Keeps.of_quiet (h : hub.Quiet hub') (he : ∀ e ∈ es, e.quiet = true) :
    Keeps c cr trust endpoint sid hub hub' es :=
  ⟨fun _ hr => hr.quiet (h.quietAt sid) he, fun other _ => h.quietAt other, h.consistent⟩

/-- Something quiet first. -/
theorem Keeps.after {hub'' : Hub} (h : hub.Quiet hub') (h' : Keeps c cr trust endpoint sid hub' hub'' es) :
    Keeps c cr trust endpoint sid hub hub'' es :=
  ⟨fun es' hr => h'.represented es' (hr.quiet_nil (h.quietAt sid)),
    fun other hne => (h.quietAt other).trans (h'.others other hne),
    fun hc => h'.consistent (h.consistent hc)⟩

/-- Something quiet afterwards. -/
theorem Keeps.andThen {hub'' : Hub} (es : List Effect)
    (h : Keeps c cr trust endpoint sid hub hub' es)
    (h' : hub'.Quiet hub'') (he : ∀ e ∈ es', e.quiet = true) :
    Keeps c cr trust endpoint sid hub hub'' (es ++ es') where
  represented es'' hr := by
    rw [← List.append_assoc]
    exact (h.represented es'' hr).quiet (h'.quietAt sid) he
  others other hne := (h.others other hne).trans (h'.quietAt other)
  consistent hc := h'.consistent (h.consistent hc)

/-! ## The proof checks of both endpoints -/

/-- The proof bucket of another session is not touched. -/
theorem quietAt_checkRate_of_ne {other : String} (hne : other ≠ sid) (now : Seconds)
    (op : Operation) : QuietAt other hub (hub.checkRate now sid op).1 :=
  ⟨fun t ht => ⟨t, ht, rfl, rfl, Finset.Subset.refl _⟩,
    .inl (Dict.get?_set_of_ne _ _ fun heq => hne (congrArg Prod.fst heq))⟩

/-- The token of a proof check is taken, and nothing is checked. -/
theorem keeps_proofToken (now : Seconds) (he : ∀ e ∈ es, e.quiet = true) :
    Keeps c cr trust endpoint sid hub (hub.checkRate now sid .prove).1 es where
  represented _ hr := hr.proofToken.quiet (.refl _ _) he
  others _ hne := quietAt_checkRate_of_ne hne now .prove
  consistent h := h.of_sessions rfl rfl

theorem keeps_proofFailed {sess : Session} {challenge signature : Bytes} (now : Seconds)
    (hs : hub.sessions.get? sid = some sess) (hchallenge : sess.challenge = some challenge)
    (hallowed : (hub.checkRate now sid .prove).2 = true)
    (hv : verifySignature cr sess.publicKeyRaw challenge signature = false) :
    Keeps c cr trust endpoint sid hub (hub.checkRate now sid .prove).1
      [.proofCheck ⟨sess.publicKeyRaw, challenge, signature, false⟩] where
  represented es hr := by
    refine hr.proofCheck hs hchallenge hallowed ?_ rfl (fun _ => hs) nofun
    simp only [hv]
  others _ hne := quietAt_checkRate_of_ne hne now .prove
  consistent h := h.of_sessions rfl rfl

theorem keeps_proved {sess : Session} {challenge signature : Bytes} (now : Seconds)
    (hs : hub.sessions.get? sid = some sess) (hchallenge : sess.challenge = some challenge)
    (hallowed : (hub.checkRate now sid .prove).2 = true)
    (hv : verifySignature cr sess.publicKeyRaw challenge signature = true) :
    Keeps c cr trust endpoint sid hub
      (((hub.checkRate now sid .prove).1.updateSession sid fun sess =>
        { sess with proven := true, challenge := none }).touchHeartbeat now sid)
      [.proofCheck ⟨sess.publicKeyRaw, challenge, signature, true⟩] where
  represented es hr := by
    refine hr.proofCheck hs hchallenge hallowed ?_ ?_ nofun fun _ => ⟨now, ?_⟩
    · simp only [hv]
    · rw [touchHeartbeat, rateLimiter_updateSession, rateLimiter_updateSession]
    · have hs' : (hub.checkRate now sid .prove).1.sessions.get? sid = some sess := hs
      rw [touchHeartbeat, get?_updateSession, if_pos rfl, get?_updateSession, if_pos rfl, hs']
      rfl
  others _ hne :=
    ((quietAt_checkRate_of_ne hne now .prove).trans (quietAt_updateSession_of_ne hne _)).trans
      (quietAt_updateSession_of_ne hne _)
  consistent h := by
    have htoken : (hub.checkRate now sid .prove).1.Consistent := h.of_sessions rfl rfl
    unfold touchHeartbeat
    refine consistent_updateSession ?_ sid fun _ => rfl
    exact consistent_updateSession htoken sid fun _ => rfl

/-- A proven session attaches to a route, or is refused. -/
theorem keeps_attachRoute {sess : Session} (now : Seconds) (rid : String) (limit : Option Int)
    (hs : hub.sessions.get? sid = some sess) (hp : sess.proven = true) :
    Keeps c cr trust endpoint sid hub (hub.attachRoute c now sid rid none limit).1 [] := by
  have hcons : hub.Consistent → (hub.attachRoute c now sid rid none limit).1.Consistent :=
    fun h => consistent_attachRoute h c now sid rid none limit
  obtain ⟨e, he⟩ | ⟨sess', hs', -, heq⟩ := attachRoute_cases hub c now sid rid none limit
  · rw [he] at hcons ⊢
    exact .of_quiet (.refl _) nofun
  · rw [hs] at hs'
    cases hs'
    rw [heq] at hcons ⊢
    refine ⟨?_, ?_, hcons⟩
    · intro es hr
      rw [List.append_nil]
      exact hr.attached hs hp (Dict.get?_set_self _ _ _) rfl
    · intro other hne
      refine ⟨fun t ht => ⟨t, ?_, rfl, rfl, Finset.Subset.refl _⟩, .inl rfl⟩
      rwa [Dict.get?_set_of_ne _ _ hne] at ht

/-! ## The beginning of the receive loop -/

/-- A step that only answers. -/
def Step.Plain (step : Step) : Prop :=
  ∀ e ∈ step.effects, e.quiet = true ∧ e.handover? = none

/-- Whether a frame is admitted or not, what happened to the hub is quiet. -/
theorem admitFrame_quiet (c : Config) (error : String → String → Json) (now : Seconds)
    (sid : String) (raw : List Char) (server : Server) :
    match server.admitFrame c error now sid raw with
    | .error step => server.hub.Quiet step.server.hub ∧ step.Plain ∧
        step.server.mesh = server.mesh
    | .ok (server', _) => server.hub.Quiet server'.hub ∧ server'.mesh = server.mesh := by
  have hrate : server.hub.Quiet (server.hub.checkRate now sid .message).1 :=
    quiet_checkRate now sid (by decide)
  have hboth : server.hub.Quiet ((server.hub.checkRate now sid .message).1.consumeMessage now).1 :=
    hrate.trans (quiet_consumeMessage now)
  unfold Server.admitFrame
  split
  · next step h =>
      split at h
      · cases h
        exact ⟨.refl _, by simp [Step.Plain, Server.done, Effect.quiet, Effect.handover?], rfl⟩
      · simp only at h
        split at h
        · cases h
          exact ⟨hrate, by simp [Step.Plain, Server.leave, Effect.quiet, Effect.handover?], rfl⟩
        · split at h
          · cases h
            exact ⟨hboth, by simp [Step.Plain, Server.leave, Effect.quiet, Effect.handover?], rfl⟩
          · split at h
            · cases h
              exact ⟨hboth, by simp [Step.Plain, Server.done, Effect.quiet, Effect.handover?], rfl⟩
            · cases h
              exact ⟨hboth, nofun, rfl⟩
            · cases h
  · next server' data h =>
      split at h
      · cases h
      · simp only at h
        split at h
        · cases h
        · split at h
          · cases h
          · split at h
            · cases h
            · cases h
            · cases h
              exact ⟨hboth, rfl⟩

end Masterserver
