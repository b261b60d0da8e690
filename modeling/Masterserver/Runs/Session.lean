import Masterserver.App.Server
import Masterserver.Lib.System

/-!
# The session machine

What a session may do, without the hub it is kept in: a machine whose labels
are what a connection's handlers do. It is connected, then challenged by one
accepted HELLO, then proven by one verified signature over that challenge; it
has three proof checks in its life; and the signals it has accepted carry
increasing sequence numbers. Everything else a handler does leaves it alone.

The server is related to this machine session by session: the part of the log
that a session's handlers wrote is a run of it.
-/

namespace Masterserver

open Lib

inductive ProofPhase
  | connected
  | challenged (hello : Hello)
  | proven (hello : Hello) (signature : Bytes)

/-- How far the proof has come, the checks made for it, and the last sequence
number accepted. -/
structure SessionState where
  phase : ProofPhase
  attempts : Nat
  watermark : Int

namespace Effect

/-- What the machine does not see. -/
def quiet : Effect → Bool
  | .hello _ | .proofCheck _ | .signalAccepted _ => false
  | _ => true

/-- The message an effect hands to `send_session` or `forward_signal`. -/
def handover? : Effect → Option Json
  | .sendSession _ message _ | .forwardSignal _ _ message => some message
  | _ => none

end Effect

/-- What an accepted HELLO established: at the second endpoint an admission
grant that was verified for the identity key, and that key is the session's;
at the legacy endpoint no identity. -/
def Hello.Admitted (c : Config) (cr : Crypto) (trust : NodeTrust) (hello : Hello) :
    Endpoint → Prop
  | .v1 => hello.identityKeyHex = none ∧ hello.encryptionKeyHex = none
  | .v2 => ∃ grant now key encryptionKey, hello.admission = some (grant, now) ∧
      hello.identityKeyHex = some key ∧ hello.encryptionKeyHex = some encryptionKey ∧
      hello.publicKeyRaw = fromHex key ∧ trust.verifyAdmission cr c now grant key = some true

/-- A check made for an accepted HELLO: its key, its challenge, and the verdict
of the signature check. -/
structure ProofCheck.Of (cr : Crypto) (hello : Hello) (check : ProofCheck) : Prop where
  publicKeyRaw : check.publicKeyRaw = hello.publicKeyRaw
  challenge : check.challenge = hello.challenge
  verified : check.verified =
    verifySignature cr check.publicKeyRaw check.challenge check.signature

inductive SessionState.Step (c : Config) (cr : Crypto) (trust : NodeTrust)
    (endpoint : Endpoint) (sessionId : String) : SessionState → Effect → SessionState → Prop
  | hello {attempts : Nat} {watermark : Int} {hello : Hello}
      (h : hello.Admitted c cr trust endpoint) :
      Step c cr trust endpoint sessionId ⟨.connected, attempts, watermark⟩ (.hello hello)
        ⟨.challenged hello, attempts, watermark⟩
  | failed {attempts : Nat} {watermark : Int} {hello : Hello} {check : ProofCheck}
      (hn : attempts < 3) (h : check.Of cr hello) (hv : check.verified = false) :
      Step c cr trust endpoint sessionId ⟨.challenged hello, attempts, watermark⟩
        (.proofCheck check)
        ⟨.challenged hello, attempts + 1, watermark⟩
  | proved {attempts : Nat} {watermark : Int} {hello : Hello} {check : ProofCheck}
      (hn : attempts < 3) (h : check.Of cr hello) (hv : check.verified = true) :
      Step c cr trust endpoint sessionId ⟨.challenged hello, attempts, watermark⟩
        (.proofCheck check)
        ⟨.proven hello check.signature, attempts + 1, watermark⟩
  | accepted {hello : Hello} {signature : Bytes} {attempts : Nat} {watermark : Int}
      {signal : Protocol.Signal} (h : watermark < signal.sequence)
      (hfrom : signal.fromSessionId = sessionId)
      (hvalid : Protocol.validateSignalV2 signal.payload = .ok signal) :
      Step c cr trust endpoint sessionId ⟨.proven hello signature, attempts, watermark⟩
        (.signalAccepted signal) ⟨.proven hello signature, attempts, signal.sequence⟩
  | quiet {state : SessionState} {effect : Effect} (h : effect.quiet = true) :
      Step c cr trust endpoint sessionId state effect state

/-- The machine of one session, connected with no checks made. -/
def sessionMachine (c : Config) (cr : Crypto) (trust : NodeTrust) (endpoint : Endpoint)
    (sessionId : String) : System SessionState Effect where
  init state := state = ⟨.connected, 0, -1⟩
  step := SessionState.Step c cr trust endpoint sessionId

/-! ## What a run of the machine says -/

/-- The HELLOs that were accepted. -/
def helloes (effects : List Effect) : List Hello :=
  effects.filterMap fun
    | .hello hello => some hello
    | _ => none

def proofChecks (effects : List Effect) : List ProofCheck :=
  effects.filterMap fun
    | .proofCheck check => some check
    | _ => none

def acceptedSignals (effects : List Effect) : List Protocol.Signal :=
  effects.filterMap fun
    | .signalAccepted signal => some signal
    | _ => none

@[simp] theorem helloes_append (es es' : List Effect) :
    helloes (es ++ es') = helloes es ++ helloes es' := List.filterMap_append

@[simp] theorem proofChecks_append (es es' : List Effect) :
    proofChecks (es ++ es') = proofChecks es ++ proofChecks es' := List.filterMap_append

@[simp] theorem acceptedSignals_append (es es' : List Effect) :
    acceptedSignals (es ++ es') = acceptedSignals es ++ acceptedSignals es' :=
  List.filterMap_append

theorem quiet_lists {e : Effect} (h : e.quiet = true) :
    helloes [e] = [] ∧ proofChecks [e] = [] ∧ acceptedSignals [e] = [] := by
  cases e <;> first | exact ⟨rfl, rfl, rfl⟩ | cases h

/-- The HELLOs a phase stands for. -/
def ProofPhase.helloes : ProofPhase → List Hello
  | .connected => []
  | .challenged hello | .proven hello _ => [hello]

/-- The signals a session has accepted: increasing sequence numbers up to the
watermark, each with its own session as the sender and valid as it is. -/
structure SignalRecords (sessionId : String) (signals : List Protocol.Signal) (watermark : Int) :
    Prop where
  increasing : signals.Pairwise fun a b => a.sequence < b.sequence
  watermark : ∀ signal ∈ signals, (signal.sequence : Int) ≤ watermark
  sender : ∀ signal ∈ signals, signal.fromSessionId = sessionId
  valid : ∀ signal ∈ signals, Protocol.validateSignalV2 signal.payload = .ok signal

/-- The state a run leads to, read off what the run did. -/
structure SessionState.Records (c : Config) (cr : Crypto) (trust : NodeTrust)
    (endpoint : Endpoint) (sessionId : String) (effects : List Effect) (state : SessionState) :
    Prop where
  helloes : helloes effects = state.phase.helloes
  admitted : ∀ hello ∈ state.phase.helloes, hello.Admitted c cr trust endpoint
  attempts : (proofChecks effects).length = state.attempts
  attempts_le : state.attempts ≤ 3
  proved : ∀ hello signature, state.phase = .proven hello signature →
    ⟨hello.publicKeyRaw, hello.challenge, signature, true⟩ ∈ proofChecks effects ∧
      verifySignature cr hello.publicKeyRaw hello.challenge signature = true
  settled : ∀ check ∈ proofChecks effects, check.verified = true →
    ∃ hello signature, state.phase = .proven hello signature
  signals : SignalRecords sessionId (acceptedSignals effects) state.watermark

variable {c : Config} {cr : Crypto} {trust : NodeTrust} {endpoint : Endpoint} {sid : String}

/-- One more signal, past the watermark. -/
theorem SignalRecords.append {signals : List Protocol.Signal} {watermark : Int}
    {signal : Protocol.Signal} (h : SignalRecords sid signals watermark)
    (hlt : watermark < signal.sequence) (hfrom : signal.fromSessionId = sid)
    (hvalid : Protocol.validateSignalV2 signal.payload = .ok signal) :
    SignalRecords sid (signals ++ [signal]) signal.sequence where
  increasing := by
    rw [List.pairwise_append]
    refine ⟨h.increasing, List.pairwise_singleton _ _, ?_⟩
    intro a ha b hb
    rcases List.mem_singleton.mp hb with rfl
    have hle := h.watermark a ha
    omega
  watermark a ha := by
    rcases List.mem_append.mp ha with ha | ha
    · have hle := h.watermark a ha
      omega
    · rcases List.mem_singleton.mp ha with rfl
      exact le_refl _
  sender a ha := by
    rcases List.mem_append.mp ha with ha | ha
    · exact h.sender a ha
    · rcases List.mem_singleton.mp ha with rfl
      exact hfrom
  valid a ha := by
    rcases List.mem_append.mp ha with ha | ha
    · exact h.valid a ha
    · rcases List.mem_singleton.mp ha with rfl
      exact hvalid

/-- A label that is no accepted signal adds none. -/
theorem acceptedSignals_append_of_nil {es : List Effect} {e : Effect}
    (h : acceptedSignals [e] = []) : acceptedSignals (es ++ [e]) = acceptedSignals es := by
  rw [acceptedSignals_append, h, List.append_nil]

theorem SessionState.Records.step {es : List Effect} {state state' : SessionState} {e : Effect}
    (h : state.Records c cr trust endpoint sid es)
    (hstep : SessionState.Step c cr trust endpoint sid state e state') :
    state'.Records c cr trust endpoint sid (es ++ [e]) := by
  cases hstep with
  | @hello attempts watermark hello hadm =>
      have hchecks : proofChecks (es ++ [.hello hello]) = proofChecks es := by
        rw [proofChecks_append]
        exact List.append_nil _
      refine ⟨?_, ?_, ?_, h.attempts_le, nofun, ?_, ?_⟩
      · rw [helloes_append, h.helloes]
        rfl
      · intro hello' hmem
        rcases List.mem_singleton.mp hmem with rfl
        exact hadm
      · rw [hchecks]
        exact h.attempts
      · intro check hmem hverified
        rw [hchecks] at hmem
        obtain ⟨hello', signature, hphase⟩ := h.settled check hmem hverified
        cases hphase
      · rw [acceptedSignals_append_of_nil rfl]
        exact h.signals
  | @failed attempts watermark hello check hn hof hv =>
      refine ⟨?_, h.admitted, ?_, Nat.succ_le_of_lt hn, nofun, ?_, ?_⟩
      · rw [helloes_append, h.helloes]
        rfl
      · rw [proofChecks_append, List.length_append, h.attempts]
        rfl
      · intro check' hmem hverified
        rw [proofChecks_append] at hmem
        rcases List.mem_append.mp hmem with hmem | hmem
        · obtain ⟨hello', signature, hphase⟩ := h.settled check' hmem hverified
          cases hphase
        · rcases List.mem_singleton.mp hmem with rfl
          rw [hv] at hverified
          cases hverified
      · rw [acceptedSignals_append_of_nil rfl]
        exact h.signals
  | @proved attempts watermark hello check hn hof hv =>
      refine ⟨?_, h.admitted, ?_, Nat.succ_le_of_lt hn, ?_, fun _ _ _ => ⟨hello, _, rfl⟩, ?_⟩
      · rw [helloes_append, h.helloes]
        rfl
      · rw [proofChecks_append, List.length_append, h.attempts]
        rfl
      · intro hello' signature heq
        obtain ⟨rfl, rfl⟩ := ProofPhase.proven.injEq .. ▸ heq
        have hverified := hof.verified
        rw [hv, hof.publicKeyRaw, hof.challenge] at hverified
        refine ⟨?_, hverified.symm⟩
        obtain ⟨key, challenge, signature, verified⟩ := check
        obtain ⟨hkey, hchallenge, -⟩ := hof
        simp only at hkey hchallenge hv ⊢
        subst hkey hchallenge hv
        rw [proofChecks_append]
        exact List.mem_append_right _ (List.mem_singleton.mpr rfl)
      · rw [acceptedSignals_append_of_nil rfl]
        exact h.signals
  | @accepted hello signature attempts watermark signal hlt hfrom hvalid =>
      have hchecks : proofChecks (es ++ [.signalAccepted signal]) = proofChecks es := by
        rw [proofChecks_append]
        exact List.append_nil _
      refine ⟨?_, h.admitted, ?_, h.attempts_le, ?_, ?_, ?_⟩
      · rw [helloes_append, h.helloes]
        rfl
      · rw [hchecks]
        exact h.attempts
      · rw [hchecks]
        exact h.proved
      · rw [hchecks]
        exact fun _ _ _ => ⟨hello, signature, rfl⟩
      · rw [acceptedSignals_append]
        exact h.signals.append hlt hfrom hvalid
  | quiet hq =>
      obtain ⟨hh, hp, ha⟩ := quiet_lists hq
      have hchecks : proofChecks (es ++ [e]) = proofChecks es := by
        rw [proofChecks_append, hp, List.append_nil]
      refine ⟨?_, h.admitted, ?_, h.attempts_le, ?_, ?_, ?_⟩
      · rw [helloes_append, hh, List.append_nil, h.helloes]
      · rw [hchecks]
        exact h.attempts
      · rw [hchecks]
        exact h.proved
      · rw [hchecks]
        exact h.settled
      · rw [acceptedSignals_append_of_nil ha]
        exact h.signals

theorem records_of_trace {es : List Effect} {state : SessionState}
    (h : (sessionMachine c cr trust endpoint sid).Trace es state) :
    state.Records c cr trust endpoint sid es := by
  refine h.invariant (P := fun es state => state.Records c cr trust endpoint sid es) ?_ ?_
  · rintro state rfl
    exact ⟨rfl, nofun, rfl, Nat.zero_le 3, nofun, nofun, List.Pairwise.nil, nofun, nofun, nofun⟩
  · intro es state e state' hrec hstep
    exact hrec.step hstep

/-- A run goes on through effects the machine does not see. -/
theorem trace_append_quiet {es es' : List Effect} {state : SessionState}
    (h : (sessionMachine c cr trust endpoint sid).Trace es state)
    (hq : ∀ e ∈ es', e.quiet = true) :
    (sessionMachine c cr trust endpoint sid).Trace (es ++ es') state := by
  induction es' generalizing es with
  | nil => rwa [List.append_nil]
  | cons e rest ih =>
      rw [List.append_cons]
      exact ih (h.snoc (.quiet (hq e List.mem_cons_self)))
        fun e' he' => hq e' (List.mem_cons_of_mem e he')

end Masterserver
