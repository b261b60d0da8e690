import Masterserver.App.Routes
import Masterserver.App.V2
import Masterserver.Lib.JsonGrammar
import Masterserver.Proofs.StrictTree
import Masterserver.Proofs.Validation

/-!
# Frames that are not messages

What the receive loops do with a frame that does not decode, or with a value
that is no message. Both are answered, with two exceptions: a lone surrogate
that the decoder meets when it measures the texts, and an envelope whose
namespace or type is not hashable. Either ends the loop.
-/

namespace Masterserver

open Lib Protocol

/-! ## The decoder -/

/-- The decoder's own error. -/
def DecodeError.isStrict : DecodeError → Prop
  | .strict _ => True
  | .unicodeEncode => False

theorem raises_uniqueObject (seen : List CodePoints) (members : List (CodePoints × Decoded)) :
    Raises DecodeError.isStrict (uniqueObject seen members) := by
  induction members generalizing seen with
  | nil => exact raises_ok _
  | cons member rest ih =>
      obtain ⟨key, v⟩ := member
      rw [uniqueObject]
      split
      · exact raises_error trivial
      · exact ih _

theorem raises_strictHooks : strictHooks.Raises DecodeError.isStrict where
  constant _ := raises_error trivial
  pairs members := raises_uniqueObject [] members
  invalid := trivial

theorem raises_checkNestingFrom (maximum : Nat) (text : List Char) (depth : Nat)
    (state : NestingState) :
    Raises DecodeError.isStrict (checkNestingFrom maximum text depth state) := by
  fun_induction checkNestingFrom maximum text depth state with
  | case1 | case8 | case10 => exact raises_error trivial
  | case2 => exact raises_ok _
  | _ => assumption

/-- The text gets to the measuring of its texts, and among those of the first
`maxNodes` values a lone surrogate comes before any that is too long. -/
def LoneSurrogateFirst (limits : JsonLimits) (text : List Char) : Prop :=
  String.utf8Len text ≤ limits.maxBytes ∧ checkNesting text limits.maxDepth = .ok () ∧
    ∃ v, decodeJson strictHooks text = .ok v ∧
      SurrogateFirst limits.maxStringBytes ((v.visits.take limits.maxNodes).flatMap Decoded.texts)

/-- What comes after the check of the size. -/
def decodeChecked (limits : JsonLimits) (text : List Char) : Except DecodeError Json := do
  checkNesting text limits.maxDepth
  let decoded ← decodeJson strictHooks text
  checkTree decoded limits.maxNodes limits.maxStringBytes
  pure decoded.toJson

theorem loadsStrict_eq (limits : JsonLimits) (text : List Char) :
    loadsStrict limits text =
      if limits.maxBytes < String.utf8Len text then .error (.strict "JSON exceeds the byte limit")
      else decodeChecked limits text := by
  unfold loadsStrict
  split <;> rfl

theorem loadsStrict_unicodeEncode {limits : JsonLimits} {text : List Char} :
    loadsStrict limits text = .error .unicodeEncode ↔ LoneSurrogateFirst limits text := by
  rw [loadsStrict_eq]
  unfold LoneSurrogateFirst
  split
  · next h => exact ⟨nofun, fun h' => absurd h'.1 (not_le.mpr h)⟩
  · next h =>
      constructor
      · intro he
        obtain he | ⟨_, hnesting, he⟩ := bind_eq_error.mp he
        · exact (raises_checkNestingFrom _ _ _ _ _ he).elim
        obtain he | ⟨v, hdecode, he⟩ := bind_eq_error.mp he
        · exact (raises_decodeJson raises_strictHooks text _ he).elim
        obtain he | ⟨_, -, he⟩ := bind_eq_error.mp he
        · exact ⟨not_lt.mp h, hnesting, v, hdecode, checkTree_unicodeEncode.mp he⟩
        · cases he
      · rintro ⟨-, hnesting, v, hdecode, hfirst⟩
        have htree := checkTree_unicodeEncode.mpr hfirst
        exact bind_eq_error.mpr (.inr ⟨(), hnesting, bind_eq_error.mpr (.inr ⟨v, hdecode,
          bind_eq_error.mpr (.inl htree)⟩)⟩)

/-- A value or the decoder's own error. -/
def FailsClosed (outcome : Except DecodeError Json) : Prop :=
  (∃ value, outcome = .ok value) ∨ ∃ message, outcome = .error (.strict message)

theorem failsClosed_iff {outcome : Except DecodeError Json} :
    FailsClosed outcome ↔ outcome ≠ .error .unicodeEncode := by
  unfold FailsClosed
  cases outcome with
  | ok value => simp
  | error e => cases e <;> simp

/-- What a receive loop does with a frame that is small enough and within the
rates: it goes on with the decoded message, or it answers `bad-json`. -/
def AnswersBadJson (c : Config) (error : String → String → Json) (now : Seconds)
    (sessionId : String) (raw : List Char) (server : Server) : Prop :=
  (∃ server' message, server.admitFrame c error now sessionId raw = .ok (server', message)) ∨
    ∃ server' : Server, server.admitFrame c error now sessionId raw =
      .error (server'.done [.reply (error "bad-json" "message is not valid JSON")])

/-- A frame that is small enough and within the rates is decoded. -/
theorem admitFrame_eq {c : Config} (error : String → String → Json) {now : Seconds}
    {sessionId : String} {raw : List Char} {server : Server}
    (hsize : String.utf8Len raw ≤ c.maxFrameBytes)
    (hrate : (server.hub.checkRate now sessionId .message).2 = true)
    (hglobal : ((server.hub.checkRate now sessionId .message).1.consumeMessage now).2 = true) :
    ∃ server', server.admitFrame c error now sessionId raw =
      match loadsStrict c.jsonLimits raw with
      | .error (.strict _) =>
          .error (Server.done server' [.reply (error "bad-json" "message is not valid JSON")])
      | .error .unicodeEncode => .error (server'.leave [])
      | .ok message => .ok (server', message) := by
  refine ⟨{ server with
    hub := ((server.hub.checkRate now sessionId .message).1.consumeMessage now).1 }, ?_⟩
  unfold Server.admitFrame
  rw [if_neg (not_lt.mpr hsize)]
  cases loadsStrict c.jsonLimits raw with
  | ok message => simp only [hrate, hglobal, Bool.not_true, Bool.false_eq_true, if_false]
  | error e =>
      cases e with
      | strict message =>
          simp only [hrate, hglobal, Bool.not_true, Bool.false_eq_true, if_false]
      | unicodeEncode =>
          simp only [hrate, hglobal, Bool.not_true, Bool.false_eq_true, if_false]

theorem answersBadJson_iff {c : Config} {error : String → String → Json} {now : Seconds}
    {sessionId : String} {raw : List Char} {server : Server}
    (hsize : String.utf8Len raw ≤ c.maxFrameBytes)
    (hrate : (server.hub.checkRate now sessionId .message).2 = true)
    (hglobal : ((server.hub.checkRate now sessionId .message).1.consumeMessage now).2 = true) :
    AnswersBadJson c error now sessionId raw server ↔ ¬LoneSurrogateFirst c.jsonLimits raw := by
  obtain ⟨server', heq⟩ := admitFrame_eq error hsize hrate hglobal
  rw [← loadsStrict_unicodeEncode]
  unfold AnswersBadJson
  rw [heq]
  cases loadsStrict c.jsonLimits raw with
  | ok message => exact ⟨fun _ => nofun, fun _ => .inl ⟨_, message, rfl⟩⟩
  | error e =>
      cases e with
      | strict message => exact ⟨fun _ => nofun, fun _ => .inr ⟨_, rfl⟩⟩
      | unicodeEncode =>
          refine ⟨?_, fun h => absurd rfl h⟩
          rintro (⟨server', message, h⟩ | ⟨server', h⟩)
          · cases h
          · simp [Server.leave, Server.done] at h

/-- For every text and for every byte string `loads_strict` returns a value or
raises its own error, exactly where no lone surrogate is measured; and then
both receive loops answer what does not decode. -/
theorem decoder_fails_closed_iff (limits : JsonLimits) :
    (∀ text, FailsClosed (loadsStrict limits text) ↔ ¬LoneSurrogateFirst limits text) ∧
      (∀ raw, FailsClosed (loadsStrictBytes limits raw) ↔
        ∀ text, String.fromUTF8? raw = some text → ¬LoneSurrogateFirst limits text.toList) ∧
      ∀ (c : Config) (error : String → String → Json) now sid raw (server : Server),
        String.utf8Len raw ≤ c.maxFrameBytes →
        (server.hub.checkRate now sid .message).2 = true →
        ((server.hub.checkRate now sid .message).1.consumeMessage now).2 = true →
        (AnswersBadJson c error now sid raw server ↔ ¬LoneSurrogateFirst c.jsonLimits raw) := by
  refine ⟨fun text => ?_, fun raw => ?_, ?_⟩
  · rw [failsClosed_iff, Ne, loadsStrict_unicodeEncode]
  · unfold loadsStrictBytes
    cases String.fromUTF8? raw with
    | none => exact ⟨fun _ => nofun, fun _ => .inr ⟨_, rfl⟩⟩
    | some text =>
        simp only [Option.some.injEq, forall_eq']
        rw [failsClosed_iff, Ne, loadsStrict_unicodeEncode]
  · intro c error now sid raw server hsize hrate hglobal
    exact answersBadJson_iff hsize hrate hglobal

/-- A server that has just started. -/
def freshServer : Server :=
  { hub := .new .default 0, mesh := .new .alone "", signalGlobalLimiter := .new 10 10 0 }

/-- A brace that is not closed is answered. -/
theorem decoder_fails_closed_answered :
    AnswersBadJson .default sendError 0 "s" ['\x7b'] freshServer := by
  refine ((decoder_fails_closed_iff Config.default.jsonLimits).2.2 .default sendError 0 "s" ['\x7b'] freshServer
    (by decide +kernel) (by decide +kernel) (by decide +kernel)).mpr ?_
  intro h
  exact absurd (h.2.1 : checkNesting ['\x7b'] _ = .ok ()) (by decide +kernel)

/-- A string that is half a surrogate pair, escaped. -/
def loneSurrogateText : List Char := ['"', backslash, 'u', 'd', '8', '0', '0', '"']

/-- Measuring it raises. -/
theorem loneSurrogate_escapes :
    ¬FailsClosed (loadsStrict { maxBytes := 65536 } loneSurrogateText) := by
  rw [failsClosed_iff, not_not]
  rfl

/-! ## The validators -/

/-- One ERROR frame, and the loop goes on. -/
def Step.AnswersError (step : Step) : Prop :=
  ∃ server protocol code message inReplyTo,
    step = Server.done server [.reply (makeError protocol code message inReplyTo)]

variable {c : Config} {m : MeshConfig} {cr : Crypto} {trust : NodeTrust} {sid : String}

theorem V1.answersError_receiveFrame {now : Seconds} {draws : Draws} {raw : List Char}
    {server server' : Server} {data : Json}
    (hadmitted : server.admitFrame c sendError now sid raw = .ok (server', data))
    (hraises : Raises Raised.answered (validateV1Message data))
    (hbad : ∀ message, validateV1Message data ≠ .ok message) :
    (V1.receiveFrame c cr now sid draws raw server).AnswersError := by
  unfold V1.receiveFrame
  rw [hadmitted]
  cases h : validateV1Message data with
  | ok message => exact absurd h (hbad message)
  | error e =>
      cases e with
      | protocolError code message =>
          simp only [h]
          exact ⟨server', session, code, message, .null, rfl⟩
      | typeError => exact (hraises _ h).elim

theorem V2.answersError_receiveFrame {now : Clocks} {draws : Draws} {raw : List Char}
    {server server' : Server} {data : Json}
    (hadmitted : server.admitFrame m.toConfig (fun code message => v2Error code message .null)
      now.monotonic sid raw = .ok (server', data))
    (hraises : Raises Raised.answered (validateV2Message data))
    (hbad : ∀ message, validateV2Message data ≠ .ok message) :
    (V2.receiveFrame m cr trust now sid draws raw server).AnswersError := by
  unfold V2.receiveFrame
  rw [hadmitted]
  cases h : validateV2Message data with
  | ok message => exact absurd h (hbad message)
  | error e =>
      cases e with
      | protocolError code message =>
          simp only [h]
          exact ⟨server', sessionV2, code, message, _, rfl⟩
      | typeError => exact (hraises _ h).elim

/-- For every decoded message both validators return or raise a
`ProtocolError`, and the endpoints answer what is no message, exactly when it
is not an `UnhashableEnvelope`. -/
theorem validators_fail_closed_iff (data : Json) :
    (Raises Raised.answered (validateV1Message data) ∧
        Raises Raised.answered (validateV2Message data) ∧
        (∀ (c : Config) (cr : Crypto) now sid draws raw (server server' : Server),
          server.admitFrame c sendError now sid raw = .ok (server', data) →
          (∀ message, validateV1Message data ≠ .ok message) →
          (V1.receiveFrame c cr now sid draws raw server).AnswersError) ∧
        ∀ (m : MeshConfig) (cr : Crypto) (trust : NodeTrust) (now : Clocks) sid draws raw
          (server server' : Server),
          server.admitFrame m.toConfig (fun code message => v2Error code message .null)
            now.monotonic sid raw = .ok (server', data) →
          (∀ message, validateV2Message data ≠ .ok message) →
          (V2.receiveFrame m cr trust now sid draws raw server).AnswersError) ↔
      ¬UnhashableEnvelope data := by
  constructor
  · rintro ⟨hv1, -, -, -⟩
    exact validateV1Message_answered.mp hv1
  · intro h
    have hv1 := validateV1Message_answered.mpr h
    have hv2 := validateV2Message_answered.mpr h
    refine ⟨hv1, hv2, ?_, ?_⟩
    · intro c cr now sid draws raw server server' hadmitted hbad
      exact V1.answersError_receiveFrame hadmitted hv1 hbad
    · intro m cr trust now sid draws raw server server' hadmitted hbad
      exact V2.answersError_receiveFrame hadmitted hv2 hbad

/-- A list where the namespace should be. -/
theorem validators_raise_typeError :
    ¬(Raises Raised.answered
        (validateV1Message (.obj [("protocol", .arr []), ("type", .str "HELLO")])) ∨
      Raises Raised.answered
        (validateV2Message (.obj [("protocol", .arr []), ("type", .str "HELLO")]))) := by
  rw [raises_answered_iff, raises_answered_iff]
  rintro (h | h)
  · exact h rfl
  · exact h rfl

end Masterserver
