import Masterserver.App.Config
import Masterserver.App.SessionCrypto
import Masterserver.Lib.JsonDecode
import Mathlib.Data.Int.Order.Basic
import Mathlib.Data.List.Lex
import Mathlib.Data.Prod.Lex

/-!
# Short-lived TURN credentials

`issue` makes the credentials of an admitted client: with the shared secret
that is active, or the one without an activation window, a username and its
HMAC for the configured URLs; without a secret the configured list of static
servers.

All of it is read from texts of the configuration each time. The texts that
are JSON are taken to be made of characters; the others, and everything
decoded, are code points, as half a surrogate pair is a character of such a
text and has no encoding.

`TurnPrimitives` is what is not written here: which characters are
alphanumeric, and HMAC-SHA1. The results hold for every choice of them.
-/

namespace Masterserver

open Lib

/-- The configuration with the texts the credentials are made from. -/
structure TurnConfig extends Config where
  turnServersJson : List Char := ['[', ']']
  turnUrlsJson : List Char := ['[', ']']
  turnSharedSecret : CodePoints := []
  turnSharedSecretsJson : List Char := ['[', ']']
  turnUsernamePrefix : CodePoints := codePoints "particle"
  readinessRequireTurn : Bool := false

structure TurnPrimitives where
  isalnum : Char → Bool
  hmacSha1 : Bytes → Bytes → Bytes
  deriving Inhabited

/-- `ValueError` with its message, or the `UnicodeEncodeError` of a text that
does not encode. -/
inductive TurnError
  | valueError (message : String)
  | unicodeEncode
  deriving DecidableEq

structure TurnCredentials where
  iceServers : Decoded
  expiresAt : Int

namespace Turn

/-! ## Texts and objects -/

/-- The hooks of a plain `json.loads`. The constants are numbers that are not
integers, which here is all that matters about them. -/
def plainHooks : DecodeHooks Unit where
  constant _ := .ok (.float false 0 0)
  pairs _ := .ok ()
  invalid := ()

/-- `json.loads(text)`, `none` where it raises. -/
def loads (text : List Char) : Option Decoded := (decodeJson plainHooks text).toOption

def fail {α : Type} (message : String) : Except TurnError α := .error (.valueError message)

/-- `json.loads(text)`, with the error raised for its own. -/
def loadsOr (message : String) (text : List Char) : Except TurnError Decoded :=
  match loads text with
  | some value => .ok value
  | none => fail message

/-- `value[name]`: the last of a repeated name. -/
def field (members : List (CodePoints × Decoded)) (name : String) : Option Decoded :=
  members.reverse.lookup (codePoints name)

/-- `set(value) == names`. -/
def hasExactly (members : List (CodePoints × Decoded)) (names : List String) : Bool :=
  members.all (fun member => decide (member.1 ∈ names.map codePoints)) &&
    names.all fun name => (field members name).isSome

/-- `text.encode("utf-8")`. -/
def encode (codes : CodePoints) : Except TurnError Bytes :=
  if codes.any isSurrogate then .error .unicodeEncode else .ok (utf8 (textOf codes))

/-- `url.startswith(("turn:", "turns:"))`. -/
def isTurnUrl : Decoded → Bool
  | .str url => (codePoints "turn:").isPrefixOf url || (codePoints "turns:").isPrefixOf url
  | _ => false

/-- `ch.isalnum() or ch in "-_"`. -/
def isNameCode (p : TurnPrimitives) (code : Nat) : Bool :=
  code == 45 || code == 95 || !isSurrogate code && p.isalnum (Char.ofNat code)

/-- `base64.b64encode`: three bytes, four digits. -/
def b64encode : Bytes → List Char
  | [] => []
  | [a] => digits (a.toNat * 65536) 2 ++ ['=', '=']
  | [a, b] => digits (a.toNat * 65536 + b.toNat * 256) 3 ++ ['=']
  | a :: b :: c :: rest =>
      digits (a.toNat * 65536 + b.toNat * 256 + c.toNat) 4 ++ b64encode rest
where
  alphabet : List Char :=
    "ABCDEFGHIJKLMNOPQRSTUVWXYZabcdefghijklmnopqrstuvwxyz0123456789+/".toList
  digits (n count : Nat) : List Char :=
    ((List.range 4).take count).map fun i => alphabet.getD (n / 64 ^ (3 - i) % 64) 'A'

/-! ## Secrets -/

/-- A secret with the time it becomes active, its identifier and the time it
expires. Two of them compare as the source's tuples do. -/
structure SecretEntry where
  activatesAt : Int
  keyId : CodePoints
  secret : CodePoints
  expiresAt : Int
  deriving DecidableEq

abbrev Rank := Int ×ₗ (CodePoints ×ₗ CodePoints)

def SecretEntry.rank (e : SecretEntry) : Rank := toLex (e.activatesAt, toLex (e.keyId, e.secret))

def SecretEntry.active (now : Int) (e : SecretEntry) : Bool :=
  decide (e.activatesAt ≤ now ∧ now ≤ e.expiresAt)

/-- One round of the loop over the entries, up to the test of the window. -/
def secretEntry (p : TurnPrimitives) : Decoded → Except TurnError SecretEntry
  | .obj members =>
      if !hasExactly members ["id", "secret", "activatesAt", "expiresAt"] then
        fail "TURN shared-secret entries have invalid fields"
      else
        match field members "id", field members "secret", field members "activatesAt",
            field members "expiresAt" with
        | some (.str keyId), some (.str secret), some (.int activatesAt), some (.int expiresAt) =>
            if 1 ≤ keyId.length ∧ keyId.length ≤ 16 ∧ keyId.all (isNameCode p) ∧
                16 ≤ secret.length then
              .ok ⟨activatesAt, keyId, secret, expiresAt⟩
            else fail "TURN shared-secret entry is invalid"
        | _, _, _, _ => fail "TURN shared-secret entry is invalid"
  | _ => fail "TURN shared-secret entries have invalid fields"

/-- The entries of the configuration. -/
def secretEntries (p : TurnPrimitives) (c : TurnConfig) : Except TurnError (List SecretEntry) := do
  let entries ←
    loadsOr "PARTICLE_TURN_SHARED_SECRETS_JSON is invalid JSON" c.turnSharedSecretsJson
  match entries with
  | .arr items =>
      if items.length ≤ 8 then items.mapM (secretEntry p)
      else fail "PARTICLE_TURN_SHARED_SECRETS_JSON must contain at most eight entries"
  | _ =>
      fail "PARTICLE_TURN_SHARED_SECRETS_JSON must contain at most eight entries"

/-- `_active_shared_secret`: the identifier and the secret, both empty if
there is none. -/
def activeSharedSecret (p : TurnPrimitives) (c : TurnConfig) (now : Int) :
    Except TurnError (CodePoints × CodePoints) := do
  let entries ← secretEntries p c
  match ((entries.filter (SecretEntry.active now)).map SecretEntry.rank).max? with
  | some rank => pure (ofLex (ofLex rank).2)
  | none =>
      if c.turnSharedSecret ≠ [] then pure (codePoints "legacy", c.turnSharedSecret)
      else pure ([], [])

/-! ## URLs, the prefix and static servers -/

/-- `_turn_urls`. -/
def turnUrls (c : TurnConfig) : Except TurnError (List Decoded) := do
  let urls ← loadsOr "PARTICLE_TURN_URLS_JSON is invalid JSON" c.turnUrlsJson
  match urls with
  | .arr urls =>
      if ¬ (1 ≤ urls.length ∧ urls.length ≤ 16) then
        fail "PARTICLE_TURN_URLS_JSON must contain 1 to 16 URLs"
      else if urls.all isTurnUrl then pure urls
      else fail "TURN URLs must use turn: or turns:"
  | _ => fail "PARTICLE_TURN_URLS_JSON must contain 1 to 16 URLs"

/-- `_safe_prefix`. -/
def safePrefix (p : TurnPrimitives) (value : CodePoints) : Except TurnError CodePoints :=
  if value = [] ∨ 32 < value.length ∨ ¬ value.all (isNameCode p) then
    fail "PARTICLE_TURN_USERNAME_PREFIX is invalid"
  else .ok value

/-- One server of `valid_ice_servers`. -/
def validIceServer : Decoded → Bool
  | .obj server =>
      let isText : Option Decoded → Bool
        | some (.str _) => true
        | _ => false
      let entries := match field server "urls" with
        | some (.arr urls) => urls
        | some url => [url]
        | none => []
      hasExactly server ["urls", "username", "credential"] &&
        (!entries.isEmpty && entries.all isTurnUrl) &&
        (isText (field server "username") && isText (field server "credential"))
  | _ => false

/-- `valid_ice_servers`. -/
def validIceServers : Decoded → Bool
  | .arr servers =>
      decide (1 ≤ servers.length ∧ servers.length ≤ 16) && servers.all validIceServer
  | _ => false

/-! ## Issuing -/

/-- `issue` at a reading of the clock, with the twelve random bytes it draws. -/
def issue (p : TurnPrimitives) (c : TurnConfig) (now : Seconds) (token : Bytes) :
    Except TurnError TurnCredentials := do
  let current := pyInt now
  let expiresAt := current + c.turnTtlSeconds
  let (secretId, sharedSecret) ← activeSharedSecret p c current
  if sharedSecret ≠ [] then
    let urls ← turnUrls c
    let namePrefix ← safePrefix p c.turnUsernamePrefix
    let username := codePoints (toString expiresAt) ++ codePoints ":" ++ namePrefix ++
      codePoints "-" ++ secretId ++ codePoints "-" ++ codePoints (hex token)
    let digest := p.hmacSha1 (← encode sharedSecret) (← encode username)
    pure ⟨.arr [.obj [(codePoints "urls", .arr urls), (codePoints "username", .str username),
      (codePoints "credential", .str (codePoints (String.ofList (b64encode digest))))]], expiresAt⟩
  else
    let servers ← loadsOr "static TURN configuration is invalid JSON" c.turnServersJson
    if validIceServers servers then pure ⟨servers, expiresAt⟩
    else fail "TURN is unavailable"

end Turn

end Masterserver
