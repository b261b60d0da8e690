import Masterserver.Lib.JsonDecode

/-!
# Strict, resource-bounded JSON decoding

`loadsStrict` decodes what arrives from the network: the size of the text and
the nesting of its brackets are checked before it is decoded, and the number
of values and the length of every text in it after. An object that names a
property twice and a number that is not finite are refused by the decoder's
hooks.

Measuring a decoded text encodes it, and a lone surrogate does not encode.
That raises an error of its own, which is not the decoder's.
-/

namespace Masterserver

open Lib

structure JsonLimits where
  maxBytes : Nat
  maxDepth : Nat := 16
  maxNodes : Nat := 512
  maxStringBytes : Nat := 65536

/-- `StrictJsonError` with its message, or the `UnicodeEncodeError` of a lone
surrogate. -/
inductive DecodeError
  | strict (message : String)
  | unicodeEncode
  deriving DecidableEq

/-- `unique_object`. -/
def uniqueObject (seen : List CodePoints) :
    List (CodePoints × Decoded) → Except DecodeError Unit
  | [] => .ok ()
  | (key, _) :: rest =>
      if key ∈ seen then
        .error (.strict ("duplicate JSON property is forbidden: " ++ textOf key))
      else uniqueObject (key :: seen) rest

def strictHooks : DecodeHooks DecodeError where
  constant token := .error (.strict ("non-finite JSON number is forbidden: " ++ token))
  pairs := uniqueObject []
  invalid := .strict "invalid JSON"

/-- Where `_check_nesting` is in a text: `in_string` and `escaped`. -/
inductive NestingState
  | outside
  | inString
  | escaped
  deriving DecidableEq

/-- `_check_nesting` from some character on. -/
def checkNestingFrom (maximum : Nat) : List Char → Nat → NestingState → Except DecodeError Unit
  | [], depth, state =>
      if state ≠ .outside ∨ depth ≠ 0 then .error (.strict "invalid JSON nesting") else .ok ()
  | _ :: rest, depth, .escaped => checkNestingFrom maximum rest depth .inString
  | c :: rest, depth, .inString =>
      if c = backslash then checkNestingFrom maximum rest depth .escaped
      else if c = quoteMark then checkNestingFrom maximum rest depth .outside
      else checkNestingFrom maximum rest depth .inString
  | c :: rest, depth, .outside =>
      if c = quoteMark then checkNestingFrom maximum rest depth .inString
      else if c = '[' ∨ c = '\x7b' then
        if maximum < depth + 1 then .error (.strict "JSON nesting exceeds the limit")
        else checkNestingFrom maximum rest (depth + 1) .outside
      else if c = ']' ∨ c = '\x7d' then
        if depth = 0 then .error (.strict "invalid JSON nesting")
        else checkNestingFrom maximum rest (depth - 1) .outside
      else checkNestingFrom maximum rest depth .outside

def checkNesting (text : List Char) (maximum : Nat) : Except DecodeError Unit :=
  checkNestingFrom maximum text 0 .outside

/-- A text's length is measured and compared. -/
def checkText (maxStringBytes : Nat) (message : String) (codes : CodePoints) :
    Except DecodeError Unit :=
  match utf8Size codes with
  | none => .error .unicodeEncode
  | some size => if maxStringBytes < size then .error (.strict message) else .ok ()

/-- The names of an object's members, in their order. -/
def checkNames (maxStringBytes : Nat) : List (CodePoints × Decoded) → Except DecodeError Unit
  | [] => .ok ()
  | (key, _) :: rest => do
      checkText maxStringBytes "JSON property name exceeds the byte limit" key
      checkNames maxStringBytes rest

/-- The loop of `_check_tree` with `budget` nodes still allowed. The last value
of `pending` stands first here. -/
def checkTreeLoop (maxStringBytes : Nat) : Nat → List Decoded → Except DecodeError Unit
  | _, [] => .ok ()
  | 0, _ :: _ => .error (.strict "JSON node count exceeds the limit")
  | budget + 1, current :: pending =>
      match current with
      | .str codes => do
          checkText maxStringBytes "JSON string exceeds the byte limit" codes
          checkTreeLoop maxStringBytes budget pending
      | .obj members => do
          checkNames maxStringBytes members
          checkTreeLoop maxStringBytes budget ((members.map Prod.snd).reverse ++ pending)
      | .arr items => checkTreeLoop maxStringBytes budget (items.reverse ++ pending)
      | _ => checkTreeLoop maxStringBytes budget pending

def checkTree (value : Decoded) (maxNodes maxStringBytes : Nat) : Except DecodeError Unit :=
  checkTreeLoop maxStringBytes maxNodes [value]

/-- `loads_strict` of a text. -/
def loadsStrict (limits : JsonLimits) (text : List Char) : Except DecodeError Json := do
  if limits.maxBytes < String.utf8Len text then
    .error (.strict "JSON exceeds the byte limit")
  checkNesting text limits.maxDepth
  let decoded ← decodeJson strictHooks text
  checkTree decoded limits.maxNodes limits.maxStringBytes
  pure decoded.toJson

/-- `loads_strict` of bytes, whose number is that of the text's encoding. -/
def loadsStrictBytes (limits : JsonLimits) (raw : ByteArray) : Except DecodeError Json :=
  match String.fromUTF8? raw with
  | none => .error (.strict "JSON must be UTF-8")
  | some text => loadsStrict limits text.toList

end Masterserver
