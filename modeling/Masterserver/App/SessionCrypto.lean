import Masterserver.Lib.Json

/-!
# Keys, digests and signatures

`Crypto` collects the primitives the server takes from a cryptography library:
SHA-256, the test that bytes encode a P-256 point, and the ECDSA verdict on a
point, a message and a pair of integers. The results hold for every choice of
them. Around it stand the server's own functions: the hexadecimal codec and
`verifySignature`, which fails closed on anything but a 64-byte `r || s`.
-/

namespace Masterserver

open Lib

abbrev Bytes := List UInt8

/-- A SHA-256 digest, as the number its 32 bytes spell: comparing two digests
byte by byte is comparing these numbers. -/
abbrev Digest := Fin (2 ^ 256)

instance digestSize : @NeZero Nat .ofOfNat0 (2 ^ 256) := ⟨(Nat.two_pow_pos 256).ne'⟩

structure Crypto where
  sha256 : Bytes → Digest
  isPoint : Bytes → Bool
  ecdsaVerify : Bytes → Bytes → Nat → Nat → Bool
  deriving Inhabited

/-- `text.encode("utf-8")`. -/
def utf8 (text : String) : Bytes := text.toList.flatMap String.utf8EncodeChar

/-- `digest.hexdigest()`. -/
def hexdigest (d : Digest) : String :=
  String.ofList ((List.range 64).map fun i => hexDigit (d.val / 16 ^ (63 - i) % 16))

/-- `data.hex()`. -/
def hex (data : Bytes) : String :=
  String.ofList (data.flatMap fun b => [hexDigit (b.toNat / 16), hexDigit (b.toNat % 16)])

/-- The blanks `bytes.fromhex` skips in front of a pair of digits. -/
def isAsciiSpace (c : Char) : Bool := c.toNat = 32 || (9 ≤ c.toNat && c.toNat ≤ 13)

def fromHexChars : List Char → Option Bytes
  | [] => some []
  | c :: rest =>
      if isAsciiSpace c then fromHexChars rest
      else
        match rest with
        | [] => none
        | d :: rest => do
            let high ← hexValue? c
            let low ← hexValue? d
            let tail ← fromHexChars rest
            pure (UInt8.ofNat (16 * high + low) :: tail)

/-- `bytes.fromhex(text)`, `none` where it raises `ValueError`. -/
def fromHex (text : String) : Option Bytes := fromHexChars text.toList

/-- `int.from_bytes(data, "big")`. -/
def fromBytesBig (data : Bytes) : Nat := data.foldl (fun n b => 256 * n + b.toNat) 0

/-- A raw `r || s` signature over `message`; an absent key or signature, and a
signature of another length, never verify. -/
def verifySignature (cr : Crypto) (publicKeyRaw : Option Bytes) (message signatureRaw : Bytes) :
    Bool :=
  match publicKeyRaw with
  | none => false
  | some key =>
      if key.isEmpty || signatureRaw.length != 64 then false
      else cr.ecdsaVerify key message (fromBytesBig (signatureRaw.take 32))
        (fromBytesBig (signatureRaw.drop 32))

/-- The length check runs before the decoding is compared, so a text with
blanks in it is no hex field. -/
def isHexBytes (value : String) (length : Nat) : Bool :=
  if value.length = length * 2 then
    match fromHex value with
    | some data => data.length = length
    | none => false
  else false

def isP256Point (cr : Crypto) (value : String) : Bool :=
  isHexBytes value 65 && ((fromHex value).map cr.isPoint).getD false

end Masterserver
