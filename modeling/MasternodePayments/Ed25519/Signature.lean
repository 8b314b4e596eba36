import MasternodePayments.Bytes.Hex
import MasternodePayments.Digest.Sha2
import MasternodePayments.Ed25519.Point

/-!
# Signing and verifying

A key pair is a secret of 32 bytes; its SHA-512 digest gives the secret scalar and the nonce seed.
A signature is an encoded point followed by a scalar. Verification is the cofactorless one: the
encoding of `[s]B - [k]A` has to be the first half of the signature, byte for byte. Keys of small
order are accepted.

* `verify`: the check, with the cause of a failure. The key is looked at before the signature.
* `KeyPair.publicKey`, `KeyPair.sign`: what the secret gives.
-/

namespace MasternodePayments.Ed25519

inductive Failure where
  | secretLength
  | publicLength
  | notOnCurve
  | signatureForm
  | mismatch
deriving DecidableEq, Repr

def Failure.message : Failure → String
  | .secretLength =>
    "Invalid secret key: signature error: SecretKey must be 32 bytes in length"
  | .publicLength =>
    "Invalid public key: signature error: PublicKey must be 32 bytes in length"
  | .notOnCurve => "Invalid public key: signature error: Cannot decompress Edwards point"
  | .signatureForm => "Invalid signature encoding: signature error"
  | .mismatch => "Signature verification failed"

/-- A key pair, as its secret. -/
structure KeyPair where
  secret : FixedBytes 32
deriving DecidableEq

namespace KeyPair

/-- The key pair of a secret of 32 bytes. -/
def ofSecret (secret : Bytes) : Except Failure KeyPair :=
  match FixedBytes.ofBytes? 32 secret with
  | some s => .ok ⟨s⟩
  | none => .error .secretLength

/-- The digest that the scalar and the nonce seed are cut from. -/
def expanded (k : KeyPair) : Bytes := (sha512 k.secret.bytes).bytes

/-- The secret scalar: a multiple of eight between `2 ^ 254` and `2 ^ 255`. -/
def scalar (k : KeyPair) : Nat :=
  1 <<< 254 + ofLittleEndian (k.expanded.take 32) % 1 <<< 254 / 8 * 8

def publicKey (k : KeyPair) : PublicKey := (Point.base.scale k.scalar).encode

/-- A form for diagnostics, which does not show the secret. -/
def text (k : KeyPair) : String :=
  "RustyKeyPair \x7b public: \"" ++ hex k.publicKey.bytes ++ "\" \x7d"

end KeyPair

/-- The number that ties a signature's point to the key and the message. -/
def challenge (point key message : Bytes) : Nat :=
  ofLittleEndian (sha512 (point ++ key ++ message)).bytes % order

def KeyPair.sign (k : KeyPair) (message : Bytes) : FixedBytes 64 :=
  let nonce := ofLittleEndian (sha512 (k.expanded.drop 32 ++ message)).bytes % order
  let point := (Point.base.scale nonce).encode
  let s := (nonce + challenge point.bytes k.publicKey.bytes message * k.scalar) % order
  ⟨point.bytes ++ littleEndian 32 s, by simp [point.length_bytes]⟩

/-- A signature taken apart: 64 bytes, the topmost three bits clear. -/
def splitSignature (signature : Bytes) : Except Failure (Bytes × Nat) :=
  let s := ofLittleEndian (signature.drop 32)
  if signature.length = 64 ∧ s < 1 <<< 253 then .ok (signature.take 32, s)
  else .error .signatureForm

def readPublicKey (key : Bytes) : Except Failure Point :=
  match FixedBytes.ofBytes? 32 key with
  | none => .error .publicLength
  | some encoding =>
    match Point.decode? encoding with
    | none => .error .notOnCurve
    | some p => .ok p

def verify (key message signature : Bytes) : Except Failure Unit := do
  let a ← readPublicKey key
  let (r, s) ← splitSignature signature
  let k := challenge r key message
  let expected := (Point.base.scale s).add (a.scale k).neg
  if s < order ∧ expected.encode.bytes = r then .ok () else .error .mismatch

end MasternodePayments.Ed25519
