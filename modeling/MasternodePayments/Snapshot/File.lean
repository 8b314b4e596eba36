import MasternodePayments.Digest.Sha2
import MasternodePayments.Snapshot.Format

/-!
# Snapshot files

A file starts with a magic message and the magic number of its network, then comes the snapshot, and
last the double SHA-256 of everything before. Reading checks the checksum first, then the message,
then the network, and only then looks at the snapshot. Bytes between the snapshot and the checksum
are ignored.
-/

namespace MasternodePayments

/-- What the snapshot part of a file can be wrong in. -/
inductive Malformation where
  /-- The magic number of the network is cut short. -/
  | networkCutShort
  | snapshot (cause : ReadFailure)
deriving DecidableEq

inductive FileFailure where
  | missing (path : String)
  | corrupted
  | wrongMagic
  | wrongNetwork
  | malformed (cause : Malformation)
deriving DecidableEq

/-- What a missing file is reported as by the system. -/
def missingFileMessage : String := "No such file or directory (os error 2)"

def Malformation.message : Malformation → String
  | .networkCutShort => "failed to fill whole buffer"
  | .snapshot .endOfData => "io error: failed to fill whole buffer"
  | .snapshot .sizeLimit => "the size limit has been reached"
  | .snapshot (.unknownVariant index) =>
    "invalid value: integer \x60" ++ toString index.toNat ++
      "\x60, expected variant index 0 <= i < 2"

def FileFailure.message : FileFailure → String
  | .missing path => "I/O error on " ++ path ++ ": " ++ missingFileMessage
  | .corrupted => "Checksum mismatch, data corrupted"
  | .wrongMagic => "Invalid masternode payment cache magic message"
  | .wrongNetwork => "Invalid network magic number"
  | .malformed cause => "Malformed payment data: " ++ cause.message

def FileFailure.isMissing : FileFailure → Bool
  | .missing _ => true
  | _ => false

/-- What the files of a database have in common: the magic message and the network. -/
structure FileFormat where
  message : String := "MasternodePayments"
  network : FixedBytes 4

namespace FileFormat

/-- How many bytes the message, or the snapshot, may take. -/
def sizeLimit : Nat := 512 * 1024 * 1024

def checksumLength : Nat := 32

def messageBytes (f : FileFormat) : Bytes := f.message.toUTF8.toList

/-- What a codec writes, if it keeps to the limit. -/
def writeLimited {α : Type} (c : Codec α) (a : α) : Except FileFailure Bytes :=
  if (c.write a).length ≤ sizeLimit then .ok (c.write a)
  else .error (.malformed (.snapshot .sizeLimit))

/-- The bytes of a file with a snapshot. -/
def encode (f : FileFormat) (s : Snapshot) : Except FileFailure Bytes := do
  let message ← writeLimited Codec.blob f.messageBytes
  let snapshot ← writeLimited Codec.snapshot s
  let body := message ++ f.network.bytes ++ snapshot
  pure (body ++ (doubleSha256 body).bytes)

/-- The body of a file, if its checksum is right. -/
def body? (b : Bytes) : Option Bytes :=
  let body := b.take (b.length - checksumLength)
  if checksumLength ≤ b.length ∧
      (doubleSha256 body).bytes = b.drop (b.length - checksumLength) then some body
  else none

/-- What follows the magic message, if that is the right one. -/
def afterMessage? (f : FileFormat) (body : Bytes) : Option Bytes :=
  match Codec.blob.read.run ⟨body, sizeLimit⟩ with
  | .ok (message, rest) => if message = f.messageBytes then some rest.ahead else none
  | .error _ => none

/-- The snapshot in what follows the magic message. -/
def decodeRest (f : FileFormat) (rest : Bytes) : Except FileFailure Snapshot :=
  match FixedBytes.ofBytes? 4 (rest.take 4) with
  | none => .error (.malformed .networkCutShort)
  | some network =>
    if network = f.network then
      match Codec.snapshot.read.run ⟨rest.drop 4, sizeLimit⟩ with
      | .ok (snapshot, _) => .ok snapshot
      | .error cause => .error (.malformed (.snapshot cause))
    else .error .wrongNetwork

/-- The snapshot in the bytes of a file. -/
def decode (f : FileFormat) (b : Bytes) : Except FileFailure Snapshot :=
  match body? b with
  | none => .error .corrupted
  | some body =>
    match f.afterMessage? body with
    | none => .error .wrongMagic
    | some rest => f.decodeRest rest

end FileFormat
end MasternodePayments
