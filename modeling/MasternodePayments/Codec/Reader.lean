import MasternodePayments.Bytes.LittleEndian

/-!
# Reading bytes

A `Reader` takes values off the front of a `Source`: the bytes ahead and an allowance, the number of
bytes that may still be read. A word is charged to the allowance as a whole before it is read, and
so is a block of bytes; single bytes are charged one by one. So a length that promises more bytes
than there are ends either at the end of the data or at the end of the allowance, whichever the
reader meets first.
-/

namespace MasternodePayments

inductive ReadFailure where
  | endOfData
  | sizeLimit
  /-- An alternative was announced that does not exist. -/
  | unknownVariant (index : UInt32)
deriving DecidableEq, Repr

/-- The bytes ahead, and how many more may be read. -/
structure Source where
  ahead : Bytes
  allowance : Nat
deriving DecidableEq

/-- Takes a value off the front of a source. -/
structure Reader (α : Type) where
  run : Source → Except ReadFailure (α × Source)

namespace Reader

variable {α β : Type}

def fail (cause : ReadFailure) : Reader α where
  run _ := .error cause

protected def pure (a : α) : Reader α where
  run s := .ok (a, s)

protected def bind (r : Reader α) (f : α → Reader β) : Reader β where
  run s :=
    match r.run s with
    | .ok (a, rest) => (f a).run rest
    | .error cause => .error cause

instance : Monad Reader where
  pure := Reader.pure
  bind := Reader.bind

@[simp] theorem run_fail (cause : ReadFailure) (s : Source) :
    (fail cause : Reader α).run s = .error cause := rfl

@[simp] theorem run_pure (a : α) (s : Source) : (pure a : Reader α).run s = .ok (a, s) := rfl

theorem run_bind (r : Reader α) (f : α → Reader β) (s : Source) :
    (r >>= f).run s =
      match r.run s with
      | .ok (a, rest) => (f a).run rest
      | .error cause => .error cause := rfl

theorem run_bind_of_ok {r : Reader α} {s rest : Source} {a : α} (h : r.run s = .ok (a, rest))
    (f : α → Reader β) : (r >>= f).run s = (f a).run rest := by
  rw [run_bind, h]

theorem run_bind_of_error {r : Reader α} {s : Source} {cause : ReadFailure}
    (h : r.run s = .error cause) (f : α → Reader β) : (r >>= f).run s = .error cause := by
  rw [run_bind, h]

/-- Reads `n` bytes that are charged to the allowance together. -/
def block (n : Nat) : Reader Bytes where
  run s :=
    if s.allowance < n then .error .sizeLimit
    else
      let taken := s.ahead.take n
      if taken.length = n then .ok (taken, ⟨s.ahead.drop n, s.allowance - n⟩)
      else .error .endOfData

def byte : Reader UInt8 where
  run
    | ⟨_, 0⟩ => .error .sizeLimit
    | ⟨[], _ + 1⟩ => .error .endOfData
    | ⟨b :: rest, n + 1⟩ => .ok (b, ⟨rest, n⟩)

/-- Reads a value several times, after those that were read before, last read first. -/
def manyAfter (r : Reader α) : Nat → List α → Source → Except ReadFailure (List α × Source)
  | 0, before, s => .ok (before.reverse, s)
  | n + 1, before, s =>
    match r.run s with
    | .ok (a, rest) => manyAfter r n (a :: before) rest
    | .error cause => .error cause

def many (r : Reader α) (n : Nat) : Reader (List α) where
  run := manyAfter r n []

/-- Reads `n` single bytes. -/
def fixedBytes : (n : Nat) → Reader (FixedBytes n)
  | 0 => pure ⟨[], rfl⟩
  | n + 1 => do
    let b ← byte
    let rest ← fixedBytes n
    return ⟨b :: rest.bytes, by simp [rest.length_bytes]⟩

end Reader
end MasternodePayments
