import MasternodePayments.Node
import MasternodePayments.Snapshot.File

/-!
# Keeping a snapshot in a file

A store is a place for one file. Its content is `none` while the file does not exist.

* `Store.restore`, `Store.load`: the ledger takes over what the file holds. A malformed file leaves
  the ledger empty, any other failure leaves it as it is.
* `Store.dump`: the new content of the file. A file of another format or network, or a damaged one,
  is not overwritten; a missing or malformed one is.
* `Host.dump`, `Host.load`: a node and its file, and what becomes of the two.
-/

namespace MasternodePayments

structure Store where
  path : String
  format : FileFormat

namespace Store

def read (s : Store) (content : Option Bytes) : Except FileFailure Snapshot :=
  match content with
  | some b => s.format.decode b
  | none => .error (.missing s.path)

/-- Takes the snapshot in the file over into the ledger of a node. -/
def restore (s : Store) (content : Option Bytes) (n : Node) : Node × Except FileFailure Unit :=
  match s.read content with
  | .ok snapshot => ({ n with ledger := n.ledger.restore n.setting snapshot }, .ok ())
  | .error (.malformed cause) => ({ n with ledger := n.ledger.clear }, .error (.malformed cause))
  | .error cause => (n, .error cause)

/-- Loads the file into the ledger of a node and, unless it is a dry run, drops old votes. -/
def load (s : Store) (content : Option Bytes) (n : Node) (dryRun : Bool) :
    Checked (Node × Except FileFailure Unit) :=
  match s.restore content n with
  | (restored, .error cause) => .ok (restored, .error cause)
  | (restored, .ok ()) =>
    if dryRun then .ok (restored, .ok ())
    else do
      let (cleaned, _) ← restored.clean
      pure (cleaned, .ok ())

/-- The content of the file once a snapshot was saved to it. -/
def dump (s : Store) (content : Option Bytes) (snapshot : Snapshot) :
    Except FileFailure Bytes :=
  match s.read content with
  | .ok _ => s.format.encode snapshot
  | .error (.missing _) => s.format.encode snapshot
  | .error (.malformed _) => s.format.encode snapshot
  | .error cause => .error cause

end Store

/-- A node and the content of the file that its ledger is kept in. -/
structure Host where
  node : Node
  file : Option Bytes := none

namespace Host

/-- Saves the ledger to the file. -/
def dump (h : Host) (s : Store) : Host × Except FileFailure Unit :=
  match s.dump h.file h.node.ledger.snapshot with
  | .ok b => ({ h with file := some b }, .ok ())
  | .error cause => (h, .error cause)

/-- Loads the file into the ledger. -/
def load (h : Host) (s : Store) (dryRun : Bool) : Checked (Host × Except FileFailure Unit) := do
  let (node, outcome) ← s.load h.file h.node dryRun
  pure ({ h with node := node }, outcome)

end Host
end MasternodePayments
