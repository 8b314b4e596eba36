import MasternodePayments.Ledger.Answers
import MasternodePayments.Ledger.Casting
import MasternodePayments.Ledger.Snapshot
import MasternodePayments.Network.Peer
import MasternodePayments.Network.Tracker

/-!
# A node

A node joins the ledger to its surroundings and to its peers: it answers messages, relays admitted
votes, casts its own as the chain grows and drops old ones.

Every operation gives the node afterwards; one that ran into an overflow gives none.
-/

namespace MasternodePayments

/-- What a node has handled and cast so far. The counters are numbers without a bound and not words
of 64 bits: an event adds one at most to each counter of handled messages (`Node.run_growsBy`), and
to `own` the number of the votes cast in it, so that no run of a practical length would fill a
word. -/
structure Traffic where
  admitted : Nat := 0
  duplicate : Nat := 0
  rejected : Nat := 0
  /-- Votes that this node cast itself. -/
  own : Nat := 0
  served : Nat := 0
  refused : Nat := 0
deriving DecidableEq

/-- A node with its surroundings, its peers and its own masternode, if it runs one. -/
structure Node where
  setting : Setting
  ledger : Ledger := {}
  tracker : Tracker := {}
  peers : List Peer := []
  relayed : List Announcement := []
  traffic : Traffic := {}
  active : Option ActiveMasternode := none
  /-- How far above the tip this node votes. -/
  voteAhead : UInt64 := 10

namespace Node

def onPeer (n : Node) (peer : Nat) (f : Peer → Peer) : Node :=
  { n with peers := n.peers.modify peer f }

def admitVote (n : Node) (v : Vote) : Checked (Node × Except Rejection Unit) := do
  match ← settle (n.ledger.admitVote n.setting v) with
  | .ok ledger => pure ({ n with ledger := ledger }, .ok ())
  | .error cause => pure (n, .error cause)

/-- Drops what fell behind the horizon of a height; also gives the identities of dropped votes. -/
def prune (n : Node) (height : Height) : Checked (Node × List Hash) := do
  let (ledger, dropped) ← n.ledger.prune n.setting height
  pure ({ n with ledger := ledger, tracker := n.tracker.forget dropped }, dropped)

/-- Prunes at the tip; without one, nothing happens. -/
def clean (n : Node) : Checked (Node × List Hash) := do
  let (ledger, dropped) ← n.ledger.clean n.setting
  pure ({ n with ledger := ledger, tracker := n.tracker.forget dropped }, dropped)

/-- Announces votes to a peer; also gives their number, or nothing while the tip cannot be read. -/
def announceTo (n : Node) (peer : Nat) (count : UInt64) : Checked (Node × Option Nat) := do
  match ← n.ledger.announcements? n.setting count with
  | some announcements =>
    pure (n.onPeer peer (·.sendAnnouncements announcements), some announcements.length)
  | none => pure (n, none)

/-- Casts the votes of a masternode for a height; also gives those that were admitted. -/
def cast (n : Node) (height : Height) (active : ActiveMasternode) :
    Checked (Node × Except Rejection (List Vote)) := do
  match ← settle (n.ledger.cast n.setting height active) with
  | .ok (ledger, votes) => pure ({ n with ledger := ledger }, .ok votes)
  | .error cause => pure (n, .error cause)

/-! ## Messages -/

/-- Answers a request for votes. The main network answers each peer once and takes any further
request for misbehaviour. -/
def handleGetVotes (n : Node) (index : Nat) (peer : Peer) (count : UInt64) : Checked Node :=
  if n.setting.config.network.isMain && peer.hasAsked then
    .ok { n.onPeer index (·.punish n.setting.config.misbehaviourScore) with
      traffic := { n.traffic with refused := n.traffic.refused + 1 } }
  else do
    let (after, sent) ← (n.onPeer index (·.noteRequest)).announceTo index count
    if sent.isSome then
      pure { after with traffic := { after.traffic with served := after.traffic.served + 1 } }
    else pure after

/-- What a refused vote means for the peer that sent it. -/
def onRejection (n : Node) (index : Nat) : Rejection → Node
  | .unknownVoter voter => n.onPeer index (·.askFor voter)
  | .unknownPayee (.collateral o) => n.onPeer index (·.askFor o)
  | .badSignature voter =>
    let n := if n.tracker.synced then
        n.onPeer index (·.punish n.setting.config.misbehaviourScore)
      else n
    n.onPeer index (·.askFor voter)
  | _ => n

/-- Takes a vote from a peer, unless the peer runs an old protocol. -/
def handleVote (n : Node) (index : Nat) (peer : Peer) (v : Vote) : Checked Node :=
  if peer.protocol < n.setting.config.network.activeProtocol then .ok n
  else do
    match ← n.admitVote v with
    | (n, .ok _) =>
      pure { n with
        relayed := n.relayed ++ [v.announcement]
        tracker := n.tracker.mark v.identity
        traffic := { n.traffic with admitted := n.traffic.admitted + 1 } }
    | (n, .error (.duplicate _)) =>
      pure { n with
        tracker := n.tracker.mark v.identity
        traffic := { n.traffic with duplicate := n.traffic.duplicate + 1 } }
    | (n, .error cause) =>
      pure ({ n with
        traffic := { n.traffic with rejected := n.traffic.rejected + 1 } }.onRejection index cause)

/-- Handles a message from a peer. Nothing is handled before the chain is complete. -/
def handle (n : Node) (index : Nat) (m : Message) : Checked Node :=
  if n.setting.config.liteMode || !n.tracker.chainSynced then .ok n
  else
    match n.peers[index]?, m with
    | some peer, .getVotes count => n.handleGetVotes index peer count
    | some peer, .vote v => n.handleVote index peer v
    | _, _ => .ok n

/-! ## The growing chain -/

/-- Casts and relays this node's own votes for a height above a new tip; also gives their number. -/
def newTip (n : Node) (tip : Height) : Checked (Node × Nat) :=
  match n.active with
  | none => .ok (n, 0)
  | some active =>
    if n.setting.config.liteMode then .ok (n, 0)
    else do
      let height ← add64 tip n.voteAhead
      match ← n.cast height active with
      | (n, .ok votes) =>
        pure ({ n with
          relayed := n.relayed ++ votes.map (·.announcement)
          traffic := { n.traffic with own := n.traffic.own + votes.length } }, votes.length)
      | (n, .error _) => pure (n, 0)

/-- Drops old votes; also gives their number. -/
def maintain (n : Node) : Checked (Node × Nat) := do
  let (n, dropped) ← n.clean
  pure (n, dropped.length)

end Node
end MasternodePayments
