import MasternodePayments.Network.Message

/-!
# Peers

A peer with everything that was sent to it or noted about it.
-/

namespace MasternodePayments

structure Peer where
  id : UInt64
  protocol : UInt32
  /-- It asked for the votes already. -/
  hasAsked : Bool := false
  announced : List Announcement := []
  messages : List Message := []
  /-- Its misbehaviour score, which wraps around. -/
  score : Int32 := 0
  /-- The masternodes that it was asked about. -/
  asked : List OutPoint := []
deriving DecidableEq

namespace Peer

/-- Announces votes to the peer and then tells it how many. -/
def sendAnnouncements (p : Peer) (announcements : List Announcement) : Peer :=
  { p with
    announced := p.announced ++ announcements
    messages := p.messages ++
      [.statusCount .masternodeWinners (UInt64.ofNat announcements.length)] }

def punish (p : Peer) (score : Int32) : Peer := { p with score := p.score + score }

def askFor (p : Peer) (o : OutPoint) : Peer := { p with asked := p.asked ++ [o] }

def noteRequest (p : Peer) : Peer := { p with hasAsked := true }

end Peer
end MasternodePayments
