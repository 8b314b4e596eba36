import MasternodePayments.Ledger.Answers

/-!
# Listings for operators

Who is scheduled to be paid around the tip, height by height.
-/

namespace MasternodePayments

def occursIn (part : List Char) : List Char → Bool
  | [] => part.isEmpty
  | c :: cs => part.isPrefixOf (c :: cs) || occursIn part cs

structure HeightPayments where
  height : Height
  payments : List ScheduledPayment
deriving DecidableEq

def HeightPayments.mentions (h : HeightPayments) (part : String) : Bool :=
  h.payments.any fun p => occursIn part.toList p.address.toList

namespace Ledger

/-- The payments expected at a height, those of the budget on superblocks. -/
def expectedPayments (l : Ledger) (s : Setting) (height : Height) : List ScheduledPayment :=
  if s.isSuperblock height then s.budget.payments height else l.payments height

/-- The line of a listing for a height; a single unknown payee where nobody is expected. -/
def listingAt (l : Ledger) (s : Setting) (height : Height) : HeightPayments :=
  let payments := l.expectedPayments s height
  ⟨height, if payments.isEmpty then [.unknown] else payments⟩

/-- The payments from `back` heights behind the tip up to the end of the vote window, the end left
out, and only the heights with an address that contains `filter` if that is given. -/
def listing? (l : Ledger) (s : Setting) (back : UInt64) (filter : Option String) :
    Checked (Option (List HeightPayments)) :=
  match s.chain.tip? with
  | none => .ok none
  | some tip => do
    let first := monus tip back
    let last ← add64 tip s.config.futureWindow
    let lines := (heightsFrom first (last.toNat - first.toNat)).map (l.listingAt s)
    pure (some (lines.filter fun line => filter.all line.mentions))

/-- The voted winner of each tier at the next height, tiers without one left out. -/
def nextWinners? (l : Ledger) (s : Setting) : Checked (Option (List (Tier × Script))) :=
  match s.chain.tip? with
  | none => .ok none
  | some tip => do
    let height ← add64 tip 1
    let winners := s.schedule.tiers.filterMap fun tier =>
      (l.winner? height tier).map (tier, ·)
    pure (some winners)

end Ledger
end MasternodePayments
