import MasternodePayments.Codec.Basic
import MasternodePayments.Ledger.Snapshot

/-!
# The binary form of a snapshot

Votes and tallies are written as sequences of entries, each with its key, in the order of the keys.
When they are read, a key that comes again replaces the earlier entry, and a key need not agree with
what stands under it.
-/

namespace MasternodePayments.Codec

/-- A script, byte by byte. -/
def script : Codec Script := sequence byte

def outPoint : Codec OutPoint :=
  (pair (fixedBytes 32) word32).transport (fun (txid, vout) => ⟨txid, vout⟩)
    fun o => (o.txid, o.vout)

/-- A payee: alternative 0 is a script, alternative 1 an outpoint. -/
def payee : Codec Payee :=
  (either script outPoint).transport
    (fun | .inl s => .script s | .inr o => .collateral o)
    fun | .script s => .inl s | .collateral o => .inr o

def vote : Codec Vote :=
  (pair outPoint (pair word64 (pair payee blob))).transport
    (fun (voter, height, payee, signature) => ⟨voter, height, payee, signature⟩)
    fun v => (v.voter, v.height, v.payee, v.signature)

def candidate : Codec Candidate :=
  (pair script (pair word32 word32)).transport
    (fun (script, tier, votes) => ⟨script, tier, votes⟩)
    fun c => (c.script, c.tier, c.votes)

def tally : Codec Tally :=
  (pair word64 (sequence candidate)).transport
    (fun (height, candidates) => ⟨height, candidates⟩)
    fun t => (t.height, t.candidates)

/-- A snapshot as its entries: the votes by identity, then the tallies by height. -/
def entries : Codec (List (Hash × Vote) × List (Height × Tally)) :=
  pair (sequence (pair (fixedBytes 32) vote)) (sequence (pair word64 tally))

def snapshot : Codec Snapshot :=
  entries.transport
    (fun (votes, tallies) => ⟨.ofList votes, .ofList tallies⟩)
    fun s => (s.votes.toList, s.tallies.toList)

end MasternodePayments.Codec
