import MasternodePayments.Ledger.Admission
import MasternodePayments.Proofs.Checked

/-!
# When a vote is admitted

`Ledger.Admits l s v a` lists what the checks ask of a vote that is admitted for the script and the
tier in `a`; the vote passes exactly if all of it holds (`check_eq_ok`). `admitVote_eq_ok` says what
becomes of the ledger then.
-/

namespace MasternodePayments

/-! ## The checks on a vote alone -/

namespace Setting

variable {s : Setting}

theorem window_eq_ok {tier : Tier} {tip first last : Height} :
    s.window tier tip = .ok (first, last) ↔
      ∃ span, s.config.scaledPopulation (s.registry.countInTier tier) = .ok span ∧
        add64 tip s.config.futureWindow = .ok last ∧ monus tip span = first := by
  simp only [window, bind_eq_ok, pure_eq_ok, Prod.mk.injEq]
  constructor
  · rintro ⟨span, hs, last', hl, hf, rfl⟩
    exact ⟨span, hs, hl, hf⟩
  · rintro ⟨span, hs, hl, hf⟩
    exact ⟨span, hs, last, hl, hf, rfl⟩

theorem checkWindow_eq_ok {height tip : Height} {tier : Tier} {u : Unit} :
    s.checkWindow height tier tip = .ok u ↔
      ∃ first last, s.window tier tip = .ok (first, last) ∧ first ≤ height ∧ height ≤ last := by
  simp only [checkWindow, bind_eq_ok, liftM_eq_ok, require_eq_ok, decide_eq_true_eq, Prod.exists]

theorem checkEligibility_eq_ok {voter : Masternode} {u : Unit} :
    s.checkEligibility voter = .ok u ↔
      s.minProtocol ≤ voter.protocol ∧
        s.withinLimit (s.registry.rank? voter.id s.minProtocol) = true := by
  simp only [checkEligibility, bind_eq_ok, require_eq_ok, decide_eq_true_eq]
  by_cases h : s.withinLimit (s.registry.rank? voter.id s.minProtocol) = true
  · simp [h, pure_eq_ok]
  · simp only [h, Bool.false_eq_true, ↓reduceIte, and_false, iff_false, not_exists, not_and]
    intro _ _
    split <;> simp [bind_eq_ok, reject]

end Setting

/-! ## Admission -/

namespace Ledger

/-- Everything that is asked of a vote that is admitted for the script and the tier in `a`. -/
structure Admits (l : Ledger) (s : Setting) (v : Vote) (a : Admission) : Prop where
  identity : a.identity = v.identity
  fresh : v.identity ∉ l.votes
  payee : s.resolve? v.payee = some (a.script, a.tier)
  voter : ∃ m, s.registry.find? v.voter = some m ∧ s.minProtocol ≤ m.protocol ∧
    s.withinLimit (s.registry.rank? m.id s.minProtocol) = true ∧
    v.isSignedBy m.operatorKey = true
  window : ∃ tip first last, s.chain.tip? = some tip ∧ s.window a.tier tip = .ok (first, last) ∧
    first ≤ v.height ∧ v.height ≤ last
  ballot : ⟨v.voter, a.tier, v.height⟩ ∉ l.ballots
  reference : (s.chain.hashAt? (s.reference v.height)).isSome = true

variable {l l' : Ledger} {s : Setting} {v : Vote} {a : Admission}

theorem check_eq_ok : l.check s v = .ok a ↔ l.Admits s v a := by
  simp only [check, bind_eq_ok, require_eq_ok, obtain?_eq_ok, pure_eq_ok,
    Setting.checkWindow_eq_ok, Setting.checkEligibility_eq_ok, Bool.not_eq_true', Bool.eq_false_iff,
    ne_eq, Std.ExtTreeMap.contains_iff_mem, Std.ExtTreeSet.contains_iff_mem]
  constructor
  · rintro ⟨-, hfresh, m, hm, ⟨script, tier⟩, hp, tip, htip, -, hw, -, ⟨hproto, hrank⟩, -, hb, -,
      hsig, -, href, rfl⟩
    obtain ⟨first, last, hw⟩ := hw
    exact ⟨rfl, hfresh, hp, ⟨m, hm, hproto, hrank, hsig⟩, ⟨tip, first, last, htip, hw⟩, hb, href⟩
  · rintro ⟨hid, hfresh, hp, ⟨m, hm, hproto, hrank, hsig⟩, ⟨tip, first, last, htip, hw⟩, hb, href⟩
    refine ⟨(), hfresh, m, hm, (a.script, a.tier), hp, tip, htip, (), ⟨first, last, hw⟩, (),
      ⟨hproto, hrank⟩, (), hb, (), hsig, (), href, ?_⟩
    rw [← hid]

theorem Admits.not_mem (h : l.Admits s v a) : a.identity ∉ l.votes := by
  rw [h.identity]
  exact h.fresh

theorem record_eq_ok : l.record v a = .ok l' ↔
    ∃ tally, (l.tallyAt v.height).add a.script a.tier 1 = .ok tally ∧
      { l with
        votes := l.votes.insert a.identity v
        ballots := l.ballots.insert ⟨v.voter, a.tier, v.height⟩
        tallies := l.tallies.insert v.height tally } = l' := by
  simp only [record, bind_eq_ok, pure_eq_ok]

theorem admitVote_eq_ok :
    l.admitVote s v = .ok l' ↔ ∃ a, l.Admits s v a ∧ l.record v a = .ok l' := by
  simp only [admitVote, bind_eq_ok, check_eq_ok, liftM_eq_ok]

end Ledger

/-! ## A sample

Masternodes that all sign with the same key. Its point is the neutral one, so that a single
signature is right for every message. -/

namespace Sample

def key : PublicKey := ⟨1 :: List.replicate 31 0, rfl⟩

def signature : Bytes := 1 :: List.replicate 63 0

def masternode (n : UInt32) : Masternode :=
  ⟨⟨.replicate 32 7, n⟩, Network.main.activeProtocol, key, .replicate 32 n.toUInt8, 1⟩

def keys : Ed25519.KeyPair := ⟨⟨.replicate 32 7, rfl⟩⟩

/-- A masternode that signs with a key pair of its own. -/
def signer : Masternode := { masternode 9 with operatorKey := keys.publicKey }

/-- A vote for a masternode by its collateral. -/
def vote (voter payee : UInt32) (height : Height) : Vote :=
  ⟨(masternode voter).id, height, .collateral (masternode payee).id, signature⟩

/-- A vote for the same masternode by its script. -/
def scriptVote (voter payee : UInt32) (height : Height) : Vote :=
  ⟨(masternode voter).id, height, .script (masternode payee).payout, signature⟩

/-- Some of these masternodes under a chain with the given tip. -/
def setting (config : Config) (ns : List UInt32) (tip : Height) : Setting where
  config := config
  chain := { tip := some tip, blockValue := 100 }
  registry := ⟨ns.map fun n => ⟨masternode n, true, 0⟩⟩
  schedule := ⟨[50]⟩

end Sample
end MasternodePayments
