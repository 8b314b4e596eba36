import MasternodePayments.Proofs.Ledger.Contents
import MasternodePayments.Validation

/-!
# What a block may mint

A block mints no more than is expected of it, unless its height excuses it. A block does not say its
height: it is that of its parent and one more, and a block whose parent is unknown counts as one of
height 0 (`Setting.heightAfter_of_orphan`). That height is at the start of a budget cycle, whatever
the length of a cycle, and it may be a superblock. So a parent that nobody knows excuses a block on
every node that is synchronising (`Setting.acceptsValue_of_orphan`).

* `Setting.acceptsValue_eq`: the verdict on a block of a given height.
-/

namespace MasternodePayments

namespace Setting

variable {s : Setting} {synced : Bool} {tip height : Height} {previous : Hash} {block : Block}

/-- Neither the tip nor any other block that can be found has the hash. -/
structure Orphan (s : Setting) (tip : Height) (previous : Hash) : Prop where
  not_tip : s.chain.hashAt? tip ≠ some previous
  not_found : s.chain.heightOf? previous = none

/-- The heights whose blocks may mint any amount: the first ones of every budget cycle as long as a
node is synchronising, and superblocks once it is done. -/
def Excuses (s : Setting) (synced : Bool) (height : Height) : Prop :=
  if synced then s.isSuperblock height = true
  else height.toNat % max s.config.network.budgetCycle.toNat 1 < superblockGrace.toNat

instance : Decidable (s.Excuses synced height) :=
  inferInstanceAs (Decidable (if synced then _ else _))

theorem excuses_synced : s.Excuses true height ↔ s.isSuperblock height = true := Iff.rfl

theorem excuses_syncing : s.Excuses false height ↔
    height % max s.config.network.budgetCycle 1 < superblockGrace := by
  rw [UInt64.lt_iff_toNat_lt, UInt64.toNat_mod, UInt64.toNat_max]
  rfl

/-- The start of the first cycle is the start of a cycle. -/
theorem excuses_zero : s.Excuses synced 0 ↔ synced = false ∨ s.isSuperblock 0 = true := by
  cases synced with
  | true => simp [excuses_synced]
  | false => simp [Excuses, superblockGrace]

/-- **The verdict on a block of a given height.** -/
theorem acceptsValue_eq (htip : s.chain.tip? = some tip)
    (hheight : s.heightAfter tip block.previous = .ok height) (synced : Bool)
    (expected minted : Amount) :
    s.acceptsValue synced block expected minted =
      .ok (decide (minted ≤ expected ∨ s.Excuses synced height)) := by
  simp only [acceptsValue, htip, hheight, ok_bind, Bool.decide_or]
  cases synced with
  | true => simp [excuses_synced, Bool.or_comm, pure, Except.pure]
  | false => simp [excuses_syncing, Bool.or_comm, pure, Except.pure]

theorem heightAfter_of_orphan (h : s.Orphan tip previous) :
    s.heightAfter tip previous = .ok 0 := by
  simp only [heightAfter, h.not_tip, h.not_found, if_false]

/-- **A block whose parent is unknown** always gets a verdict. It may mint more than is expected
exactly if the node is synchronising or height 0 is an active superblock; on all other nodes the
amount alone decides. -/
theorem acceptsValue_of_orphan (htip : s.chain.tip? = some tip)
    (horphan : s.Orphan tip block.previous) (synced : Bool) :
    (∀ expected minted, ∃ verdict, s.acceptsValue synced block expected minted = .ok verdict ∧
      (verdict = true ↔ minted ≤ expected ∨ synced = false ∨ s.isSuperblock 0 = true)) ∧
    ((∀ expected minted, s.acceptsValue synced block expected minted =
        .ok (decide (minted ≤ expected))) ↔
      synced = true ∧ s.isSuperblock 0 = false) := by
  have hverdict := acceptsValue_eq htip (heightAfter_of_orphan horphan) synced
  simp only [excuses_zero] at hverdict
  refine ⟨fun expected minted => ⟨_, hverdict expected minted, decide_eq_true_iff⟩, ?_⟩
  constructor
  · intro h
    -- The least amount that is too much tells the excused blocks from the others.
    have hone := (hverdict 0 1).symm.trans (h 0 1)
    simpa using hone
  · rintro ⟨rfl, hzero⟩ expected minted
    rw [hverdict, hzero]
    simp

end Setting

/-! ## A block from nowhere -/

namespace Sample

/-- Block 0 is the tip, and its hash is recorded. -/
def young : Setting :=
  let s := setting {} [] 0
  { s with chain := s.chain.record 0 (.replicate 32 1) }

/-- A block on top of one that nobody knows. -/
def fromNowhere : Block := ⟨.replicate 32 2, []⟩

theorem orphan_fromNowhere : young.Orphan 0 fromNowhere.previous := by
  constructor <;> decide +kernel

end Sample

namespace Setting

open Sample

/-- While it is synchronising, a node accepts that such a block mints five times what is expected;
once it is done, it does not. -/
theorem acceptsValue_of_orphan_fromNowhere :
    young.acceptsValue false fromNowhere 100 500 = .ok true ∧
      young.acceptsValue true fromNowhere 100 500 = .ok false := by
  obtain ⟨hsyncing, -⟩ := acceptsValue_of_orphan rfl orphan_fromNowhere false
  obtain ⟨-, hsynced⟩ := acceptsValue_of_orphan rfl orphan_fromNowhere true
  obtain ⟨verdict, hverdict, hiff⟩ := hsyncing 100 500
  obtain rfl := hiff.2 (.inr (.inl rfl))
  exact ⟨hverdict, hsynced.2 ⟨rfl, rfl⟩ 100 500⟩

/-- **An unknown parent can excuse overminting.** -/
theorem not_orphan_bounded : ¬∀ (s : Setting) (tip : Height) (synced : Bool) (block : Block)
    (expected minted : Amount), s.chain.tip? = some tip → s.Orphan tip block.previous →
      s.acceptsValue synced block expected minted = .ok (decide (minted ≤ expected)) := by
  intro h
  have hexcused : young.acceptsValue false fromNowhere 100 500 = .ok true := by decide +kernel
  have hbounded := h young 0 false fromNowhere 100 500 rfl orphan_fromNowhere
  rw [hexcused] at hbounded
  exact absurd hbounded (by decide)

end Setting
end MasternodePayments
