import MasternodePayments.Chain.Basic
import MasternodePayments.Proofs.Snapshot.Grammar

/-!
# Block hashes and the heights they belong to

A chain answers which hash the block of a height has and at which height the block with a hash lies.
What it knows comes from two kinds of `Change`: the tip moves, or a hash is recorded for a height
and takes the place of the derived one. The two answers are compared for chains after any changes
(`Chain.lookups_invert`).

A hash that a height has is found at that height. The way back fails for the derived hash of a
height that another hash was recorded for: it is still found there (`Chain.not_lookups_invert`).

* `Chain.After`: what is recorded and where the tip is, after some changes.
-/

namespace MasternodePayments

namespace Chain

/-! ## Changes -/

/-- A change of what a chain knows of its blocks. -/
inductive Change where
  | tip (height : Height)
  | block (height : Height) (hash : Hash)
deriving DecidableEq

def Change.tip? : Change → Option Height
  | tip height => some height
  | block .. => none

def Change.block? : Change → Option (Height × Hash)
  | tip _ => none
  | block height hash => some (height, hash)

def change (c : Chain) : Change → Chain
  | .tip height => c.setTip height
  | .block height hash => c.record height hash

/-- The chain after some changes, without blocks at first. -/
def grown (blockValue : Amount) (es : List Change) : Chain :=
  es.foldl change { blockValue := blockValue }

/-- The last tip is at the height or above it. -/
def Reaches (es : List Change) (height : Height) : Prop :=
  ∃ tip, (es.filterMap Change.tip?).getLast? = some tip ∧ height ≤ tip

/-- The hash is the last one that was recorded for the height. -/
def Records (es : List Change) (height : Height) (hash : Hash) : Prop :=
  LastEntry (es.filterMap Change.block?) height hash

/-- The height has a derived hash, but another one was recorded for it. -/
def Superseded (es : List Change) (height : Height) (hash : Hash) : Prop :=
  (∃ own, Records es height own) ∧ Reaches es height ∧ derivedHash height = hash

theorem Records.mem {es : List Change} {height : Height} {hash : Hash}
    (h : Records es height hash) : .block height hash ∈ es := by
  obtain ⟨before, after, heq, -⟩ := h
  have hentry : (height, hash) ∈ es.filterMap Change.block? := by simp [heq]
  obtain ⟨e, he, hblock⟩ := List.mem_filterMap.1 hentry
  cases e with
  | tip tip => cases hblock
  | block height' hash' =>
    cases hblock
    exact he

/-- No two heights have a hash in common, be it recorded or derived. -/
structure Distinct (es : List Change) : Prop where
  recorded : ∀ height other hash, Records es height hash → Records es other hash → height = other
  derived : ∀ height other, Reaches es height → Reaches es other →
    derivedHash height = derivedHash other → height = other
  apart : ∀ height other, Reaches es height → ¬Records es other (derivedHash height)

/-- What a chain holds after some changes. -/
structure After (c : Chain) (es : List Change) : Prop where
  tip : c.tip = (es.filterMap Change.tip?).getLast?
  recorded : HoldsLast c.recorded (es.filterMap Change.block?)

variable {c : Chain} {es : List Change} {height : Height} {hash : Hash}

theorem After.change (h : c.After es) (e : Change) : (c.change e).After (es ++ [e]) := by
  cases e with
  | tip height =>
    constructor
    · simp [Chain.change, setTip, Change.tip?]
    · rw [List.filterMap_append]
      show HoldsLast c.recorded (es.filterMap Change.block? ++ [])
      rw [List.append_nil]
      exact h.recorded
  | block height hash =>
    constructor
    · simpa [Chain.change, record, Change.tip?] using h.tip
    · rw [List.filterMap_append]
      exact h.recorded.insert height hash

/-- The induction is on the last change. -/
theorem after_grown (blockValue : Amount) (es : List Change) :
    (grown blockValue es).After es := by
  induction es using List.reverseRecOn with
  | nil => exact ⟨rfl, by simp [grown, HoldsLast, LastEntry]⟩
  | append_singleton es e ih =>
    rw [grown, List.foldl_append]
    exact ih.change e

theorem After.recorded_iff (h : c.After es) :
    c.recorded[height]? = some hash ↔ Records es height hash :=
  h.recorded height hash

theorem After.covers_iff (h : c.After es) : c.covers height = true ↔ Reaches es height := by
  unfold covers Reaches
  rw [h.tip]
  cases (es.filterMap Change.tip?).getLast? <;> simp

/-! ## The hash of a height -/

theorem After.hashAt?_eq_some (h : c.After es) :
    c.hashAt? height = some hash ↔ Records es height hash ∨
      (∀ own, ¬Records es height own) ∧ Reaches es height ∧ derivedHash height = hash := by
  simp only [← h.recorded_iff, ← h.covers_iff]
  unfold hashAt?
  cases c.recorded[height]? with
  | some own => simp
  | none => simp

/-! ## The height of a hash -/

theorem of_searchDown {n : Nat} (hn : n < UInt64.size) (h : searchDown hash n = some height) :
    height.toNat ≤ n ∧ derivedHash height = hash := by
  induction n with
  | zero =>
    unfold searchDown at h
    split at h
    · next hhash =>
      cases h
      exact ⟨Nat.le_refl 0, hhash⟩
    · cases h
  | succ n ih =>
    unfold searchDown at h
    split at h
    · next hhash =>
      cases h
      exact ⟨Nat.le_of_eq (UInt64.toNat_ofNat_of_lt' hn), hhash⟩
    · obtain ⟨hle, hhash⟩ := ih (by omega) h
      exact ⟨by omega, hhash⟩

theorem exists_searchDown {n : Nat} (hle : height.toNat ≤ n) :
    ∃ found, searchDown (derivedHash height) n = some found := by
  induction n with
  | zero =>
    have hzero : height = 0 := UInt64.toNat_inj.1 (Nat.le_zero.1 hle)
    exact ⟨0, by simp [searchDown, hzero]⟩
  | succ n ih =>
    unfold searchDown
    split
    · exact ⟨_, rfl⟩
    · next hne =>
      -- A height that is the topmost one would have been found.
      have htop : height.toNat ≠ n + 1 := by
        intro h
        rw [← h, UInt64.ofNat_toNat] at hne
        exact hne rfl
      exact ih (by omega)

theorem After.records_of_find? (ha : c.After es) {entry : Height × Hash}
    (h : c.recorded.toList.find? (fun e => e.2 == hash) = some entry) :
    Records es entry.1 hash := by
  obtain rfl : entry.2 = hash := by simpa using List.find?_some h
  exact ha.recorded_iff.1
    (Std.ExtTreeMap.mem_toList_iff_getElem?_eq_some.1 (List.mem_of_find?_eq_some h))

theorem After.not_records_of_find? (ha : c.After es)
    (h : c.recorded.toList.find? (fun e => e.2 == hash) = none) (other : Height) :
    ¬Records es other hash := by
  intro hother
  have hentry := Std.ExtTreeMap.mem_toList_iff_getElem?_eq_some.2 (ha.recorded_iff.2 hother)
  exact absurd (List.find?_eq_none.1 h _ hentry) (by simp)

/-- A height that is found for a hash had it recorded, or has it as its derived one. -/
theorem After.of_heightOf? (ha : c.After es) (h : c.heightOf? hash = some height) :
    Records es height hash ∨
      (∀ other, ¬Records es other hash) ∧ Reaches es height ∧ derivedHash height = hash := by
  unfold heightOf? at h
  split at h
  · next entry hfind =>
    cases h
    exact .inl (ha.records_of_find? hfind)
  · next hfind =>
    obtain ⟨tip, htip, hsearch⟩ := Option.bind_eq_some_iff.1 h
    obtain ⟨hle, hhash⟩ := of_searchDown tip.toNat_lt_size hsearch
    exact .inr ⟨ha.not_records_of_find? hfind,
      ⟨tip, ha.tip ▸ htip, UInt64.le_iff_toNat_le.2 hle⟩, hhash⟩

/-- What was recorded or derived for some height is found at some height. -/
theorem After.exists_heightOf? (ha : c.After es)
    (h : Records es height hash ∨ Reaches es height ∧ derivedHash height = hash) :
    ∃ found, c.heightOf? hash = some found := by
  unfold heightOf?
  split
  · exact ⟨_, rfl⟩
  · next hfind =>
    obtain hrecorded | ⟨⟨tip, htip, hle⟩, rfl⟩ := h
    · exact absurd hrecorded (ha.not_records_of_find? hfind height)
    · rw [ha.tip, htip]
      exact exists_searchDown hle

/-- Where no two heights have a hash in common, a hash is found at the height it belongs to. -/
theorem After.heightOf?_eq_some (ha : c.After es) (hd : Distinct es) :
    c.heightOf? hash = some height ↔
      Records es height hash ∨ Reaches es height ∧ derivedHash height = hash := by
  constructor
  · intro h
    exact (ha.of_heightOf? h).imp_right And.right
  · intro h
    obtain ⟨found, hfound⟩ := ha.exists_heightOf? h
    obtain rfl : found = height := by
      rcases ha.of_heightOf? hfound, h with ⟨hf | ⟨hnone, hf, hf'⟩, hh | ⟨hh, hh'⟩⟩
      · exact hd.recorded _ _ _ hf hh
      · exact absurd (hh' ▸ hf) (hd.apart _ _ hh)
      · exact absurd hh (hnone _)
      · exact hd.derived _ _ hf hh (hf'.trans hh'.symm)
    exact hfound

/-- What is found for a hash has it, unless the hash was superseded there. -/
theorem After.heightOf?_iff (ha : c.After es) (hd : Distinct es) :
    c.heightOf? hash = some height ↔
      c.hashAt? height = some hash ∨ Superseded es height hash := by
  rw [ha.heightOf?_eq_some hd, ha.hashAt?_eq_some]
  constructor
  · rintro (h | ⟨hreach, hhash⟩)
    · exact .inl (.inl h)
    · by_cases hown : ∃ own, Records es height own
      · exact .inr ⟨hown, hreach, hhash⟩
      · exact .inl (.inr ⟨not_exists.1 hown, hreach, hhash⟩)
  · rintro ((h | ⟨-, h⟩) | ⟨-, h⟩)
    · exact .inl h
    · exact .inr h
    · exact .inr h

/-- **Block hashes and heights invert each other, superseded hashes apart.** After any changes that
give no two heights a hash in common, a height has the hash that was last recorded for it, or else
the derived one. A hash is found at the height that has it, and at the height whose derived hash it
was before another one was recorded. So what is found always has the hash if and only if no hash was
recorded up to the tip. -/
theorem lookups_invert (blockValue : Amount) (hd : Distinct es) :
    (∀ height hash, (grown blockValue es).hashAt? height = some hash ↔
      Records es height hash ∨
        (∀ own, ¬Records es height own) ∧ Reaches es height ∧ derivedHash height = hash) ∧
    (∀ height hash, (grown blockValue es).heightOf? hash = some height ↔
      (grown blockValue es).hashAt? height = some hash ∨ Superseded es height hash) ∧
    ((∀ height hash, (grown blockValue es).heightOf? hash = some height →
        (grown blockValue es).hashAt? height = some hash) ↔
      ∀ height, Reaches es height → ∀ own, ¬Records es height own) := by
  have ha := after_grown blockValue es
  refine ⟨fun _ _ => ha.hashAt?_eq_some, fun _ _ => ha.heightOf?_iff hd, ?_⟩
  constructor
  · intro hlaw height hreach own hown
    have hfound := (ha.heightOf?_iff hd).2 (.inr ⟨⟨own, hown⟩, hreach, rfl⟩)
    rcases ha.hashAt?_eq_some.1 (hlaw height _ hfound) with hrecorded | ⟨hnone, -⟩
    · exact hd.apart height height hreach hrecorded
    · exact hnone own hown
  · intro hclear height hash h
    rcases (ha.heightOf?_iff hd).1 h with h | ⟨⟨own, hown⟩, hreach, -⟩
    · exact h
    · exact absurd hown (hclear height hreach own)

end Chain

/-! ## A hash that was superseded -/

namespace Sample

open Chain

/-- The tip is at height 1, and hashes are recorded for this height and for one above it. -/
def relabelled : List Change := [.tip 1, .block 1 (.replicate 32 5), .block 3 (.replicate 32 6)]

theorem reaches_relabelled {height : Height} (h : Reaches relabelled height) :
    height = 0 ∨ height = 1 := by
  obtain ⟨tip, htip, hle⟩ := h
  cases htip
  rw [UInt64.le_iff_toNat_le] at hle
  simp only [← UInt64.toNat_inj]
  show height.toNat = 0 ∨ height.toNat = 1
  have hone : height.toNat ≤ 1 := hle
  omega

theorem of_records_relabelled {height : Height} {hash : Hash}
    (h : Records relabelled height hash) :
    height = 1 ∧ hash = .replicate 32 5 ∨ height = 3 ∧ hash = .replicate 32 6 := by
  simpa [relabelled] using h.mem

theorem records_relabelled : Records relabelled 1 (.replicate 32 5) :=
  ⟨[], [(3, .replicate 32 6)], rfl, by decide⟩

theorem distinct_relabelled : Distinct relabelled where
  recorded height other hash h h' := by
    obtain ⟨rfl, rfl⟩ | ⟨rfl, rfl⟩ := of_records_relabelled h
    · obtain ⟨rfl, -⟩ | ⟨-, hsame⟩ := of_records_relabelled h'
      · rfl
      · exact absurd hsame (by decide)
    · obtain ⟨-, hsame⟩ | ⟨rfl, -⟩ := of_records_relabelled h'
      · exact absurd hsame (by decide)
      · rfl
  derived height other h h' := by
    obtain rfl | rfl := reaches_relabelled h <;> obtain rfl | rfl := reaches_relabelled h' <;>
      decide +kernel
  apart height other h h' := by
    obtain ⟨-, hsame⟩ | ⟨-, hsame⟩ := of_records_relabelled h' <;>
      obtain rfl | rfl := reaches_relabelled h <;>
      exact absurd hsame (by decide +kernel)

end Sample

namespace Chain

open Sample

/-- The hash that height 1 has now is found there, and the one that it lost is found there, too. -/
theorem lookups_invert_relabelled :
    (grown 0 relabelled).hashAt? 1 = some (.replicate 32 5) ∧
      (grown 0 relabelled).heightOf? (.replicate 32 5) = some 1 ∧
      (grown 0 relabelled).heightOf? (derivedHash 1) = some 1 := by
  obtain ⟨hhash, hfound, -⟩ := lookups_invert 0 distinct_relabelled
  have hone := (hhash 1 _).2 (.inl records_relabelled)
  exact ⟨hone, (hfound 1 _).2 (.inl hone),
    (hfound 1 _).2 (.inr ⟨⟨_, records_relabelled⟩, ⟨1, rfl, UInt64.le_refl 1⟩, rfl⟩)⟩

/-- **What is found for a hash need not have it**, though no two heights have one in common. -/
theorem not_lookups_invert : ¬∀ (blockValue : Amount) (es : List Change), Distinct es →
    ∀ height hash,
      ((grown blockValue es).heightOf? hash = some height →
        (grown blockValue es).hashAt? height = some hash) ∧
      ((grown blockValue es).hashAt? height = some hash →
        ∃ found, (grown blockValue es).heightOf? hash = some found ∧
          (grown blockValue es).hashAt? found = some hash) := by
  intro h
  have hfound : (grown 0 relabelled).heightOf? (derivedHash 1) = some 1 := by decide +kernel
  have hhash := (h 0 relabelled distinct_relabelled 1 (derivedHash 1)).1 hfound
  exact absurd hhash (by decide +kernel)

end Chain
end MasternodePayments
