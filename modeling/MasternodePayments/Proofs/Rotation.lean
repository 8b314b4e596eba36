import Mathlib.Data.List.Rotate
import MasternodePayments.Proofs.Proposals

/-!
# The payment queue is fair

The enabled masternodes of a tier wait in a queue: who was paid longest ago is first, and of two
that were paid at one height, or never, the one that was registered first. Paying the first one at a
height above all others moves it to the end and leaves the rest of the queue as it is
(`Registry.Queue.markPaid`). So the queue goes round, and in as many payments as it has members each
of them is paid once (`Registry.paidInTurn_fair`).

* `GoesRound`: what is known of a list that repeats another one.
* `Registry.Queue`: the queue of a tier. There is one (`Registry.exists_queue`), and its head is
  paid next (`Registry.Queue.nextInQueue?_eq`).
* `Registry.Queue.goesRound_paidInTurn`: who is paid after so many payments.
-/

namespace MasternodePayments

/-! ## Going round -/

/-- The list `xs` has so many members and repeats those of `names` in their order. -/
def GoesRound {α : Type} (names : List α) (count : Nat) (xs : List α) : Prop :=
  ∀ i, xs[i]? = if i < count then names[i % names.length]? else none

namespace GoesRound

variable {α : Type} {names xs : List α} {count : Nat}

theorem length_eq (h : GoesRound names count xs) (hne : names ≠ []) : xs.length = count := by
  refine Nat.le_antisymm (List.getElem?_eq_none_iff.1 ?_) (Nat.le_of_not_lt fun hlt => ?_)
  · simp [h count]
  · have hsome : xs.length % names.length < names.length :=
      Nat.mod_lt _ (List.length_pos_iff.2 hne)
    have hend := h xs.length
    simp [hlt, hsome] at hend

theorem take_eq (h : GoesRound names count xs) : xs.take names.length = names.take count := by
  refine List.ext_getElem? fun i => ?_
  rw [List.getElem?_take, List.getElem?_take, h]
  by_cases hi : i < names.length
  · simp [hi, Nat.mod_eq_of_lt hi]
  · simp [hi]

theorem repeats (h : GoesRound names count xs) {i : Nat} (hi : i + names.length < count) :
    xs[i + names.length]? = xs[i]? := by
  rw [h, h, if_pos hi, if_pos (by omega), Nat.add_mod_right]

/-- From any place on, one round is the list turned to that place. -/
theorem round_eq (h : GoesRound names count xs) {start : Nat}
    (hstart : start + names.length ≤ count) :
    (xs.drop start).take names.length = names.rotate start := by
  refine List.ext_getElem? fun i => ?_
  rw [List.getElem?_take, List.getElem?_drop, h]
  by_cases hi : i < names.length
  · rw [if_pos hi, if_pos (by omega), List.getElem?_rotate hi, Nat.add_comm]
  · rw [if_neg hi, List.getElem?_eq_none (by simpa using hi)]

theorem mem (h : GoesRound names count xs) {x : α} (hx : x ∈ xs) : x ∈ names := by
  obtain ⟨i, hi⟩ := List.mem_iff_getElem?.1 hx
  rw [h] at hi
  split at hi
  · exact List.mem_of_getElem? hi
  · cases hi

end GoesRound

namespace Registry

variable {r : Registry} {tier : Tier} {a b e : Registration} {queue rest : List Registration}
  {height : Height} {heights : List Height}

/-! ## The order of the queue -/

/-- The place of a masternode in the order of registration. -/
def place (r : Registry) (e : Registration) : Nat := (r.entries.map (·.node.id)).idxOf e.node.id

/-- The masternode `a` was paid at a lower height than `b`, or at the same height and was registered
before it. -/
def PaidBefore (r : Registry) (a b : Registration) : Prop :=
  a.lastPaid.toNat < b.lastPaid.toNat ∨
    a.lastPaid.toNat = b.lastPaid.toNat ∧ r.place a < r.place b

instance : Decidable (r.PaidBefore a b) := inferInstanceAs (Decidable (_ ∨ _))

/-- The enabled masternodes of a tier in the order in which they were paid. -/
structure Queue (r : Registry) (tier : Tier) (queue : List Registration) : Prop where
  members : queue.Perm (r.enabledInTier tier)
  ordered : queue.Pairwise r.PaidBefore

section
variable (hids : (r.entries.map (·.node.id)).Nodup)
include hids

theorem pairwise_place : r.entries.Pairwise fun a b => r.place a < r.place b := by
  have hplace : ∀ (i : Nat) (hi : i < r.entries.length), r.place r.entries[i] = i := by
    intro i hi
    have h := hids.idxOf_getElem i (by simpa using hi)
    simpa [place] using h
  rw [List.pairwise_iff_getElem]
  intro i j hi hj hij
  rw [hplace, hplace]
  exact hij

theorem pairwise_place_enabledInTier :
    (r.enabledInTier tier).Pairwise fun a b => r.place a < r.place b :=
  (pairwise_place hids).filter _

/-- There is a queue: the masternodes sorted by the heights and the places. -/
theorem exists_queue (tier : Tier) : ∃ queue, r.Queue tier queue := by
  let le (a b : Registration) : Bool := decide ¬r.PaidBefore b a
  have le_iff : ∀ a b, le a b = true ↔ ¬r.PaidBefore b a := fun _ _ => decide_eq_true_iff
  have hsorted : ((r.enabledInTier tier).mergeSort le).Pairwise fun a b => le a b = true := by
    apply List.pairwise_mergeSort
    · intro a b c hab hbc
      simp only [le_iff, PaidBefore] at hab hbc ⊢
      omega
    · intro a b
      simp only [le_iff, PaidBefore, Bool.or_eq_true]
      omega
  have hperm := List.mergeSort_perm (r.enabledInTier tier) le
  have hdistinct : ((r.enabledInTier tier).mergeSort le).Pairwise
      fun a b => r.place a ≠ r.place b :=
    hperm.symm.pairwise ((pairwise_place_enabledInTier hids).imp Nat.ne_of_lt) Ne.symm
  refine ⟨_, hperm, (hsorted.and hdistinct).imp fun {a b} h => ?_⟩
  obtain ⟨hle, hne⟩ := h
  simp only [le_iff, PaidBefore] at hle ⊢
  omega

/-- **The head of the queue** is paid next. -/
theorem Queue.nextInQueue?_eq (hq : r.Queue tier (e :: rest)) :
    r.nextInQueue? tier = some e.node := by
  have hcount : r.countInTier tier = rest.length + 1 := hq.members.length_eq.symm
  cases hnext : r.nextInQueue? tier with
  | none =>
    rw [nextInQueue?_eq_none] at hnext
    omega
  | some m =>
    obtain ⟨before, x, after, hx, rfl, hbefore, hafter⟩ := comesNext_of_nextInQueue? hnext
    have hmember : e ∈ before ++ x :: after := hx ▸ hq.members.mem_iff.1 List.mem_cons_self
    have hqueued : x ∈ e :: rest := hq.members.mem_iff.2 (hx ▸ by simp)
    have hplaces : (r.enabledInTier tier).Pairwise (r.place · < r.place ·) :=
      pairwise_place_enabledInTier hids
    rw [hx] at hplaces
    -- Nobody in the tier was paid before `x`, so the head of the queue is `x` itself.
    have hfirst : ¬r.PaidBefore e x := by
      simp only [List.mem_append, List.mem_cons] at hmember
      unfold PaidBefore
      rcases hmember with he | rfl | he
      · have hlt := UInt64.lt_iff_toNat_lt.1 (hbefore e he)
        omega
      · omega
      · have hle := UInt64.le_iff_toNat_le.1 (hafter e he)
        have hlt : r.place x < r.place e :=
          (List.pairwise_cons.1 (List.pairwise_append.1 hplaces).2.1).1 e he
        omega
    rcases List.mem_cons.1 hqueued with rfl | hrest
    · rfl
    · exact absurd ((List.pairwise_cons.1 hq.ordered).1 x hrest) hfirst

end

/-! ## A payment -/

/-- The registration after the masternode with an identity was paid. -/
def paidAt (id : MasternodeId) (height : Height) (e : Registration) : Registration :=
  if e.node.id = id then { e with lastPaid := height } else e

@[simp] theorem node_paidAt (id : MasternodeId) (height : Height) (e : Registration) :
    (paidAt id height e).node = e.node := by
  unfold paidAt
  split <;> rfl

@[simp] theorem enabled_paidAt (id : MasternodeId) (height : Height) (e : Registration) :
    (paidAt id height e).enabled = e.enabled := by
  unfold paidAt
  split <;> rfl

theorem paidAt_of_ne {id : MasternodeId} (h : e.node.id ≠ id) : paidAt id height e = e := if_neg h

/-- Others than the masternode that is paid stay as they are. -/
theorem map_paidAt_of_not_mem {entries : List Registration} {id : MasternodeId}
    (h : id ∉ entries.map (·.node.id)) : entries.map (paidAt id height) = entries := by
  refine (List.map_congr_left fun x hx => ?_).trans (List.map_id _)
  exact paidAt_of_ne fun hid => h (List.mem_map.2 ⟨x, hx, hid⟩)

/-- If no other masternode has its identity, the first one that has it is the one to be paid. -/
theorem modify_findIdx {entries : List Registration} {id : MasternodeId}
    (hids : (entries.map (·.node.id)).Nodup) :
    entries.modify (entries.findIdx (·.node.id == id)) (fun e => { e with lastPaid := height }) =
      entries.map (paidAt id height) := by
  induction entries with
  | nil => rfl
  | cons e entries ih =>
    rw [List.map_cons, List.nodup_cons] at hids
    by_cases he : e.node.id = id
    · rw [List.map_cons, map_paidAt_of_not_mem (he ▸ hids.1)]
      simp [List.findIdx_cons, he, paidAt]
    · have hother : (e.node.id == id) = false := by simpa using he
      simp [List.findIdx_cons, hother, paidAt_of_ne he, ih hids.2]

section
variable (hids : (r.entries.map (·.node.id)).Nodup)
include hids

theorem entries_markPaid (id : MasternodeId) (height : Height) :
    (r.markPaid id height).entries = r.entries.map (paidAt id height) := modify_findIdx hids

theorem ids_markPaid (id : MasternodeId) (height : Height) :
    (r.markPaid id height).entries.map (·.node.id) = r.entries.map (·.node.id) := by
  simp [entries_markPaid hids, Function.comp_def]

theorem place_markPaid (id : MasternodeId) (height : Height) (e : Registration) :
    (r.markPaid id height).place e = r.place e := by
  rw [place, place, ids_markPaid hids]

theorem enabledInTier_markPaid (id : MasternodeId) (height : Height) (tier : Tier) :
    (r.markPaid id height).enabledInTier tier =
      (r.enabledInTier tier).map (paidAt id height) := by
  simp [enabledInTier, entries_markPaid hids, List.filter_map, Function.comp_def]

theorem Queue.nodup_ids (hq : r.Queue tier queue) : (queue.map (·.node.id)).Nodup :=
  ((hq.members.map _).nodup_iff).2 (hids.sublist (List.filter_sublist.map _))

/-- **Paying the head of the queue** at a height above all others moves it to the end. -/
theorem Queue.markPaid (hq : r.Queue tier (e :: rest))
    (habove : ∀ x ∈ rest, x.lastPaid < height) :
    (r.markPaid e.node.id height).Queue tier (rest ++ [paidAt e.node.id height e]) := by
  have hnodup := hq.nodup_ids hids
  rw [List.map_cons, List.nodup_cons] at hnodup
  have hrest : rest.map (paidAt e.node.id height) = rest := map_paidAt_of_not_mem hnodup.1
  constructor
  case members =>
    have hmap := hq.members.map (paidAt e.node.id height)
    rw [List.map_cons, hrest, ← enabledInTier_markPaid hids] at hmap
    exact List.perm_append_comm.trans hmap
  case ordered =>
    refine List.pairwise_append.2 ⟨?_, List.pairwise_singleton _ _, ?_⟩
    · refine (List.pairwise_cons.1 hq.ordered).2.imp fun {a b} hab => ?_
      unfold PaidBefore at hab ⊢
      rwa [place_markPaid hids, place_markPaid hids]
    · intro x hx y hy
      obtain rfl := List.mem_singleton.1 hy
      have hlast : (paidAt e.node.id height e).lastPaid = height := by simp [paidAt]
      have hlt := UInt64.lt_iff_toNat_lt.1 (habove x hx)
      unfold PaidBefore
      rw [hlast]
      omega

end

/-! ## Payments in turn -/

/-- Whom the queue of a tier pays if, at each of the heights in turn, the masternode that is next is
paid. -/
def paidInTurn (r : Registry) (tier : Tier) : List Height → List Masternode
  | [] => []
  | height :: heights =>
    match r.nextInQueue? tier with
    | some m => m :: (r.markPaid m.id height).paidInTurn tier heights
    | none => r.paidInTurn tier heights

/-- **Who is paid after so many payments**: the queue goes round. The induction is on the heights,
and every payment leaves the queue that was there before, turned by one place. -/
theorem Queue.goesRound_paidInTurn (hids : (r.entries.map (·.node.id)).Nodup)
    (hq : r.Queue tier queue) (hne : queue ≠ []) (hheights : heights.Pairwise (· < ·))
    (habove : ∀ e ∈ queue, ∀ height ∈ heights, e.lastPaid < height) :
    GoesRound (queue.map (·.node)) heights.length (r.paidInTurn tier heights) := by
  induction heights generalizing r queue with
  | nil =>
    intro i
    rfl
  | cons height heights ih =>
    obtain ⟨e, rest, rfl⟩ := List.exists_cons_of_ne_nil hne
    rw [List.pairwise_cons] at hheights
    have hnext := hq.nextInQueue?_eq hids
    have hturned := hq.markPaid hids fun x hx => habove x (.tail _ hx) height List.mem_cons_self
    have hlater : ∀ x ∈ rest ++ [paidAt e.node.id height e], ∀ h ∈ heights, x.lastPaid < h := by
      intro x hx h hh
      rcases List.mem_append.1 hx with hx | hx
      · exact habove x (.tail _ hx) h (.tail _ hh)
      · obtain rfl := List.mem_singleton.1 hx
        simpa [paidAt] using hheights.1 h hh
    have hround := ih (by rwa [ids_markPaid hids]) hturned (by simp) hheights.2 hlater
    intro i
    simp only [paidInTurn, hnext]
    cases i with
    | zero => simp
    | succ i =>
      have hturn : (rest ++ [paidAt e.node.id height e]).map (·.node) =
          ((e :: rest).map (·.node)).rotate 1 := by simp
      have hpos : i % ((e :: rest).map (·.node)).length < ((e :: rest).map (·.node)).length :=
        Nat.mod_lt _ (by simp)
      rw [hturn] at hround
      rw [List.getElem?_cons_succ, hround, List.length_rotate, List.getElem?_rotate hpos,
        Nat.mod_add_mod]
      simp

/-- **The payment queue is fair.** The heights rise, and are above those at which the enabled
masternodes of a tier were paid before. Then somebody is paid at each of them. The first round goes
by the height of the last payment and then by the order of registration, and every later round
repeats it; among as many payments in a row as the tier has enabled masternodes, each of these is
paid once, and nobody else ever is. -/
theorem paidInTurn_fair (r : Registry) (tier : Tier) (heights : List Height)
    (hids : (r.entries.map (·.node.id)).Nodup) (hcount : 0 < r.countInTier tier)
    (hheights : heights.Pairwise (· < ·))
    (habove : ∀ e ∈ r.enabledInTier tier, ∀ height ∈ heights, e.lastPaid < height) :
    (r.paidInTurn tier heights).length = heights.length ∧
    (∃ queue, r.Queue tier queue ∧ (r.paidInTurn tier heights).take (r.countInTier tier) =
      (queue.map (·.node)).take heights.length) ∧
    (∀ i, i + r.countInTier tier < heights.length →
      (r.paidInTurn tier heights)[i + r.countInTier tier]? = (r.paidInTurn tier heights)[i]?) ∧
    (∀ start, start + r.countInTier tier ≤ heights.length →
      (((r.paidInTurn tier heights).drop start).take (r.countInTier tier)).Perm
        ((r.enabledInTier tier).map (·.node))) ∧
    ∀ m ∈ r.paidInTurn tier heights,
      ∃ e ∈ r.entries, e.node = m ∧ e.enabled = true ∧ m.tier = tier := by
  obtain ⟨queue, hq⟩ := exists_queue hids tier
  have hlength : (queue.map (·.node)).length = r.countInTier tier := by
    rw [List.length_map, hq.members.length_eq, countInTier]
  have hne : queue ≠ [] := by
    rintro rfl
    simp [← hlength] at hcount
  have hround := hq.goesRound_paidInTurn hids hne hheights
    fun e he => habove e (hq.members.mem_iff.1 he)
  rw [← hlength]
  refine ⟨hround.length_eq (by simpa using hne), ⟨queue, hq, hround.take_eq⟩,
    fun i hi => hround.repeats hi, fun start hstart => ?_, fun m hm => ?_⟩
  · rw [hround.round_eq hstart]
    exact (List.rotate_perm _ _).trans (hq.members.map _)
  · obtain ⟨e, he, rfl⟩ := List.mem_map.1 (hround.mem hm)
    obtain ⟨hmem, henabled, htier⟩ := mem_enabledInTier.1 (hq.members.mem_iff.1 he)
    exact ⟨e, hmem, rfl, henabled, htier⟩

end Registry

/-! ## A sample -/

/-- Of five masternodes one is disabled and one is in another tier; two were paid at one height. -/
def Sample.waiting : Registry where
  entries := [⟨masternode 0, true, 7⟩, ⟨masternode 1, true, 3⟩, ⟨masternode 2, false, 0⟩,
    ⟨{ masternode 3 with tier := 2 }, true, 1⟩, ⟨masternode 4, true, 3⟩]

/-- Two rounds of a queue of three, the second one not finished. -/
theorem Registry.paidInTurn_fair_waiting :
    (Sample.waiting.paidInTurn 1 [10, 11, 20, 21, 30]).map (·.id.vout) = [1, 4, 0, 1, 4] ∧
    ∀ start ≤ 2, (((Sample.waiting.paidInTurn 1 [10, 11, 20, 21, 30]).drop start).take 3).Perm
      [Sample.masternode 0, Sample.masternode 1, Sample.masternode 4] := by
  have hcount : Sample.waiting.countInTier 1 = 3 := by decide +kernel
  have habove : (Sample.waiting.enabledInTier 1).all (fun e =>
      [10, 11, 20, 21, 30].all (e.lastPaid < ·)) = true := by decide +kernel
  simp only [List.all_eq_true, decide_eq_true_eq] at habove
  obtain ⟨-, -, -, hround, -⟩ := paidInTurn_fair Sample.waiting 1 [10, 11, 20, 21, 30]
    (by decide +kernel) (by decide +kernel) (by decide) habove
  rw [hcount] at hround
  exact ⟨by decide +kernel, fun start hstart => hround start (by simpa using hstart)⟩

end MasternodePayments
