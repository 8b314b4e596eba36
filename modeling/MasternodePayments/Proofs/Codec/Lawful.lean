import Mathlib.Algebra.Group.Nat.Defs
import MasternodePayments.Codec.Basic

/-!
# Lawful codecs

A codec is lawful if it reads a value exactly where the bytes of that value are ahead. So what it
wrote is read back, whatever follows it, and what it reads is what it would have written. The law
carries over from the parts of a codec to the whole.

* `Codec.Lawful.read_write`: what was written is read back.
* `Codec.lawful_blob`, `Codec.lawful_sequence`: lengths and counts. A count of 64 bits is enough
  because every element takes at least one byte (`Codec.Productive`), and no reader may read 2 ^ 64
  bytes.
* `Codec.lawful_pair`, `Codec.lawful_either`, `Codec.lawful_transport`: the other combinators.
-/

namespace MasternodePayments

/-! ## Bytes ahead -/

/-- A source with more bytes in front, and the allowance to read them. -/
def Source.prepend (b : Bytes) (s : Source) : Source := ⟨b ++ s.ahead, b.length + s.allowance⟩

namespace Source

variable {s : Source} {b c : Bytes} {n : Nat}

@[simp] theorem prepend_nil : s.prepend [] = s := by
  simp [prepend]

theorem prepend_append : s.prepend (b ++ c) = (s.prepend c).prepend b := by
  simp [prepend, Nat.add_assoc]

theorem prepend_cons (a : UInt8) : s.prepend (a :: b) = (s.prepend b).prepend [a] := by
  rw [← prepend_append, List.singleton_append]

theorem allowance_lt_of_prepend (h : (s.prepend b).allowance < n) : s.allowance < n :=
  Nat.lt_of_le_of_lt (Nat.le_add_left ..) h

theorem length_lt_of_prepend (h : (s.prepend b).allowance < n) : b.length < n :=
  Nat.lt_of_le_of_lt (Nat.le_add_right ..) h

end Source

/-! ## What readers take -/

namespace Reader

variable {α β : Type} {s rest : Source}

theorem run_bind_eq_ok {r : Reader α} {f : α → Reader β} {b : β} :
    (r >>= f).run s = .ok (b, rest) ↔
      ∃ a mid, r.run s = .ok (a, mid) ∧ (f a).run mid = .ok (b, rest) := by
  cases h : r.run s with
  | error cause =>
    rw [run_bind_of_error h]
    simp
  | ok read =>
    obtain ⟨a, mid⟩ := read
    rw [run_bind_of_ok h]
    constructor
    · intro hf
      exact ⟨a, mid, rfl, hf⟩
    · rintro ⟨_, _, hread, hf⟩
      cases hread
      exact hf

theorem run_pure_eq_ok {a b : α} :
    (pure a : Reader α).run s = .ok (b, rest) ↔ a = b ∧ s = rest := by
  rw [run_pure, Except.ok.injEq, Prod.mk.injEq]

theorem byte_eq_ok {b : UInt8} : byte.run s = .ok (b, rest) ↔ s = rest.prepend [b] := by
  obtain ⟨ahead, allowance⟩ := s
  cases allowance with
  | zero =>
    have hne : 0 ≠ 1 + rest.allowance := by omega
    simp [byte, Source.prepend, hne]
  | succ n =>
    have hn : n + 1 = 1 + rest.allowance ↔ n = rest.allowance := by omega
    cases ahead with
    | nil => simp [byte, Source.prepend]
    | cons c ahead =>
      obtain ⟨ahead', allowance'⟩ := rest
      simp [byte, Source.prepend, hn, and_assoc]

theorem block_eq_ok {n : Nat} {b : Bytes} :
    (block n).run s = .ok (b, rest) ↔ b.length = n ∧ s = rest.prepend b := by
  constructor
  · intro h
    simp only [block] at h
    split at h
    · cases h
    · next hallowance =>
      split at h
      · next hlength =>
        cases h
        have hle := Nat.not_lt.1 hallowance
        refine ⟨hlength, ?_⟩
        rw [Source.prepend, hlength, List.take_append_drop, Nat.add_sub_of_le hle]
      · cases h
  · rintro ⟨rfl, rfl⟩
    simp [block, Source.prepend]

theorem fixedBytes_eq_ok {n : Nat} {b : FixedBytes n} :
    (fixedBytes n).run s = .ok (b, rest) ↔ s = rest.prepend b.bytes := by
  induction n generalizing s rest with
  | zero =>
    have hnil : b.bytes = [] := List.length_eq_zero_iff.1 b.length_bytes
    have hb : (⟨[], rfl⟩ : FixedBytes 0) = b := FixedBytes.ext hnil.symm
    rw [fixedBytes, run_pure_eq_ok, hnil, Source.prepend_nil, and_iff_right hb]
  | succ n ih =>
    obtain ⟨bytes, hlength⟩ := b
    cases bytes with
    | nil => cases hlength
    | cons c bytes =>
      have hbytes : bytes.length = n := Nat.succ.inj hlength
      simp only [fixedBytes, run_bind_eq_ok, run_pure_eq_ok, byte_eq_ok, ih, FixedBytes.mk.injEq,
        List.cons.injEq]
      constructor
      · rintro ⟨_, _, rfl, _, _, rfl, ⟨rfl, rfl⟩, rfl⟩
        exact (Source.prepend_cons _).symm
      · rintro rfl
        exact ⟨c, _, Source.prepend_cons c, ⟨bytes, hbytes⟩, _, rfl, ⟨rfl, rfl⟩, rfl⟩

end Reader

/-! ## Lawful codecs -/

namespace Codec

variable {α β : Type} {c : Codec α} {d : Codec β} {s rest : Source}

/-- A value is read exactly where its bytes are ahead, and each of them is charged once. -/
def Lawful (c : Codec α) : Prop :=
  ∀ {s rest : Source} {a : α}, s.allowance < 2 ^ 64 →
    (c.read.run s = .ok (a, rest) ↔ s = rest.prepend (c.write a))

/-- Every value takes at least one byte. -/
def Productive (c : Codec α) : Prop :=
  ∀ a, 0 < (c.write a).length

/-- **What was written is read back**, whatever follows it. -/
theorem Lawful.read_write (h : c.Lawful) (a : α) (rest : Bytes) {allowance : Nat}
    (hle : (c.write a).length ≤ allowance) (hlt : allowance < 2 ^ 64) :
    ∃ left, c.read.run ⟨c.write a ++ rest, allowance⟩ = .ok (a, ⟨rest, left⟩) := by
  refine ⟨allowance - (c.write a).length, (h hlt).2 ?_⟩
  rw [Source.prepend, Nat.add_sub_of_le hle]

/-! ## Words -/

theorem number_eq_ok {k n : Nat} : (number k).read.run s = .ok (n, rest) ↔
    n < Nat.pow 256 k ∧ s = rest.prepend ((number k).write n) := by
  simp only [number, Reader.run_bind_eq_ok, Reader.block_eq_ok, Reader.run_pure_eq_ok]
  constructor
  · rintro ⟨b, _, ⟨rfl, rfl⟩, rfl, rfl⟩
    exact ⟨ofLittleEndian_lt b, by rw [littleEndian_ofLittleEndian]⟩
  · rintro ⟨hn, rfl⟩
    refine ⟨_, _, ⟨length_littleEndian k n, rfl⟩, ?_, rfl⟩
    rw [ofLittleEndian_littleEndian, Nat.mod_eq_of_lt hn]

theorem lawful_byte : byte.Lawful := fun _ => Reader.byte_eq_ok

/-- Words of `k` bytes that stand for the numbers of that size. -/
theorem lawful_word {ofNat : Nat → α} {toNat : α → Nat} {k : Nat}
    (hlt : ∀ a, toNat a < Nat.pow 256 k)
    (hforms : ∀ n < Nat.pow 256 k, ∀ a, ofNat n = a ↔ n = toNat a) :
    ((number k).transport ofNat toNat).Lawful := by
  intro s rest a _
  simp only [transport, Reader.run_bind_eq_ok, number_eq_ok, Reader.run_pure_eq_ok]
  constructor
  · rintro ⟨n, _, ⟨hn, rfl⟩, hofNat, rfl⟩
    rw [(hforms n hn a).1 hofNat]
  · rintro rfl
    exact ⟨toNat a, _, ⟨hlt a, rfl⟩, (hforms _ (hlt a) a).2 rfl, rfl⟩

theorem lawful_word32 : word32.Lawful := by
  apply lawful_word UInt32.toNat_lt
  intro n hn w
  rw [← UInt32.toNat_inj, UInt32.toNat_ofNat_of_lt' hn]

theorem lawful_word64 : word64.Lawful := by
  apply lawful_word UInt64.toNat_lt
  intro n hn w
  rw [← UInt64.toNat_inj, UInt64.toNat_ofNat_of_lt' hn]

theorem lawful_fixedBytes (n : Nat) : (fixedBytes n).Lawful := fun _ => Reader.fixedBytes_eq_ok

/-! ## Lengths and counts -/

theorem lawful_blob : blob.Lawful := by
  intro s rest b hs
  simp only [blob, Reader.run_bind_eq_ok, number_eq_ok, Reader.block_eq_ok]
  constructor
  · rintro ⟨n, _, ⟨-, rfl⟩, rfl, rfl⟩
    exact Source.prepend_append.symm
  · rintro rfl
    have hlength : b.length < 2 ^ 64 := by
      have hle := Source.length_lt_of_prepend hs
      rw [List.length_append] at hle
      omega
    exact ⟨b.length, _, ⟨hlength, Source.prepend_append⟩, rfl, rfl⟩

/-- The induction follows the reader: what was read before stays in front. -/
theorem Lawful.manyAfter_eq_ok (hc : c.Lawful) {n : Nat} {before xs : List α}
    (hs : s.allowance < 2 ^ 64) : Reader.manyAfter c.read n before s = .ok (xs, rest) ↔
      ∃ read, read.length = n ∧ xs = before.reverse ++ read ∧
        s = rest.prepend (read.flatMap c.write) := by
  induction n generalizing before s with
  | zero =>
    simp only [Reader.manyAfter, Except.ok.injEq, Prod.mk.injEq, List.length_eq_zero_iff]
    constructor
    · rintro ⟨rfl, rfl⟩
      exact ⟨[], rfl, (List.append_nil _).symm, Source.prepend_nil.symm⟩
    · rintro ⟨_, rfl, rfl, rfl⟩
      exact ⟨(List.append_nil _).symm, Source.prepend_nil⟩
  | succ n ih =>
    rw [Reader.manyAfter]
    constructor
    · intro h
      split at h
      · next a mid hread =>
        obtain rfl := (hc hs).1 hread
        obtain ⟨read, rfl, rfl, rfl⟩ := (ih (Source.allowance_lt_of_prepend hs)).1 h
        refine ⟨a :: read, rfl, by simp, ?_⟩
        rw [List.flatMap_cons, Source.prepend_append]
      · cases h
    · rintro ⟨read, hlength, rfl, rfl⟩
      cases read with
      | nil => cases hlength
      | cons a read =>
        rw [List.flatMap_cons, Source.prepend_append] at hs ⊢
        rw [(hc hs).2 rfl]
        apply (ih (Source.allowance_lt_of_prepend hs)).2
        exact ⟨read, Nat.succ.inj hlength, by simp, rfl⟩

/-- As every element takes a byte, there are no more elements than bytes. -/
theorem Productive.length_le_flatMap (h : c.Productive) (xs : List α) :
    xs.length ≤ (xs.flatMap c.write).length := by
  induction xs with
  | nil => exact Nat.le_refl 0
  | cons x xs ih =>
    have hx := h x
    rw [List.length_cons, List.flatMap_cons, List.length_append]
    omega

theorem lawful_sequence (hc : c.Lawful) (hproductive : c.Productive) : (sequence c).Lawful := by
  intro s rest xs hs
  simp only [sequence, Reader.run_bind_eq_ok, number_eq_ok, Reader.many]
  constructor
  · rintro ⟨n, mid, ⟨-, rfl⟩, hmany⟩
    have hmid := Source.allowance_lt_of_prepend hs
    obtain ⟨_, rfl, rfl, rfl⟩ := (hc.manyAfter_eq_ok hmid).1 hmany
    exact Source.prepend_append.symm
  · rintro rfl
    -- Otherwise the count would be cut off when it is written.
    have hcount : xs.length < 2 ^ 64 := by
      have hle := Source.length_lt_of_prepend hs
      have hxs := hproductive.length_le_flatMap xs
      rw [List.length_append] at hle
      omega
    rw [Source.prepend_append] at hs
    have hmid := Source.allowance_lt_of_prepend hs
    refine ⟨xs.length, _, ⟨hcount, Source.prepend_append⟩, ?_⟩
    exact (hc.manyAfter_eq_ok hmid).2 ⟨xs, rfl, rfl, rfl⟩

/-! ## Codecs that write something -/

theorem productive_byte : byte.Productive := fun _ => Nat.one_pos

theorem productive_word64 : word64.Productive := by
  intro w
  rw [word64, number, length_littleEndian]
  decide

theorem productive_fixedBytes {n : Nat} (h : 0 < n) : (fixedBytes n).Productive := by
  intro b
  rw [fixedBytes, b.length_bytes]
  exact h

theorem productive_sequence (c : Codec α) : (sequence c).Productive := by
  intro xs
  rw [sequence, number, List.length_append, length_littleEndian]
  omega

theorem Productive.pair (h : c.Productive) (d : Codec β) : (pair c d).Productive := by
  intro p
  have hp := h p.1
  rw [Codec.pair, List.length_append]
  omega

theorem Productive.transport (h : c.Productive) (ofRead : α → β) (toWrite : β → α) :
    (c.transport ofRead toWrite).Productive :=
  fun b => h (toWrite b)

/-! ## Pairs, alternatives and other forms -/

theorem lawful_pair (hc : c.Lawful) (hd : d.Lawful) : (pair c d).Lawful := by
  intro s rest p hs
  simp only [pair, Reader.run_bind_eq_ok, Reader.run_pure_eq_ok]
  constructor
  · rintro ⟨a, mid, ha, b, _, hb, rfl, rfl⟩
    obtain rfl := (hc hs).1 ha
    obtain rfl := (hd (Source.allowance_lt_of_prepend hs)).1 hb
    exact Source.prepend_append.symm
  · rintro rfl
    rw [Source.prepend_append] at hs ⊢
    have hmid := Source.allowance_lt_of_prepend hs
    exact ⟨p.1, _, (hc hs).2 rfl, p.2, _, (hd hmid).2 rfl, rfl, rfl⟩

theorem lawful_either (hc : c.Lawful) (hd : d.Lawful) : (either c d).Lawful := by
  intro s rest x hs
  simp only [either, Reader.run_bind_eq_ok, lawful_word32 hs]
  constructor
  · rintro ⟨index, mid, rfl, hread⟩
    have hmid := Source.allowance_lt_of_prepend hs
    split at hread
    · next hzero =>
      obtain ⟨a, _, ha, hx⟩ := Reader.run_bind_eq_ok.1 hread
      obtain ⟨rfl, rfl⟩ := Reader.run_pure_eq_ok.1 hx
      obtain rfl := (hc hmid).1 ha
      rw [hzero]
      exact Source.prepend_append.symm
    · split at hread
      · next hone =>
        obtain ⟨b, _, hb, hx⟩ := Reader.run_bind_eq_ok.1 hread
        obtain ⟨rfl, rfl⟩ := Reader.run_pure_eq_ok.1 hx
        obtain rfl := (hd hmid).1 hb
        rw [hone]
        exact Source.prepend_append.symm
      · cases hread
  · rintro rfl
    cases x with
    | inl a =>
      rw [Source.prepend_append] at hs ⊢
      have hmid := Source.allowance_lt_of_prepend hs
      refine ⟨0, _, rfl, ?_⟩
      rw [if_pos rfl]
      exact Reader.run_bind_eq_ok.2 ⟨a, _, (hc hmid).2 rfl, rfl⟩
    | inr b =>
      rw [Source.prepend_append] at hs ⊢
      have hmid := Source.allowance_lt_of_prepend hs
      refine ⟨1, _, rfl, ?_⟩
      rw [if_neg (by decide), if_pos rfl]
      exact Reader.run_bind_eq_ok.2 ⟨b, _, (hd hmid).2 rfl, rfl⟩

/-- A codec stays lawful in another form if the two forms stand for the same values. -/
theorem lawful_transport {ofRead : α → β} {toWrite : β → α} (hc : c.Lawful)
    (hforms : ∀ a b, ofRead a = b ↔ a = toWrite b) : (c.transport ofRead toWrite).Lawful := by
  intro s rest b hs
  simp only [transport, Reader.run_bind_eq_ok, Reader.run_pure_eq_ok, hc hs, hforms]
  constructor
  · rintro ⟨_, _, rfl, rfl, rfl⟩
    rfl
  · rintro rfl
    exact ⟨_, _, rfl, rfl, rfl⟩

end Codec
end MasternodePayments
