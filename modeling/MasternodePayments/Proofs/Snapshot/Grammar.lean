import Mathlib.Data.List.Induction
import MasternodePayments.Proofs.Snapshot.RoundTrip

/-!
# The grammar of snapshot files

A `Grammar` says which bytes stand for which value, without a reader or a writer. This is the one of
snapshot files: `FileFormat.Accepts` says of the body of a file, in any number of entries, in any
order and with keys that come again, which snapshot it holds. Files of this form are read, and for
every other file the first thing that is wrong with it decides how it is refused
(`FileFormat.decode_iff`).

* `Codec.Follows`: what a codec writes is what a grammar says. It carries over from the parts of a
  codec to the whole, as `Codec.Lawful` does, and both together say what is read
  (`Codec.read_snapshot_iff`).
* `HoldsLast`: a map that was filled with entries holds the last one of each key.
* `Reader.GivesUp`: a count that promises more values than there are bytes is given up after as many
  values as there are bytes at most (`Codec.many_eq_error`).
-/

namespace MasternodePayments

/-! ## Bytes and what they stand for -/

/-- Which bytes stand for which value. -/
abbrev Grammar (α : Type) := Bytes → α → Prop

/-- The value of the last entry with a key. -/
def LastEntry {κ α : Type} (entries : List (κ × α)) (k : κ) (a : α) : Prop :=
  ∃ before after, entries = before ++ (k, a) :: after ∧ ∀ e ∈ after, e.1 ≠ k

/-- The map holds the last entry with each key, and no other keys. -/
def HoldsLast {κ α : Type} [Ord κ] [Std.TransOrd κ] (m : Std.ExtTreeMap κ α)
    (entries : List (κ × α)) : Prop :=
  ∀ k a, m[k]? = some a ↔ LastEntry entries k a

namespace Grammar

variable {α β : Type}

/-- A number in `k` bytes, least byte first. -/
def word (k : Nat) : Grammar Nat := fun b n => b.length = k ∧ ofLittleEndian b = n

def byte : Grammar UInt8 := fun b x => b = [x]

def word32 : Grammar UInt32 := fun b w => word 4 b w.toNat

def word64 : Grammar UInt64 := fun b w => word 8 b w.toNat

def fixedBytes (n : Nat) : Grammar (FixedBytes n) := fun b x => b = x.bytes

/-- A byte string after its length. -/
def blob : Grammar Bytes := fun b x => ∃ count, b = count ++ x ∧ word 8 count x.length

def pair (P : Grammar α) (Q : Grammar β) : Grammar (α × β) := fun b p =>
  ∃ left right, b = left ++ right ∧ P left p.1 ∧ Q right p.2

/-- Values one after the other. -/
inductive Each (P : Grammar α) : Bytes → List α → Prop
  | nil : Each P [] []
  | cons {b bs : Bytes} {x : α} {xs : List α} :
      P b x → Each P bs xs → Each P (b ++ bs) (x :: xs)

/-- Values one after the other, after their number. -/
def counted (P : Grammar α) : Grammar (List α) := fun b xs =>
  ∃ count values, b = count ++ values ∧ word 8 count xs.length ∧ Each P values xs

def script : Grammar Script := counted byte

def outPoint : Grammar OutPoint := fun b o => pair (fixedBytes 32) word32 b (o.txid, o.vout)

/-- Variant 0 is a script, variant 1 an outpoint. -/
def payee : Grammar Payee
  | b, .script s => ∃ rest, b = [0, 0, 0, 0] ++ rest ∧ script rest s
  | b, .collateral o => ∃ rest, b = [1, 0, 0, 0] ++ rest ∧ outPoint rest o

def vote : Grammar Vote := fun b v =>
  pair outPoint (pair word64 (pair payee blob)) b (v.voter, v.height, v.payee, v.signature)

def candidate : Grammar Candidate := fun b c =>
  pair script (pair word32 word32) b (c.script, c.tier, c.votes)

def tally : Grammar Tally := fun b t => pair word64 (counted candidate) b (t.height, t.candidates)

/-- The votes, each after its identity. -/
def votes : Grammar (List (Hash × Vote)) := counted (pair (fixedBytes 32) vote)

/-- The tallies, each after its height. -/
def tallies : Grammar (List (Height × Tally)) := counted (pair word64 tally)

/-- The entries of a snapshot, of which the last one of each key counts. -/
def snapshot : Grammar Snapshot := fun b s =>
  ∃ vs ts, pair votes tallies b (vs, ts) ∧ HoldsLast s.votes vs ∧ HoldsLast s.tallies ts

end Grammar

/-! ## Maps filled with entries -/

theorem lastEntry_concat {κ α : Type} {entries : List (κ × α)} {e : κ × α} {k : κ} {a : α} :
    LastEntry (entries ++ [e]) k a ↔ e = (k, a) ∨ e.1 ≠ k ∧ LastEntry entries k a := by
  constructor
  · rintro ⟨before, after, heq, hafter⟩
    rcases List.eq_nil_or_concat after with rfl | ⟨after, last, rfl⟩
    · exact .inl (List.singleton_inj.1 (List.append_inj' heq rfl).2)
    · rw [List.concat_eq_append, ← List.cons_append, ← List.append_assoc] at heq
      obtain ⟨rfl, hlast⟩ := List.append_inj' heq rfl
      obtain rfl := List.singleton_inj.1 hlast
      exact .inr ⟨hafter e (by simp), before, after, rfl, fun x hx => hafter x (by simp [hx])⟩
  · rintro (rfl | ⟨hne, before, after, rfl, hafter⟩)
    · exact ⟨entries, [], rfl, by simp⟩
    · refine ⟨before, after ++ [e], by simp, fun x hx => ?_⟩
      rcases List.mem_append.1 hx with hx | hx
      · exact hafter x hx
      · rw [List.mem_singleton.1 hx]
        exact hne

section
variable {κ α : Type} [Ord κ] [Std.TransOrd κ] [Std.LawfulEqOrd κ] [DecidableEq κ]
  {m : Std.ExtTreeMap κ α} {entries : List (κ × α)}

theorem HoldsLast.insert (h : HoldsLast m entries) (key : κ) (value : α) :
    HoldsLast (m.insert key value) (entries ++ [(key, value)]) := by
  intro k a
  rw [Std.ExtTreeMap.getElem?_insert, lastEntry_concat, ← h k a]
  simp only [Std.compare_eq_iff_eq]
  by_cases he : key = k
  · simp [he]
  · simp [he]

/-- The induction is on the end of the list, where an entry replaces those before it. -/
theorem holdsLast_ofList (entries : List (κ × α)) :
    HoldsLast (Std.ExtTreeMap.ofList entries) entries := by
  induction entries using List.reverseRecOn with
  | nil => simp [HoldsLast, LastEntry]
  | append_singleton entries e ih =>
    rw [Std.ExtTreeMap.ofList_eq_insertMany_empty, Std.ExtTreeMap.insertMany_append,
      ← Std.ExtTreeMap.ofList_eq_insertMany_empty, Std.ExtTreeMap.insertMany_list_singleton]
    exact ih.insert e.1 e.2

theorem holdsLast_iff : HoldsLast m entries ↔ m = .ofList entries := by
  constructor
  · intro h
    apply Std.ExtTreeMap.ext_getElem?
    intro k
    apply Option.ext
    intro a
    rw [h k a, holdsLast_ofList entries k a]
  · rintro rfl
    exact holdsLast_ofList entries

end

/-! ## Codecs that follow a grammar -/

/-- A value of a sequence cannot be read, and the values before it are no more than there are bytes
ahead. -/
def Reader.GivesUp {α : Type} (r : Reader α) (s : Source) (cause : ReadFailure) : Prop :=
  ∃ k xs mid, k ≤ s.ahead.length ∧ (Reader.many r k).run s = .ok (xs, mid) ∧
    r.run mid = .error cause

namespace Codec

variable {α β : Type} {c : Codec α} {d : Codec β} {P : Grammar α} {Q : Grammar β}

/-- What the codec writes is what the grammar says, as long as a length is a word. -/
def Follows (c : Codec α) (P : Grammar α) : Prop :=
  ∀ {b : Bytes} {a : α}, b.length < 2 ^ 64 → (P b a ↔ b = c.write a)

/-- **What a lawful codec reads** is what the grammar says of the bytes ahead. -/
theorem Lawful.read_iff (hc : c.Lawful) (hP : c.Follows P) {s rest : Source} {a : α}
    (hs : s.allowance < 2 ^ 64) :
    c.read.run s = .ok (a, rest) ↔ ∃ b, P b a ∧ s = rest.prepend b := by
  rw [hc hs]
  constructor
  · rintro rfl
    exact ⟨c.write a, (hP (Source.length_lt_of_prepend hs)).2 rfl, rfl⟩
  · rintro ⟨b, hb, rfl⟩
    rw [(hP (Source.length_lt_of_prepend hs)).1 hb]

theorem word_iff {k n : Nat} {b : Bytes} :
    Grammar.word k b n ↔ n < Nat.pow 256 k ∧ b = littleEndian k n := by
  constructor
  · rintro ⟨rfl, rfl⟩
    exact ⟨ofLittleEndian_lt b, (littleEndian_ofLittleEndian b).symm⟩
  · rintro ⟨hn, rfl⟩
    rw [Grammar.word, ofLittleEndian_littleEndian, Nat.mod_eq_of_lt hn]
    exact ⟨length_littleEndian k n, rfl⟩

theorem follows_byte : byte.Follows Grammar.byte := fun _ => Iff.rfl

theorem follows_word32 : word32.Follows Grammar.word32 := fun {_ w} _ => by
  rw [Grammar.word32, word_iff, and_iff_right w.toNat_lt]
  rfl

theorem follows_word64 : word64.Follows Grammar.word64 := fun {_ w} _ => by
  rw [Grammar.word64, word_iff, and_iff_right w.toNat_lt]
  rfl

theorem follows_fixedBytes (n : Nat) : (fixedBytes n).Follows (Grammar.fixedBytes n) :=
  fun _ => Iff.rfl

theorem follows_blob : blob.Follows Grammar.blob := by
  intro b x hb
  constructor
  · rintro ⟨count, rfl, hcount⟩
    rw [(word_iff.1 hcount).2]
    rfl
  · rintro rfl
    rw [blob, List.length_append] at hb
    exact ⟨_, rfl, word_iff.2 ⟨show x.length < 2 ^ 64 by omega, rfl⟩⟩

theorem follows_pair (hc : c.Follows P) (hd : d.Follows Q) :
    (pair c d).Follows (Grammar.pair P Q) := by
  intro b p hb
  constructor
  · rintro ⟨left, right, rfl, hleft, hright⟩
    rw [List.length_append] at hb
    rw [(hc (by omega)).1 hleft, (hd (by omega)).1 hright]
    rfl
  · rintro rfl
    rw [pair, List.length_append] at hb
    exact ⟨_, _, rfl, (hc (by omega)).2 rfl, (hd (by omega)).2 rfl⟩

theorem Follows.each_iff (hc : c.Follows P) {b : Bytes} {xs : List α} (hb : b.length < 2 ^ 64) :
    Grammar.Each P b xs ↔ b = xs.flatMap c.write := by
  induction xs generalizing b with
  | nil =>
    constructor
    · rintro ⟨⟩
      rfl
    · rintro rfl
      exact .nil
  | cons x xs ih =>
    rw [List.flatMap_cons]
    constructor
    · rintro (_ | ⟨hx, hxs⟩)
      rw [List.length_append] at hb
      rw [(hc (by omega)).1 hx, (ih (by omega)).1 hxs]
    · rintro rfl
      rw [List.length_append] at hb
      exact .cons ((hc (by omega)).2 rfl) ((ih (by omega)).2 rfl)

theorem follows_counted (hc : c.Follows P) (hproductive : c.Productive) :
    (sequence c).Follows (Grammar.counted P) := by
  intro b xs hb
  constructor
  · rintro ⟨count, values, rfl, hcount, hvalues⟩
    rw [List.length_append] at hb
    rw [(word_iff.1 hcount).2, (hc.each_iff (by omega)).1 hvalues]
    rfl
  · rintro rfl
    rw [sequence, List.length_append] at hb
    have hxs := hproductive.length_le_flatMap xs
    refine ⟨_, _, rfl, word_iff.2 ⟨?_, rfl⟩, (hc.each_iff (by omega)).2 rfl⟩
    show xs.length < 2 ^ 64
    omega

/-! ## The codecs of a snapshot -/

theorem follows_script : script.Follows Grammar.script :=
  follows_counted follows_byte productive_byte

theorem follows_outPoint : outPoint.Follows Grammar.outPoint :=
  follows_pair (follows_fixedBytes 32) follows_word32

/-- Fixed bytes in front of a value. -/
theorem Follows.append_iff (hc : c.Follows P) (tag : Bytes) {b : Bytes} {a : α}
    (hb : b.length < 2 ^ 64) : (∃ rest, b = tag ++ rest ∧ P rest a) ↔ b = tag ++ c.write a := by
  constructor
  · rintro ⟨rest, rfl, hrest⟩
    rw [List.length_append] at hb
    rw [(hc (by omega)).1 hrest]
  · rintro rfl
    rw [List.length_append] at hb
    exact ⟨_, rfl, (hc (by omega)).2 rfl⟩

theorem follows_payee : payee.Follows Grammar.payee := by
  intro b p hb
  cases p with
  | script s => exact follows_script.append_iff _ hb
  | collateral o => exact follows_outPoint.append_iff _ hb

theorem follows_vote : vote.Follows Grammar.vote :=
  follows_pair follows_outPoint (follows_pair follows_word64 (follows_pair follows_payee
    follows_blob))

theorem follows_candidate : candidate.Follows Grammar.candidate :=
  follows_pair follows_script (follows_pair follows_word32 follows_word32)

theorem follows_tally : tally.Follows Grammar.tally :=
  follows_pair follows_word64 (follows_counted follows_candidate productive_candidate)

/-- A vote after its identity. -/
abbrev voteEntry : Codec (Hash × Vote) := pair (fixedBytes 32) vote

/-- A tally after its height. -/
abbrev tallyEntry : Codec (Height × Tally) := pair word64 tally

theorem productive_voteEntry : voteEntry.Productive :=
  Productive.pair (productive_fixedBytes (by decide)) _

theorem productive_tallyEntry : tallyEntry.Productive := Productive.pair productive_word64 _

theorem lawful_voteEntry : voteEntry.Lawful := lawful_pair (lawful_fixedBytes 32) lawful_vote

theorem lawful_tallyEntry : tallyEntry.Lawful := lawful_pair lawful_word64 lawful_tally

theorem follows_votes : (sequence voteEntry).Follows Grammar.votes :=
  follows_counted (follows_pair (follows_fixedBytes 32) follows_vote) productive_voteEntry

theorem follows_tallies : (sequence tallyEntry).Follows Grammar.tallies :=
  follows_counted (follows_pair follows_word64 follows_tally) productive_tallyEntry

theorem follows_entries : entries.Follows (Grammar.pair Grammar.votes Grammar.tallies) :=
  follows_pair follows_votes follows_tallies

/-- **The snapshots that are read** are those of the grammar. -/
theorem read_snapshot_iff {s rest : Source} {a : Snapshot} (hs : s.allowance < 2 ^ 64) :
    snapshot.read.run s = .ok (a, rest) ↔ ∃ b, Grammar.snapshot b a ∧ s = rest.prepend b := by
  simp only [snapshot, transport, Reader.run_bind_eq_ok, Reader.run_pure_eq_ok,
    lawful_entries.read_iff follows_entries hs, Grammar.snapshot, holdsLast_iff]
  constructor
  · rintro ⟨⟨vs, ts⟩, _, ⟨b, hb, rfl⟩, rfl, rfl⟩
    exact ⟨b, ⟨vs, ts, hb, rfl, rfl⟩, rfl⟩
  · rintro ⟨b, ⟨vs, ts, hb, hvs, hts⟩, rfl⟩
    refine ⟨(vs, ts), _, ⟨b, hb, rfl⟩, ?_, rfl⟩
    cases a
    simp_all

/-! ## Counts that promise too much -/

theorem Lawful.length_ahead_lt (hc : c.Lawful) (hproductive : c.Productive) {s rest : Source}
    {a : α} (hs : s.allowance < 2 ^ 64) (h : c.read.run s = .ok (a, rest)) :
    rest.ahead.length < s.ahead.length := by
  obtain rfl := (hc hs).1 h
  have ha := hproductive a
  rw [Source.prepend, List.length_append]
  omega

/-- The induction follows the reader: with every value that is read there are fewer bytes ahead. -/
theorem Lawful.manyAfter_eq_error (hc : c.Lawful) (hproductive : c.Productive) {n : Nat}
    (before : List α) {s : Source} (hs : s.allowance < 2 ^ 64) (hn : s.ahead.length < n) :
    ∃ cause, Reader.manyAfter c.read n before s = .error cause ∧
      ∃ k xs mid, k ≤ s.ahead.length ∧ Reader.manyAfter c.read k before s = .ok (xs, mid) ∧
        c.read.run mid = .error cause := by
  induction n generalizing before s with
  | zero => exact absurd hn (Nat.not_lt_zero _)
  | succ n ih =>
    cases hread : c.read.run s with
    | error cause =>
      refine ⟨cause, ?_, 0, before.reverse, s, Nat.zero_le _, rfl, hread⟩
      rw [Reader.manyAfter, hread]
    | ok read =>
      obtain ⟨a, rest⟩ := read
      have hlt := hc.length_ahead_lt hproductive hs hread
      have hrest : rest.allowance < 2 ^ 64 := by
        obtain rfl := (hc hs).1 hread
        exact Source.allowance_lt_of_prepend hs
      obtain ⟨cause, herror, k, xs, mid, hk, hmany, hfails⟩ := ih (a :: before) hrest (by omega)
      refine ⟨cause, ?_, k + 1, xs, mid, by omega, ?_, hfails⟩
      · rw [Reader.manyAfter, hread]
        exact herror
      · rw [Reader.manyAfter, hread]
        exact hmany

/-- **A count beyond the bytes that follow it** is given up. -/
theorem Lawful.sequence_eq_error (hc : c.Lawful) (hproductive : c.Productive) {n : Nat}
    (allowance : Nat) {after : Bytes} (hn : n < 2 ^ 64) (hallowance : allowance + 8 < 2 ^ 64)
    (hlt : after.length < n) :
    ∃ cause, (sequence c).read.run ⟨littleEndian 8 n ++ after, allowance + 8⟩ = .error cause ∧
      c.read.GivesUp ⟨after, allowance⟩ cause := by
  have hcount : (number 8).read.run ⟨littleEndian 8 n ++ after, allowance + 8⟩ =
      .ok (n, ⟨after, allowance⟩) := by
    refine number_eq_ok.2 ⟨hn, ?_⟩
    rw [Source.prepend, number, length_littleEndian, Nat.add_comm]
  obtain ⟨cause, herror, hgives⟩ := hc.manyAfter_eq_error hproductive []
    (s := ⟨after, allowance⟩) (show allowance < 2 ^ 64 by omega) hlt
  refine ⟨cause, ?_, hgives⟩
  rw [sequence, Reader.run_bind_of_ok hcount]
  exact herror

theorem read_snapshot_of_votes {s : Source} {cause : ReadFailure}
    (h : (sequence voteEntry).read.run s = .error cause) :
    snapshot.read.run s = .error cause :=
  Reader.run_bind_of_error (Reader.run_bind_of_error h _) _

theorem read_snapshot_of_tallies {s mid : Source} {vs : List (Hash × Vote)} {cause : ReadFailure}
    (hvotes : (sequence voteEntry).read.run s = .ok (vs, mid))
    (h : (sequence tallyEntry).read.run mid = .error cause) :
    snapshot.read.run s = .error cause := by
  refine Reader.run_bind_of_error ?_ _
  rw [entries, pair, Reader.run_bind_of_ok hvotes, Reader.run_bind_of_error h]

end Codec

/-! ## Files -/

namespace FileFormat

variable {f : FileFormat} {s : Snapshot} {b body tail : Bytes}

/-- The magic message as it stands in a file, after its length. -/
def header (f : FileFormat) : Bytes := lengthWord f.messageBytes ++ f.messageBytes

/-- The checksum at the end of a file is not that of the bytes before, or there is none. -/
def Damaged (b : Bytes) : Prop :=
  b.length < checksumLength ∨ (doubleSha256 (b.take (b.length - checksumLength))).bytes ≠
    b.drop (b.length - checksumLength)

/-- What follows the message starts with four bytes that are not those of the network. -/
def Foreign (f : FileFormat) (tail : Bytes) : Prop :=
  ∃ four rest, tail = four ++ rest ∧ four.length = 4 ∧ four ≠ f.network.bytes

/-- The body of a file holds a snapshot: after the message and the network there are its entries,
and then any bytes. -/
def Accepts (f : FileFormat) (body : Bytes) (s : Snapshot) : Prop :=
  ∃ payload rest, body = f.header ++ (f.network.bytes ++ (payload ++ rest)) ∧
    payload.length ≤ sizeLimit ∧ Grammar.snapshot payload s

theorem body?_eq_none : body? b = none ↔ Damaged b := by
  simp only [body?, Damaged, ite_eq_right_iff, reduceCtorEq, imp_false, not_and_or, Nat.not_le,
    ne_eq]

theorem afterMessage?_eq_some (hmessage : f.header.length ≤ sizeLimit) :
    f.afterMessage? body = some tail ↔ body = f.header ++ tail := by
  constructor
  · intro h
    unfold afterMessage? at h
    split at h
    · next message rest hread =>
      split at h
      · next he =>
        cases h
        have hprepend := (Codec.lawful_blob (show sizeLimit < 2 ^ 64 from sizeLimit_lt)).1 hread
        rw [he] at hprepend
        exact congrArg Source.ahead hprepend
      · cases h
    · cases h
  · rintro rfl
    exact (afterMessage?_append hmessage tail).trans (if_pos rfl)

/-! ### What each file is answered by -/

theorem decode_of_damaged (h : Damaged b) : f.decode b = .error .corrupted := by
  rw [decode, body?_eq_none.2 h]

theorem decode_of_other_header (hmessage : f.header.length ≤ sizeLimit) (h : ¬f.header <+: body) :
    f.decode (sealed body) = .error .wrongMagic := by
  have hafter : f.afterMessage? body = none := by
    rw [Option.eq_none_iff_forall_ne_some]
    intro tail htail
    exact h ⟨tail, ((afterMessage?_eq_some hmessage).1 htail).symm⟩
  simp only [decode, body?_eq_some.2 rfl, hafter]

theorem decode_header (hmessage : f.header.length ≤ sizeLimit) (tail : Bytes) :
    f.decode (sealed (f.header ++ tail)) = f.decodeRest tail := by
  simp only [decode, body?_eq_some.2 rfl, (afterMessage?_eq_some hmessage).2 rfl]

theorem decodeRest_of_foreign (h : f.Foreign tail) : f.decodeRest tail = .error .wrongNetwork := by
  obtain ⟨four, rest, rfl, hlength, hne⟩ := h
  have hfour : FixedBytes.ofBytes? 4 ((four ++ rest).take 4) = some ⟨four, hlength⟩ :=
    FixedBytes.ofBytes?_eq_some.2 (List.take_left' hlength).symm
  simp only [decodeRest, hfour, FixedBytes.ext_iff, if_neg hne]

theorem decodeRest_of_short (h : tail.length < 4) :
    f.decodeRest tail = .error (.malformed .networkCutShort) := by
  have hnone : FixedBytes.ofBytes? 4 (tail.take 4) = none := by
    refine dif_neg ?_
    rw [List.length_take]
    omega
  simp only [decodeRest, hnone]

theorem decodeRest_of_read {after : Bytes} {rest : Source}
    (h : Codec.snapshot.read.run ⟨after, sizeLimit⟩ = .ok (s, rest)) :
    f.decodeRest (f.network.bytes ++ after) = .ok s := by
  simp only [decodeRest, List.take_left' f.network.length_bytes,
    List.drop_left' f.network.length_bytes, FixedBytes.ofBytes?_bytes, if_true, h]

theorem decodeRest_of_unread {after : Bytes} {cause : ReadFailure}
    (h : Codec.snapshot.read.run ⟨after, sizeLimit⟩ = .error cause) :
    f.decodeRest (f.network.bytes ++ after) = .error (.malformed (.snapshot cause)) := by
  simp only [decodeRest, List.take_left' f.network.length_bytes,
    List.drop_left' f.network.length_bytes, FixedBytes.ofBytes?_bytes, if_true, h]

theorem decode_of_accepts (hmessage : f.header.length ≤ sizeLimit) (h : f.Accepts body s) :
    f.decode (sealed body) = .ok s := by
  obtain ⟨payload, rest, rfl, hpayload, hs⟩ := h
  have hread : Codec.snapshot.read.run ⟨payload ++ rest, sizeLimit⟩ =
      .ok (s, ⟨rest, sizeLimit - payload.length⟩) := by
    refine (Codec.read_snapshot_iff (show sizeLimit < 2 ^ 64 from sizeLimit_lt)).2
      ⟨payload, hs, ?_⟩
    rw [Source.prepend, Nat.add_sub_of_le hpayload]
  rw [decode_header hmessage, decodeRest_of_read hread]

/-- What comes after the message is foreign, is accepted or is malformed. -/
theorem decodeRest_cases (f : FileFormat) (tail : Bytes) :
    f.Foreign tail ∨ (∃ s, f.Accepts (f.header ++ tail) s) ∨
      ∃ cause, f.decodeRest tail = .error (.malformed cause) := by
  by_cases hshort : tail.length < 4
  · exact .inr (.inr ⟨_, decodeRest_of_short hshort⟩)
  · have hlength : (tail.take 4).length = 4 := by
      rw [List.length_take]
      omega
    by_cases hnetwork : tail.take 4 = f.network.bytes
    · have htail : tail = f.network.bytes ++ tail.drop 4 := by
        rw [← hnetwork, List.take_append_drop]
      cases hread : Codec.snapshot.read.run ⟨tail.drop 4, sizeLimit⟩ with
      | error cause =>
        have herror := decodeRest_of_unread (f := f) hread
        rw [← htail] at herror
        exact .inr (.inr ⟨_, herror⟩)
      | ok read =>
        obtain ⟨s, rest⟩ := read
        obtain ⟨payload, hs, hprepend⟩ :=
          (Codec.read_snapshot_iff (show sizeLimit < 2 ^ 64 from sizeLimit_lt)).1 hread
        obtain ⟨hahead, hallowance⟩ := Source.mk.inj hprepend
        refine .inr (.inl ⟨s, payload, rest.ahead, ?_, by omega, hs⟩)
        rw [← hahead, ← htail]
    · exact .inl ⟨_, _, (List.take_append_drop 4 tail).symm, hlength, hnetwork⟩

/-- What files are answered by, and why. -/
inductive Answers (f : FileFormat) : Bytes → Except FileFailure Snapshot → Prop
  | snapshot {body : Bytes} {s : Snapshot} : f.Accepts body s → f.Answers (sealed body) (.ok s)
  | corrupted {b : Bytes} : Damaged b → f.Answers b (.error .corrupted)
  | wrongMagic {body : Bytes} : ¬f.header <+: body → f.Answers (sealed body) (.error .wrongMagic)
  | wrongNetwork {tail : Bytes} :
      f.Foreign tail → f.Answers (sealed (f.header ++ tail)) (.error .wrongNetwork)
  | malformed {tail : Bytes} (cause : Malformation) :
      ¬f.Foreign tail → (∀ s, ¬f.Accepts (f.header ++ tail) s) →
      f.Answers (sealed (f.header ++ tail)) (.error (.malformed cause))

theorem decode_answers (hmessage : f.header.length ≤ sizeLimit) (b : Bytes) :
    f.Answers b (f.decode b) := by
  cases hbody : body? b with
  | none =>
    have hdamaged := body?_eq_none.1 hbody
    rw [decode_of_damaged hdamaged]
    exact .corrupted hdamaged
  | some body =>
    obtain rfl := body?_eq_some.1 hbody
    by_cases hprefix : f.header <+: body
    · obtain ⟨tail, rfl⟩ := hprefix
      rw [decode_header hmessage]
      by_cases hforeign : f.Foreign tail
      · rw [decodeRest_of_foreign hforeign]
        exact .wrongNetwork hforeign
      · by_cases haccepts : ∃ s, f.Accepts (f.header ++ tail) s
        · obtain ⟨s, hs⟩ := haccepts
          rw [← decode_header hmessage, decode_of_accepts hmessage hs]
          exact .snapshot hs
        · rcases f.decodeRest_cases tail with h | h | ⟨cause, h⟩
          · exact absurd h hforeign
          · exact absurd h haccepts
          · rw [h]
            exact .malformed cause hforeign (not_exists.1 haccepts)
    · rw [decode_of_other_header hmessage hprefix]
      exact .wrongMagic hprefix

theorem decode_eq_ok (hmessage : f.header.length ≤ sizeLimit) :
    f.decode b = .ok s ↔ ∃ body, b = sealed body ∧ f.Accepts body s := by
  constructor
  · intro h
    have hanswers := decode_answers hmessage b
    rw [h] at hanswers
    cases hanswers with
    | snapshot hs => exact ⟨_, rfl, hs⟩
  · rintro ⟨body, rfl, hs⟩
    exact decode_of_accepts hmessage hs

theorem decode_eq_corrupted (hmessage : f.header.length ≤ sizeLimit) :
    f.decode b = .error .corrupted ↔ Damaged b := by
  refine ⟨fun h => ?_, decode_of_damaged⟩
  have hanswers := decode_answers hmessage b
  rw [h] at hanswers
  cases hanswers with
  | corrupted hdamaged => exact hdamaged

theorem decode_eq_wrongMagic (hmessage : f.header.length ≤ sizeLimit) :
    f.decode b = .error .wrongMagic ↔ ∃ body, b = sealed body ∧ ¬f.header <+: body := by
  constructor
  · intro h
    have hanswers := decode_answers hmessage b
    rw [h] at hanswers
    cases hanswers with
    | wrongMagic hprefix => exact ⟨_, rfl, hprefix⟩
  · rintro ⟨body, rfl, hprefix⟩
    exact decode_of_other_header hmessage hprefix

theorem decode_eq_wrongNetwork (hmessage : f.header.length ≤ sizeLimit) :
    f.decode b = .error .wrongNetwork ↔
      ∃ tail, b = sealed (f.header ++ tail) ∧ f.Foreign tail := by
  constructor
  · intro h
    have hanswers := decode_answers hmessage b
    rw [h] at hanswers
    cases hanswers with
    | wrongNetwork hforeign => exact ⟨_, rfl, hforeign⟩
  · rintro ⟨tail, rfl, hforeign⟩
    rw [decode_header hmessage, decodeRest_of_foreign hforeign]

theorem decode_eq_malformed (hmessage : f.header.length ≤ sizeLimit) :
    (∃ cause, f.decode b = .error (.malformed cause)) ↔
      ∃ tail, b = sealed (f.header ++ tail) ∧ ¬f.Foreign tail ∧
        ∀ s, ¬f.Accepts (f.header ++ tail) s := by
  constructor
  · rintro ⟨cause, h⟩
    have hanswers := decode_answers hmessage b
    rw [h] at hanswers
    cases hanswers with
    | malformed _ hforeign haccepts => exact ⟨_, rfl, hforeign, haccepts⟩
  · rintro ⟨tail, rfl, hforeign, haccepts⟩
    rw [decode_header hmessage]
    rcases f.decodeRest_cases tail with h | ⟨s, h⟩ | h
    · exact absurd h hforeign
    · exact absurd h (haccepts s)
    · exact h

/-! ### Counts in files -/

/-- More votes are promised than there are bytes. -/
theorem decode_of_many_votes (hmessage : f.header.length ≤ sizeLimit) {n : Nat} {after : Bytes}
    (hn : n < 2 ^ 64) (hlt : after.length < n) : ∃ cause,
      f.decode (sealed (f.header ++ (f.network.bytes ++ (littleEndian 8 n ++ after)))) =
        .error (.malformed (.snapshot cause)) ∧
      Codec.voteEntry.read.GivesUp ⟨after, sizeLimit - 8⟩ cause := by
  obtain ⟨cause, herror, hgives⟩ := Codec.lawful_voteEntry.sequence_eq_error
    Codec.productive_voteEntry (sizeLimit - 8) hn (by decide) hlt
  refine ⟨cause, ?_, hgives⟩
  rw [decode_header hmessage]
  exact decodeRest_of_unread (Codec.read_snapshot_of_votes herror)

/-- More tallies are promised than there are bytes after the votes. -/
theorem decode_of_many_tallies (hmessage : f.header.length ≤ sizeLimit) {n : Nat}
    {votes after : Bytes} {vs : List (Hash × Vote)} (hvotes : Grammar.votes votes vs)
    (hlimit : votes.length + 8 ≤ sizeLimit) (hn : n < 2 ^ 64) (hlt : after.length < n) : ∃ cause,
      f.decode (sealed (f.header ++ (f.network.bytes ++ (votes ++ (littleEndian 8 n ++ after))))) =
        .error (.malformed (.snapshot cause)) ∧
      Codec.tallyEntry.read.GivesUp ⟨after, sizeLimit - votes.length - 8⟩ cause := by
  have hword : sizeLimit < 2 ^ 64 := sizeLimit_lt
  obtain ⟨cause, herror, hgives⟩ := Codec.lawful_tallyEntry.sequence_eq_error
    Codec.productive_tallyEntry (sizeLimit - votes.length - 8) hn (by omega) hlt
  rw [Nat.sub_add_cancel (by omega)] at herror
  have hread : (Codec.sequence Codec.voteEntry).read.run
      ⟨votes ++ (littleEndian 8 n ++ after), sizeLimit⟩ =
        .ok (vs, ⟨littleEndian 8 n ++ after, sizeLimit - votes.length⟩) := by
    have hlawful : (Codec.sequence Codec.voteEntry).Lawful :=
      Codec.lawful_sequence Codec.lawful_voteEntry Codec.productive_voteEntry
    refine (Codec.Lawful.read_iff hlawful Codec.follows_votes hword).2 ⟨votes, hvotes, ?_⟩
    rw [Source.prepend, Nat.add_sub_of_le (by omega)]
  refine ⟨cause, ?_, hgives⟩
  rw [decode_header hmessage]
  exact decodeRest_of_unread (Codec.read_snapshot_of_tallies hread herror)

/-! ## The decision on a file -/

/-- **Files of the grammar are read, and nothing else is.** The first thing that is wrong with any
other file decides how it is refused, and a count that promises more than there are bytes is refused
after as many values as there are bytes at most. -/
theorem decode_iff (hmessage : f.header.length ≤ sizeLimit) (b : Bytes) :
    (∀ s, f.decode b = .ok s ↔ ∃ body, b = sealed body ∧ f.Accepts body s) ∧
    (f.decode b = .error .corrupted ↔ Damaged b) ∧
    (f.decode b = .error .wrongMagic ↔ ∃ body, b = sealed body ∧ ¬f.header <+: body) ∧
    (f.decode b = .error .wrongNetwork ↔
      ∃ tail, b = sealed (f.header ++ tail) ∧ f.Foreign tail) ∧
    ((∃ cause, f.decode b = .error (.malformed cause)) ↔
      ∃ tail, b = sealed (f.header ++ tail) ∧ ¬f.Foreign tail ∧
        ∀ s, ¬f.Accepts (f.header ++ tail) s) ∧
    ∀ n after, n < 2 ^ 64 → after.length < n →
      (b = sealed (f.header ++ (f.network.bytes ++ (littleEndian 8 n ++ after))) →
        ∃ cause, f.decode b = .error (.malformed (.snapshot cause)) ∧
          Codec.voteEntry.read.GivesUp ⟨after, sizeLimit - 8⟩ cause) ∧
      ∀ votes vs, Grammar.votes votes vs → votes.length + 8 ≤ sizeLimit →
        b = sealed (f.header ++ (f.network.bytes ++ (votes ++ (littleEndian 8 n ++ after)))) →
        ∃ cause, f.decode b = .error (.malformed (.snapshot cause)) ∧
          Codec.tallyEntry.read.GivesUp ⟨after, sizeLimit - votes.length - 8⟩ cause := by
  refine ⟨fun s => decode_eq_ok hmessage, decode_eq_corrupted hmessage,
    decode_eq_wrongMagic hmessage, decode_eq_wrongNetwork hmessage, decode_eq_malformed hmessage,
    fun n after hn hlt => ⟨?_, ?_⟩⟩
  · rintro rfl
    exact decode_of_many_votes hmessage hn hlt
  · rintro votes vs hvotes hlimit rfl
    exact decode_of_many_tallies hmessage hvotes hlimit hn hlt

end FileFormat

/-- Tallies that are not in order, with a key that comes again and does not agree with its tally. -/
def Sample.shuffled : List (Height × Tally) :=
  [(7, ⟨7, [⟨[0x51], 1, 3⟩]⟩), (5, ⟨5, []⟩), (7, ⟨9, []⟩)]

/-- The payload of a file without votes. -/
def Sample.payload : Bytes := Codec.entries.write ([], shuffled)

theorem FileFormat.decode_iff_shuffled :
    let f : FileFormat := { network := Network.main.magic }
    let body := f.header ++ (f.network.bytes ++ (Sample.payload ++ [0xff]))
    let promising := f.header ++ (f.network.bytes ++ (littleEndian 8 (2 ^ 64 - 1) ++ [1, 2, 3]))
    f.header.length ≤ sizeLimit ∧
      (∃ s, f.decode (sealed body) = .ok s ∧ s.votes = ∅ ∧
        s.tallies.toList = [(5, ⟨5, []⟩), (7, ⟨9, []⟩)]) ∧
      ∃ cause, f.decode (sealed promising) = .error (.malformed (.snapshot cause)) ∧
        Codec.voteEntry.read.GivesUp ⟨[1, 2, 3], sizeLimit - 8⟩ cause := by
  intro f body promising
  have hmessage : f.header.length ≤ sizeLimit := by decide +kernel
  have hlength : Sample.payload.length ≤ sizeLimit := by decide +kernel
  have hpayload : Grammar.snapshot Sample.payload { tallies := .ofList Sample.shuffled } :=
    ⟨[], _, (Codec.follows_entries (Nat.lt_of_le_of_lt hlength sizeLimit_lt)).2 rfl,
      holdsLast_iff.2 Std.ExtTreeMap.ofList_nil.symm, holdsLast_ofList _⟩
  obtain ⟨haccepts, -⟩ := decode_iff hmessage (sealed body)
  obtain ⟨-, -, -, -, -, hcounts⟩ := decode_iff hmessage (sealed promising)
  have hread := (haccepts _).2 ⟨body, rfl, Sample.payload, [0xff], rfl, hlength, hpayload⟩
  exact ⟨hmessage, ⟨_, hread, rfl, by decide +kernel⟩,
    (hcounts (2 ^ 64 - 1) [1, 2, 3] (by decide) (by decide)).1 rfl⟩

end MasternodePayments
