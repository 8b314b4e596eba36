import MasternodePayments.Proofs.Codec.Lawful
import MasternodePayments.Proofs.Checked
import MasternodePayments.Proofs.Ledger.Admission
import MasternodePayments.Snapshot.File

/-!
# Reading back a snapshot file

A file that was written in one format is read in another, which may be the same. The message and the
network of the two formats decide the outcome, and nothing in the snapshot does
(`FileFormat.decode_encode`).

* `Codec.lawful_entries`: the entries of a snapshot have a lawful codec.
* `Codec.read_write_snapshot`: a snapshot is the map of its own entries, so it is read back too.
* `FileFormat.encode_eq_ok`: what a file is made of.
* `FileFormat.body?_eq_some`, `FileFormat.afterMessage?_append`, `FileFormat.decodeRest_append`: the
  checksum, the message, and the network in front of the snapshot.
-/

namespace MasternodePayments

/-! ## The codecs of a snapshot -/

namespace Codec

theorem lawful_script : script.Lawful := lawful_sequence lawful_byte productive_byte

theorem lawful_outPoint : outPoint.Lawful := by
  apply lawful_transport (lawful_pair (lawful_fixedBytes 32) lawful_word32)
  rintro ⟨txid, vout⟩ ⟨txid', vout'⟩
  simp

theorem lawful_payee : payee.Lawful := by
  apply lawful_transport (lawful_either lawful_script lawful_outPoint)
  rintro (s | o) (s' | o') <;> simp

theorem lawful_vote : vote.Lawful := by
  apply lawful_transport
    (lawful_pair lawful_outPoint (lawful_pair lawful_word64 (lawful_pair lawful_payee lawful_blob)))
  rintro ⟨voter, height, payee, signature⟩ ⟨voter', height', payee', signature'⟩
  simp

theorem lawful_candidate : candidate.Lawful := by
  apply lawful_transport (lawful_pair lawful_script (lawful_pair lawful_word32 lawful_word32))
  rintro ⟨script, tier, votes⟩ ⟨script', tier', votes'⟩
  simp

theorem productive_candidate : candidate.Productive :=
  (Productive.pair (productive_sequence byte) _).transport _ _

theorem lawful_tally : tally.Lawful := by
  apply lawful_transport
    (lawful_pair lawful_word64 (lawful_sequence lawful_candidate productive_candidate))
  rintro ⟨height, candidates⟩ ⟨height', candidates'⟩
  simp

theorem lawful_entries : entries.Lawful := by
  apply lawful_pair
  · exact lawful_sequence (lawful_pair (lawful_fixedBytes 32) lawful_vote)
      (Productive.pair (productive_fixedBytes (by decide)) _)
  · exact lawful_sequence (lawful_pair lawful_word64 lawful_tally)
      (Productive.pair productive_word64 _)

/-- A map is the map of its own entries. -/
theorem ofList_toList {κ α : Type} [DecidableEq κ] [Ord κ] [Std.TransOrd κ] [Std.LawfulEqOrd κ]
    (m : Std.ExtTreeMap κ α) : Std.ExtTreeMap.ofList m.toList = m := by
  apply Std.ExtTreeMap.ext_getElem?
  intro k
  cases h : m[k]? with
  | some a =>
    exact Std.ExtTreeMap.getElem?_ofList_of_mem Std.ReflCmp.compare_self
      Std.ExtTreeMap.distinct_keys_toList (Std.ExtTreeMap.mem_toList_iff_getElem?_eq_some.2 h)
  | none =>
    have habsent : k ∉ m.toList.map Prod.fst := by
      intro hk
      obtain ⟨⟨_, a⟩, ha, rfl⟩ := List.mem_map.1 hk
      rw [Std.ExtTreeMap.mem_toList_iff_getElem?_eq_some.1 ha] at h
      cases h
    apply Std.ExtTreeMap.getElem?_ofList_of_contains_eq_false
    exact List.contains_eq_mem k _ ▸ decide_eq_false habsent

/-- **A snapshot is read back**, whatever follows it. -/
theorem read_write_snapshot (s : Snapshot) (rest : Bytes) {allowance : Nat}
    (hle : (snapshot.write s).length ≤ allowance) (hlt : allowance < 2 ^ 64) :
    ∃ left, snapshot.read.run ⟨snapshot.write s ++ rest, allowance⟩ = .ok (s, ⟨rest, left⟩) := by
  obtain ⟨left, hread⟩ := lawful_entries.read_write (s.votes.toList, s.tallies.toList) rest hle hlt
  refine ⟨left, ?_⟩
  show (entries.read >>= _).run _ = _
  rw [snapshot, transport, Reader.run_bind_of_ok hread, Reader.run_pure]
  simp only [ofList_toList]

end Codec

/-! ## The bytes of the message -/

theorem toList_loop (b : ByteArray) (i : Nat) (read : Bytes) :
    ByteArray.toList.loop b i read = read.reverse ++ b.data.toList.drop i := by
  induction i, read using ByteArray.toList.loop.induct b with
  | case1 i read h ih =>
    have hi : i < b.data.toList.length := h
    have hget : b.get! i = b.data.toList[i] := getElem!_pos b.data i h
    rw [ByteArray.toList.loop, if_pos h, ih, hget, List.reverse_cons, List.append_assoc,
      List.singleton_append, List.getElem_cons_drop]
  | case2 i read h =>
    rw [ByteArray.toList.loop, if_neg h, List.drop_eq_nil_of_le (Nat.not_lt.1 h), List.append_nil]

theorem toList_byteArray (b : ByteArray) : b.toList = b.data.toList := toList_loop b 0 []

namespace FileFormat

variable {f g : FileFormat} {s : Snapshot} {b body rest : Bytes}

theorem messageBytes_inj : f.messageBytes = g.messageBytes ↔ f.message = g.message := by
  rw [messageBytes, messageBytes, toList_byteArray, toList_byteArray, Array.toList_inj]
  constructor
  · intro h
    exact String.toByteArray_inj.1 (ByteArray.ext h)
  · intro h
    rw [h]

/-! ## The parts of a file -/

theorem sizeLimit_lt : sizeLimit < 2 ^ 64 := by decide

/-- The bytes of a file with a body. -/
def sealed (body : Bytes) : Bytes := body ++ (doubleSha256 body).bytes

/-- The checksum is right in the files that were sealed, and in no others. -/
theorem body?_eq_some : body? b = some body ↔ b = sealed body := by
  simp only [body?]
  constructor
  · intro h
    split at h
    · next hsum =>
      cases h
      rw [sealed, hsum.2, List.take_append_drop]
    · cases h
  · rintro rfl
    have hlength : (sealed body).length = body.length + checksumLength := by
      rw [sealed, List.length_append, (doubleSha256 body).length_bytes]
      rfl
    have htake : (sealed body).take body.length = body := List.take_left' rfl
    have hdrop : (sealed body).drop body.length = (doubleSha256 body).bytes := List.drop_left' rfl
    rw [hlength, Nat.add_sub_cancel, htake, hdrop, if_pos ⟨Nat.le_add_left .., rfl⟩]

theorem writeLimited_eq_ok {α : Type} {c : Codec α} {a : α} :
    writeLimited c a = .ok b ↔ (c.write a).length ≤ sizeLimit ∧ c.write a = b := by
  unfold writeLimited
  split
  · next h => simp [h]
  · next h => simp [h]

/-- **What a file is made of**, if the message and the snapshot keep to the limit. -/
theorem encode_eq_ok : f.encode s = .ok b ↔
    (Codec.blob.write f.messageBytes).length ≤ sizeLimit ∧
      (Codec.snapshot.write s).length ≤ sizeLimit ∧
      b = sealed (Codec.blob.write f.messageBytes ++
        (f.network.bytes ++ Codec.snapshot.write s)) := by
  simp only [encode, bind_eq_ok, writeLimited_eq_ok, pure_eq_ok]
  constructor
  · rintro ⟨_, ⟨hmessage, rfl⟩, _, ⟨hsnapshot, rfl⟩, rfl⟩
    rw [← List.append_assoc]
    exact ⟨hmessage, hsnapshot, rfl⟩
  · rintro ⟨hmessage, hsnapshot, rfl⟩
    rw [← List.append_assoc]
    exact ⟨_, ⟨hmessage, rfl⟩, _, ⟨hsnapshot, rfl⟩, rfl⟩

theorem afterMessage?_append (h : (Codec.blob.write f.messageBytes).length ≤ sizeLimit)
    (rest : Bytes) : g.afterMessage? (Codec.blob.write f.messageBytes ++ rest) =
      if g.message = f.message then some rest else none := by
  obtain ⟨left, hread⟩ := Codec.lawful_blob.read_write f.messageBytes rest h sizeLimit_lt
  simp only [afterMessage?, hread, messageBytes_inj, eq_comm]

/-- What follows the snapshot is not looked at. -/
theorem decodeRest_append (h : (Codec.snapshot.write s).length ≤ sizeLimit) (rest : Bytes) :
    g.decodeRest (f.network.bytes ++ (Codec.snapshot.write s ++ rest)) =
      if g.network = f.network then .ok s else .error .wrongNetwork := by
  obtain ⟨left, hread⟩ := Codec.read_write_snapshot s rest h sizeLimit_lt
  unfold decodeRest
  rw [List.take_left' f.network.length_bytes, List.drop_left' f.network.length_bytes,
    FixedBytes.ofBytes?_bytes, hread]
  simp only [eq_comm]

/-- **Formats read what they wrote, and tell each other apart.** -/
theorem decode_encode (h : f.encode s = .ok b) : g.decode b =
    if g.message = f.message then
      if g.network = f.network then .ok s else .error .wrongNetwork
    else .error .wrongMagic := by
  obtain ⟨hmessage, hsnapshot, hb⟩ := encode_eq_ok.1 h
  have hafter := afterMessage?_append (g := g) hmessage (f.network.bytes ++ Codec.snapshot.write s)
  have hrest := decodeRest_append (f := f) (g := g) hsnapshot []
  rw [List.append_nil] at hrest
  simp only [decode, body?_eq_some.2 hb, hafter]
  by_cases hm : g.message = f.message
  · simp only [hm, if_true, hrest]
  · simp only [hm, if_false]

end FileFormat

/-- Two votes, one for a collateral and one for a script, and the tally of their height. -/
def Sample.twoKinds : Snapshot where
  votes := .ofList [((.replicate 32 1 : Hash), vote 0 1 1005),
    ((.replicate 32 2 : Hash), { vote 1 0 1005 with payee := .script [0x51, 0x52] })]
  tallies := .ofList [((1005 : Height),
    (⟨1005, [⟨[0x51, 0x52], 1, 1⟩, ⟨[0x53], 1, 1⟩]⟩ : Tally))]

theorem FileFormat.decode_encode_twoKinds : ∃ b,
    ({ network := Network.main.magic } : FileFormat).encode Sample.twoKinds = .ok b ∧
      ({ network := Network.main.magic } : FileFormat).decode b = .ok Sample.twoKinds ∧
      ({ network := Network.test.magic } : FileFormat).decode b = .error .wrongNetwork ∧
      ({ message := "Payments", network := Network.test.magic } : FileFormat).decode b =
        .error .wrongMagic := by
  have hencode : ({ network := Network.main.magic } : FileFormat).encode Sample.twoKinds = .ok _ :=
    encode_eq_ok.2 ⟨by decide +kernel, by decide +kernel, rfl⟩
  have hnetwork : Network.test.magic ≠ Network.main.magic := by decide
  refine ⟨_, hencode, ?_, ?_, ?_⟩
  · rw [decode_encode hencode, if_pos rfl, if_pos rfl]
  · rw [decode_encode hencode, if_pos rfl, if_neg hnetwork]
  · rw [decode_encode hencode, if_neg (by decide)]

end MasternodePayments
