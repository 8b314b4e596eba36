import Mathlib.Data.List.Perm.Subperm
import MasternodePayments.Proofs.Files
import MasternodePayments.Proofs.Ledger.Contents
import MasternodePayments.Proofs.Saving

/-!
# Saving a snapshot again

A snapshot that was read from a file can always be written, in any format with a message that keeps
to the limit: its entries are among those of the file, and so they take no more bytes there
(`FileFormat.exists_encode_of_decode`). The tool reads a snapshot and writes it elsewhere, or for
another network. `Tool.Resaves` says from what file to what file, and `Tool.resave_carries_over`
that nothing else decides whether this succeeds, and what the files hold afterwards, the temporary
one among them.
-/

namespace MasternodePayments

/-! ## What was read can be written -/

/-- A map has no more entries than it was filled with. -/
theorem toList_ofList_subperm {κ α : Type} [Ord κ] [Std.TransOrd κ] [Std.LawfulEqOrd κ]
    [DecidableEq κ] (entries : List (κ × α)) :
    (Std.ExtTreeMap.ofList entries).toList.Subperm entries := by
  refine (nodup_toList _).subperm fun ⟨k, a⟩ hmem => ?_
  have hlast := Std.ExtTreeMap.mem_toList_iff_getElem?_eq_some.1 hmem
  obtain ⟨before, after, rfl, -⟩ := (holdsLast_ofList entries k a).1 hlast
  simp

namespace Codec

variable {α : Type} {c : Codec α}

theorem length_write_sequence_le {xs ys : List α} (h : xs.Subperm ys) :
    ((sequence c).write xs).length ≤ ((sequence c).write ys).length := by
  obtain ⟨zs, hperm, hsublist⟩ := h
  have hvalues : (xs.flatMap c.write).Subperm (ys.flatMap c.write) :=
    ⟨zs.flatMap c.write, hperm.flatMap_right _, hsublist.flatMap _⟩
  simp only [sequence, number, List.length_append, length_littleEndian]
  exact Nat.add_le_add_left hvalues.length_le _

/-- A snapshot takes no more bytes than those that it was read from. -/
theorem length_write_le {payload : Bytes} {s : Snapshot} (h : Grammar.snapshot payload s)
    (hlt : payload.length < 2 ^ 64) : (snapshot.write s).length ≤ payload.length := by
  obtain ⟨vs, ts, hentries, hvs, hts⟩ := h
  obtain rfl := (follows_entries hlt).1 hentries
  have hvotes := length_write_sequence_le (c := voteEntry) (toList_ofList_subperm vs)
  have htallies := length_write_sequence_le (c := tallyEntry) (toList_ofList_subperm ts)
  rw [← holdsLast_iff.1 hvs] at hvotes
  rw [← holdsLast_iff.1 hts] at htallies
  show (entries.write (s.votes.toList, s.tallies.toList)).length ≤ _
  simp only [entries, pair, List.length_append] at hvotes htallies ⊢
  omega

end Codec

namespace FileFormat

variable {f g : FileFormat} {s : Snapshot} {b : Bytes}

/-- **What was read can be written**, in another format as well. -/
theorem exists_encode_of_decode (hf : f.header.length ≤ sizeLimit)
    (hg : g.header.length ≤ sizeLimit) (h : f.decode b = .ok s) : ∃ b', g.encode s = .ok b' := by
  obtain ⟨body, -, payload, rest, -, hpayload, hs⟩ := (decode_eq_ok hf).1 h
  have hle := Codec.length_write_le hs (Nat.lt_of_le_of_lt hpayload sizeLimit_lt)
  exact ⟨_, encode_eq_ok.2 ⟨hg, hle.trans hpayload, rfl⟩⟩

/-- The file of one network is foreign to every other one. -/
theorem decode_of_other_network (hf : f.header.length ≤ sizeLimit)
    (hmessage : g.message = f.message) (hnetwork : g.network ≠ f.network) (h : f.decode b = .ok s) :
    g.decode b = .error .wrongNetwork := by
  obtain ⟨body, rfl, payload, rest, rfl, -, -⟩ := (decode_eq_ok hf).1 h
  have hheader : g.header = f.header := by rw [header, header, messageBytes_inj.2 hmessage]
  rw [← hheader] at hf ⊢
  rw [decode_header hf]
  refine decodeRest_of_foreign ⟨_, _, rfl, f.network.length_bytes, fun he => ?_⟩
  exact hnetwork (FixedBytes.ext he).symm

end FileFormat

theorem Store.dump_eq_ok {store : Store} {content : Option Bytes} {snapshot : Snapshot} {b : Bytes}
    (hmessage : store.format.header.length ≤ FileFormat.sizeLimit) :
    store.dump content snapshot = .ok b ↔
      store.Replaces content ∧ store.format.encode snapshot = .ok b := by
  by_cases h : store.Replaces content
  · simp [dump_of_replaces h, h]
  · obtain ⟨bytes, cause, rfl, hdecode, rfl | rfl | rfl⟩ := decode_of_not_replaces hmessage h <;>
      simp [dump, read, hdecode, h]

/-! ## The tool -/

namespace Tool

variable {settings : Settings} {network targetNetwork : Network} {d after : Disk}
  {output toNetwork : Option String} {snapshot : Snapshot}

theorem header_storeIn (directory : String) (network : Network) :
    (storeIn directory network).format.header.length ≤ FileFormat.sizeLimit := by
  show ({ network := Network.main.magic } : FileFormat).header.length ≤ FileFormat.sizeLimit
  decide +kernel

/-! ### A run -/

theorem during_eq_ok {α : Type} {activity : String} {r : Except FileFailure α} {a : α} :
    during activity r = .ok a ↔ r = .ok a := by
  cases r <;> simp [during, Except.mapError]

theorem findNetwork_eq_ok {name : String} :
    findNetwork name = .ok network ↔ Network.byName? name = some network := by
  unfold findNetwork
  split <;> simp_all

/-- Where a snapshot is saved again to. -/
def target (settings : Settings) (output : Option String) (network : Network) : Store :=
  storeIn (output.getD settings.dataDir) network

/-- A snapshot of a network is in the file of the settings, and may be saved again for another
network. -/
structure Resaves (settings : Settings) (output toNetwork : Option String) (d : Disk)
    (network targetNetwork : Network) (snapshot : Snapshot) : Prop where
  source : Network.byName? settings.network = some network
  read : (storeIn settings.dataDir network).read
    (d.content (storeIn settings.dataDir network).path) = .ok snapshot
  destination : toNetwork.elim (some network) Network.byName? = some targetNetwork
  replaces : (target settings output targetNetwork).Replaces
    (d.content (target settings output targetNetwork).path)

/-- A node without a chain and a registry drops nothing of what it loads. -/
theorem restore_offline {store : Store} {content : Option Bytes}
    (h : store.read content = .ok snapshot) (network : Network) : ∃ node,
      store.restore content (offlineNode network) = (node, .ok ()) ∧
        node.ledger.snapshot = snapshot := by
  simp only [Store.restore, h]
  exact ⟨_, rfl, rfl⟩

theorem restore_unread {store : Store} {content : Option Bytes} {cause : FileFailure}
    (h : store.read content = .error cause) (n : Node) : ∃ node,
      store.restore content n = (node, .error cause) := by
  cases cause <;> simp [Store.restore, h]

theorem resave_eq_ok : resave settings network d output toNetwork = .ok after ↔
    ∃ snapshot targetNetwork b, (storeIn settings.dataDir network).read
        (d.content (storeIn settings.dataDir network).path) = .ok snapshot ∧
      toNetwork.elim (some network) Network.byName? = some targetNetwork ∧
      (target settings output targetNetwork).Replaces
        (d.content (target settings output targetNetwork).path) ∧
      (target settings output targetNetwork).format.encode snapshot = .ok b ∧
      d.replace (target settings output targetNetwork).path b = after := by
  cases hread : (storeIn settings.dataDir network).read
      (d.content (storeIn settings.dataDir network).path) with
  | error cause =>
    obtain ⟨node, hrestore⟩ := restore_unread hread (offlineNode network)
    simp [resave, hrestore, bind_eq_ok, during_eq_ok]
  | ok snapshot =>
    obtain ⟨node, hrestore, hkept⟩ := restore_offline hread network
    cases toNetwork <;>
      simp [resave, hrestore, hkept, bind_eq_ok, map_eq_ok, during_eq_ok, findNetwork_eq_ok, target,
        Store.dump_eq_ok (header_storeIn _ _), and_assoc]

/-- What decides on a run. -/
theorem run_eq_ok_of_resave {i : Invocation} (hi : i.command = .resave output toNetwork)
    {result : String × Disk} : run settings i d = .ok result ↔
      ∃ network targetNetwork snapshot b,
        Resaves (settings.override i) output toNetwork d network targetNetwork snapshot ∧
        (target (settings.override i) output targetNetwork).format.encode snapshot = .ok b ∧
        ("", d.replace (target (settings.override i) output targetNetwork).path b) = result := by
  simp only [run, hi, bind_eq_ok, findNetwork_eq_ok, pure_eq_ok, resave_eq_ok]
  constructor
  · rintro ⟨network, hsource, _, ⟨_, _, b, hread, hdestination, hreplaces, hb, rfl⟩, rfl⟩
    exact ⟨_, _, _, b, ⟨hsource, hread, hdestination, hreplaces⟩, hb, rfl⟩
  · rintro ⟨network, targetNetwork, snapshot, b, h, hb, rfl⟩
    exact ⟨_, h.source, _, ⟨_, _, b, h.read, h.destination, h.replaces, hb, rfl⟩, rfl⟩

theorem Resaves.exists_encode
    (h : Resaves settings output toNetwork d network targetNetwork snapshot) :
    ∃ b, (target settings output targetNetwork).format.encode snapshot = .ok b := by
  have hread := h.read
  unfold Store.read at hread
  split at hread
  · exact FileFormat.exists_encode_of_decode (header_storeIn _ _) (header_storeIn _ _) hread
  · cases hread

/-- Where the snapshot is saved in the file that it is in, the network is the same. -/
theorem Resaves.same_network
    (h : Resaves settings output toNetwork d network targetNetwork snapshot)
    (hplace : d.place (target settings output targetNetwork).path =
      d.place (storeIn settings.dataDir network).path) :
    network.magic = targetNetwork.magic := by
  have hread := h.read
  have hreplaces := h.replaces
  have hcontent : d.content (target settings output targetNetwork).path =
      d.content (storeIn settings.dataDir network).path := by
    rw [Disk.content, hplace, Disk.content]
  -- Were it another one, the file would be foreign to it and would not be replaced.
  by_contra hne
  rw [hcontent] at hreplaces
  cases hfile : d.content (storeIn settings.dataDir network).path with
  | none => simp [hfile, Store.read] at hread
  | some b =>
    rw [hfile] at hread hreplaces
    have hforeign : (target settings output targetNetwork).format.decode b = .error .wrongNetwork :=
      FileFormat.decode_of_other_network (header_storeIn settings.dataDir network) rfl
        (Ne.symm hne) hread
    simp [Store.replaces_some, hforeign] at hreplaces

/-- The file that a snapshot is read from is not the temporary file of the one it is written to. -/
theorem source_ne_temporary (d : Disk) (settings : Settings) (output : Option String)
    (network targetNetwork : Network) : d.place (storeIn settings.dataDir network).path ≠
      d.place (temporaryPath (target settings output targetNetwork).path) :=
  d.place_ne_temporary settings.dataDir (output.getD settings.dataDir)

/-- A second run finds the snapshot again, also if it is in the file that the first one wrote. -/
theorem Resaves.again (h : Resaves settings output toNetwork d network targetNetwork snapshot)
    {b : Bytes} (hb : (target settings output targetNetwork).format.encode snapshot = .ok b) :
    Resaves settings output toNetwork (d.replace (target settings output targetNetwork).path b)
      network targetNetwork snapshot := by
  have hsaved : (target settings output targetNetwork).format.decode b = .ok snapshot := by
    rw [FileFormat.decode_encode hb, if_pos rfl, if_pos rfl]
  refine ⟨h.source, ?_, h.destination, ?_⟩
  · rw [Disk.content_replace]
    split
    · next hplace =>
      have hnetwork := h.same_network hplace
      show (storeIn settings.dataDir network).format.decode b = .ok snapshot
      rw [FileFormat.decode_encode hb]
      exact (if_pos rfl).trans (if_pos hnetwork)
    · rw [if_neg (source_ne_temporary d settings output network targetNetwork).symm]
      exact h.read
  · rw [Disk.content_replace_self, Store.replaces_some]
    exact .inl ⟨snapshot, hsaved⟩

/-- The disk after a run; a failure leaves it as it was. -/
def diskAfter (settings : Settings) (i : Invocation) (d : Disk) : Disk :=
  match run settings i d with
  | .ok (_, after) => after
  | .error _ => d

/-- **A snapshot is carried over unchanged, or nothing happens.** It is saved again exactly if it
can be read, the network to save it for is known, and the file to save it in may be replaced. Then
that file holds the very same snapshot, and doing it again changes nothing. The temporary file is
not there, whether or not there was one before, and it is never the file that was read. All other
files are as before. Otherwise the whole disk stays as it was. -/
theorem resave_carries_over (settings : Settings) (i : Invocation) (d : Disk)
    (hi : i.command = .resave output toNetwork) :
    ((∃ result, run settings i d = .ok result) ↔ ∃ network targetNetwork snapshot,
      Resaves (settings.override i) output toNetwork d network targetNetwork snapshot) ∧
    (∀ network targetNetwork snapshot,
      Resaves (settings.override i) output toNetwork d network targetNetwork snapshot →
      let source := storeIn (settings.override i).dataDir network
      let store := target (settings.override i) output targetNetwork
      d.place source.path ≠ d.place (temporaryPath store.path) ∧
      ∃ after, run settings i d = .ok ("", after) ∧
        store.read (after.content store.path) = .ok snapshot ∧
        after.content (temporaryPath store.path) = none ∧
        (∀ path, d.place path ≠ d.place store.path →
          d.place path ≠ d.place (temporaryPath store.path) →
          after.content path = d.content path) ∧
        run settings i after = .ok ("", after)) ∧
    ((∀ network targetNetwork snapshot,
      ¬Resaves (settings.override i) output toNetwork d network targetNetwork snapshot) →
      diskAfter settings i d = d) := by
  refine ⟨⟨?_, ?_⟩, ?_, ?_⟩
  · rintro ⟨result, hrun⟩
    obtain ⟨network, targetNetwork, snapshot, b, h, -, -⟩ := (run_eq_ok_of_resave hi).1 hrun
    exact ⟨network, targetNetwork, snapshot, h⟩
  · rintro ⟨network, targetNetwork, snapshot, h⟩
    obtain ⟨b, hb⟩ := h.exists_encode
    exact ⟨_, (run_eq_ok_of_resave hi).2 ⟨_, _, _, b, h, hb, rfl⟩⟩
  · intro network targetNetwork snapshot h source store
    obtain ⟨b, hb⟩ := h.exists_encode
    refine ⟨source_ne_temporary d _ output network targetNetwork, d.replace store.path b,
      (run_eq_ok_of_resave hi).2 ⟨_, _, _, b, h, hb, rfl⟩, ?_, ?_, ?_, ?_⟩
    · rw [Disk.content_replace_self]
      exact Store.read_dump ((Store.dump_of_replaces h.replaces).trans hb)
    · exact Disk.content_replace_temporary d _ b
    · intro path hpath htemporary
      rw [Disk.content_replace, if_neg hpath.symm, if_neg htemporary.symm]
    · refine (run_eq_ok_of_resave hi).2 ⟨_, _, _, b, h.again hb, hb, ?_⟩
      rw [Disk.replace_replace]
  · intro hnot
    unfold diskAfter
    split
    · next hrun =>
      obtain ⟨network, targetNetwork, snapshot, b, h, -, -⟩ := (run_eq_ok_of_resave hi).1 hrun
      exact absurd h (hnot _ _ _)
    · rfl

/-! ### A snapshot for another network -/

namespace Sample

/-- Saves the snapshot in the directory `old` again in `new`, for the test network. -/
def moving : Invocation := ⟨.resave (some "new") (some "testnet"), some "old", none⟩

/-- A disk with a snapshot in the directory `old`, and in `new` a temporary file that a run left
behind. -/
def disk (b : Bytes) : Disk :=
  ((⟨"/", ∅⟩ : Disk).write (storeIn "old" .main).path b).write
    (temporaryPath (storeIn "new" .test).path) [0]

theorem place_ne (b : Bytes) :
    (disk b).place (storeIn "old" .main).path ≠ (disk b).place (storeIn "new" .test).path := by
  show (⟨"/", ∅⟩ : Disk).place _ ≠ (⟨"/", ∅⟩ : Disk).place _
  decide +kernel

theorem content_disk (b : Bytes) :
    (disk b).content (storeIn "old" .main).path = some b ∧
      (disk b).content (temporaryPath (storeIn "new" .test).path) = some [0] ∧
      (disk b).content (storeIn "new" .test).path = none := by
  have hold := (⟨"/", ∅⟩ : Disk).place_ne_temporary "old" "new"
  have hnew := (⟨"/", ∅⟩ : Disk).place_ne_temporary "new" "new"
  refine ⟨?_, Disk.content_write_self _ _ _, ?_⟩
  · rw [disk, Disk.content_write]
    exact (if_neg hold.symm).trans (Disk.content_write_self _ _ _)
  · rw [disk, Disk.content_write]
    refine (if_neg hnew.symm).trans ?_
    rw [Disk.content_write]
    exact (if_neg (place_ne b)).trans (by simp [Disk.content])

theorem resaves_disk {b : Bytes}
    (hb : (storeIn "old" .main).format.encode MasternodePayments.Sample.twoKinds = .ok b) :
    Resaves ⟨"old", "mainnet"⟩ (some "new") (some "testnet") (disk b) .main .test
      MasternodePayments.Sample.twoKinds where
  source := by decide
  read := by
    rw [(content_disk b).1]
    exact (FileFormat.decode_encode hb).trans (by simp)
  destination := by decide
  replaces := by
    show (storeIn "new" .test).Replaces ((disk b).content (storeIn "new" .test).path)
    rw [(content_disk b).2.2]
    exact Store.replaces_none

end Sample

/-- It moves two votes from the main network to the test network, and clears a temporary file
away. -/
theorem resave_carries_over_moving : ∃ b after,
    (storeIn "old" .main).format.encode MasternodePayments.Sample.twoKinds = .ok b ∧
    Resaves ⟨"old", "mainnet"⟩ (some "new") (some "testnet") (Sample.disk b) .main .test
      MasternodePayments.Sample.twoKinds ∧
    (Sample.disk b).content (temporaryPath (storeIn "new" .test).path) = some [0] ∧
    run {} Sample.moving (Sample.disk b) = .ok ("", after) ∧
    (storeIn "new" .test).read (after.content (storeIn "new" .test).path) =
      .ok MasternodePayments.Sample.twoKinds ∧
    after.content (temporaryPath (storeIn "new" .test).path) = none ∧
    after.content (storeIn "old" .main).path = some b ∧
    run {} Sample.moving after = .ok ("", after) := by
  obtain ⟨b, hb⟩ : ∃ b, (storeIn "old" .main).format.encode MasternodePayments.Sample.twoKinds =
      .ok b := ⟨_, FileFormat.encode_eq_ok.2 ⟨by decide +kernel, by decide +kernel, rfl⟩⟩
  obtain ⟨hsource, hleft, -⟩ := Sample.content_disk b
  obtain ⟨-, hcarries, -⟩ := resave_carries_over {} Sample.moving (Sample.disk b) rfl
  obtain ⟨hapart, after, hrun, hread, htemporary, hothers, hagain⟩ :=
    hcarries _ _ _ (Sample.resaves_disk hb)
  refine ⟨b, after, hb, Sample.resaves_disk hb, hleft, hrun, hread, htemporary, ?_, hagain⟩
  exact (hothers _ (Sample.place_ne b) hapart).trans hsource

end Tool
end MasternodePayments
