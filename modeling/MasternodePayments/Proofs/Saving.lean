import MasternodePayments.Proofs.Reload
import MasternodePayments.Proofs.Snapshot.Grammar

/-!
# Saving and loading

What becomes of a node and of its file depends on what is wrong with the file, if anything. A save
replaces a file only if there is none, or if it is one of this format and network
(`Store.replaces_iff`); any other file stays as it is. Loading takes over what can be read, empties
the ledger if only the payload of the file is wrong, and leaves the ledger alone otherwise
(`Host.dump_and_load`).
-/

namespace MasternodePayments

namespace Store

variable {store : Store} {content : Option Bytes} {bytes : Bytes} {snapshot : Snapshot}

/-- The files that a save replaces: none at all, one that can be read, and one of which only the
payload cannot. -/
def Replaces (store : Store) (content : Option Bytes) : Prop :=
  ∀ bytes, content = some bytes →
    (∃ snapshot, store.format.decode bytes = .ok snapshot) ∨
      ∃ cause, store.format.decode bytes = .error (.malformed cause)

theorem replaces_none : store.Replaces none := by
  rintro bytes ⟨⟩

theorem replaces_some : store.Replaces (some bytes) ↔
    (∃ snapshot, store.format.decode bytes = .ok snapshot) ∨
      ∃ cause, store.format.decode bytes = .error (.malformed cause) := by
  simp [Replaces]

/-- **The files that a save replaces**, byte by byte: the checksum is right, the message is the one
of the format, and no other network follows. -/
theorem replaces_iff (hmessage : store.format.header.length ≤ FileFormat.sizeLimit) :
    store.Replaces (some bytes) ↔ ∃ tail,
      bytes = FileFormat.sealed (store.format.header ++ tail) ∧ ¬store.format.Foreign tail := by
  rw [replaces_some]
  constructor
  · rintro (⟨snapshot, h⟩ | h)
    · obtain ⟨body, rfl, haccepts⟩ := (FileFormat.decode_eq_ok hmessage).1 h
      obtain ⟨payload, rest, rfl, -, -⟩ := haccepts
      refine ⟨_, rfl, ?_⟩
      rintro ⟨four, others, heq, hlength, hne⟩
      exact hne (List.append_inj heq (store.format.network.length_bytes.trans hlength.symm)).1.symm
    · obtain ⟨tail, rfl, hforeign, -⟩ := (FileFormat.decode_eq_malformed hmessage).1 h
      exact ⟨tail, rfl, hforeign⟩
  · rintro ⟨tail, rfl, hforeign⟩
    by_cases haccepts : ∃ s, store.format.Accepts (store.format.header ++ tail) s
    · obtain ⟨s, hs⟩ := haccepts
      exact .inl ⟨s, FileFormat.decode_of_accepts hmessage hs⟩
    · exact .inr ((FileFormat.decode_eq_malformed hmessage).2
        ⟨tail, rfl, hforeign, not_exists.1 haccepts⟩)

/-- What a file that is not replaced is refused for. -/
theorem decode_of_not_replaces (hmessage : store.format.header.length ≤ FileFormat.sizeLimit)
    (h : ¬store.Replaces content) : ∃ bytes cause, content = some bytes ∧
      store.format.decode bytes = .error cause ∧
      (cause = .corrupted ∨ cause = .wrongMagic ∨ cause = .wrongNetwork) := by
  cases content with
  | none => exact absurd replaces_none h
  | some bytes =>
    rw [replaces_some] at h
    have hanswers := FileFormat.decode_answers hmessage bytes
    cases hdecode : store.format.decode bytes with
    | ok snapshot => exact absurd (.inl ⟨snapshot, hdecode⟩) h
    | error cause =>
      refine ⟨bytes, cause, rfl, hdecode, ?_⟩
      rw [hdecode] at hanswers
      cases hanswers with
      | corrupted => exact .inl rfl
      | wrongMagic => exact .inr (.inl rfl)
      | wrongNetwork => exact .inr (.inr rfl)
      | malformed cause' => exact absurd (.inr ⟨cause', hdecode⟩) h

theorem dump_of_replaces (h : store.Replaces content) :
    store.dump content snapshot = store.format.encode snapshot := by
  cases content with
  | none => rfl
  | some bytes =>
    rcases replaces_some.1 h with ⟨s, hs⟩ | ⟨cause, hs⟩ <;> simp only [dump, read, hs]

end Store

namespace Host

variable {h : Host} {store : Store} {b : Bytes} {cause : FileFailure}

/-- The host with the ledger of a snapshot. -/
def taking (h : Host) (snapshot : Snapshot) : Host :=
  { h with node := { h.node with ledger := h.node.ledger.restore h.node.setting snapshot } }

/-- The host with an empty ledger. -/
def emptied (h : Host) : Host := { h with node := { h.node with ledger := h.node.ledger.clear } }

theorem dump_of_replaces (hb : store.format.encode h.node.ledger.snapshot = .ok b)
    (hr : store.Replaces h.file) : h.dump store = ({ h with file := some b }, .ok ()) := by
  simp only [dump, Store.dump_of_replaces hr, hb]

theorem dump_of_refused (hr : store.read h.file = .error cause)
    (hcause : cause = .corrupted ∨ cause = .wrongMagic ∨ cause = .wrongNetwork) :
    h.dump store = (h, .error cause) := by
  obtain rfl | rfl | rfl := hcause <;> simp only [dump, Store.dump, hr]

theorem dump_of_not_replaces (hmessage : store.format.header.length ≤ FileFormat.sizeLimit)
    (hr : ¬store.Replaces h.file) : ∃ bytes cause, h.file = some bytes ∧
      store.format.decode bytes = .error cause ∧
      (cause = .corrupted ∨ cause = .wrongMagic ∨ cause = .wrongNetwork) ∧
      h.dump store = (h, .error cause) := by
  obtain ⟨bytes, cause, hfile, hdecode, hcause⟩ := Store.decode_of_not_replaces hmessage hr
  have hread : store.read h.file = .error cause := by rw [hfile, ← hdecode, Store.read]
  exact ⟨bytes, cause, hfile, hdecode, hcause, dump_of_refused hread hcause⟩

/-- What is read is taken over, and then pruned at the tip unless it is a dry run. -/
theorem load_of_read {snapshot : Snapshot} (hr : store.read h.file = .ok snapshot) :
    h.load store true = .ok (h.taking snapshot, .ok ()) ∧
    h.load store false = (fun r => ({ h with node := r.1 }, .ok ())) <$>
      (h.taking snapshot).node.clean := by
  have htrue : store.load h.file h.node true = .ok ((h.taking snapshot).node, .ok ()) :=
    Store.load_of_read hr true
  have hfalse : store.load h.file h.node false =
      (fun r => (r.1, .ok ())) <$> (h.taking snapshot).node.clean := Store.load_of_read hr false
  rw [load, load, htrue, hfalse]
  refine ⟨rfl, ?_⟩
  cases (h.taking snapshot).node.clean <;> rfl

theorem load_of_malformed {cause : Malformation} (hr : store.read h.file = .error (.malformed cause))
    (dryRun : Bool) : h.load store dryRun = .ok (h.emptied, .error (.malformed cause)) := by
  simp only [load, Store.load, Store.restore, hr]
  rfl

theorem load_of_unread (hr : store.read h.file = .error cause)
    (hcause : ∀ reason, cause ≠ .malformed reason) (dryRun : Bool) :
    h.load store dryRun = .ok (h, .error cause) := by
  cases cause with
  | malformed reason => exact absurd rfl (hcause reason)
  | _ =>
    simp only [load, Store.load, Store.restore, hr]
    rfl

/-- **A save never destroys another file, and no save is lost.** Whatever the file of a host holds,
a ledger that can be written at all is saved exactly if the file may be replaced, that is, if there
is none or it is one of this format and network, and then it can be read back. Any other file stays,
for the cause that reading it gives. Loading takes over what can be read, and prunes it unless it is
a dry run; if only the payload is wrong, it empties the ledger; else nothing happens. -/
theorem dump_and_load (h : Host) (store : Store) :
    (∀ b, store.format.encode h.node.ledger.snapshot = .ok b →
      ((h.dump store).2 = .ok () ↔ store.Replaces h.file) ∧
      (∀ bytes, store.Replaces (some bytes) ↔ ∃ tail,
        bytes = FileFormat.sealed (store.format.header ++ tail) ∧ ¬store.format.Foreign tail) ∧
      (store.Replaces h.file → h.dump store = ({ h with file := some b }, .ok ()) ∧
        store.read (some b) = .ok h.node.ledger.snapshot) ∧
      (¬store.Replaces h.file → ∃ bytes cause, h.file = some bytes ∧
        store.format.decode bytes = .error cause ∧
        (cause = .corrupted ∨ cause = .wrongMagic ∨ cause = .wrongNetwork) ∧
        h.dump store = (h, .error cause))) ∧
    (∀ snapshot, store.read h.file = .ok snapshot →
      (h.taking snapshot).node.ledger.snapshot = snapshot ∧
      h.load store true = .ok (h.taking snapshot, .ok ()) ∧
      h.load store false = (fun r => ({ h with node := r.1 }, .ok ())) <$>
        (h.taking snapshot).node.clean) ∧
    (∀ cause, store.read h.file = .error (.malformed cause) → ∀ dryRun,
      h.load store dryRun = .ok (h.emptied, .error (.malformed cause)) ∧
      h.emptied.node.ledger.votes = ∅ ∧ h.emptied.node.ledger.ballots = ∅ ∧
      h.emptied.node.ledger.tallies = ∅) ∧
    ∀ cause, store.read h.file = .error cause → (∀ reason, cause ≠ .malformed reason) →
      ∀ dryRun, h.load store dryRun = .ok (h, .error cause) := by
  refine ⟨fun b hb => ?_, fun snapshot hread => ⟨rfl, load_of_read hread⟩,
    fun cause hread dryRun => ⟨load_of_malformed hread dryRun, rfl, rfl, rfl⟩,
    fun cause hread hcause dryRun => load_of_unread hread hcause dryRun⟩
  have hmessage : store.format.header.length ≤ FileFormat.sizeLimit :=
    (FileFormat.encode_eq_ok.1 hb).1
  have hsaved : store.Replaces h.file → h.dump store = ({ h with file := some b }, .ok ()) :=
    dump_of_replaces hb
  refine ⟨⟨fun hok => ?_, fun hr => by rw [hsaved hr]⟩, fun bytes => Store.replaces_iff hmessage,
    fun hr => ⟨hsaved hr, ?_⟩, dump_of_not_replaces hmessage⟩
  · by_contra hr
    obtain ⟨bytes, cause, -, -, -, hdump⟩ := dump_of_not_replaces hmessage hr
    rw [hdump] at hok
    cases hok
  · exact Store.read_dump ((Store.dump_of_replaces hr).trans hb)

end Host

/-! ## A file of another network -/

namespace Sample

/-- A node that took two votes over. -/
def keeper : Node where
  setting := twoVoters 2010
  ledger := Ledger.restore {} (twoVoters 2010) twoKinds

def testFormat : FileFormat := { network := Network.test.magic }

theorem decode_testFormat {b : Bytes} (h : testFormat.encode twoKinds = .ok b) :
    store.format.decode b = .error .wrongNetwork := by
  have hmessage : store.format.message = testFormat.message := rfl
  have hnetwork : store.format.network ≠ testFormat.network := by decide
  rw [FileFormat.decode_encode h, if_pos hmessage, if_neg hnetwork]

end Sample

/-- It saves them where there is no file, and neither saves nor loads where there is the file of a
node of the test network. -/
theorem Host.dump_and_load_foreign : ∃ b bytes : Bytes,
    Sample.testFormat.encode Sample.twoKinds = .ok bytes ∧
    (⟨Sample.keeper, none⟩ : Host).dump Sample.store = (⟨Sample.keeper, some b⟩, .ok ()) ∧
    (⟨Sample.keeper, some bytes⟩ : Host).dump Sample.store =
      (⟨Sample.keeper, some bytes⟩, .error .wrongNetwork) ∧
    (⟨Sample.keeper, some bytes⟩ : Host).load Sample.store false =
      .ok (⟨Sample.keeper, some bytes⟩, .error .wrongNetwork) := by
  obtain ⟨b, hb⟩ : ∃ b, Sample.store.format.encode Sample.twoKinds = .ok b :=
    ⟨_, FileFormat.encode_eq_ok.2 ⟨by decide +kernel, by decide +kernel, rfl⟩⟩
  obtain ⟨bytes, hbytes⟩ : ∃ bytes, Sample.testFormat.encode Sample.twoKinds = .ok bytes :=
    ⟨_, FileFormat.encode_eq_ok.2 ⟨by decide +kernel, by decide +kernel, rfl⟩⟩
  have hread := Sample.decode_testFormat hbytes
  have hkept : ¬Sample.store.Replaces (some bytes) := by
    rw [Store.replaces_some, hread]
    rintro (⟨_, ⟨⟩⟩ | ⟨_, ⟨⟩⟩)
  obtain ⟨hsave, -⟩ := dump_and_load ⟨Sample.keeper, none⟩ Sample.store
  obtain ⟨hrefuse, -, -, hload⟩ := dump_and_load ⟨Sample.keeper, some bytes⟩ Sample.store
  obtain ⟨-, -, hsaved, -⟩ := hsave b hb
  obtain ⟨-, -, -, hrefused⟩ := hrefuse b hb
  obtain ⟨bytes', cause, hfile, hdecode, -, hdump⟩ := hrefused hkept
  cases hfile
  cases hdecode.symm.trans hread
  exact ⟨b, bytes, hbytes, (hsaved Store.replaces_none).1, hdump,
    hload .wrongNetwork hread (fun _ => by simp) false⟩

end MasternodePayments
