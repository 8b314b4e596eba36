import Mathlib.Data.List.Forall2
import MasternodePayments.Proofs.Views

/-!
# Whom an address names

Payees are shown by an address, which is the text of their script. A script that pays to a digest is
shown by the digest, the empty script by a word, and any other script byte by byte. No two scripts
have the same text, because the text of a script can be read back (`Script.ofText?_text`): the first
character tells the three forms apart, and a script that shows its digest was built from it
(`Script.keyHash?_eq_some`).

So each address among the expected payments, in a report and in a listing names one script, that of
a candidate or of the budget (`Script.text_unambiguous`).
-/

namespace MasternodePayments

namespace Script

variable {script : Script} {digest : KeyHash}

/-! ## The form that pays to a digest -/

theorem keyHash?_payToKeyHash (digest : KeyHash) :
    keyHash? (payToKeyHash digest) = some digest := by
  have hlength := digest.length_bytes
  have htake : (payToKeyHash digest).take 3 = opening := by simp [payToKeyHash, opening]
  have hdrop : (payToKeyHash digest).drop 23 = closing := by
    simp [payToKeyHash, opening, hlength]
  have hmiddle : ((payToKeyHash digest).drop 3).take 20 = digest.bytes := by
    simp [payToKeyHash, opening, hlength]
  rw [keyHash?, if_pos ⟨htake, hdrop⟩, hmiddle, FixedBytes.ofBytes?_bytes]

/-- A script pays to a digest exactly if it was built from it. -/
theorem keyHash?_eq_some : keyHash? script = some digest ↔ script = payToKeyHash digest := by
  constructor
  · intro h
    unfold keyHash? at h
    split at h
    · next hform =>
      obtain ⟨hopening, hclosing⟩ := hform
      have hmiddle := FixedBytes.ofBytes?_eq_some.1 h
      calc script = script.take 3 ++ ((script.drop 3).take 20 ++ (script.drop 3).drop 20) := by
            simp only [List.take_append_drop]
        _ = payToKeyHash digest := by
            rw [hopening, ← hmiddle, List.drop_drop, hclosing, payToKeyHash, List.append_assoc]
    · cases h
  · rintro rfl
    exact keyHash?_payToKeyHash digest

theorem keyHash?_eq_none : keyHash? script = none ↔ ∀ digest, script ≠ payToKeyHash digest := by
  simp only [Option.eq_none_iff_forall_ne_some, ne_eq, keyHash?_eq_some]

/-! ## Reading a text back -/

/-- The mark in front of a digest. -/
def digestMark : List Char := "p2pkh:".toList

/-- The script that a text was made from. Text that was not made from a script may be read, too. -/
def ofText? (t : String) : Option Script :=
  if t = "<empty>" then some []
  else
    match digestMark.isPrefixOf? t.toList with
    | some digits => ((bytesOfDigits? digits).bind (FixedBytes.ofBytes? 20)).map payToKeyHash
    | none => ofHex? t

theorem ofText?_digest (digest : KeyHash) :
    ofText? ("p2pkh:" ++ hex digest.bytes) = some (payToKeyHash digest) := by
  have hlist : ("p2pkh:" ++ hex digest.bytes).toList =
      digestMark ++ digest.bytes.flatMap hexDigits := by
    simp [hex, digestMark]
  have hne : "p2pkh:" ++ hex digest.bytes ≠ "<empty>" := by
    intro h
    rw [h] at hlist
    simp [digestMark] at hlist
  have hmark : digestMark.isPrefixOf? (digestMark ++ digest.bytes.flatMap hexDigits) =
      some (digest.bytes.flatMap hexDigits) :=
    List.isPrefixOf?_eq_some_iff_append_eq.2 rfl
  rw [ofText?, if_neg hne, hlist, hmark]
  simp [bytesOfDigits?_hexDigits]

/-- Neither the word for the empty script nor a mark is mistaken for bytes. -/
theorem ofText?_hex (b : Bytes) : ofText? (hex b) = some b := by
  have hback := ofHex?_hex b
  have hne : hex b ≠ "<empty>" := by
    intro h
    rw [h] at hback
    exact absurd hback (by simp [ofHex?, bytesOfDigits?, digitValue?])
  have hmark : digestMark.isPrefixOf? (hex b).toList = none := by
    cases h : digestMark.isPrefixOf? (hex b).toList with
    | none => rfl
    | some digits =>
      rw [ofHex?, ← List.isPrefixOf?_eq_some_iff_append_eq.1 h] at hback
      simp [digestMark, bytesOfDigits?, digitValue?] at hback
  rw [ofText?, if_neg hne, hmark, hback]

/-- **The text of a script is read back.** -/
theorem ofText?_text (script : Script) : ofText? (text script) = some script := by
  unfold text
  cases h : keyHash? script with
  | some digest => rw [keyHash?_eq_some.1 h, ofText?_digest]
  | none =>
    cases script with
    | nil => rfl
    | cons b bs => exact ofText?_hex (b :: bs)

theorem text_inj {s t : Script} : text s = text t ↔ s = t := by
  constructor
  · intro h
    have hback := congrArg ofText? h
    simpa only [ofText?_text, Option.some.injEq] using hback
  · exact congrArg text

/-- The address that stands for nobody is not the text of a script. -/
theorem text_ne_unknown (script : Script) : text script ≠ ScheduledPayment.unknown.address := by
  have hunknown : ofText? ScheduledPayment.unknown.address = none := by decide
  intro h
  have hback := ofText?_text script
  rw [h, hunknown] at hback
  cases hback

end Script

/-! ## The scripts behind the addresses -/

/-- The address of a payment is the text of the script and of no other. -/
def ScheduledPayment.Names (p : ScheduledPayment) (script : Script) : Prop :=
  ∀ other, p.address = Script.text other ↔ other = script

theorem ScheduledPayment.names_ofScript (script : Script) (votes : UInt32) (tier : Tier) :
    (ofScript script votes tier).Names script := by
  intro other
  rw [ofScript, Script.text_inj]
  exact eq_comm

/-- The scripts of the candidates, in their order. -/
def Tally.scripts (t : Tally) : List Script := t.candidates.map (·.script)

theorem Tally.names_payments (t : Tally) :
    List.Forall₂ ScheduledPayment.Names t.payments t.scripts := by
  unfold payments scripts
  induction t.candidates with
  | nil => exact .nil
  | cons c cs ih => exact .cons (ScheduledPayment.names_ofScript _ _ _) ih

/-- The line of a listing names the scripts, or says that there are none. -/
def HeightPayments.Names (line : HeightPayments) (scripts : List Script) : Prop :=
  if scripts = [] then line.payments = [.unknown]
  else List.Forall₂ ScheduledPayment.Names line.payments scripts

namespace Ledger

variable {l : Ledger} {s : Setting} {height : Height}

/-- The scripts that are expected to be paid at a height, that of the budget on superblocks. -/
def expectedScripts (l : Ledger) (s : Setting) (height : Height) : List Script :=
  if s.isSuperblock height then (s.budget.payee.map (·.1)).toList else (l.tallyAt height).scripts

theorem names_payments (l : Ledger) (height : Height) :
    List.Forall₂ ScheduledPayment.Names (l.payments height) (l.tallyAt height).scripts := by
  unfold payments tallyAt
  cases l.tallies[height]? with
  | none => exact .nil
  | some t => exact t.names_payments

theorem names_expectedPayments (l : Ledger) (s : Setting) (height : Height) :
    List.Forall₂ ScheduledPayment.Names (l.expectedPayments s height)
      (l.expectedScripts s height) := by
  unfold expectedPayments expectedScripts
  split
  · next hsuper =>
    have hcovers : s.budget.covers height = true := by
      simp only [Setting.isSuperblock, Bool.and_eq_true] at hsuper
      exact hsuper.2
    unfold Budget.payments
    cases s.budget.payee with
    | none => exact .nil
    | some payee =>
      simp only [hcovers, if_true]
      exact .cons (ScheduledPayment.names_ofScript _ _ _) .nil
  · exact l.names_payments height

theorem names_listingAt (l : Ledger) (s : Setting) (height : Height) :
    (l.listingAt s height).Names (l.expectedScripts s height) := by
  have hnames := l.names_expectedPayments s height
  unfold HeightPayments.Names listingAt
  cases hpayments : l.expectedPayments s height with
  | nil =>
    rw [hpayments, List.forall₂_nil_left_iff] at hnames
    simp [hnames]
  | cons p ps =>
    rw [hpayments] at hnames
    have hne : l.expectedScripts s height ≠ [] := by
      intro h
      rw [h] at hnames
      cases hnames
    simpa [hne] using hnames

theorem names_listing? {back : UInt64} {part : Option String} {lines : List HeightPayments}
    (h : l.listing? s back part = .ok (some lines)) :
    ∀ line ∈ lines, line.Names (l.expectedScripts s line.height) := by
  cases htip : s.chain.tip? with
  | none => simp [listing?, htip] at h
  | some tip =>
    simp only [listing?, htip, bind_eq_ok, pure_eq_ok, Option.some.injEq] at h
    obtain ⟨last, -, rfl⟩ := h
    intro line hline
    obtain ⟨height, -, rfl⟩ := List.mem_map.1 (List.mem_of_mem_filter hline)
    exact l.names_listingAt s height

end Ledger

theorem Snapshot.names_report (s : Snapshot) (last : Option Nat) :
    ∀ h ∈ (s.report last).heights, ∃ tally, s.tallies[h.height]? = some tally ∧
      List.Forall₂ ScheduledPayment.Names h.payees tally.scripts := by
  intro h hm
  obtain ⟨⟨height, tally⟩, hentry, rfl⟩ := List.mem_map.1 hm
  have hstored := Std.ExtTreeMap.mem_toList_iff_getElem?_eq_some.1 (List.mem_of_mem_drop hentry)
  exact ⟨tally, hstored, tally.names_payments⟩

/-- **Scripts are recognised and shown without ambiguity.** A script pays to a digest exactly if it
was built from it. No two scripts have the same text, and none has that of the unknown payee. So the
addresses that are expected, listed or reported name one script each: that of a candidate, or of the
budget. -/
theorem Script.text_unambiguous :
    (∀ script digest, keyHash? script = some digest ↔ script = payToKeyHash digest) ∧
    (∀ script, keyHash? script = none ↔ ∀ digest, script ≠ payToKeyHash digest) ∧
    (∀ s t, text s = text t ↔ s = t) ∧
    (∀ script, text script ≠ ScheduledPayment.unknown.address) ∧
    (∀ (l : Ledger) (height : Height),
      List.Forall₂ ScheduledPayment.Names (l.payments height) (l.tallyAt height).scripts) ∧
    (∀ (l : Ledger) (s : Setting) (height : Height),
      List.Forall₂ ScheduledPayment.Names (l.expectedPayments s height)
        (l.expectedScripts s height)) ∧
    (∀ (l : Ledger) (s : Setting) (back : UInt64) (part : Option String)
      (lines : List HeightPayments), l.listing? s back part = .ok (some lines) →
        ∀ line ∈ lines, line.Names (l.expectedScripts s line.height)) ∧
    ∀ (s : Snapshot) (last : Option Nat), ∀ h ∈ (s.report last).heights,
      ∃ tally, s.tallies[h.height]? = some tally ∧
        List.Forall₂ ScheduledPayment.Names h.payees tally.scripts :=
  ⟨fun _ _ => keyHash?_eq_some, fun _ => keyHash?_eq_none, fun _ _ => text_inj, text_ne_unknown,
    Ledger.names_payments, Ledger.names_expectedPayments,
    fun _ _ _ _ _ => Ledger.names_listing?, Snapshot.names_report⟩

namespace Sample

/-- A script that pays to a digest. -/
def paying : Script := Script.payToKeyHash (.replicate 20 7)

/-- The same script but for its last byte. -/
def almostPaying : Script := paying.dropLast ++ [0xad]

/-- The empty script and these two are the candidates of height 1001. -/
def threeForms : Ledger :=
  { tallies := (∅ : Std.ExtTreeMap Height Tally).insert 1001
      ⟨1001, [⟨[], 1, 1⟩, ⟨paying, 1, 2⟩, ⟨almostPaying, 2, 1⟩]⟩ }

end Sample

open Sample in
/-- All three forms are told apart in the listing of the next height and in the report. -/
theorem Script.text_unambiguous_threeForms :
    (∃ lines, threeForms.listing? (setting {} [] 1001) 0 none = .ok (some lines) ∧
      ∃ line ∈ lines, line.height = 1001 ∧ line.Names [[], paying, almostPaying]) ∧
    ∃ h ∈ (threeForms.snapshot.report none).heights, h.height = 1001 ∧
      List.Forall₂ ScheduledPayment.Names h.payees [[], paying, almostPaying] := by
  obtain ⟨-, -, -, -, -, -, hlisting, hreport⟩ := text_unambiguous
  constructor
  · have hnames := hlisting threeForms (setting {} [] 1001) 0 none _ rfl
    exact ⟨_, rfl, _, List.mem_cons_self, rfl, hnames _ List.mem_cons_self⟩
  · obtain ⟨tally, htally, hnames⟩ := hreport threeForms.snapshot none _ List.mem_cons_self
    cases htally
    exact ⟨_, List.mem_cons_self, rfl, hnames⟩

end MasternodePayments
