import Mathlib.Logic.Function.Basic
import MasternodePayments.Proofs.Ledger.Contents
import MasternodePayments.Proofs.Node.Effect

/-!
# Notes about votes

A ledger does not remember what a vote counted for when it was admitted: the registry and the known
outputs may have changed since. `Notes` are kept beside the ledger and say it. A step notes
something about every vote that it newly stores (`Notes.after`) and leaves all other notes alone;
`Node.traceFrom` is the run of a node together with its notes.

* `Notes.Kept`: what an invariant of ledgers and notes has to withstand.
* `Notes.Kept.effect`: such an invariant is kept by every event but a restoration.
* `Node.traceFrom_keeps`: so it holds along every run without one.
* `Node.trace`: the run from a ledger without votes, with what each vote counted for.
-/

namespace MasternodePayments

/-- Something noted about the vote of each identity. -/
abbrev Notes (γ : Type) := Hash → γ

variable {γ : Type}

theorem Ledger.TakesIn.mem_votes {s : Setting} {l l' : Ledger} (h : TakesIn s l l') {id : Hash}
    (hid : id ∈ l.votes) : id ∈ l'.votes := by
  induction h with
  | refl => exact hid
  | vote _ _ hr ih => exact (mem_votes_record hr).2 (.inr ih)
  | noteCast _ _ ih => exact ih

namespace Notes

/-- The notes after a ledger turned into another one: each newly stored vote gets one. -/
def after (note : Vote → γ) (l l' : Ledger) (o : Notes γ) : Notes γ := fun id =>
  if id ∈ l.votes then o id
  else match l'.votes[id]? with
    | some v => note v
    | none => o id

section
variable {note : Vote → γ} {k l l' : Ledger} {o : Notes γ} {v : Vote} {a : Admission}

theorem after_eq_self (h : ∀ id, id ∈ l'.votes → id ∈ l.votes) : o.after note l l' = o := by
  funext id
  unfold after
  by_cases hid : id ∈ l.votes
  · exact if_pos hid
  · rw [if_neg hid, Std.ExtTreeMap.getElem?_eq_none fun h' => hid (h id h')]

/-- Of the votes taken in one after the other, the last one adds its own note. -/
theorem after_record (hsub : ∀ id, id ∈ l.votes → id ∈ k.votes) (ha : a.identity ∉ k.votes)
    (h : k.record v a = .ok l') :
    o.after note l l' = Function.update (o.after note l k) a.identity (note v) := by
  funext id
  unfold after
  rw [Ledger.getElem?_votes_record h]
  by_cases he : id = a.identity
  · rw [he, Function.update_self, if_neg fun h' => ha (hsub _ h'), if_pos rfl]
  · rw [Function.update_of_ne he, if_neg he]

/-- With a recorded vote there is one more note, the other ones are about the other votes. -/
theorem stored_record {id : Hash} {w : Vote} (x : γ) (ha : a.identity ∉ l.votes)
    (h : l.record v a = .ok l') (hw : l'.votes[id]? = some w) :
    id = a.identity ∧ w = v ∧ Function.update o a.identity x id = x ∨
      l.votes[id]? = some w ∧ Function.update o a.identity x id = o id := by
  rcases (Ledger.stored_record ha h).1 hw with ⟨rfl, rfl⟩ | hw
  · exact .inl ⟨rfl, rfl, Function.update_self ..⟩
  · refine .inr ⟨hw, Function.update_of_ne ?_ ..⟩
    rintro rfl
    exact ha (Ledger.mem_votes_iff.2 ⟨w, hw⟩)

end

/-! ## Invariants -/

/-- A property of ledgers and notes that is kept by whatever happens to a ledger between
restorations, the surroundings being as `S` says. -/
structure Kept (note : Setting → Vote → γ) (S : Setting → Prop) (P : Ledger → Notes γ → Prop) :
    Prop where
  record : ∀ {s l l' o v a}, S s → P l o → l.Admits s v a → l.record v a = .ok l' →
    P l' (Function.update o a.identity (note s v))
  noteCast : ∀ {l o} height, P l o → P { l with lastCast := height } o
  dropBelow : ∀ {l o} lowest, P l o → P (l.dropBelow lowest) o
  clear : ∀ {l o}, P l o → P l.clear o

variable {note : Setting → Vote → γ} {S : Setting → Prop} {P : Ledger → Notes γ → Prop}
  {s : Setting} {l l' : Ledger} {o : Notes γ} {e : Node.Event}

theorem Kept.mono {S' : Setting → Prop} (hP : Kept note S P) (h : ∀ s, S' s → S s) :
    Kept note S' P :=
  ⟨fun hs => hP.record (h _ hs), hP.noteCast, hP.dropBelow, hP.clear⟩

theorem Kept.and {Q : Ledger → Notes γ → Prop} (hP : Kept note S P) (hQ : Kept note S Q) :
    Kept note S fun l o => P l o ∧ Q l o where
  record hs h ha hr := ⟨hP.record hs h.1 ha hr, hQ.record hs h.2 ha hr⟩
  noteCast height h := ⟨hP.noteCast height h.1, hQ.noteCast height h.2⟩
  dropBelow lowest h := ⟨hP.dropBelow lowest h.1, hQ.dropBelow lowest h.2⟩
  clear h := ⟨hP.clear h.1, hQ.clear h.2⟩

theorem Kept.takesIn (hP : Kept note S P) (hs : S s) (h : P l o) (ht : Ledger.TakesIn s l l') :
    P l' (o.after (note s) l l') := by
  induction ht with
  | refl => rwa [after_eq_self fun _ h => h]
  | vote ht ha hr ih =>
    rw [after_record (fun _ => ht.mem_votes) ha.not_mem hr]
    exact hP.record hs ih ha hr
  | noteCast height _ ih => exact hP.noteCast height ih

theorem Kept.dropBelow_after (hP : Kept note S P) (lowest : Height) (h : P l o) :
    P (l.dropBelow lowest) (o.after (note s) l (l.dropBelow lowest)) := by
  rw [after_eq_self fun _ => Ledger.mem_of_mem_dropBelow]
  exact hP.dropBelow lowest h

theorem Kept.cleans (hP : Kept note S P) (h : P l o) (hc : Node.Cleans s l l') :
    P l' (o.after (note s) l l') := by
  rcases hc with rfl | ⟨tip, lowest, -, -, rfl⟩
  · rwa [after_eq_self fun _ h => h]
  · exact hP.dropBelow_after lowest h

/-- **What happens to a ledger keeps an invariant.** -/
theorem Kept.effect (hP : Kept note S P) (hs : S s) (h : P l o)
    (hr : ∀ snapshot, e ≠ .restore snapshot) (he : e.Effect s l l') :
    P l' (o.after (note s) l l') := by
  cases e with
  | prune height =>
    obtain ⟨lowest, -, rfl⟩ := he
    exact hP.dropBelow_after lowest h
  | clean => exact hP.cleans h he
  | maintain => exact hP.cleans h he
  | clear =>
    cases he
    rw [after_eq_self fun id hid => by simp [Ledger.clear] at hid]
    exact hP.clear h
  | restore snapshot => exact absurd rfl (hr snapshot)
  | _ => exact hP.takesIn hs h he

end Notes

/-! ## Runs with notes -/

namespace Node

variable {note : Setting → Vote → γ} {S : Setting → Prop} {P : Ledger → Notes γ → Prop}
  {n m : Node} {o o' : Notes γ} {es : List Event}

def traceFrom (note : Setting → Vote → γ) (n : Node) (o : Notes γ) :
    List Event → Checked (Node × Notes γ)
  | [] => .ok (n, o)
  | e :: es => do
    let m ← n.step e
    m.traceFrom note (o.after (note n.setting) n.ledger m.ledger) es

/-- Notes do not influence a run. -/
theorem exists_traceFrom (h : n.run es = .ok m) (o : Notes γ) :
    ∃ o', n.traceFrom note o es = .ok (m, o') := by
  induction h using run_induction generalizing o with
  | nil => exact ⟨o, rfl⟩
  | @cons n k _ _ hk h ih =>
    obtain ⟨o', ho'⟩ := ih (o.after (note n.setting) n.ledger k.ledger)
    exact ⟨o', by rw [traceFrom, hk]; exact ho'⟩

/-- **An invariant holds along every run** without a restoration, if the surroundings stay as they
have to be. -/
theorem traceFrom_keeps (hP : Notes.Kept note S P) (hs : S n.setting) (h : P n.ledger o)
    (hes : ∀ e ∈ es, (∀ snapshot, e ≠ .restore snapshot) ∧ ∀ s, S s → S (e.settingAfter s))
    (ht : n.traceFrom note o es = .ok (m, o')) : S m.setting ∧ P m.ledger o' := by
  induction es generalizing n o with
  | nil =>
    cases ht
    exact ⟨hs, h⟩
  | cons e es ih =>
    obtain ⟨k, hk, ht⟩ := bind_eq_ok.1 ht
    obtain ⟨hset, heff⟩ := step_effect hk
    obtain ⟨hr, hS⟩ := hes e List.mem_cons_self
    refine ih ?_ (hP.effect hs h hr heff) (fun e' he' => hes e' (List.mem_cons_of_mem _ he')) ht
    rw [hset]
    exact hS _ hs

end Node

/-! ## Origins -/

/-- What the votes counted for when they were admitted, each for a script in a tier. -/
abbrev Origins := Notes (Option (Script × Tier))

/-- What a vote would count for now. -/
def Setting.origin? (s : Setting) (v : Vote) : Option (Script × Tier) := s.resolve? v.payee

/-- The node after a run, with the origins of the votes taken in on the way. -/
def Node.trace (n : Node) (es : List Node.Event) : Checked (Node × Origins) :=
  n.traceFrom Setting.origin? (fun _ => none) es
end MasternodePayments
