import MasternodePayments.Vote.Rejection

/-!
# Results of operations that can fail

When a sequence of operations has a result, every one of them has one. `bind_eq_ok`, `map_eq_ok` and
`liftM_eq_ok` take such a sequence apart. `require` and `obtain?` are the steps at which it can end
with a refusal.
-/

namespace MasternodePayments

variable {ε α β : Type}

theorem ok_bind (a : α) (f : α → Except ε β) : Except.ok a >>= f = f a := rfl

theorem error_bind (e : ε) (f : α → Except ε β) : Except.error e >>= f = .error e := rfl

theorem bind_eq_ok {x : Except ε α} {f : α → Except ε β} {b : β} :
    (x >>= f) = .ok b ↔ ∃ a, x = .ok a ∧ f a = .ok b := by
  cases x <;> simp [bind, Except.bind]

theorem bind_eq_error {x : Except ε α} {f : α → Except ε β} {e : ε} :
    (x >>= f) = .error e ↔ x = .error e ∨ ∃ a, x = .ok a ∧ f a = .error e := by
  cases x <;> simp [bind, Except.bind]

theorem map_eq_ok {x : Except ε α} {f : α → β} {b : β} :
    (f <$> x) = .ok b ↔ ∃ a, x = .ok a ∧ f a = b := by
  cases x <;> simp [Functor.map, Except.map]

theorem map_eq_error {x : Except ε α} {f : α → β} {e : ε} :
    (f <$> x) = .error e ↔ x = .error e := by
  cases x <;> simp [Functor.map, Except.map]

theorem map_fst_eq_ok {x : Except ε (α × β)} {a : α} :
    (Prod.fst <$> x) = .ok a ↔ ∃ b, x = .ok (a, b) := by
  simp only [map_eq_ok, Prod.exists, exists_eq_right, exists_and_right]

theorem pure_eq_ok {a b : α} : (pure a : Except ε α) = .ok b ↔ a = b := by
  simp [pure, Except.pure]

/-- Two sequences go on alike if all that matters of their first results is the same. -/
theorem bind_congr_of_map {γ : Type} {x y : Except ε α} {f : α → γ} {g h : α → Except ε β}
    (hxy : f <$> x = f <$> y) (hgh : ∀ a b, f a = f b → g a = h b) : x >>= g = y >>= h := by
  cases x with
  | error e =>
    cases y with
    | error e' => exact congrArg Except.error (Except.error.inj hxy)
    | ok b => cases hxy
  | ok a =>
    cases y with
    | error e' => cases hxy
    | ok b => exact hgh a b (Except.ok.inj hxy)

/-- An overflow-checked operation has the same result among operations that also reject. -/
theorem liftM_eq_ok {x : Checked α} {a : α} :
    (liftM x : Except Fault α) = .ok a ↔ x = .ok a := by
  cases x with
  | error o =>
    constructor
    · intro h
      cases h
    · intro h
      cases h
  | ok b =>
    show Except.ok b = Except.ok a ↔ _
    simp only [Except.ok.injEq]

theorem map_liftM {f : α → β} {x : Checked α} :
    f <$> (liftM x : Except Fault α) = liftM (f <$> x) := by
  cases x <;> rfl

theorem liftM_ne_rejected {x : Checked α} {cause : Rejection} :
    (liftM x : Except Fault α) ≠ .error (.rejected cause) := by
  cases x <;> rintro ⟨⟩

theorem require_true (cause : Rejection) : require true cause = .ok () := rfl

theorem require_false (cause : Rejection) : require false cause = .error (.rejected cause) := rfl

theorem obtain?_some (a : α) (cause : Rejection) : obtain? (some a) cause = .ok a := rfl

theorem obtain?_none (cause : Rejection) :
    obtain? (none : Option α) cause = .error (.rejected cause) := rfl

theorem require_eq_rejected {condition : Bool} {cause cause' : Rejection} :
    require condition cause = .error (.rejected cause') ↔
      condition = false ∧ cause = cause' := by
  cases condition <;> simp [require, reject]

theorem obtain?_eq_rejected {value : Option α} {cause cause' : Rejection} :
    obtain? value cause = .error (.rejected cause') ↔ value = none ∧ cause = cause' := by
  cases value <;> simp [obtain?, reject]

end MasternodePayments
