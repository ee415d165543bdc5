/-
Answers that may be errors.

A computation that gives an answer gave one at every step on the way.  These are the steps read
backwards, so that a proof can take a computation apart without opening what it is made of.
-/
namespace Tighten

variable {ε ε' α β : Type}

@[simp] theorem pure_eq_ok {a b : α} : (pure a : Except ε α) = .ok b ↔ a = b := by
  simp [pure, Except.pure]

@[simp] theorem bind_eq_ok {x : Except ε α} {f : α → Except ε β} {b : β} :
    x >>= f = .ok b ↔ ∃ a, x = .ok a ∧ f a = .ok b := by
  cases x <;> simp [bind, Except.bind]

@[simp] theorem map_eq_ok {x : Except ε α} {f : α → β} {b : β} :
    x.map f = .ok b ↔ ∃ a, x = .ok a ∧ f a = b := by
  cases x <;> simp [Except.map]

@[simp] theorem mapError_eq_ok {x : Except ε α} {f : ε → ε'} {a : α} :
    x.mapError f = .ok a ↔ x = .ok a := by
  cases x with
  | error e =>
      show Except.error (f e) = Except.ok a ↔ Except.error e = Except.ok a
      simp
  | ok b =>
      show Except.ok b = Except.ok a ↔ Except.ok b = Except.ok a
      simp

/-! ### Lists -/

theorem forM_eq_ok {check : α → Except ε Unit} {as : List α} (h : ∀ a ∈ as, check a = .ok ()) :
    as.forM check = .ok () := by
  induction as with
  | nil => rfl
  | cons a as ih =>
      show (check a >>= fun _ => as.forM check) = .ok ()
      rw [h a List.mem_cons_self]
      exact ih fun b hb => h b (List.mem_cons_of_mem a hb)

theorem mapM_eq_ok {f : α → Except ε β} {g : α → β} {as : List α}
    (h : ∀ a ∈ as, f a = .ok (g a)) : as.mapM f = .ok (as.map g) := by
  induction as with
  | nil => rfl
  | cons a as ih =>
      rw [List.mapM_cons, h a List.mem_cons_self, ih fun b hb => h b (List.mem_cons_of_mem a hb)]
      rfl

/-! ### Computations with a state

The state that was reached is kept also when the answer is an error.
-/

variable {τ : Type} {x : ExceptT ε (StateM τ) α} {f : α → ExceptT ε (StateM τ) β} {s s' : τ}

theorem run_bind_ok {a : α} (h : x.run.run s = (.ok a, s')) :
    (x >>= f).run.run s = (f a).run.run s' := by
  rw [ExceptT.run_bind, StateT.run_bind, h]
  rfl

theorem run_bind_error {e : ε} (h : x.run.run s = (.error e, s')) :
    (x >>= f).run.run s = (.error e, s') := by
  rw [ExceptT.run_bind, StateT.run_bind, h]
  rfl

/-- An error comes from the first part, or from the second once the first is done. -/
theorem run_bind_eq_error {e : ε} (h : (x >>= f).run.run s = (.error e, s')) :
    x.run.run s = (.error e, s') ∨
      ∃ a middle, x.run.run s = (.ok a, middle) ∧ (f a).run.run middle = (.error e, s') := by
  rcases hx : x.run.run s with ⟨answer, middle⟩
  cases answer with
  | error e' =>
      rw [run_bind_error hx, Prod.mk.injEq] at h
      rw [Except.error.inj h.1, h.2]
      exact Or.inl rfl
  | ok a =>
      rw [run_bind_ok hx] at h
      exact Or.inr ⟨a, middle, rfl, h⟩

/-- An answer is the second part's, once the first is done. -/
theorem run_bind_eq_ok {b : β} (h : (x >>= f).run.run s = (.ok b, s')) :
    ∃ a middle, x.run.run s = (.ok a, middle) ∧ (f a).run.run middle = (.ok b, s') := by
  rcases hx : x.run.run s with ⟨answer, middle⟩
  cases answer with
  | error e =>
      rw [run_bind_error hx] at h
      cases h
  | ok a =>
      rw [run_bind_ok hx] at h
      exact ⟨a, middle, rfl, h⟩

end Tighten
