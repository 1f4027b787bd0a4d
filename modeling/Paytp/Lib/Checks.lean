import Mathlib.Data.List.Basic
import Mathlib.Data.Option.Basic

/-!
# Chains of checks

A handler that checks its message step by step before it changes anything is a computation in
`Except`. What it returned says what every check found.
-/

namespace Paytp

universe u v w

variable {ε : Type u} {α β : Type v}

/-- Go on if the check holds. -/
def require (c : Bool) (e : ε) : Except ε PUnit.{v + 1} := if c then .ok ⟨⟩ else .error e

/-- `Option::ok_or`. -/
def okOr (o : Option α) (e : ε) : Except ε α :=
  match o with
  | some a => .ok a
  | none => .error e

@[simp] theorem require_eq_ok {c : Bool} {e : ε} {u : PUnit.{v + 1}} :
    require c e = .ok u ↔ c = true := by
  cases c <;> simp [require]

@[simp] theorem okOr_eq_ok {o : Option α} {e : ε} {a : α} : okOr o e = .ok a ↔ o = some a := by
  cases o <;> simp [okOr]

@[simp] theorem bind_eq_ok {x : Except ε α} {f : α → Except ε β} {b : β} :
    (x >>= f) = .ok b ↔ ∃ a, x = .ok a ∧ f a = .ok b := by
  cases x <;> simp [bind, Except.bind]

@[simp] theorem pure_eq_ok {a b : α} : (pure a : Except ε α) = .ok b ↔ a = b := by
  simp [pure, Except.pure]

@[simp] theorem map_eq_ok {x : Except ε α} {f : α → β} {b : β} :
    f <$> x = .ok b ↔ ∃ a, x = .ok a ∧ f a = b := by
  cases x <;> simp [Functor.map, Except.map]

@[simp] theorem mapError_eq_ok {ε' : Type w} {x : Except ε α} {f : ε → ε'} {a : α} :
    x.mapError f = .ok a ↔ x = .ok a := by
  cases x <;> simp [Except.mapError]

theorem require_eq_error {c : Bool} {e e' : ε} :
    (require c e : Except ε PUnit.{v + 1}) = .error e' ↔ c = false ∧ e = e' := by
  cases c <;> simp [require]

theorem okOr_eq_error {o : Option α} {e e' : ε} : okOr o e = .error e' ↔ o = none ∧ e = e' := by
  cases o <;> simp [okOr]

theorem bind_eq_error {x : Except ε α} {f : α → Except ε β} {e : ε} :
    (x >>= f) = .error e ↔ x = .error e ∨ ∃ a, x = .ok a ∧ f a = .error e := by
  cases x <;> simp [bind, Except.bind]

theorem toOption_eq_some {x : Except ε α} {a : α} : x.toOption = some a ↔ x = .ok a := by
  cases x <;> simp [Except.toOption]

/-- Checks of the members of a list that all pass. -/
theorem mapM_eq_ok {f : α → Except ε β} {p : α → Prop} {g : α → β}
    (hf : ∀ a b, f a = .ok b ↔ p a ∧ b = g a) : ∀ {l : List α} {bs : List β},
    l.mapM f = .ok bs ↔ (∀ a ∈ l, p a) ∧ bs = l.map g
  | [], bs => by
    rw [List.mapM_nil, pure_eq_ok]
    simp [eq_comm]
  | a :: l, bs => by
    rw [List.mapM_cons]
    simp only [bind_eq_ok, pure_eq_ok, hf, mapM_eq_ok hf]
    constructor
    · rintro ⟨_, ⟨ha, rfl⟩, _, ⟨hl, rfl⟩, rfl⟩
      exact ⟨List.forall_mem_cons.2 ⟨ha, hl⟩, rfl⟩
    · rintro ⟨hall, rfl⟩
      obtain ⟨ha, hl⟩ := List.forall_mem_cons.1 hall
      exact ⟨_, ⟨ha, rfl⟩, _, ⟨hl, rfl⟩, rfl⟩

theorem mapM_eq_some {f : α → Option β} {p : α → Prop} {g : α → β}
    (hf : ∀ a b, f a = some b ↔ p a ∧ b = g a) : ∀ {l : List α} {bs : List β},
    l.mapM f = some bs ↔ (∀ a ∈ l, p a) ∧ bs = l.map g
  | [], bs => by simp [eq_comm]
  | a :: l, bs => by
    rw [List.mapM_cons]
    simp only [Option.bind_eq_bind, Option.bind_eq_some_iff, Option.pure_def, Option.some.injEq,
      hf, mapM_eq_some hf]
    constructor
    · rintro ⟨_, ⟨ha, rfl⟩, _, ⟨hl, rfl⟩, rfl⟩
      exact ⟨List.forall_mem_cons.2 ⟨ha, hl⟩, rfl⟩
    · rintro ⟨hall, rfl⟩
      obtain ⟨ha, hl⟩ := List.forall_mem_cons.1 hall
      exact ⟨_, ⟨ha, rfl⟩, _, ⟨hl, rfl⟩, rfl⟩

end Paytp
