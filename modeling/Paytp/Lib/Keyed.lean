import Mathlib.Algebra.BigOperators.Group.List.Basic
import Mathlib.Data.List.Nodup

/-!
# Keyed lists

A list of keys and values with every key at most once: binding a key puts it in front and takes
its old value out. A sum over the list moves by what the value of one key contributes.
-/

namespace Paytp

namespace Keyed

universe u v w

variable {K : Type u} {V : Type v} {l : List (K × V)} {k : K} {v v' : V}

/-- A key is bound to one value. -/
theorem value_unique (h : (l.map Prod.fst).Nodup) (hv : (k, v) ∈ l) (hv' : (k, v') ∈ l) :
    v = v' := by
  have hinj := List.inj_on_of_nodup_map h hv hv' rfl
  exact congrArg Prod.snd hinj

/-- What is found by its key, where no two elements have one key. -/
theorem find?_key {α : Type w} {key : α → K} {l : List α} {p : α → Bool} {a : α}
    (hp : ∀ a, p a = true ↔ key a = k) (h : (l.map key).Nodup) :
    l.find? p = some a ↔ a ∈ l ∧ key a = k := by
  constructor
  · intro hfound
    exact ⟨List.mem_of_find?_eq_some hfound, (hp a).1 (List.find?_some hfound)⟩
  · rintro ⟨ha, hk⟩
    rcases hfound : l.find? p with _ | a'
    · exact absurd ((hp a).2 hk) (List.find?_eq_none.1 hfound a ha)
    · have hk' := (hp a').1 (List.find?_some hfound)
      exact congrArg some (List.inj_on_of_nodup_map h (List.mem_of_find?_eq_some hfound) ha
        (hk'.trans hk.symm))

variable [DecidableEq K]

def drop (k : K) (l : List (K × V)) : List (K × V) := l.filter fun e => e.1 ≠ k

def put (k : K) (v : V) (l : List (K × V)) : List (K × V) := (k, v) :: drop k l

@[simp] theorem mem_drop {e : K × V} : e ∈ drop k l ↔ e ∈ l ∧ e.1 ≠ k := by
  simp [drop]

@[simp] theorem mem_put {e : K × V} : e ∈ put k v l ↔ e = (k, v) ∨ e ∈ l ∧ e.1 ≠ k := by
  simp [put]

theorem drop_of_forall_ne (h : ∀ e ∈ l, e.1 ≠ k) : drop k l = l := by
  simpa [drop, List.filter_eq_self] using h

section nodup
variable (h : (l.map Prod.fst).Nodup)
include h

theorem nodup_drop (k : K) : ((drop k l).map Prod.fst).Nodup :=
  h.sublist (List.filter_sublist.map Prod.fst)

theorem nodup_put (k : K) (v : V) : ((put k v l).map Prod.fst).Nodup := by
  rw [put, List.map_cons, List.nodup_cons]
  refine ⟨fun hmem => ?_, nodup_drop h k⟩
  obtain ⟨e, he, hk⟩ := List.mem_map.1 hmem
  exact (mem_drop.1 he).2 hk

end nodup

section sum
variable {M : Type w} [AddCommMonoid M] {f : K × V → M}

/-- Taking a key out takes out what its value contributes. -/
theorem sum_drop : ∀ {l : List (K × V)}, (l.map Prod.fst).Nodup → (k, v) ∈ l →
    f (k, v) + ((drop k l).map f).sum = (l.map f).sum
  | [], _, hv => by simp at hv
  | e :: l, h, hv => by
    rw [List.map_cons, List.nodup_cons] at h
    by_cases hk : e.1 = k
    · have hrest : ∀ e' ∈ l, e'.1 ≠ k := by
        intro e' he' hk'
        exact h.1 (List.mem_map.2 ⟨e', he', hk'.trans hk.symm⟩)
      have he : (k, v) = e := by
        rcases List.mem_cons.1 hv with he | hmem
        · exact he
        · exact absurd rfl (hrest _ hmem)
      have hdrop : drop k (e :: l) = drop k l := by
        simp [drop, hk]
      rw [hdrop, drop_of_forall_ne hrest, he]
      simp
    · have hmem : (k, v) ∈ l := by
        rcases List.mem_cons.1 hv with he | hmem
        · exact absurd (congrArg Prod.fst he).symm hk
        · exact hmem
      have hdrop : drop k (e :: l) = e :: drop k l := by
        simp [drop, hk]
      rw [hdrop, List.map_cons, List.sum_cons, List.map_cons, List.sum_cons, ← sum_drop h.2 hmem,
        add_left_comm]

theorem sum_put_of_ne (h : ∀ e ∈ l, e.1 ≠ k) : ((put k v l).map f).sum =
    f (k, v) + (l.map f).sum := by
  rw [put, drop_of_forall_ne h, List.map_cons, List.sum_cons]

/-- Binding a key anew adds what its new value contributes over the old one. -/
theorem sum_put (h : (l.map Prod.fst).Nodup) (hv : (k, v) ∈ l) {c : M}
    (hf : f (k, v') = f (k, v) + c) : ((put k v' l).map f).sum = (l.map f).sum + c := by
  rw [put, List.map_cons, List.sum_cons, hf, add_right_comm, sum_drop h hv]

end sum

end Keyed

end Paytp
