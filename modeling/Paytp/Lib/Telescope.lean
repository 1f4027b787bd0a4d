import Mathlib.Algebra.Order.Monoid.Defs
import Mathlib.Data.Set.Insert

/-!
# Telescoping marks

A total that is reached in steps, each mark of it with the amount of its step. The marks telescope
up to a total if the highest one is the total and each mark stands on the next lower one, or on
nothing, by exactly its amount.
-/

namespace Paytp

universe u

variable {M : Type u} [AddCommMonoid M] [LinearOrder M]

structure Telescopes (total : M) (marks : Set (M × M)) : Prop where
  le : ∀ m ∈ marks, m.1 ≤ total
  reached : total = 0 ∨ ∃ m ∈ marks, m.1 = total
  previous : ∀ m ∈ marks, m.1 = m.2 ∨ ∃ m' ∈ marks, m'.1 + m.2 = m.1
  between : ∀ m ∈ marks, ∀ m' ∈ marks, m'.1 < m.1 → m'.1 + m.2 ≤ m.1

namespace Telescopes

variable {total p : M} {marks : Set (M × M)}

theorem empty : Telescopes (0 : M) ∅ where
  le := fun _ hm => absurd hm (Set.notMem_empty _)
  reached := .inl rfl
  previous := fun _ hm => absurd hm (Set.notMem_empty _)
  between := fun _ hm => absurd hm (Set.notMem_empty _)

/-- A step from the total to a new mark. -/
theorem step [IsOrderedCancelAddMonoid M] (h : Telescopes total marks) (hp : 0 < p) :
    Telescopes (total + p) (insert (total + p, p) marks) := by
  have hlt : total < total + p := lt_add_of_pos_right total hp
  constructor
  · rintro m (rfl | hm)
    · exact le_rfl
    · exact (h.le m hm).trans hlt.le
  · exact .inr ⟨_, Set.mem_insert _ _, rfl⟩
  · rintro m (rfl | hm)
    · rcases h.reached with hzero | ⟨m', hm', heq⟩
      · left
        rw [hzero, zero_add]
      · exact .inr ⟨m', Set.mem_insert_of_mem _ hm', by rw [heq]⟩
    · rcases h.previous m hm with heq | ⟨m', hm', heq⟩
      · exact .inl heq
      · exact .inr ⟨m', Set.mem_insert_of_mem _ hm', heq⟩
  · rintro m (rfl | hm) m' (rfl | hm') hm'lt
    · exact absurd hm'lt (lt_irrefl _)
    · exact add_le_add_left (h.le m' hm') p
    · exact absurd (hm'lt.trans_le (h.le m hm)) hlt.not_gt
    · exact h.between m hm m' hm' hm'lt

end Telescopes

end Paytp
