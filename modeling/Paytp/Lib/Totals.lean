import Mathlib.Algebra.Order.BigOperators.Group.Finset
import Paytp.Lib.HashMap

/-!
# Totals over hash maps

What the values of a map hold together. Inserting a value changes the total by it and by the one
that it replaces.
-/

namespace Paytp

universe u v

namespace HashMap

variable {K : Type u} {V : Type v} [DecidableEq K] (f : V → ℕ)

/-- What the map holds for a key. -/
def held (m : HashMap K V) (k : K) : ℕ := ((m.lookup k).map f).getD 0

/-- What the map holds for all keys together. -/
def total (m : HashMap K V) : ℕ := ∑ k ∈ m.keys, held f m k

variable {f}

theorem held_insert (m : HashMap K V) (k k' : K) (v : V) :
    held f (m.insert k v) k' = if k' = k then f v else held f m k' := by
  unfold held
  rw [lookup_insert_ite]
  split_ifs <;> rfl

theorem held_of_lookup {m : HashMap K V} {k : K} {v : V} (h : m.lookup k = some v) :
    held f m k = f v := by
  rw [held, h, Option.map_some, Option.getD_some]

theorem held_of_none {m : HashMap K V} {k : K} (h : m.lookup k = none) : held f m k = 0 := by
  rw [held, h, Option.map_none, Option.getD_none]

theorem held_of_not_mem {m : HashMap K V} {k : K} (h : k ∉ m.keys) : held f m k = 0 :=
  held_of_none (Finmap.lookup_eq_none.2 fun hk => h (Finmap.mem_keys.2 hk))

@[simp] theorem total_empty : total f (∅ : HashMap K V) = 0 := rfl

theorem total_insert (m : HashMap K V) (k : K) (v : V) :
    total f (m.insert k v) + held f m k = total f m + f v := by
  have hrest : ∀ s : Finset K, k ∉ s →
      ∑ k' ∈ s, held f (m.insert k v) k' = ∑ k' ∈ s, held f m k' := by
    intro s hs
    refine Finset.sum_congr rfl fun k' hk' => ?_
    rw [held_insert, if_neg fun heq : k' = k => hs (heq ▸ hk')]
  have hhere : held f (m.insert k v) k = f v := by rw [held_insert, if_pos rfl]
  unfold total
  rw [keys_insert]
  by_cases hk : k ∈ m.keys
  · have hsplit := Finset.add_sum_erase m.keys (fun k' => held f m k') hk
    have hsplit' := Finset.add_sum_erase m.keys (fun k' => held f (m.insert k v) k') hk
    have hsame := hrest (m.keys.erase k) (Finset.notMem_erase k m.keys)
    rw [Finset.insert_eq_self.2 hk]
    omega
  · rw [Finset.sum_insert hk, hrest m.keys hk, hhere, held_of_not_mem hk]
    omega

/-- Maps that hold the same for each key hold the same together. -/
theorem total_congr {m m' : HashMap K V} (h : ∀ k, held f m' k = held f m k) :
    total f m' = total f m := by
  have hwide : ∀ x : HashMap K V, ∀ s, x.keys ⊆ s → total f x = ∑ k ∈ s, held f x k :=
    fun x s hsub => Finset.sum_subset hsub fun k _ hk => held_of_not_mem hk
  rw [hwide m' (m.keys ∪ m'.keys) Finset.subset_union_right,
    hwide m (m.keys ∪ m'.keys) Finset.subset_union_left]
  exact Finset.sum_congr rfl fun k _ => h k

theorem held_le_total (m : HashMap K V) (k : K) : held f m k ≤ total f m := by
  by_cases hk : k ∈ m.keys
  · exact Finset.single_le_sum (f := fun k => held f m k) (fun _ _ => Nat.zero_le _) hk
  · rw [held_of_not_mem hk]
    exact Nat.zero_le _

/-- A first value is all that is held for its key. -/
theorem total_orInsert (m : HashMap K V) (k : K) {v : V} (hv : f v = 0) :
    total f (m.orInsert k v) = total f m := by
  unfold orInsert
  split_ifs with h
  · rfl
  · have hnone : m.lookup k = none := Option.not_isSome_iff_eq_none.1 h
    have hins := total_insert (f := f) m k v
    rw [held_of_none hnone, hv] at hins
    omega

end HashMap

end Paytp
