import Mathlib.Algebra.BigOperators.Fin
import Mathlib.Algebra.BigOperators.Group.Finset.Sigma
import Mathlib.Algebra.Order.BigOperators.Group.Finset

/-!
# Dividing what arrives by shares

A total that only grows is divided by shares of a whole. Each recipient may withdraw up to the
floor of its share of the total so far. While nobody has withdrawn more, what everybody is still
owed is there, whoever withdraws first; and recipients that are put together are owed no less
than they were apart.
-/

namespace Paytp

universe u v

variable {ι : Type u} {κ : Type v}

/-- The floors of some quotients are together at most the floor of the quotient of their sum. -/
theorem sum_div_le (s : Finset ι) (f : ι → ℕ) (d : ℕ) : ∑ i ∈ s, f i / d ≤ (∑ i ∈ s, f i) / d := by
  classical
  induction s using Finset.induction_on with
  | empty => simp
  | insert i s hi ih =>
    rw [Finset.sum_insert hi, Finset.sum_insert hi]
    exact (Nat.add_le_add_left ih _).trans Nat.div_add_div_le_add_div

/-- A sum is divided once into what its parts are divided into, each on its own, and what their
remainders make together. -/
theorem sum_mul_div (as : List ℕ) (w : ℕ) {d : ℕ} (hd : 0 < d) :
    as.sum * w / d = (as.map fun a => a * w / d).sum + (as.map fun a => a * w % d).sum / d := by
  have hsplit : as.sum * w =
      d * (as.map fun a => a * w / d).sum + (as.map fun a => a * w % d).sum := by
    induction as with
    | nil => simp
    | cons a as ih =>
      have ha := Nat.div_add_mod (a * w) d
      simp only [List.sum_cons, List.map_cons, Nat.add_mul, Nat.mul_add]
      omega
  rw [hsplit, Nat.mul_add_div hd]

/-- Shares that do not exceed the whole. -/
structure Shares (ι : Type u) [Fintype ι] where
  weight : ι → ℕ
  whole : ℕ
  sum_le : ∑ i, weight i ≤ whole

namespace Shares

variable [Fintype ι] (sh : Shares ι) {total total' : ℕ} {paid : ι → ℕ}

/-- What a recipient may have withdrawn of a total. -/
def entitlement (total : ℕ) (i : ι) : ℕ := total * sh.weight i / sh.whole

theorem entitlement_mono (h : total ≤ total') (i : ι) :
    sh.entitlement total i ≤ sh.entitlement total' i :=
  Nat.div_le_div_right (Nat.mul_le_mul_right _ h)

theorem sum_entitlement_le (total : ℕ) : ∑ i, sh.entitlement total i ≤ total := by
  refine (sum_div_le _ _ _).trans ?_
  rw [← Finset.mul_sum]
  exact Nat.div_le_of_le_mul (by
    rw [Nat.mul_comm sh.whole]
    exact Nat.mul_le_mul_left _ sh.sum_le)

/-- Nobody has withdrawn more than its entitlement. -/
def Within (total : ℕ) (paid : ι → ℕ) : Prop := ∀ i, paid i ≤ sh.entitlement total i

instance : Decidable (sh.Within total paid) :=
  inferInstanceAs (Decidable (∀ i, paid i ≤ sh.entitlement total i))

variable {sh}

theorem Within.mono (h : sh.Within total paid) (hle : total ≤ total') : sh.Within total' paid :=
  fun i => (h i).trans (sh.entitlement_mono hle i)

/-- What a recipient is owed is left of the total. -/
theorem Within.owed_le (h : sh.Within total paid) (i : ι) :
    sh.entitlement total i - paid i + ∑ j, paid j ≤ total := by
  classical
  have hrest : ∑ j ∈ Finset.univ.erase i, paid j ≤
      ∑ j ∈ Finset.univ.erase i, sh.entitlement total j := Finset.sum_le_sum fun j _ => h j
  have hpaid := Finset.add_sum_erase Finset.univ paid (Finset.mem_univ i)
  have hall := Finset.add_sum_erase Finset.univ (sh.entitlement total) (Finset.mem_univ i)
  have hsum := sh.sum_entitlement_le total
  have hi := h i
  omega

/-! ## Recipients put together -/

variable [Fintype κ] [DecidableEq κ] (sh) (g : ι → κ)

/-- The sum over the recipients of each group. -/
def grouped (f : ι → ℕ) (c : κ) : ℕ := ∑ i with g i = c, f i

omit sh in
theorem sum_grouped (f : ι → ℕ) : ∑ c, grouped g f c = ∑ i, f i :=
  Finset.sum_fiberwise Finset.univ g f

/-- The shares of the groups. -/
def group : Shares κ where
  weight := grouped g sh.weight
  whole := sh.whole
  sum_le := by
    rw [sum_grouped]
    exact sh.sum_le

variable {sh g}

/-- Groups whose recipients have each withdrawn within their own shares. -/
theorem Within.group (h : sh.Within total paid) :
    (sh.group g).Within total (grouped g paid) := by
  intro c
  calc grouped g paid c ≤ ∑ i with g i = c, sh.entitlement total i :=
        Finset.sum_le_sum fun i _ => h i
    _ ≤ (∑ i with g i = c, total * sh.weight i) / sh.whole := sum_div_le _ _ _
    _ = (sh.group g).entitlement total c := by rw [← Finset.mul_sum]; rfl

/-- A group of nobody is owed nothing. -/
theorem entitlement_of_absent (sh : Shares ι) {g : ι → κ} {c : κ} (h : ∀ i, g i ≠ c) (total : ℕ) :
    (sh.group g).entitlement total c = 0 := by
  have hempty : (Finset.univ.filter fun i => g i = c) = ∅ :=
    Finset.filter_eq_empty_iff.2 fun i _ => h i
  simp [entitlement, group, grouped, hempty]

/-- Where each group is named by one of its recipients, grouping what the groups are owed changes
nothing. -/
theorem grouped_entitlement (sh : Shares κ) {g : κ → κ} (hg : ∀ i, g (g i) = g i) (total : ℕ) :
    grouped g ((sh.group g).entitlement total) = (sh.group g).entitlement total := by
  have habsent : ∀ i, g i ≠ i → (sh.group g).entitlement total i = 0 := fun i hi =>
    sh.entitlement_of_absent (fun j hj => hi (by rw [← hj, hg])) total
  funext c
  unfold grouped
  rw [Finset.sum_eq_single c]
  · intro i hi hne
    exact habsent i fun h => hne (h.symm.trans (Finset.mem_filter.1 hi).2)
  · intro hc
    exact habsent c fun h => hc (Finset.mem_filter.2 ⟨Finset.mem_univ c, h⟩)

end Shares

end Paytp
