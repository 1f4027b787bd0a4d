import Paytp.Fee
import Paytp.Kit.Token
import Paytp.Lib.Divider

/-!
# The contract kit: division by destination

The weights of the schema and how roles that name one destination are put together at the first
slot naming it, so that the destination's share is floored once.
-/

namespace Paytp

namespace Fee

/-- What a destination may withdraw: nothing on shares that exceed the whole. The product is
taken in 512 bits, so it does not overflow. -/
def claimableD (vReceived bpD bpTotal paidD : ℕ) : ℕ :=
  if bpTotal = 0 ∨ bpD > bpTotal then 0 else vReceived * bpD / bpTotal - paidD

end Fee

namespace Kit

def U32_MAX : ℕ := 2 ^ 32 - 1

def SCHEMA_01_BP : Fin 4 → ℕ := ![50, 10, 30, 10]
def SCHEMA_01_BP_TOTAL : ℕ := 100
def SPLIT_MERCHANT_BP : ℕ := 10000 - SCHEMA_01_BP_TOTAL
def SPLIT_BP_TOTAL : ℕ := 10000

/-- `u128::checked_add`. -/
def checkedAdd (a b : ℕ) : Except KitError ℕ :=
  if a + b ≤ U128_MAX then .ok (a + b) else .error .arithmeticDomain

def checkedSum (values : List ℕ) : Except KitError ℕ := values.foldlM checkedAdd 0

section aggregate
variable {n : ℕ} (dests : Fin n → Pubkey) (weights : Fin n → ℕ)

/-- The first slot that names the destination of a slot. -/
def canonical (i : Fin n) : Fin n :=
  ((List.finRange n).find? fun j => decide (j < i) && dests j == dests i).getD i

/-- Add the weight of a slot at its destination's. -/
def addWeight (bpD : Fin n → ℕ) (i : Fin n) : Except KitError (Fin n → ℕ) :=
  let c := canonical dests i
  if bpD c + weights i ≤ U32_MAX then .ok (Function.update bpD c (bpD c + weights i))
  else .error .arithmeticDomain

/-- The first slot of each slot's destination, and the weight of each destination there. -/
def aggregateBpByDest : Except KitError ((Fin n → Fin n) × (Fin n → ℕ)) :=
  ((List.finRange n).foldlM (addWeight dests weights) fun _ => 0).map fun bpD =>
    (canonical dests, bpD)

end aggregate

/-! ## Checked sums -/

theorem checkedSum_eq_ok {values : List ℕ} {total : ℕ} :
    checkedSum values = .ok total ↔ values.sum ≤ U128_MAX ∧ total = values.sum := by
  have hfold : ∀ (values : List ℕ) (acc : ℕ), acc ≤ U128_MAX →
      (values.foldlM checkedAdd acc = .ok total ↔
        acc + values.sum ≤ U128_MAX ∧ total = acc + values.sum) := by
    intro values
    induction values with
    | nil =>
      intro acc hacc
      rw [List.foldlM_nil, pure_eq_ok, List.sum_nil, Nat.add_zero]
      exact ⟨fun h => ⟨hacc, h.symm⟩, fun h => h.2.symm⟩
    | cons v values ih =>
      intro acc hacc
      rw [List.foldlM_cons, List.sum_cons, ← Nat.add_assoc]
      by_cases hle : acc + v ≤ U128_MAX
      · rw [checkedAdd, if_pos hle]
        exact ih _ hle
      · rw [checkedAdd, if_neg hle]
        constructor
        · intro h
          cases h
        · rintro ⟨h, -⟩
          omega
  have h := hfold values 0 (Nat.zero_le _)
  rw [Nat.zero_add] at h
  exact h

/-! ## Destinations -/

section aggregate
variable {n : ℕ} (dests : Fin n → Pubkey) (weights : Fin n → ℕ)

theorem canonical_dest (i : Fin n) : dests (canonical dests i) = dests i := by
  unfold canonical
  rcases h : (List.finRange n).find? fun j => decide (j < i) && dests j == dests i with _ | c
  · rfl
  · have hc := List.find?_some h
    simp only [Bool.and_eq_true, beq_iff_eq] at hc
    exact hc.2

theorem canonical_le {i k : Fin n} (hk : dests k = dests i) : canonical dests i ≤ k := by
  unfold canonical
  rcases h : (List.finRange n).find? fun j => decide (j < i) && dests j == dests i with _ | c
  · rw [Option.getD_none]
    by_contra hlt
    have hnone := List.find?_eq_none.1 h k (List.mem_finRange k)
    simp [hk, not_le.1 hlt] at hnone
  · obtain ⟨hc, idx, hidx, rfl, hbefore⟩ := List.find?_eq_some_iff_getElem.1 h
    rw [Option.getD_some]
    by_contra hlt
    have hlt := not_le.1 hlt
    have hp := hbefore k.val (by simpa [Fin.lt_def] using hlt)
    simp only [List.getElem_finRange, Bool.and_eq_true, decide_eq_true_eq] at hc
    have hki : k < i := hlt.trans (by simpa using hc.1)
    simp [hk, hki] at hp

/-- Slots that name the same destination have the same first slot. -/
theorem canonical_congr {i j : Fin n} (h : dests i = dests j) :
    canonical dests i = canonical dests j :=
  le_antisymm (canonical_le dests ((canonical_dest dests j).trans h.symm))
    (canonical_le dests ((canonical_dest dests i).trans h))

theorem canonical_idem (i : Fin n) : canonical dests (canonical dests i) = canonical dests i :=
  canonical_congr dests (canonical_dest dests i)

/-- Slots are put together exactly with those that name the same destination. -/
theorem canonical_eq_iff {i j : Fin n} :
    canonical dests i = canonical dests j ↔ dests i = dests j :=
  ⟨fun h => by rw [← canonical_dest dests i, h, canonical_dest dests j], canonical_congr dests⟩

theorem foldlM_addWeight (l : List (Fin n)) (bpD : Fin n → ℕ)
    (h : ∀ c, bpD c + (l.map weights).sum ≤ U32_MAX) :
    l.foldlM (addWeight dests weights) bpD = .ok fun c =>
      bpD c + ((l.filter fun i => canonical dests i = c).map weights).sum := by
  induction l generalizing bpD with
  | nil => rfl
  | cons i l ih =>
    simp only [List.map_cons, List.sum_cons] at h
    have hstep : addWeight dests weights bpD i = .ok (Function.update bpD (canonical dests i)
        (bpD (canonical dests i) + weights i)) :=
      if_pos (by have := h (canonical dests i); omega)
    rw [List.foldlM_cons, hstep]
    refine (ih _ fun c => ?_).trans (congrArg _ (funext fun c => ?_))
    · by_cases hc : c = canonical dests i
      · rw [hc, Function.update_self]
        have := h (canonical dests i)
        omega
      · rw [Function.update_of_ne hc]
        have := h c
        omega
    · by_cases hc : c = canonical dests i
      · subst hc
        rw [Function.update_self, List.filter_cons_of_pos (by simp)]
        simp only [List.map_cons, List.sum_cons]
        omega
      · rw [Function.update_of_ne hc, List.filter_cons_of_neg (by simpa using Ne.symm hc)]

/-- Each destination has the weights of its slots at the first of them. -/
theorem aggregateBpByDest_eq (h : ∑ i, weights i ≤ U32_MAX) :
    aggregateBpByDest dests weights =
      .ok (canonical dests, Shares.grouped (canonical dests) weights) := by
  have hsum : ((List.finRange n).map weights).sum = ∑ i, weights i := (Fin.sum_univ_def _).symm
  have hgroup : (fun c => 0 + (((List.finRange n).filter fun i =>
      canonical dests i = c).map weights).sum) = Shares.grouped (canonical dests) weights := by
    funext c
    rw [Nat.zero_add]
    exact (Multiset.sum_coe _).symm
  rw [aggregateBpByDest, foldlM_addWeight dests weights (List.finRange n) (fun _ => 0), hgroup]
  · rfl
  · intro c
    rw [hsum, Nat.zero_add]
    exact h

end aggregate

end Kit

end Paytp
