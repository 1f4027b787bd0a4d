import Mathlib.Algebra.Group.Int.Defs
import Mathlib.Algebra.Ring.Nat
import Mathlib.Data.Int.Order.Basic
import Mathlib.Order.MinMax

/-!
# Machine integers

Unsigned and signed integers as numbers, with the additions and subtractions that stop at the
bounds of their type and those that have no value past them.
-/

namespace Paytp

def U64_MAX : ℕ := 2 ^ 64 - 1

def U128_MAX : ℕ := 2 ^ 128 - 1

def I128_MAX : ℤ := 2 ^ 127 - 1

def I128_MIN : ℤ := -2 ^ 127

/-- `u128::saturating_add`. -/
def satAddU128 (a b : ℕ) : ℕ := min U128_MAX (a + b)

/-- The nearest 128-bit signed integer. -/
def clampI128 (a : ℤ) : ℤ := max I128_MIN (min I128_MAX a)

/-- `i128::saturating_add`. -/
def satAddI128 (a b : ℤ) : ℤ := clampI128 (a + b)

/-- `i128::saturating_sub`. -/
def satSubI128 (a b : ℤ) : ℤ := clampI128 (a - b)

/-- `i128::try_from(n).unwrap_or(i128::MAX)`. -/
def i128OfU128 (n : ℕ) : ℤ := min I128_MAX n

theorem satAddU128_assoc (a b c : ℕ) :
    satAddU128 (satAddU128 a b) c = satAddU128 a (b + c) := by
  unfold satAddU128
  omega

theorem satAddU128_of_le {a b : ℕ} (h : a + b ≤ U128_MAX) : satAddU128 a b = a + b :=
  min_eq_right h

theorem satAddU128_zero {a : ℕ} (h : a ≤ U128_MAX) : satAddU128 a 0 = a := satAddU128_of_le h

/-- Adding what is not negative twice saturates where adding it at once does. -/
theorem satAddI128_assoc {a b c : ℤ} (hb : 0 ≤ b) (hc : 0 ≤ c) (ha : I128_MIN ≤ a) :
    satAddI128 (satAddI128 a b) c = satAddI128 a (b + c) := by
  unfold satAddI128 clampI128 I128_MIN I128_MAX at *
  omega

theorem satAddI128_of_mem {a b : ℤ} (hlo : I128_MIN ≤ a + b) (hhi : a + b ≤ I128_MAX) :
    satAddI128 a b = a + b := by
  unfold satAddI128 clampI128
  omega

/-- Subtracting no more than there is. -/
theorem satSubI128_of_le {a : ℤ} {n : ℕ} (hn : (n : ℤ) ≤ a) (ha : a ≤ I128_MAX) :
    satSubI128 a (i128OfU128 n) = a - n := by
  unfold satSubI128 clampI128 i128OfU128 I128_MIN I128_MAX at *
  omega

/-! ## Checked operations

The plain operators, which have no value where the result does not fit the type. -/

/-- `+` of `u64`. -/
def addU64 (a b : ℕ) : Option ℕ := if a + b ≤ U64_MAX then some (a + b) else none

/-- `+` of `u128`. -/
def addU128 (a b : ℕ) : Option ℕ := if a + b ≤ U128_MAX then some (a + b) else none

/-- `-` of `i128`. -/
def subI128 (a b : ℤ) : Option ℤ :=
  if I128_MIN ≤ a - b ∧ a - b ≤ I128_MAX then some (a - b) else none

/-- The unary `-` of `i128`. -/
def negI128 (a : ℤ) : Option ℤ := subI128 0 a

/-- `n as i128`. -/
def asI128 (n : ℕ) : ℤ := if (n : ℤ) ≤ I128_MAX then n else n - 2 ^ 128

/-- `-` of unsigned integers of any size. -/
def subBig (a b : ℕ) : Option ℕ := if b ≤ a then some (a - b) else none

/-- The `sum` of an iterator over `u128`. -/
def sumU128 (ns : List ℕ) : Option ℕ := ns.foldlM addU128 0

theorem foldlM_addU128 : ∀ (ns : List ℕ) (a : ℕ), a + ns.sum ≤ U128_MAX →
    ns.foldlM addU128 a = some (a + ns.sum)
  | [], _, _ => rfl
  | n :: ns, a, h => by
    rw [List.sum_cons, ← Nat.add_assoc] at h ⊢
    have hfit : a + n ≤ U128_MAX := by omega
    rw [List.foldlM_cons, addU128, if_pos hfit]
    exact foldlM_addU128 ns (a + n) h

theorem sumU128_of_le {ns : List ℕ} (h : ns.sum ≤ U128_MAX) : sumU128 ns = some ns.sum := by
  rw [sumU128, foldlM_addU128 ns 0 (by omega), Nat.zero_add]

theorem asI128_of_le {n : ℕ} (h : (n : ℤ) ≤ I128_MAX) : asI128 n = n := if_pos h

end Paytp
