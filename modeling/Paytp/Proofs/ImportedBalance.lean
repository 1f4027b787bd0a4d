import Paytp.Proofs.Overflows
import Paytp.Carriage.State

/-!
# The imported balance

The balance at which a successor opens is the balance of the synthetic checkpoint over the same
ledger, clamped to the window of the predecessor. The import computes it on machine integers, in
its own order; no step of it overflows.
-/

namespace Paytp

namespace Machine

/-- `Ord::clamp` of `i128`, which has no value for crossed bounds. -/
def clamp (a lower upper : ℤ) : Option ℤ :=
  if lower ≤ upper then some (if a < lower then lower else if a > upper then upper else a)
  else none

/-- The difference of two `u128`, as the nearest `i128`. -/
def difference (a b : ℕ) : Option ℤ :=
  if a ≥ b then (subBig a b).map i128OfU128
  else do
    let d ← subBig b a
    if (d : ℤ) ≤ I128_MAX then negI128 d else some I128_MIN

def importedBalanceF6e (mode : Mode) (cum : ℕ) (settledR : List (UInt8 × ℕ))
    (netLegs funding : ℕ) (boundLower boundUpper : ℤ) : Option ℤ := do
  let settledCarve := (u128OfNat (sumOf settledR / 10000)).getD U128_MAX
  let paid := match mode with
    | .postpay => satAddU128 (satAddU128 funding netLegs) settledCarve
    | .prepay => funding
  let b ← difference cum paid
  clamp b boundLower boundUpper

end Machine

namespace StillbornState

/-- The balance of the synthetic checkpoint, with its sign. -/
def position (st : StillbornState) : Option ℤ :=
  st.syntheticBalance.map fun (mag, negative) => if negative then -mag else mag

theorem position_eq {st : StillbornState} (h : st.prepay = true → st.cumTotal ≤ st.fundingSum) :
    st.position = some (if st.prepay then (st.cumTotal : ℤ) - st.fundingSum
      else st.cumTotal - st.fundingSum - st.netLegsSum - ((st.settledSum / 10000 : ℕ) : ℤ)) := by
  unfold position syntheticBalance
  cases hprepay : st.prepay with
  | true =>
    have hle := h hprepay
    have hnot : ¬ st.cumTotal > st.fundingSum := by omega
    simp only [if_true, if_neg hnot, Option.map_some, Option.some.injEq, bne_iff_ne]
    split_ifs <;> omega
  | false =>
    simp only [Bool.false_eq_true, if_false, Option.map_some, Option.some.injEq,
      decide_eq_true_eq]
    split_ifs <;> omega

end StillbornState

theorem machine_difference (a b : ℕ) :
    Machine.difference a b = some (if a ≥ b then i128OfU128 (a - b)
      else if ((b - a : ℕ) : ℤ) ≤ I128_MAX then -((b - a : ℕ) : ℤ) else I128_MIN) := by
  unfold Machine.difference
  by_cases hle : a ≥ b
  · rw [if_pos hle, if_pos hle, subBig, if_pos hle]
    rfl
  · have hlt : a ≤ b := by omega
    rw [if_neg hle, if_neg hle, subBig, if_pos hlt]
    show (if _ then _ else _) = _
    split_ifs with hfit
    · have hneg : I128_MIN ≤ 0 - ((b - a : ℕ) : ℤ) ∧ 0 - ((b - a : ℕ) : ℤ) ≤ I128_MAX := by
        unfold I128_MIN I128_MAX at *
        omega
      rw [negI128, subI128, if_pos hneg, Int.zero_sub]
    · rfl

/-- No step of the import overflows between bounds in order. -/
theorem machine_importedBalanceF6e (mode : Mode) (cum : ℕ) (settledR : List (UInt8 × ℕ))
    (netLegs funding : ℕ) {lower upper : ℤ} (h : lower ≤ upper) :
    Machine.importedBalanceF6e mode cum settledR netLegs funding lower upper =
      some (importedBalanceF6e mode cum settledR netLegs funding lower upper) := by
  unfold Machine.importedBalanceF6e importedBalanceF6e
  dsimp only
  rw [machine_difference]
  unfold Machine.clamp
  cases mode
  · exact (if_pos h).trans rfl
  · exact (if_pos h).trans rfl

/-- `u128::try_from` and the largest `u128` for what does not fit. -/
theorem u128OfNat_getD (n : ℕ) : (u128OfNat n).getD U128_MAX = min n U128_MAX := by
  unfold u128OfNat
  split_ifs
  · rw [Option.getD_some]
    omega
  · rw [Option.getD_none]
    omega

/-- The window of a postpay channel starts at zero, where the sums that stop at the top of their
type have long passed what is metered. -/
theorem importedBalanceF6e_postpay {cum : ℕ} (hcum : cum ≤ U128_MAX)
    (settledR : List (UInt8 × ℕ)) (netLegs funding : ℕ) {upper : ℤ} (hupper : 0 ≤ upper)
    (hmax : upper ≤ I128_MAX) :
    importedBalanceF6e .postpay cum settledR netLegs funding 0 upper =
      max 0 (min upper
        ((cum : ℤ) - funding - netLegs - ((sumOf settledR / 10000 : ℕ) : ℤ))) := by
  unfold importedBalanceF6e
  dsimp only
  rw [u128OfNat_getD]
  generalize sumOf settledR / 10000 = carve
  unfold satAddU128 i128OfU128 I128_MIN
  unfold U128_MAX at *
  unfold I128_MAX at *
  split_ifs <;> omega

theorem importedBalanceF6e_prepay_clamp {cum funding : ℕ} (settledR : List (UInt8 × ℕ))
    (netLegs : ℕ) (hcum : cum ≤ funding) {lower : ℤ} (hlower : -I128_MAX ≤ lower)
    (hle : lower ≤ 0) :
    importedBalanceF6e .prepay cum settledR netLegs funding lower 0 =
      max lower (min 0 ((cum : ℤ) - funding)) := by
  unfold importedBalanceF6e i128OfU128 I128_MIN
  unfold I128_MAX at *
  dsimp only
  split_ifs <;> omega

/-- Over one ledger, with the metering of a prepay channel within its funding: the synthetic
checkpoint has a balance, the import overflows nowhere, and it is this balance clamped to the
window of the channel, for any channel and whatever it has done. -/
theorem imported_is_synthetic_clamped {crypto : Crypto} {s₀ : ChannelState}
    (h : ChannelState.Born crypto s₀) (cs : List ChannelState.Call) (st : StillbornState)
    (settledR : List (UInt8 × ℕ)) (hcum : st.cumTotal ≤ U128_MAX)
    (hsettled : st.settledSum = sumOf settledR) :
    let ch := s₀.calls crypto cs
    (st.prepay = true ↔ ch.mode = .prepay) → (st.prepay = true → st.cumTotal ≤ st.fundingSum) →
      ∃ position, st.position = some position ∧
        Machine.importedBalanceF6e ch.mode st.cumTotal settledR st.netLegsSum st.fundingSum
          ch.boundLower ch.boundUpper =
            some (max ch.boundLower (min ch.boundUpper position)) ∧
        importedBalanceF6e ch.mode st.cumTotal settledR st.netLegsSum st.fundingSum
          ch.boundLower ch.boundUpper = max ch.boundLower (min ch.boundUpper position) := by
  intro ch hmode hcovered
  have hwindow : ch.InWindow := ChannelState.inWindow_calls h cs
  have hterms : ChannelState.SameTerms s₀ ch := ChannelState.calls_sameTerms s₀ cs
  have hlower := hwindow.lower_le
  have hupper := hwindow.le_upper
  have hwidth := hwindow.width_le
  refine ⟨_, StillbornState.position_eq hcovered, ?_⟩
  rw [machine_importedBalanceF6e _ _ _ _ _ (hlower.trans hupper), Option.some.injEq, and_self,
    hsettled]
  rcases ChannelState.bounds_born h with ⟨hpost, hzero⟩ | ⟨hpre, hzero, hleast⟩
  · have hchpost : ch.mode = .postpay := hterms.mode.trans hpost
    have hchzero : ch.boundLower = 0 := hterms.boundLower.trans hzero
    have hprepay : st.prepay = false := by
      rw [← Bool.not_eq_true, hmode, hchpost]
      exact nofun
    rw [hchzero] at hlower hwidth
    rw [hchpost, hchzero, hprepay, if_neg Bool.false_ne_true]
    exact importedBalanceF6e_postpay hcum settledR _ _ (hlower.trans hupper) (by omega)
  · have hchpre : ch.mode = .prepay := hterms.mode.trans hpre
    have hchzero : ch.boundUpper = 0 := hterms.boundUpper.trans hzero
    have hprepay : st.prepay = true := hmode.mpr hchpre
    rw [hchzero] at hupper
    rw [hchpre, hchzero, hprepay, if_pos rfl]
    exact importedBalanceF6e_prepay_clamp settledR _ (hcovered hprepay)
      (hterms.boundLower ▸ hleast) (hlower.trans hupper)

/-- A postpay channel of limit 100 has settled more meed than it has metered. -/
theorem imported_is_synthetic_clamped_postpay : ∃ position : ℤ,
    Machine.importedBalanceF6e .postpay 40 [(0x10, 300000), (0x11, 199999)] 5 0 0 100 =
      some (max 0 (min 100 position)) := by
  have hborn : ChannelState.Born ChannelState.plainCrypto
      (.new ChannelState.plainCrypto (.replicate 8 0) (.replicate 32 0) .postpay 100 100 []) :=
    .fresh _ _ _ _ _ _
  let st : StillbornState :=
    { channelId := .replicate 8 0
      prepay := false
      cumTotal := 40
      accruals := []
      settledSum := 499999
      netLegsSum := 5
      fundingSum := 0
      timestamp := 0
      prevRef := .replicate 32 0 }
  obtain ⟨position, -, himported, -⟩ := imported_is_synthetic_clamped hborn [] st
    [(0x10, 300000), (0x11, 199999)] (by decide) rfl (by decide) nofun
  exact ⟨position, himported⟩

end Paytp
