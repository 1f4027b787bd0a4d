import Paytp.Proofs.Tallied

/-!
# The deposit of a prepay channel

A prepay channel meters within what its chain has been credited: the balance is never above zero
and never below what is metered less what is credited. The roles share a hundredth of what is
evidenced, so that a target, what was settled before the channel opened and what is not consumed
come to no more than the credit.
-/

namespace Paytp

open Carriage

theorem sum_accrue (amt : ℕ) : ∀ {accs : List ℕ} {vs : List (UInt8 × UInt16)},
    accs.length = vs.length → (ChannelState.accrue amt accs vs).sum =
      accs.sum + amt * (vs.map fun v => v.2.toNat).sum
  | [], [], _ => by simp [ChannelState.accrue]
  | [], _ :: _, h => by cases h
  | _ :: _, [], h => by cases h
  | acc :: accs, (r, bp) :: vs, h => by
    have hrest : (ChannelState.accrue amt accs vs).sum = _ := sum_accrue amt (Nat.succ.inj h)
    rw [ChannelState.accrue, List.sum_cons, List.sum_cons, hrest, List.map_cons, List.sum_cons]
    dsimp only
    rw [Nat.mul_add]
    omega

namespace Books

variable {crypto : Crypto} {b b' : Books}

/-- The shares of the roles come to a hundredth. -/
theorem sum_shares (amt : ℕ) {E : List (UInt8 × ℕ)}
    (h : E.map Prod.fst = SCHEMA_01_ROLES.map Prod.fst) :
    (ChannelState.accrue amt (E.map Prod.snd) SCHEMA_01_ROLES).sum = sumOf E + 100 * amt := by
  have hbp : (SCHEMA_01_ROLES.map fun v => v.2.toNat).sum = 100 := rfl
  rw [sum_accrue amt (length_evidence_snd h), hbp, Nat.mul_comm, sumOf]

/-- A prepay channel within its credit. -/
structure Solvent (b : Books) : Prop where
  metered : b.state.cumTotal = b.evidenceCum + b.state.unevidenced
  shares : sumOf b.evidence = 100 * b.evidenceCum
  balance_le : b.state.balance ≤ 0
  covered : (b.state.cumTotal : ℤ) ≤ b.state.balance + b.ledger.fundingSum
  lower : b.state.boundLower ≤ 0
  upper : b.state.boundUpper = 0
  funding_le : b.ledger.fundingSum ≤ U128_MAX

namespace Solvent

theorem cum_le (h : b.Solvent) : b.state.cumTotal ≤ b.ledger.fundingSum := by
  have hcov := h.covered
  have hbal := h.balance_le
  omega

theorem evidenceCum_le (h : b.Solvent) : b.evidenceCum ≤ b.ledger.fundingSum := by
  have hcum := h.cum_le
  rw [h.metered] at hcum
  omega

theorem meter (h : b.Solvent) (hs : b.Sound) {slices : List Slice} {state : ChannelState}
    (ht : ChannelState.Taken b.state slices state) (hwithin : state.balance ≤ state.boundUpper) :
    ({ b with state } : Books).Solvent := by
  have hupper : state.boundUpper = 0 := by
    rw [ht.frame]
    exact h.upper
  have hlower : state.boundLower = b.state.boundLower := by rw [ht.frame]
  have hbal := ht.balance
  have hcum := ht.cumTotal
  have hunev := ht.unevidenced_eq hs.wellFormed
  have hmem := hs.wellFormed.balance_mem
  have hcov := h.covered
  have hfits := h.funding_le
  rw [hupper] at hwithin
  -- the balance stays at most zero, so that it does not saturate
  have hadd : b.state.balance + ChannelState.amounts slices ≤ 0 := by
    rw [hbal] at hwithin
    unfold satAddI128 clampI128 I128_MIN I128_MAX at *
    omega
  rw [satAddI128_of_mem (by omega) (by unfold I128_MAX; omega)] at hbal
  rw [satAddU128_of_le (by omega)] at hcum
  refine ⟨?_, ?_, hwithin, ?_, hlower.trans_le h.lower, hupper, hfits⟩
  · show state.cumTotal = b.evidenceCum + state.unevidenced
    rw [hcum, h.metered, hunev]
    omega
  · have hev : ({ b with state } : Books).evidence = b.evidence := by
      unfold evidence
      rw [ht.vector_eq]
    rw [hev]
    exact h.shares
  · show (state.cumTotal : ℤ) ≤ state.balance + b.ledger.fundingSum
    omega

theorem countersign (h : b.Solvent) (hs : b.Sound) {proposed : Checkpoint} (ckptRef : ByteArr 32)
    (hrec : b.state.recomputes crypto proposed = true) :
    ({ b with
      state := b.state.checkpointUpto crypto proposed.lastSeq
      operative := some { ckptRef, cumTotal := proposed.cumTotal
                          accruals := proposed.accruals } } : Books).Solvent := by
  have hacc := hs.proposed_accruals hrec
  have hsplit := ChannelState.amounts_split b.state.window proposed.lastSeq
  have hunev := hs.wellFormed.unevidenced_eq
  have hmetered := h.metered
  have hcum := ChannelState.cumTotal_of_recomputes hrec
  refine ⟨?_, ?_, h.balance_le, h.covered, h.lower, h.upper, h.funding_le⟩
  · show b.state.cumTotal = proposed.cumTotal +
      ChannelState.amounts (b.state.window.past proposed.lastSeq).values
    omega
  · show sumOf proposed.accruals = 100 * proposed.cumTotal
    have hlen : (ChannelState.accrue
        (ChannelState.amounts (b.state.window.upto proposed.lastSeq).values)
        (b.evidence.map Prod.snd) b.state.vector).length =
        (b.state.vector.map Prod.fst).length := by
      rw [ChannelState.length_accrue, hs.evidence_length, List.length_map]
    rw [sumOf, hacc, List.map_snd_zip hlen.le, hs.vector, sum_shares _ hs.roles, h.shares, hcum]
    omega

theorem fund (h : b.Solvent) (hs : b.Sound) {credited : ℕ}
    (hfits : b.ledger.fundingSum + credited ≤ U128_MAX) :
    ({ b with
      state := b.state.creditFunding credited
      ledger := { b.ledger with fundingSum := b.ledger.fundingSum + credited } } :
      Books).Solvent := by
  have hle := creditFunding_balance_le hs.wellFormed credited
  have hbal := h.balance_le
  have hlower := h.lower
  have hcov := h.covered
  refine ⟨h.metered, h.shares, ?_, ?_, h.lower, h.upper, hfits⟩
  · show (b.state.creditFunding credited).balance ≤ 0
    unfold ChannelState.creditFunding satSubI128 i128OfU128 clampI128 I128_MIN I128_MAX
    dsimp only
    split_ifs <;> omega
  · show (b.state.cumTotal : ℤ) ≤ (b.state.creditFunding credited).balance +
      (b.ledger.fundingSum + credited : ℕ)
    omega

/-- Every move keeps a prepay channel within its credit. -/
theorem move (h : b.Solvent) (hs : b.Sound) (hmode : b.state.mode = .prepay) {kind : Kind}
    (hm : Move crypto kind b b') : b'.Solvent := by
  have hkeep : ∀ {phase pausedWindow rounds}, ({ b with
      state := { b.state with phase, pausedWindow }, rounds } : Books).Solvent := fun {_ _ _} =>
    ⟨h.metered, h.shares, h.balance_le, h.covered, h.lower, h.upper, h.funding_le⟩
  cases hm with
  | meter taken live within => exact h.meter hs taken within
  | idle => exact hkeep
  | countersign ckptRef recomputes => exact h.countersign hs ckptRef recomputes
  | fund fits => exact h.fund hs fits
  | lock => exact hkeep
  | restate => exact hkeep
  | fold folds =>
    have hpost := (hs.formed _ folds.round).proposed folds.proposed
    rw [hmode] at hpost
    cases hpost
  | draw =>
    exact ⟨h.metered, h.shares, h.balance_le, h.covered, h.lower, h.upper, h.funding_le⟩
  | drop => exact hkeep

theorem fresh (channelId : ByteArr 8) (kSession : ByteArr 32) (limitL limitE : ℕ) :
    (Books.fresh crypto channelId kSession .prepay limitL limitE).Solvent := by
  refine ⟨rfl, rfl, le_rfl, le_rfl, ?_, rfl, Nat.zero_le _⟩
  show -i128OfU128 limitL ≤ 0
  unfold i128OfU128 I128_MAX
  omega

end Solvent

/-- The balance that a prepay channel imports covers what is metered. -/
theorem importedBalanceF6e_prepay {cum funding : ℕ} (settledR : List (UInt8 × ℕ)) (netLegs : ℕ)
    {lower : ℤ} (hcum : cum ≤ funding) (hlower : lower ≤ 0) :
    importedBalanceF6e .prepay cum settledR netLegs funding lower 0 ≤ 0 ∧
      (cum : ℤ) ≤ importedBalanceF6e .prepay cum settledR netLegs funding lower 0 + funding := by
  unfold importedBalanceF6e i128OfU128 I128_MIN I128_MAX
  dsimp only
  split_ifs <;> omega

/-- What is handed on is within the credit it is handed on with. -/
theorem Solvent.handsOn (h : b.Solvent) (hs : b.Sound) {snap : ChainSnapshot}
    (hands : b.HandsOn snap) : snap.cumTotal ≤ snap.openingFunding ∧
      sumOf snap.accruals = 100 * snap.cumTotal := by
  have hle := h.cum_le
  rw [hands.funding]
  obtain ⟨op, hop, hcum, hacc⟩ | ⟨hop, hzero, hcum, hacc⟩ := hands.position
  · have hev := h.evidenceCum_le
    have hshares := h.shares
    simp only [evidenceCum, evidence, hop] at hev hshares
    rw [hcum, hacc]
    exact ⟨hev, hshares⟩
  · have hmetered := h.metered
    have hsum := sum_shares b.state.unevidenced hs.roles
    rw [← hs.vector, ← hs.accruals, h.shares] at hsum
    have hsnd : sumOf b.state.accrualsByRole = b.state.accruals.sum := by
      rw [sumOf, ChannelState.accrualsByRole, List.map_snd_zip]
      rw [List.length_map, hs.wellFormed.aligned]
    rw [hcum, hacc, hsnd]
    omega

theorem Solvent.imported (h : b.Solvent) (hs : b.Sound) (hmode : b.state.mode = .prepay)
    {snap : ChainSnapshot} {channelId : ByteArr 8} {kSession : ByteArr 32} {limitL limitE : ℕ}
    {accruals : List ℕ} {state : ChannelState} (ckptRef : ByteArr 32) (hands : b.HandsOn snap)
    (hacc : importedAccruals snap = some accruals)
    (hnew : ChannelState.newImported crypto channelId kSession snap.mode limitL limitE
      SCHEMA_01_ROLES snap.cumTotal accruals snap.importedBalance = .ok state) :
    (Books.imported state ckptRef snap).Solvent := by
  obtain ⟨hcum, hshares⟩ := h.handsOn hs hands
  obtain ⟨hroles, -⟩ := hs.handsOn hands
  have haccs := hs.importedAccruals_eq hands hacc
  have hbal := hands.balance
  rw [hmode, h.upper, ← hands.settledR, ← hands.netLegs, ← hands.funding] at hbal
  obtain ⟨hnonpos, hcov⟩ := importedBalanceF6e_prepay snap.openingSettledR snap.openingNetLegs
    hcum h.lower
  rw [← hbal] at hnonpos hcov
  have hfits : snap.openingFunding ≤ U128_MAX := hands.funding ▸ h.funding_le
  unfold ChannelState.newImported at hnew
  rw [hands.mode, hmode] at hnew
  dsimp only at hnew
  split_ifs at hnew
  cases hnew
  have htable : (SCHEMA_01_ROLES.map Prod.fst).zip accruals = snap.accruals := by
    rw [haccs, ← hroles, zip_fst_snd]
  refine ⟨rfl, ?_, hnonpos, hcov, ?_, rfl, hfits⟩
  · show sumOf ((SCHEMA_01_ROLES.map Prod.fst).zip accruals) = 100 * snap.cumTotal
    rw [htable, hshares]
  · show -i128OfU128 limitL ≤ 0
    unfold i128OfU128 I128_MAX
    omega

/-- The books that a prepay channel reaches are within their credit. -/
theorem Reachable.solvent (h : Reachable crypto b) (hmode : b.state.mode = .prepay) :
    b.Solvent := by
  induction h with
  | fresh channelId kSession mode limitL limitE =>
    obtain rfl : mode = .prepay := hmode
    exact .fresh ..
  | imported ckptRef hb hands hacc hnew ih =>
    have hsame := ChannelState.newImported_mode hnew
    have hprepay := (hands.mode.symm.trans hsame.symm).trans hmode
    exact (ih hprepay).imported hb.sound hprepay ckptRef hands hacc hnew
  | move hb hm ih =>
    have hprepay := hm.terms.1.symm.trans hmode
    exact (ih hprepay).move hb.sound hprepay hm

/-- What is not consumed is what is credited and not evidenced. -/
theorem Solvent.deposit (h : b.Solvent) :
    Fee.Reconcile.prepayUnconsumedDeposit b.ledger.fundingSum b.evidenceCum =
      .ok (b.ledger.fundingSum - b.evidenceCum) := by
  unfold Fee.Reconcile.prepayUnconsumedDeposit
  rw [if_neg (Nat.not_lt.2 h.evidenceCum_le)]

/-- A target and what was settled when the channel opened are covered by the evidence. -/
theorem Solvent.target_le (h : b.Solvent) {t : ℕ}
    (ht : sumOf b.opening + t * 10000 ≤ sumOf b.evidence) :
    sumOf b.opening / 10000 + t ≤ b.evidenceCum := by
  have hshares := h.shares
  omega

end Books

end Paytp
