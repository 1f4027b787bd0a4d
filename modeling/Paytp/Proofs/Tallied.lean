import Paytp.Proofs.SettledOnce

/-!
# The postpay balance and the ledger

While what a ledger holds stays within what is metered and no counter saturates, the balance of a
postpay channel is what is metered less what is paid, and so is the balance that its position hands
on.
-/

namespace Paytp

open Carriage

theorem sum_le_sum_accrue (amt : ℕ) : ∀ (accs : List ℕ) (vs : List (UInt8 × UInt16)),
    accs.sum ≤ (ChannelState.accrue amt accs vs).sum
  | [], [] => le_rfl
  | [], _ :: _ => le_rfl
  | _ :: _, [] => le_rfl
  | acc :: accs, (r, bp) :: vs => by
    have hrest := sum_le_sum_accrue amt accs vs
    rw [ChannelState.accrue, List.sum_cons, List.sum_cons]
    exact Nat.add_le_add (Nat.le_add_right _ _) hrest

theorem ChannelState.newImported_mode {crypto : Crypto} {channelId : ByteArr 8}
    {kSession : ByteArr 32} {mode : Mode} {limitL limitE : ℕ} {vector : List (UInt8 × UInt16)}
    {cum : ℕ} {accruals : List ℕ} {balance : ℤ} {state : ChannelState}
    (h : newImported crypto channelId kSession mode limitL limitE vector cum accruals balance =
      .ok state) : state.mode = mode := by
  unfold newImported at h
  dsimp only at h
  split_ifs at h
  cases h
  rfl

/-- A checkpoint that recomputes leaves out what is past its cut. -/
theorem ChannelState.cumTotal_of_recomputes {crypto : Crypto} {s : ChannelState}
    {proposed : Checkpoint} (h : s.recomputes crypto proposed = true) :
    proposed.cumTotal = s.cumTotal - amounts (s.window.past proposed.lastSeq).values := by
  simp only [recomputes, Bool.and_eq_true, beq_iff_eq] at h
  exact h.1.1.1.1.1.1.2.symm

namespace Books

variable {crypto : Crypto} {b b' : Books}

/-- No more is settled than is metered. -/
theorem Sound.settled_le_metered (h : b.Sound) :
    sumOf b.ledger.settledR ≤ sumOf b.state.accrualsByRole := by
  have hset := h.outstanding_settled
  have hle := sum_le_sum_accrue b.state.unevidenced (b.evidence.map Prod.snd) b.state.vector
  rw [← h.accruals] at hle
  have hsnd : b.state.accrualsByRole.map Prod.snd = b.state.accruals := by
    refine List.map_snd_zip ?_
    rw [List.length_map, h.wellFormed.aligned]
  rw [sumOf, sumOf] at *
  rw [hsnd]
  omega

/-- The balance of a postpay channel is what is metered and not paid, and no counter saturates. -/
structure Tallied (b : Books) : Prop where
  metered : b.state.cumTotal = b.evidenceCum + b.state.unevidenced
  balance : b.state.balance = max 0 ((b.state.cumTotal : ℤ) - b.paid)
  lower : b.state.boundLower = 0
  within : b.state.balance ≤ b.state.boundUpper

/-- A channel that meters no more and has all it metered evidenced. -/
structure Quiet (b : Books) : Prop where
  settling : b.state.phase ≠ .open
  evidenced : b.evidenceCum = b.state.cumTotal

/-- May the channel meter the slices: is no more paid than is metered, unless they meter nothing,
and does no counter saturate? -/
def MayMeter (b : Books) (slices : List Slice) : Prop :=
  (b.paid ≤ b.state.cumTotal ∨ ChannelState.amounts slices = 0) ∧
    b.state.cumTotal + ChannelState.amounts slices ≤ U128_MAX ∧
    b.state.balance + ChannelState.amounts slices ≤ I128_MAX

instance (b : Books) (slices : List Slice) : Decidable (b.MayMeter slices) :=
  inferInstanceAs (Decidable (_ ∧ _ ∧ _))

/-- A funding is credited up to what is metered and not paid. -/
theorem Tallied.fund (h : b.Tallied) (hs : b.Sound) {credited : ℕ}
    (howed : credited ≤ b.outstandingNet) :
    ({ b with
      state := b.state.creditFunding credited
      ledger := { b.ledger with fundingSum := b.ledger.fundingSum + credited } } :
      Books).Tallied := by
  have hle := hs.settled_le_metered
  have hcum := hs.wellFormed.cum_le
  have hbal := h.balance
  have hmem := hs.wellFormed.balance_mem
  have hdiv := Nat.div_le_div_right (c := 10000) hle
  have hcredited : (credited : ℤ) ≤ b.state.balance := by
    unfold outstandingNet u128OfNat at howed
    unfold paid at hbal
    dsimp only at howed
    split_ifs at howed with hfits
    · rw [Option.getD_some] at howed
      omega
    · rw [Option.getD_none] at howed
      omega
  have hnew : (b.state.creditFunding credited).balance = b.state.balance - credited := by
    unfold ChannelState.creditFunding
    dsimp only
    rw [h.lower, satSubI128_of_le hcredited hmem.2]
    split_ifs <;> omega
  have hwithin := h.within
  constructor
  · exact h.metered
  · show (b.state.creditFunding credited).balance = max 0 ((b.state.cumTotal : ℤ) -
      (b.ledger.fundingSum + credited + b.ledger.netLegsSum + sumOf b.ledger.settledR / 10000 : ℕ))
    unfold paid at hbal
    omega
  · exact h.lower
  · show (b.state.creditFunding credited).balance ≤ b.state.boundUpper
    omega

/-- Slices of a channel that they are covered by. -/
theorem Tallied.meter (h : b.Tallied) (hs : b.Sound) {slices : List Slice} {state : ChannelState}
    (ht : ChannelState.Taken b.state slices state) (hcovers : b.MayMeter slices)
    (hwithin : state.balance ≤ state.boundUpper) : ({ b with state } : Books).Tallied := by
  obtain ⟨hpaid, hcum, hbal⟩ := hcovers
  have hmem := hs.wellFormed.balance_mem
  have hcumTotal := ht.cumTotal
  have hunev := ht.unevidenced_eq hs.wellFormed
  have hbalance := ht.balance
  rw [satAddU128_of_le hcum] at hcumTotal
  rw [satAddI128_of_mem (by omega) hbal] at hbalance
  have hlower : state.boundLower = b.state.boundLower := by rw [ht.frame]
  constructor
  · show state.cumTotal = b.evidenceCum + state.unevidenced
    rw [hcumTotal, h.metered, hunev]
    omega
  · show state.balance = max 0 ((state.cumTotal : ℤ) - b.paid)
    have := h.balance
    omega
  · exact hlower.trans h.lower
  · exact hwithin

theorem Tallied.countersign (h : b.Tallied) (hs : b.Sound) {proposed : Checkpoint}
    (ckptRef : ByteArr 32) (hrec : b.state.recomputes crypto proposed = true) :
    let b' : Books := { b with
      state := b.state.checkpointUpto crypto proposed.lastSeq
      operative := some { ckptRef, cumTotal := proposed.cumTotal, accruals := proposed.accruals } }
    b'.Tallied ∧ (b.Quiet → b'.Quiet) := by
  have hpast : ChannelState.amounts (b.state.window.past proposed.lastSeq).values ≤
      b.state.unevidenced := by
    have hsplit := ChannelState.amounts_split b.state.window proposed.lastSeq
    rw [hs.wellFormed.unevidenced_eq]
    omega
  have hcum := ChannelState.cumTotal_of_recomputes hrec
  have hmetered := h.metered
  intro b'
  have htally : b'.Tallied := by
    constructor
    · show b.state.cumTotal = proposed.cumTotal +
        ChannelState.amounts (b.state.window.past proposed.lastSeq).values
      omega
    · exact h.balance
    · exact h.lower
    · exact h.within
  refine ⟨htally, fun hq => ⟨hq.settling, ?_⟩⟩
  show proposed.cumTotal = b.state.cumTotal
  have := hq.evidenced
  omega

/-- A fold takes its units off the balance and stops at nothing, as the difference does. -/
theorem Tallied.fold (h : b.Tallied) (hs : b.Sound) (hmode : b.state.mode = .postpay)
    {k : ByteArr 32} {fold : RoundFold} (hf : b.Folds k fold) : (b.foldLegs k fold).Tallied := by
  have hmem := hs.wellFormed.balance_mem
  have hcum := hs.wellFormed.cum_le
  have hbal := h.balance
  have hpaid : (b.foldLegs k fold).paid = b.paid + units fold := paid_fold hs hf
  have hgross := gross_eq hs hf
  obtain ⟨balance, pausedWindow, hstate⟩ := foldLegs_state b k fold
  have hnew : balance = max 0 (b.state.balance - units fold) := by
    have hbalance : balance = (b.foldLegs k fold).state.balance := by rw [hstate]
    rw [hbalance]
    unfold foldLegs ChannelState.applySettlementRound satSubI128 i128OfU128 clampI128
    rw [if_pos hmode, hgross, h.lower]
    unfold U128_MAX I128_MIN I128_MAX at *
    by_cases hsome : min (2 ^ 128 - 1) (units fold) > 0
    · rw [if_pos hsome]
      dsimp only
      split_ifs <;> omega
    · rw [if_neg hsome]
      dsimp only
      omega
  have hwithin := h.within
  constructor
  · rw [hstate]
    exact h.metered
  · rw [hpaid, hstate]
    dsimp only
    omega
  · rw [hstate]
    exact h.lower
  · rw [hstate]
    dsimp only
    have hnonneg : 0 ≤ b.state.balance := by omega
    omega

theorem Moves.mode_eq {kinds : List Kind} (hm : Moves crypto kinds b b') :
    b'.state.mode = b.state.mode := by
  induction hm with
  | refl => rfl
  | tail _ hm ih =>
    obtain ⟨kind, -, hm⟩ := hm
    exact hm.terms.1.trans ih

theorem Moves.basis_eq {kinds : List Kind} (hm : Moves crypto kinds b b') :
    b'.basis = b.basis := by
  induction hm with
  | refl => rfl
  | tail _ hm ih =>
    obtain ⟨kind, -, hm⟩ := hm
    rw [← ih]
    cases hm <;> rfl

/-- Every move but metering keeps a postpay channel tallied, and a quiet one quiet. -/
theorem Tallied.move (h : b.Tallied) (hs : b.Sound) (hmode : b.state.mode = .postpay) {kind : Kind}
    (hm : Move crypto kind b b') (hmeter : kind ≠ .meter) :
    b'.Tallied ∧ (b.Quiet → b'.Quiet) := by
  cases hm with
  | meter => exact absurd rfl hmeter
  | idle pausedWindow settles =>
    exact ⟨⟨h.metered, h.balance, h.lower, h.within⟩,
      fun hq => ⟨settles hq.settling, hq.evidenced⟩⟩
  | countersign ckptRef recomputes => exact h.countersign hs ckptRef recomputes
  | fund fits owed => exact ⟨h.fund hs (owed hmode), fun hq => ⟨hq.settling, hq.evidenced⟩⟩
  | lock | restate =>
    exact ⟨⟨h.metered, h.balance, h.lower, h.within⟩, fun hq => ⟨hq.settling, hq.evidenced⟩⟩
  | fold folds =>
    obtain ⟨balance, pausedWindow, hstate⟩ := foldLegs_state b _ _
    refine ⟨h.fold hs hmode folds, fun hq => ⟨?_, ?_⟩⟩
    · rw [hstate]
      exact hq.settling
    · rw [hstate]
      exact hq.evidenced
  | draw finalTime round unfolded unconfirmed prepay =>
    rw [hmode] at prepay
    cases prepay
  | drop round unconfirmed prepay =>
    rw [hmode] at prepay
    cases prepay

/-- And so do any number of them, one after the other. -/
theorem Tallied.moves {kinds : List Kind} (hmeter : Kind.meter ∉ kinds) (h : b.Tallied)
    (hb : Reachable crypto b) (hmode : b.state.mode = .postpay) (hm : Moves crypto kinds b b') :
    b'.Tallied ∧ (b.Quiet → b'.Quiet) := by
  induction hm with
  | refl => exact ⟨h, id⟩
  | tail hms hm ih =>
    obtain ⟨kind, hk, hm⟩ := hm
    obtain ⟨htally, hquiet⟩ := ih
    have hmode' := (Moves.mode_eq hms).trans hmode
    obtain ⟨htally', hquiet'⟩ := htally.move (hb.moves crypto hms).sound hmode' hm
      fun he => hmeter (he ▸ hk)
    exact ⟨htally', fun hq => hquiet' (hquiet hq)⟩

/-! ## Opening -/

theorem Tallied.fresh (channelId : ByteArr 8) (kSession : ByteArr 32) (limitL limitE : ℕ) :
    (Books.fresh crypto channelId kSession .postpay limitL limitE).Tallied := by
  refine ⟨rfl, by simp [Books.fresh, ChannelState.new, paid, sumOf], rfl, ?_⟩
  show (0 : ℤ) ≤ i128OfU128 limitL
  unfold i128OfU128 I128_MAX
  omega

/-- A position whose balance is what is metered and not paid. -/
def Balances (snap : ChainSnapshot) : Prop :=
  snap.importedBalance = max 0 ((snap.cumTotal : ℤ) - (snap.openingFunding + snap.openingNetLegs +
    sumOf snap.openingSettledR / 10000 : ℕ))

/-- A postpay channel that imports such a position is tallied. -/
theorem Balances.imported {snap : ChainSnapshot} (h : Balances snap)
    (hmode : snap.mode = .postpay) {channelId : ByteArr 8} {kSession : ByteArr 32}
    {limitL limitE : ℕ} {accruals : List ℕ} {state : ChannelState} (ckptRef : ByteArr 32)
    (hnew : ChannelState.newImported crypto channelId kSession snap.mode limitL limitE
      SCHEMA_01_ROLES snap.cumTotal accruals snap.importedBalance = .ok state) :
    (Books.imported state ckptRef snap).Tallied := by
  unfold ChannelState.newImported at hnew
  rw [hmode] at hnew
  dsimp only at hnew
  split_ifs at hnew with _ hbounds
  cases hnew
  push Not at hbounds
  exact ⟨rfl, h, rfl, hbounds.1⟩

/-- The balance is the position that an import computes. -/
theorem Tallied.position (h : b.Tallied) (hs : b.Sound) :
    importedBalanceF6e .postpay b.state.cumTotal b.ledger.settledR b.ledger.netLegsSum
      b.ledger.fundingSum b.state.boundLower b.state.boundUpper = b.state.balance := by
  have hcum := hs.wellFormed.cum_le
  have hmem := hs.wellFormed.balance_mem
  have hbal := h.balance
  have hupper := h.within
  have hcarve : (u128OfNat (sumOf b.ledger.settledR / 10000)).getD U128_MAX =
      min U128_MAX (sumOf b.ledger.settledR / 10000) := by
    unfold u128OfNat
    split_ifs with hfits
    · exact (min_eq_right hfits).symm
    · exact (min_eq_left (le_of_not_ge hfits)).symm
  have hpaid : satAddU128 (satAddU128 b.ledger.fundingSum b.ledger.netLegsSum)
      (min U128_MAX (sumOf b.ledger.settledR / 10000)) = min U128_MAX b.paid := by
    unfold satAddU128 paid
    omega
  unfold importedBalanceF6e
  rw [hcarve]
  dsimp only
  rw [hpaid, h.lower]
  unfold i128OfU128
  unfold I128_MIN I128_MAX at *
  split_ifs <;> omega

/-- The position that tallied books hand on, once they are quiet, balances. -/
theorem Tallied.handsOn (h : b.Tallied) (hs : b.Sound) (hmode : b.state.mode = .postpay)
    (hquiet : b.Quiet) {snap : ChainSnapshot} (hands : b.HandsOn snap) : Balances snap := by
  have hcum : snap.cumTotal = b.state.cumTotal := by
    obtain ⟨op, hop, hcum, -⟩ | ⟨-, hzero, hcum, -⟩ := hands.position
    · have hev := hquiet.evidenced
      simp only [evidenceCum, hop] at hev
      rw [hcum, hev]
    · rw [hcum, hzero]
  have hbalance := hands.balance
  rw [hcum, hmode, h.position hs, h.balance] at hbalance
  unfold Balances
  rw [hbalance, hcum, hands.settledR, hands.netLegs, hands.funding, paid]

end Books

end Paytp
