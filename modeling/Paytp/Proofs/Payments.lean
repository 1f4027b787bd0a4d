import Paytp.Rail

/-!
# Payments on the virtual rail

A payment that is taken credits what it pays without an overflow, and is recorded. One that is
refused, and one at which the code stops, leave the rail as it is.
-/

namespace Paytp

namespace VirtualRail

variable {rail rail' : VirtualRail} {transfer : Transfer}

/-- A checked credit is the saturating one where it does not overflow. -/
theorem creditChecked_eq_some {dest : String} {amount : ℕ} :
    rail.creditChecked dest amount = some rail' ↔
      rail.balance dest + amount ≤ U128_MAX ∧ rail' = rail.credit dest amount := by
  unfold creditChecked credit
  split_ifs with hover
  · constructor
    · nofun
    · rintro ⟨hfits, -⟩
      omega
  · rw [satAddU128_of_le (by omega), Option.some_inj]
    constructor
    · rintro rfl
      exact ⟨by omega, rfl⟩
    · rintro ⟨-, rfl⟩
      rfl

/-- Checked payouts are the saturating ones where none of them overflows. -/
theorem payChecked_eq (payouts : List Payout) :
    ∀ {rail : VirtualRail}, rail.payChecked payouts = some rail' →
      rail' = rail.applyPayouts payouts := by
  induction payouts with
  | nil =>
    intro rail h
    cases h
    rfl
  | cons p payouts ih =>
    intro rail h
    obtain ⟨mid, hmid, hrest⟩ := Option.bind_eq_some_iff.1 h
    rw [ih hrest, (creditChecked_eq_some.1 hmid).2]
    rfl

/-- Payouts change balances only. -/
theorem payChecked_kept (payouts : List Payout) :
    ∀ {rail : VirtualRail}, rail.payChecked payouts = some rail' →
      ∃ ledger, rail' = { rail with ledger := ledger } := by
  induction payouts with
  | nil =>
    intro rail h
    cases h
    exact ⟨rail'.ledger, rfl⟩
  | cons p payouts ih =>
    intro rail h
    obtain ⟨mid, hmid, hrest⟩ := Option.bind_eq_some_iff.1 h
    obtain ⟨-, rfl⟩ := creditChecked_eq_some.1 hmid
    obtain ⟨ledger, rfl⟩ := ih hrest
    exact ⟨ledger, rfl⟩

/-- Checked payouts that do not overflow: the first, and the rest after it. -/
theorem payChecked_cons_isSome (rail : VirtualRail) (p : Payout) (payouts : List Payout) :
    (rail.payChecked (p :: payouts)).isSome = true ↔
      rail.balance p.dest + p.amount ≤ U128_MAX ∧
        ((rail.credit p.dest p.amount).payChecked payouts).isSome = true := by
  have hbind : rail.payChecked (p :: payouts) =
      (rail.creditChecked p.dest p.amount).bind (payChecked · payouts) := rfl
  rw [hbind]
  rcases hcredit : rail.creditChecked p.dest p.amount with _ | mid
  · refine iff_of_false (by simp) fun ⟨hfits, _⟩ => ?_
    rw [creditChecked_eq_some.2 ⟨hfits, rfl⟩] at hcredit
    cases hcredit
  · obtain ⟨hfits, rfl⟩ := creditChecked_eq_some.1 hcredit
    exact ⟨fun h => ⟨hfits, h⟩, And.right⟩

/-- Whether payouts overflow is read off the balances. -/
theorem payChecked_isSome_congr (payouts : List Payout) :
    ∀ {rail rail' : VirtualRail}, rail.ledger = rail'.ledger →
      ((rail.payChecked payouts).isSome = true ↔ (rail'.payChecked payouts).isSome = true) := by
  induction payouts with
  | nil => exact fun _ => Iff.rfl
  | cons p payouts ih =>
    intro rail rail' h
    have hbal : rail.balance p.dest = rail'.balance p.dest := by
      unfold balance
      rw [h]
    have hcredit : (rail.credit p.dest p.amount).ledger =
        (rail'.credit p.dest p.amount).ledger := by
      unfold credit
      rw [h, hbal]
    rw [payChecked_cons_isSome, payChecked_cons_isSome, hbal, ih hcredit]

/-- What a payment that is taken pays, before its reference is recorded: a plain destination is
credited, and a split divides what it receives. -/
inductive Pays (rail : VirtualRail) (transfer : Transfer) : VirtualRail → Prop
  | plain (hsplit : rail.splits.lookup transfer.dest = none)
    (hfits : rail.balance transfer.dest + transfer.amount ≤ U128_MAX) :
    Pays rail transfer (rail.credit transfer.dest transfer.amount)
  | divided {split : SplitState} {out : List Payout} {paid : List ℕ} {rail' : VirtualRail}
    (hsplit : rail.splits.lookup transfer.dest = some split)
    (hroom : split.vReceived + transfer.amount ≤ U128_MAX)
    (hout : distribute (split.vReceived + transfer.amount) split.recipients split.paid =
      (out, paid))
    (hpaid : (rail.withSplit transfer.dest
      { split with vReceived := split.vReceived + transfer.amount, paid }).payChecked out =
        some rail') :
    Pays rail transfer rail'

/-- A payment changes balances and splits only. -/
theorem Pays.kept (h : rail.Pays transfer rail') :
    ∃ ledger splits, rail' = { rail with ledger := ledger, splits := splits } := by
  rcases h with - | ⟨-, -, -, hpaid⟩
  · exact ⟨_, rail.splits, rfl⟩
  · obtain ⟨ledger, rfl⟩ := payChecked_kept _ hpaid
    exact ⟨ledger, _, rfl⟩

/-- A payment is taken and recorded, or leaves the rail as it is. -/
theorem recordPayment_cases (rail : VirtualRail) (transfer : Transfer) :
    (∃ paid, rail.Pays transfer paid ∧ rail.recordPayment transfer =
      (.ok (paid.recordRef (paymentInfo transfer)).1, (paid.recordRef (paymentInfo transfer)).2)) ∨
    ∃ e, rail.recordPayment transfer = (.error e, rail) := by
  unfold recordPayment
  rcases hsplit : rail.splits.lookup transfer.dest with _ | split
  · dsimp only
    rcases hcredit : rail.creditChecked transfer.dest transfer.amount with _ | paid
    · exact .inr ⟨_, rfl⟩
    · obtain ⟨hfits, rfl⟩ := creditChecked_eq_some.1 hcredit
      exact .inl ⟨_, .plain hsplit hfits, rfl⟩
  · dsimp only
    split_ifs with hover
    · exact .inr ⟨_, rfl⟩
    · rcases hout : distribute (split.vReceived + transfer.amount) split.recipients split.paid with
        ⟨out, paid⟩
      dsimp only
      rcases hpaid : payChecked _ out with _ | rail'
      · exact .inr ⟨_, rfl⟩
      · exact .inl ⟨_, .divided hsplit (not_lt.1 hover) hout hpaid, rfl⟩

/-- What a payment credits is within the bounds of the balances, and of the split's running total
where a split is paid. -/
def Takes (rail : VirtualRail) (transfer : Transfer) : Prop :=
  match rail.splits.lookup transfer.dest with
  | some split => split.vReceived + transfer.amount ≤ U128_MAX ∧
      (rail.payChecked (distribute (split.vReceived + transfer.amount) split.recipients
        split.paid).1).isSome = true
  | none => rail.balance transfer.dest + transfer.amount ≤ U128_MAX

instance : Decidable (rail.Takes transfer) := by
  unfold Takes
  exact match rail.splits.lookup transfer.dest with
    | some _ => inferInstanceAs (Decidable (_ ∧ _))
    | none => inferInstanceAs (Decidable (_ ≤ _))

theorem recordPayment_isOk_iff (rail : VirtualRail) (transfer : Transfer) :
    (∃ id, (rail.recordPayment transfer).1 = .ok id) ↔ rail.Takes transfer := by
  unfold recordPayment Takes
  rcases rail.splits.lookup transfer.dest with _ | split
  · dsimp only
    by_cases hfits : rail.balance transfer.dest + transfer.amount ≤ U128_MAX
    · rw [creditChecked_eq_some.2 ⟨hfits, rfl⟩]
      exact iff_of_true ⟨_, rfl⟩ hfits
    · rcases hcredit : rail.creditChecked transfer.dest transfer.amount with _ | paid
      · exact iff_of_false nofun hfits
      · exact absurd (creditChecked_eq_some.1 hcredit).1 hfits
  · dsimp only
    split_ifs with hover
    · exact iff_of_false nofun fun h => absurd h.1 (not_le.2 hover)
    · rcases distribute (split.vReceived + transfer.amount) split.recipients split.paid with
        ⟨out, paid⟩
      dsimp only
      rw [payChecked_isSome_congr out (show rail.ledger = (rail.withSplit transfer.dest
        { split with vReceived := split.vReceived + transfer.amount, paid }).ledger from rfl)]
      rcases payChecked _ out with _ | after
      · exact iff_of_false nofun nofun
      · exact iff_of_true ⟨_, rfl⟩ ⟨not_lt.1 hover, rfl⟩

end VirtualRail

end Paytp
