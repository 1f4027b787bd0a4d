import Paytp.HostedRail
import Paytp.Lib.Totals
import Paytp.Proofs.ChannelMeed
import Paytp.Proofs.Deliveries
import Paytp.Proofs.Payments
import Paytp.Signing

/-!
# The rail conserves value

What is on the rail is in balances, in splits and instances that keep what does not divide, and in
entries that are not settled. It grows by what is brought from outside and by nothing else. All of
that is there exactly where no credit passes the bound of its account and what is delivered is
divided.
-/

namespace Paytp

/-- An amount that is brought if it is accepted. -/
def ifAccepted {α : Type} (x : Except RailError α) (amount : ℕ) : ℕ :=
  match x with
  | .ok _ => amount
  | .error _ => 0

@[simp] theorem ifAccepted_ok {α : Type} (a : α) (amount : ℕ) :
    ifAccepted (.ok a : Except RailError α) amount = amount := rfl

@[simp] theorem ifAccepted_error {α : Type} (e : RailError) (amount : ℕ) :
    ifAccepted (.error e : Except RailError α) amount = 0 := rfl

/-- A total that is credited with an amount: with all of it exactly where the credit is whole. -/
def Credited (whole : Prop) (total amount total' : ℕ) : Prop :=
  total' ≤ total + amount ∧ (total' = total + amount ↔ whole)

namespace Credited

variable {p q : Prop} {a b c m n : ℕ}

theorem of_eq (h : b = a + m) : Credited True a m b := ⟨h.le, iff_of_true h trivial⟩

theorem zero (total : ℕ) : Credited True total 0 total := of_eq rfl

theorem trans (h : Credited p a m b) (h' : Credited q b n c) : Credited (p ∧ q) a (m + n) c := by
  obtain ⟨hle, heq⟩ := h
  obtain ⟨hle', heq'⟩ := h'
  refine ⟨by omega, ?_⟩
  rw [← heq, ← heq']
  omega

/-- A credit of a total that something was taken from or put to. -/
theorem shift (h : Credited p b n c) (heq : b + n = a + m) : Credited p a m c := by
  unfold Credited at h ⊢
  rwa [heq] at h

theorem congr (h : Credited p a m b) (hpq : p ↔ q) : Credited q a m b := ⟨h.1, h.2.trans hpq⟩

/-- A credit of which nothing is asked. -/
theorem congr_true (h : Credited True a m b) (hp : p) : Credited p a m b :=
  h.congr (iff_of_true trivial hp)

end Credited

/-! ## Balances -/

namespace VirtualRail

variable (rail : VirtualRail)

/-- What all balances are together. -/
def balances : ℕ := HashMap.total id rail.ledger

theorem balance_le (addr : String) : rail.balance addr ≤ rail.balances := by
  have h := HashMap.held_le_total (f := id) rail.ledger addr
  unfold HashMap.held at h
  rw [Option.map_id] at h
  exact h

theorem credit_balances (dest : String) (amount : ℕ) :
    Credited (rail.balance dest + amount ≤ U128_MAX) rail.balances amount
      (rail.credit dest amount).balances := by
  have hins := HashMap.total_insert (f := id) rail.ledger dest
    (satAddU128 (rail.balance dest) amount)
  have hle := rail.balance_le dest
  have hheld : HashMap.held id rail.ledger dest = rail.balance dest := by
    unfold HashMap.held
    rw [Option.map_id]
    rfl
  rw [hheld] at hins
  unfold Credited balances credit at *
  unfold satAddU128 at hins ⊢
  dsimp only [id] at *
  omega

theorem debit_balances {src : String} {amount : ℕ} (h : amount ≤ rail.balance src) :
    (rail.debit src amount).balances + amount = rail.balances := by
  have hins := HashMap.total_insert (f := id) rail.ledger src (rail.balance src - amount)
  have hheld : HashMap.held id rail.ledger src = rail.balance src := by
    unfold HashMap.held
    rw [Option.map_id]
    rfl
  rw [hheld] at hins
  unfold balances debit
  dsimp only [id] at *
  omega

/-- Payouts change balances only. -/
theorem applyPayouts_kept (payouts : List Payout) :
    (rail.applyPayouts payouts).splits = rail.splits ∧
      (rail.applyPayouts payouts).instances = rail.instances := by
  induction payouts generalizing rail with
  | nil => exact ⟨rfl, rfl⟩
  | cons p payouts ih => exact ih (rail.credit p.dest p.amount)

end VirtualRail

/-! ## Dividing -/

namespace MeedInstance

theorem entitle_total {total total' bpTotal : ℕ} (hle : total ≤ total') : ∀ meed : List MeedShare,
    ((entitle total' bpTotal meed (meed.map fun r => total * r.bp / bpTotal)).1.map
        Payout.amount).sum + (meed.map fun r => total * r.bp / bpTotal).sum =
      (meed.map fun r => total' * r.bp / bpTotal).sum
  | [] => rfl
  | r :: meed => by
    have ih := @entitle_total total total' bpTotal hle meed
    have hmono : total * r.bp / bpTotal ≤ total' * r.bp / bpTotal :=
      Nat.div_le_div_right (Nat.mul_le_mul_right _ hle)
    simp only [List.map_cons, entitle, List.sum_cons]
    split_ifs with hmore
    · rw [List.map_cons, List.sum_cons]
      dsimp only
      omega
    · dsimp only
      omega

end MeedInstance

/-! ## Splits -/

namespace SplitState

/-- What a split keeps of what it received. -/
def kept (split : SplitState) : ℕ := split.vReceived - split.paid.sum

def shares (split : SplitState) : List MeedShare := split.recipients.map fun (d, bp) => ⟨d, bp⟩

/-- Each recipient of a split was paid its floor, and together they have no more than the whole. -/
structure Sound (split : SplitState) : Prop where
  whole : (split.shares.map MeedShare.bp).sum ≤ 10000
  paid : split.paid = split.shares.map fun r => split.vReceived * r.bp / 10000

variable {split : SplitState}

theorem Sound.paid_le (h : split.Sound) : split.paid.sum ≤ split.vReceived := by
  rw [h.paid]
  exact MeedInstance.sum_floors_le_of_le _ h.whole

theorem distribute_eq (v : ℕ) : ∀ (recipients : List (String × ℕ)) (paid : List ℕ),
    VirtualRail.distribute v recipients paid =
      MeedInstance.entitle v 10000 (recipients.map fun (d, bp) => ⟨d, bp⟩) paid
  | [], _ => by simp [VirtualRail.distribute, MeedInstance.entitle]
  | _ :: _, [] => by simp [VirtualRail.distribute, MeedInstance.entitle]
  | (d, bp) :: recipients, p :: paid => by
    simp only [VirtualRail.distribute, MeedInstance.entitle, List.map_cons,
      distribute_eq v recipients paid]

theorem deployed_sound {recipients : List (String × ℕ)}
    (h : ((recipients.map fun (d, bp) => MeedShare.mk d bp).map MeedShare.bp).sum ≤ 10000) :
    (SplitState.mk recipients 0 (recipients.map fun _ => 0)).Sound := by
  refine ⟨h, ?_⟩
  unfold shares
  rw [List.map_map]
  exact List.map_congr_left fun r _ => by simp

/-- A payment to a split is paid out but for what the split keeps more. -/
theorem Sound.receive (h : split.Sound) (amount : ℕ) {out : List Payout} {paid : List ℕ}
    (hout : VirtualRail.distribute (split.vReceived + amount) split.recipients split.paid =
      (out, paid)) :
    let split' := { split with vReceived := split.vReceived + amount, paid }
    split'.Sound ∧ split'.kept + (out.map Payout.amount).sum = split.kept + amount := by
  rw [distribute_eq, h.paid] at hout
  have hfloors := (@MeedInstance.entitle_floors split.vReceived (split.vReceived + amount) 10000
    (by omega) "" split.shares).1
  have htotal := @MeedInstance.entitle_total split.vReceived (split.vReceived + amount) 10000
    (by omega) split.shares
  unfold shares at hfloors htotal hout
  rw [hout] at hfloors htotal
  have hsound : ({ split with vReceived := split.vReceived + amount, paid } : SplitState).Sound :=
    ⟨h.whole, hfloors⟩
  refine ⟨hsound, ?_⟩
  have hle := h.paid_le
  have hle' := hsound.paid_le
  have hpaid := congrArg List.sum h.paid
  have hpaid' := congrArg List.sum hfloors
  unfold kept shares at *
  dsimp only at *
  omega

end SplitState

/-! ## Channels -/

namespace MeedInstance

/-- What an instance keeps of what its channels were advanced. -/
def kept (inst : MeedInstance) : ℕ := HashMap.total ChannelWatermark.residue inst.channelPaid

/-- Every channel stands where some position brings it. -/
def Sound (inst : MeedInstance) : Prop :=
  ∀ cid, ∃ position, inst.channelPaid.lookup cid = inst.standing position

variable {inst : MeedInstance} {cid : ByteArr 8} {target : ℕ}

/-- What a channel at a position keeps. -/
theorem held_standing {position : ℕ} (h : inst.channelPaid.lookup cid = inst.standing position) :
    HashMap.held ChannelWatermark.residue inst.channelPaid cid =
      if inst.bpTotal = 0 then 0 else position - (inst.floors position).sum := by
  unfold HashMap.held
  rw [h]
  unfold standing
  by_cases hbp : inst.bpTotal = 0
  · rw [if_pos (.inr hbp), if_pos hbp]
    rfl
  · by_cases hpos : position = 0
    · rw [if_pos (.inl hpos), if_neg hbp, hpos]
      exact (Nat.zero_sub _).symm
    · rw [if_neg (by omega), if_neg hbp]
      rfl

/-- An advance is paid out but for what the channel keeps more. -/
theorem Sound.advance (h : inst.Sound) (cid : ByteArr 8) (hmax : target ≤ U128_MAX) :
    let r := inst.advanceChannelMeed cid target
    r.2.Sound ∧ r.2.kept + (r.1.2.2.map Payout.amount).sum = inst.kept + r.1.2.1 := by
  obtain ⟨position, hpos⟩ := h cid
  by_cases hbp : inst.bpTotal = 0
  · have hsame : inst.advanceChannelMeed cid target =
        ((inst.channelFundedP cid, 0, []), inst) := by
      unfold advanceChannelMeed channelFundedP
      rcases inst.channelPaid.lookup cid with _ | w <;> exact if_pos (.inr hbp)
    rw [hsame]
    exact ⟨h, rfl⟩
  · rw [advanceChannelMeed_eq hpos hbp]
    by_cases hle : target ≤ position
    · rw [if_pos hle]
      exact ⟨h, rfl⟩
    · rw [if_neg hle]
      obtain ⟨hnew, -⟩ := @entitle_floors position target inst.bpTotal (by omega) "" inst.meed
      have hout := @entitle_total position target inst.bpTotal (by omega) inst.meed
      have hsum := @sum_floors_self_le inst position
      have hsum' := @sum_floors_self_le inst target
      have hins := HashMap.total_insert (f := ChannelWatermark.residue) inst.channelPaid cid
        { fundedP := target, paid := inst.floors target
          residue := target - min U128_MAX (inst.floors target).sum }
      rw [held_standing hpos, if_neg hbp] at hins
      unfold floors at hins hsum hsum' ⊢
      dsimp only
      rw [hnew]
      refine ⟨fun cid' => ?_, ?_⟩
      · by_cases heq : cid' = cid
        · refine ⟨target, ?_⟩
          rw [heq]
          dsimp only
          rw [Finmap.lookup_insert, min_eq_right (hsum'.trans hmax)]
          have hsome : ¬(target = 0 ∨ inst.bpTotal = 0) := by omega
          exact (if_neg hsome).symm
        · obtain ⟨position', hpos'⟩ := h cid'
          refine ⟨position', ?_⟩
          dsimp only
          rw [Finmap.lookup_insert_of_ne _ heq]
          exact hpos'
      · unfold kept
        dsimp only at hins ⊢
        omega

theorem advance_delta_le (inst : MeedInstance) (cid : ByteArr 8) (target : ℕ) :
    (inst.advanceChannelMeed cid target).1.2.1 ≤ target - inst.channelFundedP cid := by
  unfold advanceChannelMeed channelFundedP
  rcases inst.channelPaid.lookup cid with _ | w
  · dsimp only
    split_ifs
    · exact Nat.zero_le _
    · exact Nat.le_refl _
  · dsimp only
    split_ifs
    · exact Nat.zero_le _
    · exact Nat.le_refl _

end MeedInstance

/-! ## What an instance hosts -/

namespace PurchaseInstance

/-- What is delivered and not divided. -/
def pool (inst : PurchaseInstance) : ℕ := inst.vReceived - inst.paid.sum

/-- What the entries hold that are not settled. -/
def locked (inst : PurchaseInstance) : ℕ :=
  HashMap.total (fun e => if e.state.active then e.amount else 0) inst.entries

def kept (inst : PurchaseInstance) : ℕ := inst.pool + inst.locked

/-- Each share was paid its floor of what was delivered. -/
structure Sound (inst : PurchaseInstance) : Prop where
  paid : inst.paid = inst.meed.map fun r => inst.vReceived * r.bp / inst.bpTotal
  bounded : inst.vReceived ≤ U128_MAX

variable {suite : Suite} {inst : PurchaseInstance}

theorem new_sound (merchantKey : ByteArr 32) (meed : List MeedShare) (seed : ByteArr 32) :
    (PurchaseInstance.new merchantKey meed seed).Sound := by
  refine ⟨?_, Nat.zero_le _⟩
  simp [new]

theorem new_kept (merchantKey : ByteArr 32) (meed : List MeedShare) (seed : ByteArr 32) :
    (PurchaseInstance.new merchantKey meed seed).kept = 0 :=
  Nat.add_eq_zero_iff.2 ⟨Nat.zero_sub _, HashMap.total_empty⟩

theorem Sound.paid_le (h : inst.Sound) : inst.paid.sum ≤ inst.vReceived := by
  rw [h.paid]
  exact MeedInstance.sum_floors_le _ _

/-- An amount is divided whole: there are shares to divide it by, and the running total holds it. -/
def Divides (inst : PurchaseInstance) (amount : ℕ) : Prop :=
  if inst.bpTotal = 0 then amount = 0 else inst.vReceived + amount ≤ U128_MAX

instance (inst : PurchaseInstance) (amount : ℕ) : Decidable (inst.Divides amount) :=
  inferInstanceAs (Decidable (ite ..))

/-- A delivery is paid out but for what the pool keeps more, and is whole where it is divided. -/
theorem Sound.deliver (h : inst.Sound) (amount : ℕ) :
    (inst.distribute amount).2.Sound ∧ (inst.distribute amount).2.entries = inst.entries ∧
      Credited (inst.Divides amount) inst.pool amount ((inst.distribute amount).2.pool +
        ((inst.distribute amount).1.map Payout.amount).sum) := by
  unfold distribute Divides Credited
  split_ifs with hbp
  · refine ⟨h, rfl, ?_⟩
    simp only [List.map_nil, List.sum_nil]
    omega
  · have hgrow : inst.vReceived ≤ satAddU128 inst.vReceived amount := by
      have := h.bounded
      unfold satAddU128
      omega
    have hadd : satAddU128 inst.vReceived amount ≤ inst.vReceived + amount := min_le_right _ _
    have hfit : satAddU128 inst.vReceived amount = inst.vReceived + amount ↔
        inst.vReceived + amount ≤ U128_MAX := by
      unfold satAddU128
      omega
    have hmax : satAddU128 inst.vReceived amount ≤ U128_MAX := min_le_left _ _
    generalize satAddU128 inst.vReceived amount = v at hgrow hadd hfit hmax ⊢
    have hnew := (@MeedInstance.entitle_floors _ _ inst.bpTotal hgrow "" inst.meed).1
    have hout := @MeedInstance.entitle_total _ _ inst.bpTotal hgrow inst.meed
    have hpaid := congrArg List.sum h.paid
    have hle := h.paid_le
    have hsum := MeedInstance.sum_floors_le v inst.meed
    rw [← h.paid] at hnew hout
    have hsound : ({ inst with vReceived := v, paid :=
        (MeedInstance.entitle v inst.bpTotal inst.meed inst.paid).2 } : PurchaseInstance).Sound :=
      ⟨hnew, hmax⟩
    have hle' := hsound.paid_le
    have hpaid' := congrArg List.sum hnew
    refine ⟨hsound, rfl, ?_⟩
    rw [← hfit]
    unfold pool
    dsimp only at hle' ⊢
    omega

/-- What an entry holds. -/
def Entry.holds (e : Entry) : ℕ := if e.state.active then e.amount else 0

theorem setState_locked {entryId : ByteArr 32} {e : Entry}
    (he : inst.entries.lookup entryId = some e) (state : State) :
    (inst.setState entryId e state).locked + e.holds =
      inst.locked + if state.active then e.amount else 0 := by
  have hins := HashMap.total_insert (f := Entry.holds) inst.entries entryId { e with state }
  rw [HashMap.held_of_lookup he] at hins
  exact hins

theorem setState_sound (h : inst.Sound) (entryId : ByteArr 32) (e : Entry) (state : State) :
    (inst.setState entryId e state).Sound := ⟨h.paid, h.bounded⟩

/-- What an operation brings into an instance. -/
def brings : Op → ℕ
  | .fundEntry t _ => t.amount
  | _ => 0

/-- The entry that an operation delivers is divided whole. -/
def DeliversWithin (inst : PurchaseInstance) (op : Op) : Prop :=
  ∀ entryId ∈ delivers op, ∀ e ∈ inst.entries.lookup entryId, inst.Divides e.amount

instance (inst : PurchaseInstance) (op : Op) : Decidable (inst.DeliversWithin op) :=
  inferInstanceAs (Decidable (∀ entryId ∈ delivers op, ∀ e ∈ inst.entries.lookup entryId,
    inst.Divides e.amount))

theorem deliversWithin_iff {op : Op} {entryId : ByteArr 32} {e : Entry}
    (hop : delivers op = some entryId) (he : inst.entries.lookup entryId = some e) :
    inst.DeliversWithin op ↔ inst.Divides e.amount := by
  unfold DeliversWithin
  rw [hop]
  simp [he]

theorem deliversWithin_of_none {op : Op} (hop : delivers op = none) : inst.DeliversWithin op := by
  intro entryId hmem
  rw [hop] at hmem
  cases hmem

/-- An entry that is delivered is divided. -/
theorem deliver_kept (h : inst.Sound) {entryId : ByteArr 32} {e : Entry} {state : State}
    (he : inst.entries.lookup entryId = some e) (hact : e.state.active = true)
    (hstate : state.active = false) :
    let r := (inst.setState entryId e state).distribute e.amount
    r.2.Sound ∧ Credited (inst.Divides e.amount) inst.kept 0
      (r.2.kept + (r.1.map Payout.amount).sum) := by
  have hlocked := setState_locked he state
  have hholds : e.holds = e.amount := if_pos hact
  rw [if_neg (by rw [hstate]; exact Bool.false_ne_true), hholds] at hlocked
  obtain ⟨hsound, hentries, hle, heq⟩ := (setState_sound h entryId e state).deliver e.amount
  have hsame : ((inst.setState entryId e state).distribute e.amount).2.locked =
      (inst.setState entryId e state).locked := by
    unfold locked
    rw [hentries]
  have hpool : (inst.setState entryId e state).pool = inst.pool := rfl
  have hdiv : (inst.setState entryId e state).Divides e.amount ↔ inst.Divides e.amount := Iff.rfl
  unfold kept
  refine ⟨hsound, by omega, ?_⟩
  rw [← hdiv, ← heq]
  omega

/-- An entry that is refunded is paid out whole. -/
theorem refund_kept (h : inst.Sound) {entryId : ByteArr 32} {e : Entry} {state : State}
    (he : inst.entries.lookup entryId = some e) (hact : e.state.active = true)
    (hstate : state.active = false) :
    (inst.setState entryId e state).Sound ∧ (inst.setState entryId e state).kept +
      ((refundOf e).map Payout.amount).sum = inst.kept := by
  have hlocked := setState_locked he state
  have hholds : e.holds = e.amount := if_pos hact
  rw [if_neg (by rw [hstate]; exact Bool.false_ne_true), hholds] at hlocked
  refine ⟨setState_sound h entryId e state, ?_⟩
  have hpool : (inst.setState entryId e state).pool = inst.pool := rfl
  have hout : ((refundOf e).map Payout.amount).sum = e.amount := Nat.add_zero _
  unfold kept
  omega

/-- What an operation leaves and pays out is what was there and what it brings. -/
theorem run_kept (h : inst.Sound) {now : ℕ} {op : Op} {out : List Payout} {inst' : PurchaseInstance}
    (hrun : inst.run suite now op = .ok (out, inst')) :
    inst'.Sound ∧ Credited (inst.DeliversWithin op) inst.kept (brings op)
      (inst'.kept + (out.map Payout.amount).sum) := by
  rcases op <;> simp only [run] at hrun
  case attest entryId signed =>
    simp only [attest, entry, bind_eq_ok, okOr_eq_ok, require_eq_ok, pure_eq_ok] at hrun
    obtain ⟨e, he, -, hact, -, -, hout⟩ := hrun
    obtain ⟨hsound, hkept⟩ := deliver_kept h he hact (show State.attested.active = false from rfl)
    rw [hout] at hsound hkept
    exact ⟨hsound, hkept.congr (deliversWithin_iff rfl he).symm⟩
  case claimLapsed entryId =>
    simp only [claimLapsed, entry, bind_eq_ok, okOr_eq_ok, require_eq_ok, beq_iff_eq,
      pure_eq_ok] at hrun
    obtain ⟨e, he, -, hs, -, -, hout⟩ := hrun
    obtain ⟨hsound, hkept⟩ := deliver_kept h he (by rw [hs]; rfl)
      (show State.lapsed.active = false from rfl)
    rw [hout] at hsound hkept
    exact ⟨hsound, hkept.congr (deliversWithin_iff rfl he).symm⟩
  case cancel entryId signed =>
    simp only [cancel, entry, bind_eq_ok, okOr_eq_ok, require_eq_ok, pure_eq_ok] at hrun
    obtain ⟨e, he, -, hact, -, -, hout⟩ := hrun
    cases hout
    obtain ⟨hsound, heq⟩ := refund_kept h he hact (show State.cancelled.active = false from rfl)
    exact ⟨hsound, (Credited.of_eq heq).congr_true (deliversWithin_of_none rfl)⟩
  case executeReclaim entryId =>
    simp only [executeReclaim, entry, bind_eq_ok, okOr_eq_ok] at hrun
    obtain ⟨e, he, hrun⟩ := hrun
    rcases hs : e.state <;> simp only [hs, bind_eq_ok, pure_eq_ok] at hrun
    case reclaimOpen openedAt =>
      obtain ⟨_, -, -, -, hout⟩ := hrun
      cases hout
      obtain ⟨hsound, heq⟩ := refund_kept h he (by rw [hs]; rfl)
        (show State.reclaimed.active = false from rfl)
      exact ⟨hsound, (Credited.of_eq heq).congr_true (deliversWithin_of_none rfl)⟩
    all_goals
      obtain ⟨_, hnone, -⟩ := hrun
      cases hnone
  case openReclaim entryId =>
    simp only [openReclaim, entry, bind_eq_ok, map_eq_ok, okOr_eq_ok, require_eq_ok, beq_iff_eq,
      pure_eq_ok] at hrun
    obtain ⟨_, ⟨e, he, -, hs, -, -, rfl⟩, hout⟩ := hrun
    cases hout
    have hlocked := setState_locked he (.reclaimOpen now)
    have hholds : e.holds = e.amount := if_pos (by rw [hs]; rfl)
    rw [if_pos (show (State.reclaimOpen now).active = true from rfl), hholds] at hlocked
    have heq : (inst.setState entryId e (.reclaimOpen now)).kept = inst.kept :=
      congrArg (inst.pool + ·) (by omega)
    exact ⟨setState_sound h entryId e _,
      (Credited.of_eq heq).congr_true (deliversWithin_of_none rfl)⟩
  case fundEntry t refundPtr =>
    simp only [fundEntry, bind_eq_ok, map_eq_ok, require_eq_ok, pure_eq_ok, Bool.not_eq_true',
      decide_eq_false_iff_not] at hrun
    obtain ⟨_, ⟨-, -, -, -, -, -, -, hfresh, rfl⟩, hout⟩ := hrun
    cases hout
    have hins := HashMap.total_insert (f := Entry.holds) inst.entries
      (suite.entryIdPurchase inst.seedInstance t.nonce t.amount t.tOpen t.tLapse t.contest)
      { t with refundPtr, state := .funded }
    rw [HashMap.held_of_not_mem hfresh] at hins
    have heq : inst.pool + HashMap.total Entry.holds (inst.entries.insert
        (suite.entryIdPurchase inst.seedInstance t.nonce t.amount t.tOpen t.tLapse t.contest)
        { t with refundPtr, state := .funded }) = inst.kept + t.amount := by
      have hlocked : inst.locked = HashMap.total Entry.holds inst.entries := rfl
      unfold kept
      rw [hlocked]
      have hholds : Entry.holds { t with refundPtr, state := .funded } = t.amount := rfl
      omega
    exact ⟨⟨h.paid, h.bounded⟩, (Credited.of_eq heq).congr_true (deliversWithin_of_none rfl)⟩

end PurchaseInstance

/-! ## The rail -/

namespace VirtualRail

/-- What is on the rail: balances, and what splits and channels keep. -/
def value (rail : VirtualRail) : ℕ :=
  rail.balances + HashMap.total SplitState.kept rail.splits +
    HashMap.total MeedInstance.kept rail.instances

structure Sound (rail : VirtualRail) : Prop where
  splits : ∀ addr split, rail.splits.lookup addr = some split → split.Sound
  instances : ∀ addr inst, rail.instances.lookup addr = some inst → inst.Sound

variable {rail rail' : VirtualRail}

/-- The recipients of a split are one for each destination of the vector, with all its points, and
the merchant with the rest of the whole. -/
theorem splitRecipients_some {meed : List (String × ℕ)} {merchantPayout : String}
    {recipients : List (String × ℕ)} (h : splitRecipients meed merchantPayout = some recipients) :
    ∃ agg : List MeedShare, MeedInstance.OneShare agg ∧
      (∀ dest, pointsOf agg dest = pointsOf (meed.map fun (d, bp) => ⟨d, bp⟩) dest) ∧
      (agg.map MeedShare.bp).sum = (meed.map Prod.snd).sum ∧ (meed.map Prod.snd).sum ≤ 10000 ∧
      (recipients.map fun (d, bp) => MeedShare.mk d bp) =
        agg ++ [⟨merchantPayout, 10000 - (meed.map Prod.snd).sum⟩] := by
  unfold splitRecipients at h
  dsimp only at h
  split_ifs at h with hover
  have hbp : ((meed.map fun (d, bp) => MeedShare.mk d bp).map MeedShare.bp).sum =
      (meed.map Prod.snd).sum := by
    rw [List.map_map]
    rfl
  obtain ⟨hone, hpoints, hsum⟩ := MeedInstance.foldl_addShare
    (meed.map fun (d, bp) => MeedShare.mk d bp) [] List.nodup_nil
    (by rw [hbp]; simp only [List.map_nil, List.sum_nil]; omega)
  rw [hbp, List.map_nil, List.sum_nil, Nat.zero_add] at hsum
  cases h
  refine ⟨_, hone, fun dest => ?_, hsum, by omega, ?_⟩
  · rw [hpoints dest]
    simp [pointsOf]
  · rw [List.map_append, List.map_map]
    simp [Function.comp_def]

/-- The recipients of a split share the whole. -/
theorem splitRecipients_sum {meed : List (String × ℕ)} {merchantPayout : String}
    {recipients : List (String × ℕ)} (h : splitRecipients meed merchantPayout = some recipients) :
    ((recipients.map fun (d, bp) => MeedShare.mk d bp).map MeedShare.bp).sum = 10000 := by
  obtain ⟨agg, -, -, hsum, hle, hrecipients⟩ := splitRecipients_some h
  rw [hrecipients, List.map_append, List.sum_append, hsum]
  simp only [List.map_cons, List.map_nil, List.sum_cons, List.sum_nil]
  omega

theorem splitRecipients_whole {meed : List (String × ℕ)} {merchantPayout : String}
    {recipients : List (String × ℕ)} (h : splitRecipients meed merchantPayout = some recipients) :
    ((recipients.map fun (d, bp) => MeedShare.mk d bp).map MeedShare.bp).sum ≤ 10000 :=
  (splitRecipients_sum h).le

theorem recordRef_value (rail : VirtualRail) (info : RefInfo) :
    (rail.recordRef info).2.value = rail.value := rfl

theorem recordRef_sound (h : rail.Sound) (info : RefInfo) : (rail.recordRef info).2.Sound :=
  ⟨h.splits, h.instances⟩

theorem credit_value (rail : VirtualRail) (dest : String) (amount : ℕ) :
    Credited (rail.balance dest + amount ≤ U128_MAX) rail.value amount
      (rail.credit dest amount).value := by
  obtain ⟨hle, heq⟩ := rail.credit_balances dest amount
  have hsplits : (rail.credit dest amount).splits = rail.splits := rfl
  have hinsts : (rail.credit dest amount).instances = rail.instances := rfl
  unfold value
  rw [hsplits, hinsts]
  refine ⟨by omega, ?_⟩
  rw [← heq]
  omega

theorem applyPayouts_value (rail : VirtualRail) (payouts : List Payout) :
    Credited ((rail.payChecked payouts).isSome = true) rail.value
      (payouts.map Payout.amount).sum (rail.applyPayouts payouts).value := by
  induction payouts generalizing rail with
  | nil => exact (Credited.zero _).congr_true rfl
  | cons p payouts ih =>
    rw [List.map_cons, List.sum_cons]
    exact ((rail.credit_value p.dest p.amount).trans (ih _)).congr
      (rail.payChecked_cons_isSome p payouts).symm

theorem applyPayouts_sound (h : rail.Sound) (payouts : List Payout) :
    (rail.applyPayouts payouts).Sound := by
  obtain ⟨hsplits, hinsts⟩ := rail.applyPayouts_kept payouts
  exact ⟨hsplits ▸ h.splits, hinsts ▸ h.instances⟩

theorem debit_value {src : String} {amount : ℕ} (h : amount ≤ rail.balance src) :
    (rail.debit src amount).value + amount = rail.value := by
  have hbal := rail.debit_balances h
  have hsplits : (rail.debit src amount).splits = rail.splits := rfl
  have hinsts : (rail.debit src amount).instances = rail.instances := rfl
  unfold value
  rw [hsplits, hinsts]
  omega

theorem setSplit_value {addr : String} {split : SplitState}
    (h : rail.splits.lookup addr = some split) (split' : SplitState) :
    (rail.withSplit addr split').value + split.kept = rail.value + split'.kept := by
  have hins := HashMap.total_insert (f := SplitState.kept) rail.splits addr split'
  rw [HashMap.held_of_lookup h] at hins
  unfold value balances withSplit
  dsimp only
  omega

theorem setInstance_value {addr : String} {inst : MeedInstance}
    (h : rail.instances.lookup addr = some inst) (inst' : MeedInstance) :
    ({ rail with instances := rail.instances.insert addr inst' } : VirtualRail).value + inst.kept =
      rail.value + inst'.kept := by
  have hins := HashMap.total_insert (f := MeedInstance.kept) rail.instances addr inst'
  rw [HashMap.held_of_lookup h] at hins
  unfold value balances
  dsimp only
  omega

theorem Sound.setSplit (h : rail.Sound) (addr : String) {split : SplitState} (hs : split.Sound) :
    (rail.withSplit addr split).Sound := by
  refine ⟨fun addr' split' hlook => ?_, h.instances⟩
  unfold withSplit at hlook
  rw [HashMap.lookup_insert_ite] at hlook
  split_ifs at hlook
  · cases hlook
    exact hs
  · exact h.splits _ _ hlook

theorem Sound.setInstance (h : rail.Sound) (addr : String) {inst : MeedInstance}
    (hi : inst.Sound) :
    ({ rail with instances := rail.instances.insert addr inst } : VirtualRail).Sound := by
  refine ⟨h.splits, fun addr' inst' hlook => ?_⟩
  dsimp only at hlook
  rw [HashMap.lookup_insert_ite] at hlook
  split_ifs at hlook
  · cases hlook
    exact hi
  · exact h.instances _ _ hlook

/-- What a payment pays is its amount. -/
theorem Pays.value_eq (h : rail.Sound) {t : Transfer} (hpays : rail.Pays t rail') :
    rail'.Sound ∧ rail'.value = rail.value + t.amount := by
  rcases hpays with ⟨-, hfits⟩ | ⟨hsplit, -, hout, hpaid⟩
  · exact ⟨⟨h.splits, h.instances⟩, (rail.credit_value t.dest t.amount).2.2 hfits⟩
  · rename_i split out paid
    obtain ⟨hsound, hkept⟩ := (h.splits _ _ hsplit).receive t.amount hout
    have hset := setSplit_value hsplit
      { split with vReceived := split.vReceived + t.amount, paid }
    have hvalue := (applyPayouts_value _ _).2.2 (Option.isSome_of_eq_some hpaid)
    rw [payChecked_eq _ hpaid]
    exact ⟨applyPayouts_sound (h.setSplit t.dest hsound) _, by omega⟩

/-- A payment that is taken brings its amount. -/
theorem recordPayment_value (h : rail.Sound) (t : Transfer) :
    (rail.recordPayment t).2.Sound ∧ (rail.recordPayment t).2.value =
      rail.value + ifAccepted (rail.recordPayment t).1 t.amount := by
  obtain ⟨paid, hpays, heq⟩ | ⟨e, heq⟩ := rail.recordPayment_cases t <;> rw [heq]
  · obtain ⟨hsound, hvalue⟩ := hpays.value_eq h
    exact ⟨recordRef_sound hsound _, hvalue⟩
  · exact ⟨h, rfl⟩

/-- What the rail remembers of settlements and releases. -/
def keysOf (rail : VirtualRail) :
    HashMap (ByteArr 32) String × HashMap (ByteArr 8 × ByteArr 32) String :=
  (rail.settleIds, rail.releaseKeys)

theorem applyPayouts_keys (rail : VirtualRail) (payouts : List Payout) :
    (rail.applyPayouts payouts).keysOf = rail.keysOf := by
  induction payouts generalizing rail with
  | nil => rfl
  | cons p payouts ih => exact ih (rail.credit p.dest p.amount)

theorem recordPayment_keys (rail : VirtualRail) (t : Transfer) :
    (rail.recordPayment t).2.keysOf = rail.keysOf := by
  obtain ⟨paid, hpays, heq⟩ | ⟨e, heq⟩ := rail.recordPayment_cases t <;> rw [heq]
  obtain ⟨ledger, splits, rfl⟩ := hpays.kept
  rfl

theorem releaseLocked_keys (rail : VirtualRail) (src dest asset : String) (amount : ℕ) :
    (rail.releaseLocked src dest asset amount).2.keysOf = rail.keysOf := by
  unfold releaseLocked
  split_ifs <;> rfl

theorem advanceChannelMeed_keys (rail : VirtualRail) (source : Option String) (addr : String)
    (cid : ByteArr 8) (target : ℕ) (asset : String) :
    (rail.advanceChannelMeed source addr cid target asset).2.keysOf = rail.keysOf := by
  unfold advanceChannelMeed
  split_ifs
  · rfl
  · rcases rail.instances.lookup addr with _ | inst
    · rfl
    · rcases source with _ | src
      · exact applyPayouts_keys _ _
      · dsimp only
        split_ifs
        · rfl
        · exact applyPayouts_keys _ _
        · exact applyPayouts_keys _ _

/-! ### What is refused -/

theorem recordPayment_refused {t : Transfer} {e : RailError}
    (h : (rail.recordPayment t).1 = .error e) : (rail.recordPayment t).2 = rail := by
  obtain ⟨paid, -, heq⟩ | ⟨e', heq⟩ := rail.recordPayment_cases t <;> rw [heq] at h ⊢
  cases h

theorem submit_refused {t : Transfer} {e : RailError} (h : (rail.submit t).1 = .error e) :
    (rail.submit t).2 = rail := by
  unfold submit at h ⊢
  split_ifs at h ⊢
  · rfl
  · exact recordPayment_refused h

theorem settle_refused {t : Transfer} {settleId : ByteArr 32} {e : RailError}
    (h : (rail.settle t settleId).1 = .error e) : (rail.settle t settleId).2 = rail := by
  unfold settle at h ⊢
  rcases hid : rail.settleIds.lookup settleId with _ | existing
  · rw [hid] at h
    dsimp only at h ⊢
    split_ifs at h ⊢
    · rfl
    · rcases hrec : rail.recordPayment t with ⟨_ | id, after⟩
      · exact (congrArg Prod.snd hrec).symm.trans (recordPayment_refused (by rw [hrec]))
      · rw [hrec] at h
        cases h
  · rfl

theorem releaseLocked_refused {src dest asset : String} {amount : ℕ} {e : RailError}
    (h : (rail.releaseLocked src dest asset amount).1 = .error e) :
    (rail.releaseLocked src dest asset amount).2 = rail := by
  unfold releaseLocked at h ⊢
  split_ifs at h ⊢
  · rfl
  · rfl

theorem releaseKeyed_refused {cid : ByteArr 8} {ckptRef : ByteArr 32} {src dest asset : String}
    {amount : ℕ} {e : RailError}
    (h : (rail.releaseKeyed cid ckptRef src dest asset amount).1 = .error e) :
    (rail.releaseKeyed cid ckptRef src dest asset amount).2 = rail := by
  unfold releaseKeyed at h ⊢
  rcases hkey : rail.releaseKeys.lookup (cid, ckptRef) with _ | existing
  · rw [hkey] at h
    rcases hrel : rail.releaseLocked src dest asset amount with ⟨_ | id, after⟩
    · exact (congrArg Prod.snd hrel).symm.trans (releaseLocked_refused (by rw [hrel]))
    · rw [hrel] at h
      cases h
  · rfl

theorem advanceChannelMeed_refused {source : Option String} {addr : String} {cid : ByteArr 8}
    {target : ℕ} {asset : String} {e : RailError}
    (h : (rail.advanceChannelMeed source addr cid target asset).1 = .error e) :
    (rail.advanceChannelMeed source addr cid target asset).2 = rail := by
  unfold advanceChannelMeed at h ⊢
  by_cases hout : rail.outage = true
  · rw [if_pos hout]
  rw [if_neg hout] at h ⊢
  rcases hinst : rail.instances.lookup addr with _ | inst
  · rfl
  rw [hinst] at h
  dsimp only at h ⊢
  by_cases hcover : (source.any fun src =>
      decide (target - inst.channelFundedP cid > rail.balance src)) = true
  · rw [if_pos hcover]
  · rw [if_neg hcover] at h
    cases h

/-! ### What is done once -/

/-- A settlement changes nothing, or is remembered. -/
theorem settle_cases (rail : VirtualRail) (t : Transfer) (settleId : ByteArr 32) :
    (rail.settle t settleId).2 = rail ∨ rail.settleIds.lookup settleId = none ∧ ∃ id,
      (rail.settle t settleId).2.keysOf =
        (rail.settleIds.insert settleId id, rail.releaseKeys) := by
  rcases hres : (rail.settle t settleId).1 with e | id
  · exact .inl (settle_refused hres)
  · have hkeys := rail.recordPayment_keys t
    unfold settle at hres ⊢
    rcases hid : rail.settleIds.lookup settleId with _ | existing
    · rw [hid] at hres
      dsimp only at hres ⊢
      split_ifs at hres ⊢
      rcases hrec : rail.recordPayment t with ⟨_ | id', after⟩
      · rw [hrec] at hres
        cases hres
      · rw [hrec] at hkeys
        obtain ⟨hsettle, hrelease⟩ : after.settleIds = rail.settleIds ∧
          after.releaseKeys = rail.releaseKeys := Prod.mk.inj hkeys
        refine .inr ⟨rfl, id', ?_⟩
        show (after.settleIds.insert settleId id', after.releaseKeys) = _
        rw [hsettle, hrelease]
    · exact .inl rfl

theorem releaseKeyed_cases (rail : VirtualRail) (cid : ByteArr 8) (ckptRef : ByteArr 32)
    (src dest asset : String) (amount : ℕ) :
    (rail.releaseKeyed cid ckptRef src dest asset amount).2 = rail ∨
      rail.releaseKeys.lookup (cid, ckptRef) = none ∧ ∃ id,
        (rail.releaseKeyed cid ckptRef src dest asset amount).2.keysOf =
          (rail.settleIds, rail.releaseKeys.insert (cid, ckptRef) id) := by
  rcases hres : (rail.releaseKeyed cid ckptRef src dest asset amount).1 with e | id
  · exact .inl (releaseKeyed_refused hres)
  · have hkeys := rail.releaseLocked_keys src dest asset amount
    unfold releaseKeyed at hres ⊢
    rcases hkey : rail.releaseKeys.lookup (cid, ckptRef) with _ | existing
    · rw [hkey] at hres
      rcases hrel : rail.releaseLocked src dest asset amount with ⟨_ | id', after⟩
      · rw [hrel] at hres
        cases hres
      · rw [hrel] at hkeys
        obtain ⟨hsettle, hrelease⟩ : after.settleIds = rail.settleIds ∧
          after.releaseKeys = rail.releaseKeys := Prod.mk.inj hkeys
        refine .inr ⟨rfl, id', ?_⟩
        show (after.settleIds, after.releaseKeys.insert (cid, ckptRef) id') = _
        rw [hsettle, hrelease]
    · exact .inl rfl

/-! ### What is moved -/

/-- A release leaves its destination a balance within the bound. -/
def ReleaseWithin (rail : VirtualRail) (src dest : String) (amount : ℕ) : Prop :=
  (rail.debit src amount).balance dest + amount ≤ U128_MAX

instance (src dest : String) (amount : ℕ) : Decidable (rail.ReleaseWithin src dest amount) :=
  inferInstanceAs (Decidable (_ ≤ _))

/-- What a release moves, the rail holds before and after. -/
theorem releaseLocked_value (h : rail.Sound) (src dest asset : String) (amount : ℕ) :
    (rail.releaseLocked src dest asset amount).2.Sound ∧
      Credited ((rail.releaseLocked src dest asset amount).1.isOk = true →
          rail.ReleaseWithin src dest amount)
        rail.value 0 (rail.releaseLocked src dest asset amount).2.value := by
  unfold releaseLocked
  split_ifs with hout hcover
  · exact ⟨h, (Credited.zero _).congr_true nofun⟩
  · exact ⟨h, (Credited.zero _).congr_true nofun⟩
  · rw [not_or] at hcover
    have hdebit := @debit_value rail src amount (by omega)
    exact ⟨⟨h.splits, h.instances⟩, (((rail.debit src amount).credit_value dest amount).shift
      hdebit).congr ⟨fun hfits _ => hfits, fun hfits => hfits rfl⟩⟩

/-- What a settlement brings, if it is the first with its id. -/
def settleBrings (rail : VirtualRail) (t : Transfer) (settleId : ByteArr 32) : ℕ :=
  if (rail.settleIds.lookup settleId).isSome then 0 else t.amount

theorem submit_value (h : rail.Sound) (t : Transfer) :
    (rail.submit t).2.Sound ∧
      (rail.submit t).2.value = rail.value + ifAccepted (rail.submit t).1 t.amount := by
  unfold submit
  split_ifs
  · exact ⟨h, rfl⟩
  · exact recordPayment_value h t

theorem settle_value (h : rail.Sound) (t : Transfer) (settleId : ByteArr 32) :
    (rail.settle t settleId).2.Sound ∧ (rail.settle t settleId).2.value =
      rail.value + ifAccepted (rail.settle t settleId).1 (rail.settleBrings t settleId) := by
  unfold settle settleBrings
  rcases rail.settleIds.lookup settleId with _ | existing
  · obtain ⟨hsound, hval⟩ := recordPayment_value h t
    rw [Option.isSome_none, if_neg Bool.false_ne_true]
    dsimp only
    by_cases hout : rail.outage = true
    · rw [if_pos hout]
      exact ⟨h, rfl⟩
    · rw [if_neg hout]
      rcases hrec : rail.recordPayment t with ⟨res, after⟩
      rw [hrec] at hsound hval
      rcases res with e | id
      · exact ⟨hsound, hval⟩
      · exact ⟨⟨hsound.splits, hsound.instances⟩, hval⟩
  · exact ⟨h, rfl⟩

/-- A release whose key is new credits within the bound. -/
def KeyedWithin (rail : VirtualRail) (cid : ByteArr 8) (ckptRef : ByteArr 32) (src dest : String)
    (amount : ℕ) : Prop :=
  rail.releaseKeys.lookup (cid, ckptRef) = none → rail.ReleaseWithin src dest amount

instance (cid : ByteArr 8) (ckptRef : ByteArr 32) (src dest : String) (amount : ℕ) :
    Decidable (rail.KeyedWithin cid ckptRef src dest amount) :=
  inferInstanceAs (Decidable (_ → _))

theorem releaseKeyed_value (h : rail.Sound) (cid : ByteArr 8) (ckptRef : ByteArr 32)
    (src dest asset : String) (amount : ℕ) :
    (rail.releaseKeyed cid ckptRef src dest asset amount).2.Sound ∧
      Credited ((rail.releaseKeyed cid ckptRef src dest asset amount).1.isOk = true →
          rail.KeyedWithin cid ckptRef src dest amount)
        rail.value 0 (rail.releaseKeyed cid ckptRef src dest asset amount).2.value := by
  unfold releaseKeyed KeyedWithin
  rcases rail.releaseKeys.lookup (cid, ckptRef) with _ | existing
  · obtain ⟨hsound, hval⟩ := releaseLocked_value h src dest asset amount
    rcases hrel : rail.releaseLocked src dest asset amount with ⟨res, after⟩
    rw [hrel] at hsound hval
    rcases res with e | id
    · exact ⟨hsound, hval.congr ⟨nofun, nofun⟩⟩
    · exact ⟨⟨hsound.splits, hsound.instances⟩,
        hval.congr ⟨fun hfits hok _ => hfits hok, fun hfits hok => hfits hok rfl⟩⟩
  · exact ⟨h, (Credited.zero _).congr_true nofun⟩

/-- What an advance brings, if it is drawn from no deposit. -/
def advanceBrings (rail : VirtualRail) (source : Option String) (addr : String)
    (cid : ByteArr 8) (target : ℕ) : ℕ :=
  match source, rail.instances.lookup addr with
  | none, some inst => (inst.advanceChannelMeed cid target).1.2.1
  | _, _ => 0

/-- The rail after an amount is taken from its source, if there is one. -/
def drawn (rail : VirtualRail) (source : Option String) (amount : ℕ) : VirtualRail :=
  match source with
  | some src => if amount > 0 then rail.debit src amount else rail
  | none => rail

/-- What an advance pays out is credited within the bound. -/
def AdvanceWithin (rail : VirtualRail) (source : Option String) (addr : String) (cid : ByteArr 8)
    (target : ℕ) : Prop :=
  ∀ inst ∈ rail.instances.lookup addr,
    ((rail.drawn source (inst.advanceChannelMeed cid target).1.2.1).payChecked
      (inst.advanceChannelMeed cid target).1.2.2).isSome = true

instance (source : Option String) (addr : String) (cid : ByteArr 8) (target : ℕ) :
    Decidable (rail.AdvanceWithin source addr cid target) :=
  inferInstanceAs (Decidable (∀ inst ∈ rail.instances.lookup addr, _ = true))

theorem advanceChannelMeed_value (h : rail.Sound) (source : Option String) (addr : String)
    (cid : ByteArr 8) {target : ℕ} (hmax : target ≤ U128_MAX) (asset : String) :
    (rail.advanceChannelMeed source addr cid target asset).2.Sound ∧
      Credited ((rail.advanceChannelMeed source addr cid target asset).1.isOk = true →
          rail.AdvanceWithin source addr cid target)
        rail.value (ifAccepted (rail.advanceChannelMeed source addr cid target asset).1
          (rail.advanceBrings source addr cid target))
        (rail.advanceChannelMeed source addr cid target asset).2.value := by
  unfold advanceChannelMeed AdvanceWithin
  by_cases hout : rail.outage = true
  · rw [if_pos hout]
    exact ⟨h, (Credited.zero _).congr_true nofun⟩
  rw [if_neg hout]
  rcases hinst : rail.instances.lookup addr with _ | inst
  · exact ⟨h, (Credited.zero _).congr_true nofun⟩
  dsimp only
  by_cases hcover : (source.any fun src =>
      decide (target - inst.channelFundedP cid > rail.balance src)) = true
  · rw [if_pos hcover]
    exact ⟨h, (Credited.zero _).congr_true nofun⟩
  rw [if_neg hcover]
  have hadv := (h.instances _ _ hinst).advance cid hmax
  have hdelta := inst.advance_delta_le cid target
  rcases hr : inst.advanceChannelMeed cid target with ⟨⟨fundedP, delta, payouts⟩, inst'⟩
  rw [hr] at hadv hdelta
  obtain ⟨hsound, hkept⟩ := hadv
  have hset := setInstance_value hinst inst'
  have hsound' := h.setInstance addr hsound
  dsimp only at hkept hdelta ⊢
  -- the payouts are credited after the debit, and the instance is no balance
  have hpaid : ∀ {rail₁ : VirtualRail} {n : ℕ} {id : String},
      rail₁.ledger = (rail.drawn source delta).ledger →
      rail₁.value + (payouts.map Payout.amount).sum = rail.value + n →
      Credited ((Except.ok id : Except RailError String).isOk = true → ∀ x ∈ some inst,
          ((rail.drawn source (x.advanceChannelMeed cid target).1.2.1).payChecked
            (x.advanceChannelMeed cid target).1.2.2).isSome = true)
        rail.value n (rail₁.applyPayouts payouts).value := by
    intro rail₁ n id hledger heq
    refine ((applyPayouts_value _ payouts).shift heq).congr ?_
    rw [payChecked_isSome_congr payouts hledger]
    simp [hr, Except.isOk, Except.toBool]
  rcases source with _ | src
  · have hbrings : rail.advanceBrings none addr cid target = delta := by
      simp only [advanceBrings, hinst, hr]
    rw [hbrings, ifAccepted_ok]
    dsimp only
    exact ⟨recordRef_sound (applyPayouts_sound hsound' payouts) _, hpaid rfl (by omega)⟩
  · have hbrings : rail.advanceBrings (some src) addr cid target = 0 := rfl
    rw [hbrings, ifAccepted_ok]
    dsimp only
    split_ifs with hpos
    · have hle : delta ≤ rail.balance src := by
        rw [Option.any_some, decide_eq_true_eq] at hcover
        omega
      have hdebit := @debit_value { rail with instances := rail.instances.insert addr inst' } src
        delta hle
      have hdebited : ({ rail with instances := rail.instances.insert addr inst' }.debit src
          delta).Sound := ⟨hsound'.splits, hsound'.instances⟩
      exact ⟨recordRef_sound (applyPayouts_sound hdebited payouts) _,
        hpaid (by simp only [drawn, if_pos hpos]; rfl) (by omega)⟩
    · exact ⟨recordRef_sound (applyPayouts_sound hsound' payouts) _,
        hpaid (by simp only [drawn, if_neg hpos]) (by omega)⟩

end VirtualRail

/-! ## All of it -/

namespace HostedRail

variable {suite : Suite} {s s' : HostedRail}

/-- What is on the rail and with its instances. -/
def value (s : HostedRail) : ℕ :=
  s.rail.value + HashMap.total (fun h => h.purchases.kept) s.hosted

structure Sound (s : HostedRail) : Prop where
  rail : s.rail.Sound
  hosted : ∀ addr h, s.hosted.lookup addr = some h → h.purchases.Sound

/-- What an operation brings from outside, if it is accepted. -/
def brings (s : HostedRail) : Op → ℕ
  | .submit transfer => transfer.amount
  | .settle transfer settleId => s.rail.settleBrings transfer settleId
  | .advanceChannelMeed source addr channelId targetP _ =>
    s.rail.advanceBrings source addr channelId targetP
  | .fundEntry _ t _ _ => t.amount
  | .fundClaimRecord none _ _ _ amount _ => amount
  | _ => 0

def funding (suite : Suite) (s : HostedRail) (op : Op) : ℕ :=
  ifAccepted (step suite s op).2 (s.brings op)

/-- What an operation on the entries of an instance delivers is divided whole, and what it pays out
is credited within the bound. -/
def EntriesWithin (suite : Suite) (s : HostedRail) (addr : String) (p : PurchaseInstance.Op) :
    Prop :=
  ∀ h ∈ s.hosted.lookup addr, h.purchases.DeliversWithin p ∧
    ∀ r ∈ (h.purchases.run suite s.rail.clock p).toOption, (s.rail.payChecked r.1).isSome = true

instance (s : HostedRail) (addr : String) (p : PurchaseInstance.Op) :
    Decidable (s.EntriesWithin suite addr p) :=
  inferInstanceAs (Decidable (∀ h ∈ s.hosted.lookup addr, _ ∧ _))

/-- What funds a claim record is divided whole, and credited within the bound. -/
def ClaimWithin (s : HostedRail) (source : Option String) (addr : String) (amount : ℕ) : Prop :=
  ∀ h ∈ s.hosted.lookup addr, h.purchases.Divides amount ∧
    ((s.rail.drawn source amount).payChecked (h.purchases.distribute amount).1).isSome = true

instance (s : HostedRail) (source : Option String) (addr : String) (amount : ℕ) :
    Decidable (s.ClaimWithin source addr amount) :=
  inferInstanceAs (Decidable (∀ h ∈ s.hosted.lookup addr, _ ∧ _))

/-- What an operation divides and credits is within the bounds. -/
def Within (suite : Suite) (s : HostedRail) : Op → Prop
  | .release source dest _ amount => s.rail.ReleaseWithin source dest amount
  | .releaseKeyed channelId ckptRef source dest _ amount =>
    s.rail.KeyedWithin channelId ckptRef source dest amount
  | .advanceChannelMeed source addr channelId targetP _ =>
    s.rail.AdvanceWithin source addr channelId targetP
  | .attestEntry addr entryId signed => s.EntriesWithin suite addr (.attest entryId signed)
  | .cancelEntry addr entryId signed => s.EntriesWithin suite addr (.cancel entryId signed)
  | .openReclaim addr entryId => s.EntriesWithin suite addr (.openReclaim entryId)
  | .executeReclaim addr entryId => s.EntriesWithin suite addr (.executeReclaim entryId)
  | .claimLapsed addr entryId => s.EntriesWithin suite addr (.claimLapsed entryId)
  | .fundClaimRecord source addr _ _ amount _ => s.ClaimWithin source addr amount
  | _ => True

instance (s : HostedRail) : ∀ op, Decidable (s.Within suite op)
  | .release source dest _ amount =>
    inferInstanceAs (Decidable (s.rail.ReleaseWithin source dest amount))
  | .releaseKeyed channelId ckptRef source dest _ amount =>
    inferInstanceAs (Decidable (s.rail.KeyedWithin channelId ckptRef source dest amount))
  | .advanceChannelMeed source addr channelId targetP _ =>
    inferInstanceAs (Decidable (s.rail.AdvanceWithin source addr channelId targetP))
  | .attestEntry addr _ _ | .cancelEntry addr _ _ | .openReclaim addr _ | .executeReclaim addr _
  | .claimLapsed addr _ => inferInstanceAs (Decidable (s.EntriesWithin suite addr _))
  | .fundClaimRecord source addr _ _ amount _ =>
    inferInstanceAs (Decidable (s.ClaimWithin source addr amount))
  | .advanceClock _ | .setOutage _ | .deploySplit _ _ | .deployInstance _ _ | .submit _
  | .settle _ _ | .fundEntry _ _ _ _ => .isTrue trivial

/-- An operation that is accepted divides and credits within the bounds. -/
def Fits (suite : Suite) (s : HostedRail) (op : Op) : Prop :=
  (step suite s op).2.isOk = true → s.Within suite op

instance (s : HostedRail) (op : Op) : Decidable (Fits suite s op) :=
  inferInstanceAs (Decidable (_ → _))

/-- A target of an advance is a number of 128 bits. -/
def Op.Typed : Op → Prop
  | .advanceChannelMeed _ _ _ targetP _ => targetP ≤ U128_MAX
  | _ => True

/-- What an operation does to what is there. -/
structure Keeps (suite : Suite) (s : HostedRail) (op : Op) : Prop where
  sound : (step suite s op).1.Sound
  credited : Credited (Fits suite s op) s.value (funding suite s op) (step suite s op).1.value

theorem setHosted_value {addr : String} {h : Hosted} (hlook : s.hosted.lookup addr = some h)
    (rail : VirtualRail) (h' : Hosted) :
    (HostedRail.mk rail (s.hosted.insert addr h')).value + h.purchases.kept + s.rail.value =
      s.value + h'.purchases.kept + rail.value := by
  have hins := HashMap.total_insert (f := fun h : Hosted => h.purchases.kept) s.hosted addr h'
  rw [HashMap.held_of_lookup hlook] at hins
  unfold value
  dsimp only
  omega

theorem Sound.setHosted (hs : s.Sound) {rail : VirtualRail} (hrail : rail.Sound) (addr : String)
    {h : Hosted} (hh : h.purchases.Sound) :
    (HostedRail.mk rail (s.hosted.insert addr h)).Sound := by
  refine ⟨hrail, fun addr' h' hlook => ?_⟩
  dsimp only at hlook
  rw [HashMap.lookup_insert_ite] at hlook
  split_ifs at hlook
  · cases hlook
    exact hh
  · exact hs.hosted _ _ hlook

/-- An operation on the rail alone. -/
theorem onRail_keeps {α : Type} {op : Op} {x : Except RailError α × VirtualRail} (hs : s.Sound)
    (hstep : step suite s op = s.onRail x)
    (hx : x.2.Sound ∧ Credited (x.1.isOk = true → s.Within suite op) s.rail.value
      (ifAccepted x.1 (s.brings op)) x.2.value) : Keeps suite s op := by
  obtain ⟨hsound, hle, heq⟩ := hx
  have hfund : funding suite s op = ifAccepted x.1 (s.brings op) := by
    unfold funding
    rw [hstep]
    unfold onRail
    rcases x.1 with e | a <;> rfl
  have hfits : Fits suite s op ↔ (x.1.isOk = true → s.Within suite op) := by
    unfold Fits
    rw [hstep]
    unfold onRail
    rcases x.1 with e | a <;> rfl
  rw [← hfund, ← hfits] at heq
  rw [← hfund] at hle
  refine ⟨?_, ?_, ?_⟩
  · rw [hstep]
    exact ⟨hsound, hs.hosted⟩
  · rw [hstep]
    unfold value onRail
    dsimp only
    omega
  · rw [← heq, hstep]
    unfold value onRail
    dsimp only
    omega

/-- An operation on the rail alone that loses nothing. -/
theorem onRail_exact {α : Type} {op : Op} {x : Except RailError α × VirtualRail} (hs : s.Sound)
    (hstep : step suite s op = s.onRail x) (hwithin : s.Within suite op)
    (hx : x.2.Sound ∧ x.2.value = s.rail.value + ifAccepted x.1 (s.brings op)) :
    Keeps suite s op :=
  onRail_keeps hs hstep ⟨hx.1, (Credited.of_eq hx.2).congr_true fun _ => hwithin⟩

/-- An operation on what is hosted, which keeps what is there if it is refused. -/
theorem onHosted_keeps {α : Type} {op : Op} {x : Except RailError α} {next : α → HostedRail}
    (hs : s.Sound) (hstep : step suite s op = s.onHosted x next)
    (hx : ∀ a, x = .ok a → (next a).Sound ∧
      Credited (s.Within suite op) s.value (s.brings op) (next a).value) : Keeps suite s op := by
  have hfits : Fits suite s op ↔ (x.isOk = true → s.Within suite op) := by
    unfold Fits
    rw [hstep]
    rcases x with e | a <;> rfl
  rcases hres : x with e | a
  · rw [hres] at hstep hfits
    have hfund : funding suite s op = 0 := by
      unfold funding
      rw [hstep]
      rfl
    refine ⟨?_, ?_⟩
    · rw [hstep]
      exact hs
    · rw [hstep, hfund]
      exact (Credited.zero _).congr_true (hfits.2 nofun)
  · obtain ⟨hsound, hcredited⟩ := hx a hres
    rw [hres] at hstep hfits
    have hfund : funding suite s op = s.brings op := by
      unfold funding
      rw [hstep]
      rfl
    refine ⟨?_, ?_⟩
    · rw [hstep]
      exact hsound
    · rw [hstep, hfund]
      exact hcredited.congr (by rw [hfits]; exact ⟨fun h _ => h, fun h => h rfl⟩)

section hosted
variable (hs : s.Sound)
include hs

/-- What the entries of an instance pay out is credited. -/
theorem onEntries_kept {addr : String} {p : PurchaseInstance.Op}
    (h : s.onEntries suite addr p = .ok s') :
    s'.Sound ∧ Credited (s.EntriesWithin suite addr p) s.value (PurchaseInstance.brings p)
      s'.value := by
  unfold onEntries instanceAt at h
  simp only [bind_eq_ok, okOr_eq_ok, mapError_eq_ok, pure_eq_ok] at h
  obtain ⟨x, hx, ⟨payouts, purchases⟩, hrun, rfl⟩ := h
  obtain ⟨hsound, hle, heq⟩ := PurchaseInstance.run_kept (hs.hosted _ _ hx) hrun
  obtain ⟨hcle, hceq⟩ := s.rail.applyPayouts_value payouts
  have hset := setHosted_value hx (s.rail.applyPayouts payouts) { x with purchases }
  have hheld := HashMap.held_le_total (f := fun h : Hosted => h.purchases.kept) s.hosted addr
  rw [HashMap.held_of_lookup hx] at hheld
  have hvalue : s.value = s.rail.value + HashMap.total (fun h : Hosted => h.purchases.kept)
    s.hosted := rfl
  have hwithin : s.EntriesWithin suite addr p ↔
      x.purchases.DeliversWithin p ∧ (s.rail.payChecked payouts).isSome = true := by
    unfold EntriesWithin
    rw [hx]
    simp [hrun, Except.toOption]
  dsimp only at hset hle heq ⊢
  refine ⟨hs.setHosted (VirtualRail.applyPayouts_sound hs.rail payouts) addr hsound, by omega, ?_⟩
  rw [hwithin, ← heq, ← hceq]
  omega

theorem fundEntry_kept {addr refundPtr asset : String} {t : Kit.EntryTerms}
    {r : (String × ByteArr 32) × HostedRail}
    (h : s.fundEntry suite addr t refundPtr asset = .ok r) :
    r.2.Sound ∧ r.2.value = s.value + t.amount := by
  unfold fundEntry instanceAt at h
  simp only [bind_eq_ok, okOr_eq_ok, mapError_eq_ok, pure_eq_ok] at h
  obtain ⟨-, -, x, hx, ⟨entryId, purchases⟩, hfund, rfl⟩ := h
  have hrun : x.purchases.run suite s.rail.clock (.fundEntry t refundPtr) =
      .ok ([], purchases) := by
    rw [PurchaseInstance.run, hfund]
    rfl
  obtain ⟨hsound, -, heq⟩ := PurchaseInstance.run_kept (hs.hosted _ _ hx) hrun
  have hall := heq.2 fun entryId h => by cases h
  have hset := setHosted_value hx (s.rail.recordRef
    { dest := addr, asset, amount := t.amount, memo := some t.nonce, advancedChannelMeed := none
      canonical := "" }).2 { x with purchases }
  rw [VirtualRail.recordRef_value] at hset
  refine ⟨hs.setHosted (VirtualRail.recordRef_sound hs.rail _) addr hsound, ?_⟩
  simp only [PurchaseInstance.brings, List.map_nil, List.sum_nil, Nat.add_zero] at hall
  dsimp only at hset ⊢
  omega

/-- What a claim record divides is credited, after what it was drawn from. -/
theorem claim_kept {addr : String} {x : Hosted} (hx : s.hosted.lookup addr = some x)
    {drawn : VirtualRail} (hdrawn : drawn.Sound) {amount n : ℕ}
    (hvalue : drawn.value + amount = s.rail.value + n) (info : RefInfo)
    (claimRecords : Finset (ByteArr 32)) :
    let r := x.purchases.distribute amount
    let after : HostedRail :=
      { rail := ((drawn.applyPayouts r.1).recordRef info).2
        hosted := s.hosted.insert addr { purchases := r.2, claimRecords } }
    after.Sound ∧ Credited (x.purchases.Divides amount ∧ (drawn.payChecked r.1).isSome = true)
      s.value n after.value := by
  obtain ⟨hsound, hentries, hle, heq⟩ := (hs.hosted _ _ hx).deliver amount
  obtain ⟨hcle, hceq⟩ := drawn.applyPayouts_value (x.purchases.distribute amount).1
  have hlocked : (x.purchases.distribute amount).2.locked = x.purchases.locked := by
    unfold PurchaseInstance.locked
    rw [hentries]
  have htotal : s.value = s.rail.value + HashMap.total (fun h : Hosted => h.purchases.kept)
    s.hosted := rfl
  have hheld := HashMap.held_le_total (f := fun h : Hosted => h.purchases.kept) s.hosted addr
  rw [HashMap.held_of_lookup hx] at hheld
  have hset := setHosted_value hx
    ((drawn.applyPayouts (x.purchases.distribute amount).1).recordRef info).2
    { purchases := (x.purchases.distribute amount).2, claimRecords }
  rw [VirtualRail.recordRef_value] at hset
  have hbefore : x.purchases.kept = x.purchases.pool + x.purchases.locked := rfl
  have hafter : (x.purchases.distribute amount).2.kept =
    (x.purchases.distribute amount).2.pool + (x.purchases.distribute amount).2.locked := rfl
  dsimp only at hset hheld ⊢
  refine ⟨hs.setHosted (VirtualRail.recordRef_sound (VirtualRail.applyPayouts_sound hdrawn _) info)
    addr hsound, by omega, ?_⟩
  rw [← heq, ← hceq]
  omega

/-- A claim record is funded from outside or out of a deposit. -/
theorem fundClaimRecord_kept {source : Option String} {addr asset : String} {cid : ByteArr 8}
    {ckptRef : ByteArr 32} {amount : ℕ} {r : (String × ByteArr 32) × HostedRail}
    (h : s.fundClaimRecord suite source addr cid ckptRef amount asset = .ok r) :
    r.2.Sound ∧ Credited (s.ClaimWithin source addr amount) s.value
      (if source.isNone then amount else 0) r.2.value := by
  unfold fundClaimRecord instanceAt at h
  simp only [bind_eq_ok, okOr_eq_ok, require_eq_ok, bne_iff_ne, pure_eq_ok] at h
  obtain ⟨-, -, -, -, -, hcover, x, hx, -, hpos, rfl⟩ := h
  have hwithin : s.ClaimWithin source addr amount ↔ x.purchases.Divides amount ∧
      ((s.rail.drawn source amount).payChecked
        (x.purchases.distribute amount).1).isSome = true := by
    unfold ClaimWithin
    rw [hx]
    simp
  rw [hwithin]
  rcases source with _ | src
  · exact claim_kept hs hx hs.rail (show s.rail.value + amount = _ from rfl) _ _
  · have hcovered : amount ≤ s.rail.balance src := by
      simp only [Option.any_some, Bool.not_eq_true', decide_eq_false_iff_not, not_or] at hcover
      omega
    have hdrawn : s.rail.drawn (some src) amount = s.rail.debit src amount :=
      if_pos (Nat.pos_of_ne_zero hpos)
    rw [hdrawn]
    exact claim_kept hs hx
      (show (s.rail.debit src amount).Sound from ⟨hs.rail.splits, hs.rail.instances⟩)
      (show _ = s.rail.value + 0 from VirtualRail.debit_value hcovered) _ _

theorem deploySplit_kept {seed : ByteArr 32} {inputs : AddressInputs} {r : String × HostedRail}
    (h : s.deploySplit suite seed inputs = .ok r) : r.2.Sound ∧ r.2.value = s.value := by
  unfold deploySplit at h
  simp only [bind_eq_ok, okOr_eq_ok, require_eq_ok, pure_eq_ok] at h
  obtain ⟨_, -, -, -, recipients, hrec, rfl⟩ := h
  refine ⟨⟨⟨fun addr split hlook => ?_, hs.rail.instances⟩, hs.hosted⟩, ?_⟩
  · dsimp only [VirtualRail.deploySplit] at hlook
    rw [HashMap.lookup_orInsert] at hlook
    split_ifs at hlook with haddr
    · subst haddr
      rcases hold : s.rail.splits.lookup (VirtualRail.deriveAddress seed) with _ | old
      · rw [hold] at hlook
        cases hlook
        exact SplitState.deployed_sound (VirtualRail.splitRecipients_whole hrec)
      · rw [hold] at hlook
        cases hlook
        exact hs.rail.splits _ _ hold
    · exact hs.rail.splits _ _ hlook
  · have hsplits := HashMap.total_orInsert (f := SplitState.kept) s.rail.splits
      (VirtualRail.deriveAddress seed)
      (v := { recipients, vReceived := 0, paid := recipients.map fun _ => 0 }) (Nat.zero_sub _)
    unfold value VirtualRail.value VirtualRail.balances VirtualRail.deploySplit
    dsimp only
    rw [hsplits]

theorem deployInstance_kept {seed : ByteArr 32} {inputs : AddressInputs} {r : String × HostedRail}
    (h : s.deployInstance suite seed inputs = .ok r) : r.2.Sound ∧ r.2.value = s.value := by
  unfold deployInstance at h
  simp only [bind_eq_ok, okOr_eq_ok, require_eq_ok, pure_eq_ok] at h
  obtain ⟨_, -, -, -, rfl⟩ := h
  refine ⟨⟨⟨hs.rail.splits, fun addr inst hlook => ?_⟩, fun addr x hlook => ?_⟩, ?_⟩
  · dsimp only [VirtualRail.deployInstance] at hlook
    rw [HashMap.lookup_orInsert] at hlook
    split_ifs at hlook with haddr
    · subst haddr
      rcases hold : s.rail.instances.lookup (VirtualRail.deriveAddress seed) with _ | old
      · rw [hold] at hlook
        cases hlook
        exact fun cid => ⟨0, (MeedInstance.standing_zero _).symm⟩
      · rw [hold] at hlook
        cases hlook
        exact hs.rail.instances _ _ hold
    · exact hs.rail.instances _ _ hlook
  · dsimp only at hlook
    rw [HashMap.lookup_orInsert] at hlook
    split_ifs at hlook with haddr
    · subst haddr
      rcases hold : s.hosted.lookup (VirtualRail.deriveAddress seed) with _ | old
      · rw [hold] at hlook
        cases hlook
        exact PurchaseInstance.new_sound _ _ _
      · rw [hold] at hlook
        cases hlook
        exact hs.hosted _ _ hold
    · exact hs.hosted _ _ hlook
  · have hinsts := HashMap.total_orInsert (f := MeedInstance.kept) s.rail.instances
      (VirtualRail.deriveAddress seed)
      (v := .new (inputs.vector.map fun e => MeedShare.mk e.dest e.bp.toNat) seed) rfl
    have hhosted := HashMap.total_orInsert (f := fun h : Hosted => h.purchases.kept) s.hosted
      (VirtualRail.deriveAddress seed)
      (v := { purchases := .new inputs.merchantKey
                (inputs.vector.map fun e => MeedShare.mk e.dest e.bp.toNat) seed
              claimRecords := ∅ }) (PurchaseInstance.new_kept _ _ _)
    unfold value VirtualRail.value VirtualRail.balances VirtualRail.deployInstance
    dsimp only
    rw [hinsts, hhosted]

end hosted

/-- Every operation keeps what is there and adds what it brings. -/
theorem step_keeps (hs : s.Sound) {op : Op} (htyped : op.Typed) : Keeps suite s op := by
  have hnothing : ∀ {α : Type} {x : Except RailError α × VirtualRail} {p : Prop},
      Credited p s.rail.value 0 x.2.value →
      Credited p s.rail.value (ifAccepted x.1 0) x.2.value := by
    intro α x p hx
    rcases h : x.1 with e | a <;> exact hx
  rcases op
  case advanceClock secs =>
    exact ⟨⟨⟨hs.rail.splits, hs.rail.instances⟩, hs.hosted⟩,
      (Credited.zero _).congr_true fun _ => trivial⟩
  case setOutage on =>
    exact ⟨⟨⟨hs.rail.splits, hs.rail.instances⟩, hs.hosted⟩,
      (Credited.zero _).congr_true fun _ => trivial⟩
  case deploySplit seed inputs =>
    refine onHosted_keeps hs rfl fun r h => ?_
    obtain ⟨hsound, heq⟩ := deploySplit_kept hs h
    exact ⟨hsound, Credited.of_eq heq⟩
  case deployInstance seed inputs =>
    refine onHosted_keeps hs rfl fun r h => ?_
    obtain ⟨hsound, heq⟩ := deployInstance_kept hs h
    exact ⟨hsound, Credited.of_eq heq⟩
  case submit t => exact onRail_exact hs rfl trivial (VirtualRail.submit_value hs.rail t)
  case settle t settleId =>
    exact onRail_exact hs rfl trivial (VirtualRail.settle_value hs.rail t settleId)
  case release src dest asset amount =>
    obtain ⟨hsound, hval⟩ := VirtualRail.releaseLocked_value hs.rail src dest asset amount
    exact onRail_keeps hs rfl ⟨hsound, hnothing hval⟩
  case releaseKeyed cid ckptRef src dest asset amount =>
    obtain ⟨hsound, hval⟩ :=
      VirtualRail.releaseKeyed_value hs.rail cid ckptRef src dest asset amount
    exact onRail_keeps hs rfl ⟨hsound, hnothing hval⟩
  case advanceChannelMeed source addr cid target asset =>
    exact onRail_keeps hs rfl
      (VirtualRail.advanceChannelMeed_value hs.rail source addr cid htyped asset)
  case fundEntry addr t refundPtr asset =>
    refine onHosted_keeps hs rfl fun r h => ?_
    obtain ⟨hsound, heq⟩ := fundEntry_kept hs h
    exact ⟨hsound, Credited.of_eq heq⟩
  case fundClaimRecord source addr cid ckptRef amount asset =>
    refine onHosted_keeps hs rfl fun r h => ?_
    have hkept := fundClaimRecord_kept hs h
    rcases source with _ | src <;> exact hkept
  all_goals exact onHosted_keeps hs rfl fun r h => onEntries_kept hs h

/-- What is refused changes nothing. -/
theorem step_refused {op : Op} {e : RailError} (h : (step suite s op).2 = .error e) :
    (step suite s op).1 = s := by
  have hrail : ∀ {α : Type} {x : Except RailError α × VirtualRail},
      (∀ e, x.1 = .error e → x.2 = s.rail) → (s.onRail x).2 = .error e → (s.onRail x).1 = s := by
    intro α x hx hres
    unfold onRail at hres ⊢
    rcases hx1 : x.1 with e' | a
    · rw [hx e' hx1]
    · rw [hx1] at hres
      cases hres
  have hhosted : ∀ {α : Type} {x : Except RailError α} {next : α → HostedRail},
      (s.onHosted x next).2 = .error e → (s.onHosted x next).1 = s := by
    intro α x next hres
    rcases x with e' | a
    · rfl
    · cases hres
  rcases op
  case advanceClock | setOutage => cases h
  case submit => exact hrail (fun _ => VirtualRail.submit_refused) h
  case settle => exact hrail (fun _ => VirtualRail.settle_refused) h
  case release => exact hrail (fun _ => VirtualRail.releaseLocked_refused) h
  case releaseKeyed => exact hrail (fun _ => VirtualRail.releaseKeyed_refused) h
  case advanceChannelMeed => exact hrail (fun _ => VirtualRail.advanceChannelMeed_refused) h
  all_goals exact hhosted h

theorem onHosted_keys {α : Type} {x : Except RailError α} {next : α → HostedRail}
    (hx : ∀ a, x = .ok a → (next a).rail.keysOf = s.rail.keysOf) :
    (s.onHosted x next).1.rail.keysOf = s.rail.keysOf := by
  rcases x with e | a
  · rfl
  · exact hx a rfl

theorem onEntries_keys {addr : String} {p : PurchaseInstance.Op}
    (h : s.onEntries suite addr p = .ok s') : s'.rail.keysOf = s.rail.keysOf := by
  unfold onEntries at h
  simp only [bind_eq_ok, pure_eq_ok] at h
  obtain ⟨x, -, r, -, rfl⟩ := h
  exact VirtualRail.applyPayouts_keys _ _

/-- Only a settlement and a keyed release are remembered. -/
theorem step_keys {op : Op} (hsettle : ∀ t settleId, op ≠ .settle t settleId)
    (hrelease : ∀ cid ckptRef src dest asset amount,
      op ≠ .releaseKeyed cid ckptRef src dest asset amount) :
    (step suite s op).1.rail.keysOf = s.rail.keysOf := by
  rcases op
  case settle t settleId => exact absurd rfl (hsettle t settleId)
  case releaseKeyed cid ckptRef src dest asset amount => exact (hrelease _ _ _ _ _ _ rfl).elim
  case advanceClock | setOutage => rfl
  case submit t =>
    show (s.rail.submit t).2.keysOf = _
    unfold VirtualRail.submit
    split_ifs
    · rfl
    · exact VirtualRail.recordPayment_keys _ _
  case release => exact VirtualRail.releaseLocked_keys ..
  case advanceChannelMeed => exact VirtualRail.advanceChannelMeed_keys ..
  case deploySplit seed inputs =>
    refine onHosted_keys fun r h => ?_
    unfold deploySplit at h
    simp only [bind_eq_ok, pure_eq_ok] at h
    obtain ⟨_, -, _, -, _, -, rfl⟩ := h
    rfl
  case deployInstance seed inputs =>
    refine onHosted_keys fun r h => ?_
    unfold deployInstance at h
    simp only [bind_eq_ok, pure_eq_ok] at h
    obtain ⟨_, -, _, -, rfl⟩ := h
    rfl
  case fundEntry addr t refundPtr asset =>
    refine onHosted_keys fun r h => ?_
    unfold fundEntry at h
    simp only [bind_eq_ok, pure_eq_ok] at h
    obtain ⟨_, -, _, -, _, -, rfl⟩ := h
    rfl
  case fundClaimRecord source addr cid ckptRef amount asset =>
    refine onHosted_keys fun r h => ?_
    unfold fundClaimRecord at h
    simp only [bind_eq_ok, pure_eq_ok] at h
    obtain ⟨_, -, _, -, _, -, x, -, _, -, rfl⟩ := h
    refine (VirtualRail.applyPayouts_keys _ _).trans ?_
    rcases source with _ | src <;> rfl
  all_goals exact onHosted_keys fun r h => onEntries_keys h

/-- What the rail remembers of settlements and releases stays. -/
theorem step_remembers (op : Op) :
    (∀ settleId, (s.rail.settleIds.lookup settleId).isSome →
      ((step suite s op).1.rail.settleIds.lookup settleId).isSome) ∧
    ∀ key, (s.rail.releaseKeys.lookup key).isSome →
      ((step suite s op).1.rail.releaseKeys.lookup key).isSome := by
  have hsame : (step suite s op).1.rail.keysOf = s.rail.keysOf →
      (∀ settleId, (s.rail.settleIds.lookup settleId).isSome →
        ((step suite s op).1.rail.settleIds.lookup settleId).isSome) ∧
      ∀ key, (s.rail.releaseKeys.lookup key).isSome →
        ((step suite s op).1.rail.releaseKeys.lookup key).isSome := by
    intro h
    obtain ⟨hsettle, hrelease⟩ := Prod.mk.inj h
    rw [hsettle, hrelease]
    exact ⟨fun _ => id, fun _ => id⟩
  rcases op
  case settle t settleId =>
    rcases s.rail.settle_cases t settleId with h | ⟨-, id, h⟩
    · exact hsame (congrArg VirtualRail.keysOf h)
    · obtain ⟨hsettle, hrelease⟩ := Prod.mk.inj h
      refine ⟨fun settleId' hsome => ?_, fun key hsome => ?_⟩
      · show ((s.rail.settle t settleId).2.settleIds.lookup settleId').isSome = true
        rw [hsettle, HashMap.lookup_insert_ite]
        split_ifs
        · rfl
        · exact hsome
      · show ((s.rail.settle t settleId).2.releaseKeys.lookup key).isSome = true
        rw [hrelease]
        exact hsome
  case releaseKeyed cid ckptRef src dest asset amount =>
    rcases s.rail.releaseKeyed_cases cid ckptRef src dest asset amount with h | ⟨-, id, h⟩
    · exact hsame (congrArg VirtualRail.keysOf h)
    · obtain ⟨hsettle, hrelease⟩ := Prod.mk.inj h
      refine ⟨fun settleId hsome => ?_, fun key hsome => ?_⟩
      · show ((s.rail.releaseKeyed cid ckptRef src dest asset amount).2.settleIds.lookup
          settleId).isSome = true
        rw [hsettle]
        exact hsome
      · show ((s.rail.releaseKeyed cid ckptRef src dest asset amount).2.releaseKeys.lookup
          key).isSome = true
        rw [hrelease, HashMap.lookup_insert_ite]
        split_ifs
        · rfl
        · exact hsome
  all_goals exact hsame (step_keys nofun nofun)

/-- A step that settles by an id and changes anything. -/
def settledBy (suite : Suite) (settleId : ByteArr 32) (s : HostedRail) (op : Op) : Option Unit :=
  match op with
  | .settle _ settleId' => if settleId' = settleId ∧ (step suite s op).1 ≠ s then some () else none
  | _ => none

/-- A step that releases by a key and changes anything. -/
def releasedBy (suite : Suite) (key : ByteArr 8 × ByteArr 32) (s : HostedRail) (op : Op) :
    Option Unit :=
  match op with
  | .releaseKeyed channelId ckptRef _ _ _ _ =>
    if (channelId, ckptRef) = key ∧ (step suite s op).1 ≠ s then some () else none
  | _ => none

theorem settledBy_isSome {settleId : ByteArr 32} {op : Op}
    (h : (settledBy suite settleId s op).isSome = true) :
    ∃ t, op = .settle t settleId ∧ (step suite s op).1 ≠ s := by
  rcases op
  case settle t settleId' =>
    unfold settledBy at h
    dsimp only at h
    split_ifs at h with hid
    · exact ⟨t, by rw [hid.1], hid.2⟩
    · cases h
  all_goals cases h

theorem settled_once (settleId : ByteArr 32) (s : HostedRail) (ops : List Op) :
    (marks (step suite) (settledBy suite settleId) s ops).length ≤ 1 := by
  refine marks_length_le_one
    (P := fun s => (s.rail.settleIds.lookup settleId).isSome = true)
    (fun s op _ hmark => ?_) (fun s op _ hset => (step_remembers op).1 settleId hset)
    (fun s op _ hset => ?_) s ops
    (along_of_invariant (P := fun _ => True) (fun _ _ => id) s ops trivial)
  · obtain ⟨t, rfl, hne⟩ := settledBy_isSome hmark
    rcases s.rail.settle_cases t settleId with h | ⟨-, id, h⟩
    · exact absurd (congrArg (fun rail => { s with rail }) h) hne
    · show ((s.rail.settle t settleId).2.settleIds.lookup settleId).isSome = true
      rw [(Prod.mk.inj h).1, Finmap.lookup_insert]
      rfl
  · by_contra hmark
    obtain ⟨t, rfl, hne⟩ := settledBy_isSome (Option.ne_none_iff_isSome.1 hmark)
    rcases s.rail.settle_cases t settleId with h | ⟨hnone, -⟩
    · exact hne (congrArg (fun rail => { s with rail }) h)
    · rw [hnone] at hset
      cases hset

theorem releasedBy_isSome {key : ByteArr 8 × ByteArr 32} {op : Op}
    (h : (releasedBy suite key s op).isSome = true) : ∃ src dest asset amount,
      op = .releaseKeyed key.1 key.2 src dest asset amount ∧ (step suite s op).1 ≠ s := by
  rcases op
  case releaseKeyed cid ckptRef src dest asset amount =>
    unfold releasedBy at h
    dsimp only at h
    split_ifs at h with hid
    · exact ⟨src, dest, asset, amount, by rw [← hid.1], hid.2⟩
    · cases h
  all_goals cases h

theorem released_once (key : ByteArr 8 × ByteArr 32) (s : HostedRail) (ops : List Op) :
    (marks (step suite) (releasedBy suite key) s ops).length ≤ 1 := by
  refine marks_length_le_one
    (P := fun s => (s.rail.releaseKeys.lookup key).isSome = true)
    (fun s op _ hmark => ?_) (fun s op _ hset => (step_remembers op).2 key hset)
    (fun s op _ hset => ?_) s ops
    (along_of_invariant (P := fun _ => True) (fun _ _ => id) s ops trivial)
  · obtain ⟨src, dest, asset, amount, rfl, hne⟩ := releasedBy_isSome hmark
    rcases s.rail.releaseKeyed_cases key.1 key.2 src dest asset amount with h | ⟨-, id, h⟩
    · exact absurd (congrArg (fun rail => { s with rail }) h) hne
    · show ((s.rail.releaseKeyed key.1 key.2 src dest asset amount).2.releaseKeys.lookup
        key).isSome = true
      rw [(Prod.mk.inj h).2, Finmap.lookup_insert]
      rfl
  · by_contra hmark
    obtain ⟨src, dest, asset, amount, rfl, hne⟩ :=
      releasedBy_isSome (Option.ne_none_iff_isSome.1 hmark)
    rcases s.rail.releaseKeyed_cases key.1 key.2 src dest asset amount with h | ⟨hnone, -⟩
    · exact hne (congrArg (fun rail => { s with rail }) h)
    · rw [show (key.1, key.2) = key from rfl] at hnone
      rw [hnone] at hset
      cases hset

/-- Every run of typed operations keeps the rail sound. -/
theorem exec_sound : ∀ (ops : List Op) (s : HostedRail), s.Sound → (∀ op ∈ ops, op.Typed) →
    (exec (step suite) s ops).Sound
  | [], _, hs, _ => hs
  | op :: ops, _, hs, htyped => by
    obtain ⟨hop, hrest⟩ := List.forall_mem_cons.1 htyped
    exact exec_sound ops _ (@step_keeps suite _ hs _ hop).sound hrest

/-- What a run brings from outside, step by step. -/
def fundings (suite : Suite) : HostedRail → List Op → List ℕ :=
  marks (step suite) fun s op => some (funding suite s op)

theorem run_keeps : ∀ (ops : List Op) (s : HostedRail), s.Sound → (∀ op ∈ ops, op.Typed) →
    Credited (Along (step suite) (Fits suite) s ops) s.value (fundings suite s ops).sum
      (exec (step suite) s ops).value
  | [], s, _, _ => (Credited.zero _).congr_true trivial
  | op :: ops, s, hs, htyped => by
    obtain ⟨hop, hrest⟩ := List.forall_mem_cons.1 htyped
    obtain ⟨hsound, hcredited⟩ := @step_keeps suite _ hs _ hop
    exact hcredited.trans (run_keeps ops _ hsound hrest)

theorem new_sound (finalityDelay : ℕ) : (new finalityDelay).Sound :=
  ⟨⟨nofun, nofun⟩, nofun⟩

/-- Over any run: nothing is on the rail that was not brought from outside, and all that was is
there exactly where what is accepted is divided and credited within the bounds. What is refused
changes nothing, and a settlement and a release move value once for their key. -/
theorem rail_conserves (suite : Suite) (finalityDelay : ℕ) (ops : List Op)
    (htyped : ∀ op ∈ ops, op.Typed) :
    let s := exec (step suite) (new finalityDelay) ops
    s.value ≤ (fundings suite (new finalityDelay) ops).sum ∧
      (s.value = (fundings suite (new finalityDelay) ops).sum ↔
        Along (step suite) (Fits suite) (new finalityDelay) ops) ∧
      (∀ op e, (step suite s op).2 = .error e → (step suite s op).1 = s) ∧
      (∀ settleId,
        (marks (step suite) (settledBy suite settleId) (new finalityDelay) ops).length ≤ 1) ∧
      ∀ key, (marks (step suite) (releasedBy suite key) (new finalityDelay) ops).length ≤ 1 := by
  obtain ⟨hle, heq⟩ := @run_keeps suite ops _ (new_sound finalityDelay) htyped
  have hempty : (new finalityDelay).value = 0 := rfl
  rw [hempty, Nat.zero_add] at hle heq
  exact ⟨hle, heq, fun op e => step_refused, fun settleId => settled_once settleId _ ops,
    fun key => released_once key _ ops⟩

/-! Payments, releases and draws, with an instance of one share and one of none. -/

def payTo (dest : String) (amount : ℕ) : Transfer := { dest, asset := "usd", amount, memo := none }

def inputsOf (vector : List VectorEntry) : AddressInputs where
  merchantKey := .ofNat 32 11
  asset := "usd"
  schema := 1
  vector
  contract := 1
  merchantNet := none

def seedOf (vector : List VectorEntry) : ByteArr 32 :=
  ((inputsOf vector).seedInstance keyedSuite).getD (.ofNat 32 0)

/-- A deposit of 10 of which a claim record draws 5 for an instance. -/
def drawnFor (vector : List VectorEntry) : List Op :=
  [.deployInstance (seedOf vector) (inputsOf vector), .submit (payTo "deposit" 10),
    .fundClaimRecord (some "deposit") (VirtualRail.deriveAddress (seedOf vector)) (.ofNat 8 1)
      (.ofNat 32 2) 5 "usd"]

/-- A balance at the bound is paid more. -/
def atBound : List Op :=
  [.submit (payTo "full" U128_MAX), .submit (payTo "other" 1), .release "other" "full" "usd" 1]

/-- Two balances that are together past the bound. -/
def pastBound : List Op := [.submit (payTo "full" U128_MAX), .submit (payTo "other" 1)]

theorem rail_conserves_drawn :
    (exec (step keyedSuite) (new 0) (drawnFor [⟨1, 100, "fund"⟩])).value = 10 ∧
      (exec (step keyedSuite) (new 0) pastBound).value = U128_MAX + 1 := by
  have hdrawn := rail_conserves keyedSuite 0 (drawnFor [⟨1, 100, "fund"⟩]) (by
    simp only [drawnFor, List.forall_mem_cons]
    exact ⟨trivial, trivial, trivial, nofun⟩)
  have hpast := rail_conserves keyedSuite 0 pastBound (by
    simp only [pastBound, List.forall_mem_cons]
    exact ⟨trivial, trivial, nofun⟩)
  exact ⟨(hdrawn.2.1.2 (by decide +kernel)).trans (by decide +kernel),
    (hpast.2.1.2 (by decide +kernel)).trans (by decide +kernel)⟩

/-- A credit that passes the bound is lost, and so is what is drawn for an instance of no shares. -/
theorem value_lost :
    (exec (step keyedSuite) (new 0) atBound).value ≠ (fundings keyedSuite (new 0) atBound).sum ∧
      (exec (step keyedSuite) (new 0) (drawnFor [])).value ≠
        (fundings keyedSuite (new 0) (drawnFor [])).sum := by
  decide +kernel

end HostedRail

end Paytp
