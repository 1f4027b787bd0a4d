import Paytp.AsyncRail
import Paytp.Proofs.Conservation

/-!
# Inclusions on the asynchronous rail

What is moved as a transaction is included, and what happens as it is taken back, whatever happened
in between. An inclusion is balanced exactly if its source covers it. Taking back undoes it exactly
if what was credited is still there and the channel stands where the advance brought it.
-/

namespace Paytp

theorem paidOut_cons (p : Payout) (payouts : List Payout) (dest : String) :
    paidOut (p :: payouts) dest =
      (if p.dest = dest then p.amount else 0) + paidOut payouts dest := by
  simp [paidOut]

namespace MeedInstance

variable {inst inst' : MeedInstance} {cid : ByteArr 8} {position : ℕ}

/-! ## Positions of a channel -/

theorem floors_congr (h : inst'.meed = inst.meed) (position : ℕ) :
    inst'.floors position = inst.floors position := by
  unfold floors bpTotal
  rw [h]

theorem standing_congr (h : inst'.meed = inst.meed) (position : ℕ) :
    inst'.standing position = inst.standing position := by
  unfold standing
  rw [floors_congr h]
  unfold bpTotal
  rw [h]

theorem fundedP_of_standing (h : inst.channelPaid.lookup cid = inst.standing position)
    (hbp : inst.bpTotal = 0 → position = 0) : inst.channelFundedP cid = position := by
  unfold channelFundedP
  rw [h]
  unfold standing
  split_ifs with hnone
  · rcases hnone with rfl | hzero
    · rfl
    · exact (hbp hzero).symm
  · rfl

/-- A channel stands where its watermark says, which is nowhere if there are no points. -/
theorem Sound.standing (h : inst.Sound) (cid : ByteArr 8) :
    inst.channelPaid.lookup cid = inst.standing (inst.channelFundedP cid) ∧
      (inst.bpTotal = 0 → inst.channelFundedP cid = 0) := by
  obtain ⟨position, hpos⟩ := h cid
  by_cases hbp : inst.bpTotal = 0
  · have hnone : ∀ p, inst.standing p = none := fun p => if_pos (.inr hbp)
    rw [hnone] at hpos
    have hzero : inst.channelFundedP cid = 0 := by rw [channelFundedP, hpos]; rfl
    exact ⟨hpos.trans (hnone _).symm, fun _ => hzero⟩
  · have hat := fundedP_of_standing hpos fun hzero => absurd hzero hbp
    rw [hat]
    exact ⟨hpos, fun hzero => absurd hzero hbp⟩

theorem Sound.residue (h : inst.Sound) (cid : ByteArr 8) :
    inst.channelResidue cid + (inst.floors (inst.channelFundedP cid)).sum =
      inst.channelFundedP cid := by
  obtain ⟨hat, -⟩ := h.standing cid
  have hle := @sum_floors_self_le inst (inst.channelFundedP cid)
  have hres : inst.channelResidue cid =
      ((inst.standing (inst.channelFundedP cid)).map ChannelWatermark.residue).getD 0 := by
    rw [channelResidue, hat]
  unfold MeedInstance.standing at hres
  split_ifs at hres with hnone
  · have hzero : inst.channelFundedP cid = 0 := hnone.elim id (h.standing cid).2
    rw [hzero] at hle ⊢
    rw [hres]
    exact (Nat.zero_add _).trans (Nat.le_zero.1 hle)
  · rw [hres]
    dsimp only [Option.map_some, Option.getD_some]
    omega

/-- A channel that is brought to a position, while the others stay. -/
theorem Sound.brought (h : inst.Sound) (hmeed : inst'.meed = inst.meed)
    (hat : inst'.channelPaid.lookup cid = inst.standing position)
    (hrest : ∀ c ≠ cid, inst'.channelPaid.lookup c = inst.channelPaid.lookup c) : inst'.Sound := by
  intro c
  by_cases hc : c = cid
  · exact ⟨position, by rw [hc, hat, standing_congr hmeed]⟩
  · obtain ⟨p, hp⟩ := h c
    exact ⟨p, by rw [hrest c hc, hp, standing_congr hmeed]⟩

/-- What an advance moves a channel by and pays out, from the position of a snapshot. -/
structure Advanced (inst : MeedInstance) (start delta : ℕ) (payouts : List Payout) : Prop where
  points : inst.bpTotal = 0 → start + delta = 0
  dues : ∀ dest, paidOut payouts dest + dueOf start inst.bpTotal inst.meed dest =
    dueOf (start + delta) inst.bpTotal inst.meed dest
  total : (payouts.map Payout.amount).sum + (inst.floors start).sum =
    (inst.floors (start + delta)).sum

theorem Advanced.congr {start delta : ℕ} {payouts : List Payout}
    (h : inst.Advanced start delta payouts) (hmeed : inst'.meed = inst.meed) :
    inst'.Advanced start delta payouts := by
  have hbp : inst'.bpTotal = inst.bpTotal := by rw [bpTotal, bpTotal, hmeed]
  refine ⟨fun hzero => h.points (hbp.symm.trans hzero), fun dest => ?_, ?_⟩
  · rw [hbp, hmeed]
    exact h.dues dest
  · rw [floors_congr hmeed, floors_congr hmeed]
    exact h.total

/-- An advance brings its channel from where it stands to its target, if that is more. -/
theorem Sound.advanceChannelMeed (h : inst.Sound) (cid : ByteArr 8) {target : ℕ}
    (hmax : target ≤ U128_MAX) :
    let r := inst.advanceChannelMeed cid target
    let delta := if inst.bpTotal = 0 then 0 else target - inst.channelFundedP cid
    r.1.2.1 = delta ∧ r.2.meed = inst.meed ∧
      r.2.channelPaid.lookup cid = inst.standing (inst.channelFundedP cid + delta) ∧
      (∀ c ≠ cid, r.2.channelPaid.lookup c = inst.channelPaid.lookup c) ∧
      inst.Advanced (inst.channelFundedP cid) delta r.1.2.2 := by
  obtain ⟨hat, hzero⟩ := h.standing cid
  have hfew : ∀ p, inst.Advanced p 0 [] ↔ (inst.bpTotal = 0 → p = 0) := fun p =>
    ⟨fun ha => ha.points, fun hp => ⟨hp, fun dest => Nat.zero_add _, Nat.zero_add _⟩⟩
  by_cases hbp : inst.bpTotal = 0
  · have hsame : inst.advanceChannelMeed cid target =
        ((inst.channelFundedP cid, 0, []), inst) := by
      unfold MeedInstance.advanceChannelMeed channelFundedP
      rcases inst.channelPaid.lookup cid with _ | w <;> exact if_pos (.inr hbp)
    dsimp only
    rw [hsame, if_pos hbp]
    exact ⟨rfl, rfl, hat, fun _ _ => rfl, (hfew _).2 hzero⟩
  · have hadv := advanceChannelMeed_standing hat hmax
    have heq := @advanceChannelMeed_eq inst cid _ target hat hbp
    dsimp only
    rw [if_neg hbp]
    by_cases hle : target ≤ inst.channelFundedP cid
    · rw [if_pos hle] at heq
      rw [heq, Nat.sub_eq_zero_of_le hle]
      exact ⟨rfl, rfl, hat, fun _ _ => rfl, (hfew _).2 hzero⟩
    · have htarget : inst.channelFundedP cid + (target - inst.channelFundedP cid) = target := by
        omega
      rw [max_eq_right (by omega)] at hadv
      rw [htarget]
      rw [if_neg hle] at heq
      have hout := @entitle_total (inst.channelFundedP cid) target inst.bpTotal (by omega) inst.meed
      refine ⟨by rw [heq], hadv.1, hadv.2.1, fun c hc => ?_, fun hz => absurd hz hbp, ?_, ?_⟩
      · rw [heq]
        exact Finmap.lookup_insert_of_ne _ hc
      · rw [htarget]
        exact hadv.2.2
      · rw [htarget, heq]
        exact hout

theorem restoreChannelWatermark_lookup (cid : ByteArr 8) (snapshot : Option ChannelWatermark) :
    (inst.restoreChannelWatermark cid snapshot).channelPaid.lookup cid = snapshot ∧
      ∀ c ≠ cid, (inst.restoreChannelWatermark cid snapshot).channelPaid.lookup c =
        inst.channelPaid.lookup c := by
  unfold restoreChannelWatermark
  cases snapshot with
  | none => exact ⟨Finmap.lookup_erase _ _, fun c hc => Finmap.lookup_erase_ne hc⟩
  | some w => exact ⟨Finmap.lookup_insert _, fun c hc => Finmap.lookup_insert_of_ne _ hc⟩

end MeedInstance

namespace AsyncRail

/-! ## What is recorded as moved -/

/-- The position of a snapshot. -/
def startOf (snapshot : Option ChannelWatermark) : ℕ :=
  (snapshot.map ChannelWatermark.fundedP).getD 0

namespace Applied

def credits : Applied → String → ℕ
  | .plain dest amount, addr => if dest = addr then amount else 0
  | .release _ dest amount, addr => if dest = addr then amount else 0
  | .advance _ _ _ _ payouts _, addr => paidOut payouts addr

def debits : Applied → String → ℕ
  | .plain _ _, _ => 0
  | .release source _ amount, addr => if source = addr then amount else 0
  | .advance source _ _ delta _ _, addr => if source = some addr then delta else 0

/-- What is paid out for a channel of an instance. -/
def paidOn (addr : String) (cid : ByteArr 8) : Applied → ℕ
  | .advance _ addr' cid' _ payouts _ =>
    if addr' = addr ∧ cid' = cid then (payouts.map Payout.amount).sum else 0
  | _ => 0

/-- How far a channel's watermark is moved. -/
def movedOn (addr : String) (cid : ByteArr 8) : Applied → ℕ
  | .advance _ addr' cid' delta _ _ => if addr' = addr ∧ cid' = cid then delta else 0
  | _ => 0

/-- The part of a channel's watermark that is paid for. -/
def part (addr : String) (cid : ByteArr 8) : Applied → Finset ℕ
  | .advance _ addr' cid' delta _ snapshot =>
    if addr' = addr ∧ cid' = cid then Finset.Ioc (startOf snapshot) (startOf snapshot + delta)
    else ∅
  | _ => ∅

end Applied

variable (rail : AsyncRail)

def channelResidue (addr : String) (cid : ByteArr 8) : ℕ :=
  ((rail.instances.lookup addr).map fun i => i.channelResidue cid).getD 0

/-! ## When an inclusion and its reversal conserve -/

/-- How far an advance would move a channel. -/
def advanceDelta (addr : String) (cid : ByteArr 8) (targetP : ℕ) : ℕ :=
  match rail.instances.lookup addr with
  | some inst => if inst.bpTotal = 0 then 0 else targetP - inst.channelFundedP cid
  | none => 0

/-- The source covers what the operation takes as it is included, and what it credits is not cut
off. -/
def Covered : Op → Prop
  | .plain _ _ _ _ => True
  | .release source dest _ amount =>
    amount ≤ rail.balance source ∧ (rail.debit source amount).balance dest + amount ≤ U128_MAX
  | .advance source addr cid targetP _ =>
    ∀ src ∈ source, rail.advanceDelta addr cid targetP ≤ rail.balance src

/-- What was credited is still there, and the channel stands where the advance brought it. -/
def Undoable : Applied → Prop
  | .plain dest amount => amount ≤ rail.balance dest
  | .release _ dest amount => amount ≤ rail.balance dest
  | .advance _ addr cid delta payouts snapshot =>
    (∀ p ∈ payouts, paidOut payouts p.dest ≤ rail.balance p.dest) ∧
      rail.channelFundedP addr cid = startOf snapshot + delta
instance (rail : AsyncRail) : ∀ op, Decidable (rail.Covered op)
  | .plain _ _ _ _ => .isTrue trivial
  | .release _ _ _ _ => inferInstanceAs (Decidable (_ ∧ _))
  | .advance _ _ _ _ _ => inferInstanceAs (Decidable (∀ src ∈ _, _))

instance (rail : AsyncRail) : ∀ a, Decidable (rail.Undoable a)
  | .plain _ _ => inferInstanceAs (Decidable (_ ≤ _))
  | .release _ _ _ => inferInstanceAs (Decidable (_ ≤ _))
  | .advance _ _ _ _ _ _ => inferInstanceAs (Decidable ((∀ p ∈ _, _) ∧ _))

/-! ## Balances -/

section balances
variable {rail}

theorem debit_balance (src : String) (amount : ℕ) (addr : String) :
    (rail.debit src amount).balance addr =
      rail.balance addr - (if src = addr then amount else 0) := by
  unfold debit balance
  cases hsrc : rail.ledger.lookup src with
  | none =>
    dsimp only
    split_ifs with h
    · rw [← h, hsrc]
      exact (Nat.zero_sub _).symm
    · rfl
  | some b =>
    dsimp only
    rw [HashMap.lookup_insert_ite]
    by_cases h : addr = src
    · rw [if_pos h, if_pos h.symm, h, hsrc]
      rfl
    · rw [if_neg h, if_neg (Ne.symm h)]
      rfl

theorem credit_balance (dest : String) (amount : ℕ) (addr : String) :
    (rail.credit dest amount).balance addr =
      rail.balance addr + (if dest = addr then amount else 0) := by
  unfold credit balance
  dsimp only
  rw [HashMap.lookup_insert_ite]
  by_cases h : addr = dest
  · rw [if_pos h, if_pos h.symm, h]
    rfl
  · rw [if_neg h, if_neg (Ne.symm h)]
    rfl

theorem creditSaturating_balance (dest : String) (amount : ℕ) (addr : String) :
    (rail.creditSaturating dest amount).balance addr =
      if dest = addr then satAddU128 (rail.balance dest) amount else rail.balance addr := by
  unfold creditSaturating balance
  dsimp only
  rw [HashMap.lookup_insert_ite]
  by_cases h : addr = dest
  · rw [if_pos h, if_pos h.symm]
    rfl
  · rw [if_neg h, if_neg (Ne.symm h)]

theorem debitSource_balance (source : Option String) (delta : ℕ) (addr : String) :
    (rail.debitSource source delta).balance addr =
      rail.balance addr - (if source = some addr then delta else 0) := by
  unfold debitSource
  cases source with
  | none => rfl
  | some src =>
    dsimp only
    split_ifs with hpos heq heq
    · rw [debit_balance, if_pos (Option.some.inj heq)]
    · rw [debit_balance, if_neg fun h => heq (congrArg some h)]
    · omega
    · rfl

theorem creditSource_balance (source : Option String) (delta : ℕ) (addr : String) :
    (rail.creditSource source delta).balance addr =
      rail.balance addr + (if source = some addr then delta else 0) := by
  unfold creditSource
  cases source with
  | none => rfl
  | some src =>
    dsimp only
    split_ifs with hpos heq heq
    · rw [credit_balance, if_pos (Option.some.inj heq)]
    · rw [credit_balance, if_neg fun h => heq (congrArg some h)]
    · omega
    · rfl

theorem applyPayouts_balance (payouts : List Payout) (addr : String) :
    (rail.applyPayouts payouts).balance addr = rail.balance addr + paidOut payouts addr := by
  induction payouts generalizing rail with
  | nil => rfl
  | cons p payouts ih =>
    have hrest := @ih (rail.credit p.dest p.amount)
    rw [credit_balance] at hrest
    rw [paidOut_cons, ← Nat.add_assoc]
    exact hrest

/-- Taking back one after the other what is not covered takes no more than all at once. -/
theorem revertPayouts_balance (payouts : List Payout) (addr : String) :
    (rail.revertPayouts payouts).balance addr = rail.balance addr - paidOut payouts addr := by
  induction payouts generalizing rail with
  | nil => rfl
  | cons p payouts ih =>
    have hrest := @ih (rail.debit p.dest p.amount)
    rw [debit_balance] at hrest
    rw [paidOut_cons, ← Nat.sub_sub]
    exact hrest

end balances

/-! ## What leaves the rest alone -/

/-- Only balances are different. -/
def SameBut (rail rail' : AsyncRail) : Prop :=
  rail'.instances = rail.instances ∧ rail'.refs = rail.refs ∧ rail'.nextRef = rail.nextRef

theorem SameBut.trans {a b c : AsyncRail} (h : SameBut a b) (h' : SameBut b c) : SameBut a c :=
  ⟨h'.1.trans h.1, h'.2.1.trans h.2.1, h'.2.2.trans h.2.2⟩

theorem debit_same (src : String) (amount : ℕ) : SameBut rail (rail.debit src amount) := by
  unfold debit
  split <;> exact ⟨rfl, rfl, rfl⟩

theorem debitSource_same (source : Option String) (delta : ℕ) :
    SameBut rail (rail.debitSource source delta) := by
  unfold debitSource
  split
  · split_ifs
    · exact rail.debit_same _ _
    · exact ⟨rfl, rfl, rfl⟩
  · exact ⟨rfl, rfl, rfl⟩

theorem creditSource_same (source : Option String) (delta : ℕ) :
    SameBut rail (rail.creditSource source delta) := by
  unfold creditSource
  split
  · split_ifs <;> exact ⟨rfl, rfl, rfl⟩
  · exact ⟨rfl, rfl, rfl⟩

theorem applyPayouts_same (payouts : List Payout) : SameBut rail (rail.applyPayouts payouts) := by
  induction payouts generalizing rail with
  | nil => exact ⟨rfl, rfl, rfl⟩
  | cons p payouts ih => exact SameBut.trans ⟨rfl, rfl, rfl⟩ (ih (rail.credit p.dest p.amount))

theorem revertPayouts_same (payouts : List Payout) : SameBut rail (rail.revertPayouts payouts) := by
  induction payouts generalizing rail with
  | nil => exact ⟨rfl, rfl, rfl⟩
  | cons p payouts ih => exact (rail.debit_same p.dest p.amount).trans (ih _)

/-! ## Watermarks -/

/-- The channels of all instances stand. -/
def Placed : Prop := ∀ addr inst, rail.instances.lookup addr = some inst → inst.Sound

/-- What the recipients of a channel are due together at a position. -/
def floorsAt (addr : String) (position : ℕ) : ℕ :=
  ((rail.instances.lookup addr).map fun i => (i.floors position).sum).getD 0

/-- The instances divide as they did. -/
def SameMeeds (rail rail' : AsyncRail) : Prop :=
  ∀ addr, (rail'.instances.lookup addr).map MeedInstance.meed =
    (rail.instances.lookup addr).map MeedInstance.meed

section watermarks
variable {rail} {rail' : AsyncRail}

theorem SameMeeds.of_instances (h : rail'.instances = rail.instances) : SameMeeds rail rail' :=
  fun addr => by rw [h]

theorem SameMeeds.found (h : SameMeeds rail rail') {addr : String} {inst : MeedInstance}
    (hinst : rail.instances.lookup addr = some inst) :
    ∃ inst', rail'.instances.lookup addr = some inst' ∧ inst'.meed = inst.meed := by
  have hsame := h addr
  rw [hinst] at hsame
  exact Option.map_eq_some_iff.1 hsame

theorem SameMeeds.floorsAt (h : SameMeeds rail rail') (addr : String) (position : ℕ) :
    rail'.floorsAt addr position = rail.floorsAt addr position := by
  have hsame := h addr
  unfold AsyncRail.floorsAt
  cases hinst : rail.instances.lookup addr with
  | none =>
    rw [hinst] at hsame
    rw [Option.map_eq_none_iff.1 hsame]
  | some inst =>
    obtain ⟨inst', hinst', hmeed⟩ := h.found hinst
    rw [hinst']
    exact congrArg List.sum (MeedInstance.floors_congr hmeed position)

theorem Placed.residue (h : rail.Placed) (addr : String) (cid : ByteArr 8) :
    rail.channelResidue addr cid + rail.floorsAt addr (rail.channelFundedP addr cid) =
      rail.channelFundedP addr cid := by
  unfold channelResidue floorsAt channelFundedP
  cases hinst : rail.instances.lookup addr with
  | none => rfl
  | some inst => exact (h addr inst hinst).residue cid

/-- A channel is brought to a position, and nothing else is. -/
structure Brought (rail rail' : AsyncRail) (addr : String) (cid : ByteArr 8) (position : ℕ) :
    Prop where
  placed : rail'.Placed
  meeds : SameMeeds rail rail'
  funded : ∀ addr' cid', rail'.channelFundedP addr' cid' =
    if addr = addr' ∧ cid = cid' then position else rail.channelFundedP addr' cid'

theorem Brought.of_instances {addr : String} {cid : ByteArr 8} {position : ℕ} {rail'' : AsyncRail}
    (h : Brought rail rail' addr cid position) (heq : rail''.instances = rail'.instances) :
    Brought rail rail'' addr cid position := by
  refine ⟨fun addr' inst hinst => h.placed addr' inst (heq ▸ hinst), fun addr' => ?_,
    fun addr' cid' => ?_⟩
  · rw [heq]
    exact h.meeds addr'
  · rw [← h.funded addr' cid', channelFundedP, heq]
    rfl

theorem setInstance_brought (h : rail.Placed) {addr : String} {cid : ByteArr 8} {position : ℕ}
    {inst inst' : MeedInstance} (hinst : rail.instances.lookup addr = some inst)
    (hmeed : inst'.meed = inst.meed) (hat : inst'.channelPaid.lookup cid = inst.standing position)
    (hbp : inst.bpTotal = 0 → position = 0)
    (hrest : ∀ c ≠ cid, inst'.channelPaid.lookup c = inst.channelPaid.lookup c) :
    Brought rail (rail.setInstance addr inst') addr cid position := by
  have hlook : ∀ addr', (rail.setInstance addr inst').instances.lookup addr' =
      if addr' = addr then some inst' else rail.instances.lookup addr' :=
    fun addr' => HashMap.lookup_insert_ite _ _ _ _
  refine ⟨fun addr' i hi => ?_, fun addr' => ?_, fun addr' cid' => ?_⟩
  · rw [hlook] at hi
    split_ifs at hi
    · cases hi
      exact (h addr inst hinst).brought hmeed hat hrest
    · exact h addr' i hi
  · rw [hlook]
    split_ifs with heq
    · rw [heq, hinst]
      exact congrArg some hmeed
    · rfl
  · unfold channelFundedP
    rw [hlook]
    by_cases heq : addr' = addr
    · rw [if_pos heq, heq, hinst]
      have hbp' : inst'.bpTotal = 0 → position = 0 := by
        unfold MeedInstance.bpTotal at hbp ⊢
        rwa [hmeed]
      dsimp only [Option.map_some, Option.getD_some]
      by_cases hcid : cid' = cid
      · rw [if_pos ⟨rfl, hcid.symm⟩, hcid]
        exact MeedInstance.fundedP_of_standing
          (hat.trans (MeedInstance.standing_congr hmeed position).symm) hbp'
      · rw [if_neg fun hc => hcid hc.2.symm]
        unfold MeedInstance.channelFundedP
        rw [hrest cid' hcid]
    · rw [if_neg heq, if_neg fun hc => heq hc.1.symm]

end watermarks

/-! ## Inclusion -/

/-- An operation that can be included. -/
def Placeable : Op → Prop
  | .plain _ _ amount _ | .release _ _ _ amount => amount ≤ U128_MAX
  | .advance _ addr _ targetP _ =>
    targetP ≤ U128_MAX ∧ (rail.instances.lookup addr).isSome = true

/-- What an advance moved, it moved from where its snapshot stands. -/
def Holds : Applied → Prop
  | .advance _ addr _ delta payouts snapshot => ∃ inst, rail.instances.lookup addr = some inst ∧
    snapshot = inst.standing (startOf snapshot) ∧ inst.Advanced (startOf snapshot) delta payouts
  | _ => True

/-- What happens to the channels and the references as something is moved. -/
structure Moves (rail rail' : AsyncRail) (a : Applied) : Prop where
  refs : rail'.refs = rail.refs
  nextRef : rail'.nextRef = rail.nextRef
  placed : rail'.Placed
  meeds : SameMeeds rail rail'
  holds : rail.Holds a
  funded : ∀ addr cid, rail'.channelFundedP addr cid =
    rail.channelFundedP addr cid + a.movedOn addr cid
  floors : ∀ addr cid, rail.floorsAt addr (rail'.channelFundedP addr cid) =
    rail.floorsAt addr (rail.channelFundedP addr cid) + a.paidOn addr cid
  part : ∀ addr cid, a.part addr cid =
    Finset.Ioc (rail.channelFundedP addr cid) (rail'.channelFundedP addr cid)

/-- What happens to the balances. -/
def Balanced (rail rail' : AsyncRail) (a : Applied) : Prop :=
  ∀ addr, rail'.balance addr + a.debits addr = rail.balance addr + a.credits addr

section inclusion
variable {rail} {rail' : AsyncRail}

theorem Moves.of_balances {a : Applied} (h : SameBut rail rail') (hplaced : rail.Placed)
    (hholds : rail.Holds a) (hmoved : ∀ addr cid, a.movedOn addr cid = 0)
    (hpaid : ∀ addr cid, a.paidOn addr cid = 0) (hpart : ∀ addr cid, a.part addr cid = ∅) :
    Moves rail rail' a := by
  obtain ⟨hinst, hrefs, hnext⟩ := h
  have hfunded : ∀ addr cid, rail'.channelFundedP addr cid = rail.channelFundedP addr cid :=
    fun addr cid => by rw [channelFundedP, channelFundedP, hinst]
  refine ⟨hrefs, hnext, fun addr inst hi => hplaced addr inst (hinst ▸ hi), .of_instances hinst,
    hholds, fun addr cid => ?_, fun addr cid => ?_, fun addr cid => ?_⟩
  · rw [hfunded, hmoved]
    rfl
  · rw [hfunded, hpaid]
    rfl
  · rw [hfunded, hpart, Finset.Ioc_self]

theorem paidOut_le_iff {payouts : List Payout} {balance : String → ℕ} :
    (∀ p ∈ payouts, paidOut payouts p.dest ≤ balance p.dest) ↔
      ∀ addr, paidOut payouts addr ≤ balance addr := by
  refine ⟨fun h addr => ?_, fun h p _ => h p.dest⟩
  by_cases hp : ∃ p ∈ payouts, p.dest = addr
  · obtain ⟨p, hp, rfl⟩ := hp
    exact h p hp
  · have hzero : paidOut payouts addr = 0 := by
      unfold paidOut
      refine List.sum_eq_zero fun n hn => ?_
      obtain ⟨p, hmem, rfl⟩ := List.mem_map.1 hn
      exact if_neg fun heq => hp ⟨p, hmem, heq⟩
    rw [hzero]
    exact Nat.zero_le _

/-- A release is covered exactly if it moves its amount. -/
theorem release_balanced {source dest : String} {amount : ℕ} (hmax : amount ≤ U128_MAX)
    (asset : String) : rail.Covered (.release source dest asset amount) ↔
      Balanced rail ((rail.debit source amount).creditSaturating dest amount)
        (.release source dest amount) := by
  unfold Covered Balanced Applied.debits Applied.credits
  simp only [creditSaturating_balance, debit_balance]
  unfold satAddU128
  constructor
  · rintro ⟨hcover, hfit⟩ addr
    by_cases hsource : source = addr <;> by_cases hdest : dest = addr <;>
      simp only [hsource, hdest, if_true, if_false] at * <;> omega
  · intro h
    have hs := h source
    have hd := h dest
    by_cases heq : source = dest
    · simp only [heq, if_true] at *
      omega
    · have hne : dest ≠ source := Ne.symm heq
      simp only [heq, hne, if_true, if_false] at *
      omega

theorem advance_moves (h : rail.Placed) (source : Option String) {addr : String}
    (cid : ByteArr 8) {targetP : ℕ} (asset : String) (hmax : targetP ≤ U128_MAX)
    {inst : MeedInstance} (hinst : rail.instances.lookup addr = some inst) :
    ∃ payouts info after, rail.apply (.advance source addr cid targetP asset) =
        some ((.advance source addr cid (rail.advanceDelta addr cid targetP) payouts
          (inst.channelWatermarkSnapshot cid), info), after) ∧
      Moves rail after (.advance source addr cid (rail.advanceDelta addr cid targetP) payouts
        (inst.channelWatermarkSnapshot cid)) ∧
      ∀ addr', after.balance addr' = rail.balance addr' -
        (if source = some addr' then rail.advanceDelta addr cid targetP else 0) +
          paidOut payouts addr' := by
  have hsound := h addr inst hinst
  obtain ⟨hdelta, hmeed, hat, hrest, hadv⟩ := hsound.advanceChannelMeed cid hmax
  have hmoved : rail.advanceDelta addr cid targetP =
      if inst.bpTotal = 0 then 0 else targetP - inst.channelFundedP cid := by
    rw [advanceDelta, hinst]
  have hfunded : rail.channelFundedP addr cid = inst.channelFundedP cid := by
    rw [channelFundedP, hinst]
    rfl
  have hstart : startOf (inst.channelWatermarkSnapshot cid) = inst.channelFundedP cid := rfl
  rw [← hmoved] at hdelta hat hadv
  have hbrought := setInstance_brought h hinst hmeed hat hadv.points hrest
  unfold apply
  dsimp only
  rw [hinst, Option.map_some]
  generalize inst.advanceChannelMeed cid targetP = r at hdelta hmeed hat hrest hadv hbrought ⊢
  obtain ⟨⟨fundedP, delta, payouts⟩, inst'⟩ := r
  dsimp only at hdelta hmeed hat hrest hadv hbrought ⊢
  subst hdelta
  have hsame := (debitSource_same (rail.setInstance addr inst') source
    (rail.advanceDelta addr cid targetP)).trans (applyPayouts_same _ payouts)
  have hafter := hbrought.of_instances hsame.1
  refine ⟨payouts, _, _, rfl, ⟨hsame.2.1, hsame.2.2, hafter.placed, hafter.meeds,
    ⟨inst, hinst, (hsound.standing cid).1, hadv⟩, fun addr' cid' => ?_, fun addr' cid' => ?_,
    fun addr' cid' => ?_⟩, fun addr' => ?_⟩
  · rw [hafter.funded]
    dsimp only [Applied.movedOn]
    split_ifs with heq
    · rw [← heq.1, ← heq.2, hfunded]
    · rfl
  · rw [hafter.funded]
    dsimp only [Applied.paidOn]
    split_ifs with heq
    · obtain ⟨rfl, rfl⟩ := heq
      rw [hfunded, floorsAt, floorsAt, hinst]
      exact (hadv.total.symm.trans (Nat.add_comm _ _))
    · rfl
  · rw [hafter.funded]
    dsimp only [Applied.part]
    split_ifs with heq
    · obtain ⟨rfl, rfl⟩ := heq
      rw [hstart, hfunded]
    · exact (Finset.Ioc_self _).symm
  · rw [applyPayouts_balance, debitSource_balance]
    rfl

/-- What is included is moved, and balanced exactly if it is covered. -/
theorem apply_moves (h : rail.Placed) {op : Op} (hop : rail.Placeable op) :
    ∃ a info after, rail.apply op = some ((a, info), after) ∧ Moves rail after a ∧
      (rail.Covered op ↔ Balanced rail after a) := by
  cases op with
  | plain dest asset amount memo =>
    refine ⟨_, _, _, rfl, .of_balances ⟨rfl, rfl, rfl⟩ h trivial (fun _ _ => rfl) (fun _ _ => rfl)
      fun _ _ => rfl, fun _ addr => credit_balance dest amount addr, fun _ => trivial⟩
  | release source dest asset amount =>
    refine ⟨_, _, _, rfl, .of_balances (SameBut.trans (rail.debit_same source amount)
      ⟨rfl, rfl, rfl⟩) h trivial (fun _ _ => rfl) (fun _ _ => rfl) fun _ _ => rfl,
      release_balanced hop asset⟩
  | advance source addr cid targetP asset =>
    obtain ⟨hmax, hsome⟩ := hop
    obtain ⟨inst, hinst⟩ := Option.isSome_iff_exists.1 hsome
    obtain ⟨payouts, info, after, happly, hmoves, hbalance⟩ :=
      advance_moves h source cid asset hmax hinst
    refine ⟨_, info, after, happly, hmoves, ?_⟩
    dsimp only [Covered, Balanced, Applied.debits, Applied.credits]
    constructor
    · intro hcover addr'
      rw [hbalance]
      split_ifs with heq
      · have hle := hcover addr' heq
        omega
      · omega
    · intro hbal src (hsrc : source = some src)
      have hthere := hbal src
      rw [hbalance, if_pos hsrc] at hthere
      omega

end inclusion

/-! ## Taking back -/

/-- What happens as something is taken back, whatever happened since it was moved. -/
structure Reverts (rail rail' : AsyncRail) (a : Applied) : Prop where
  refs : rail'.refs = rail.refs
  nextRef : rail'.nextRef = rail.nextRef
  placed : rail'.Placed
  meeds : SameMeeds rail rail'
  balance : ∀ addr, rail'.balance addr = rail.balance addr - a.credits addr + a.debits addr
  floors : ∀ addr cid, rail.floorsAt addr (rail'.channelFundedP addr cid) + a.paidOn addr cid =
    rail.floorsAt addr (rail'.channelFundedP addr cid + a.movedOn addr cid)
  part : ∀ addr cid, a.part addr cid =
    Finset.Ioc (rail'.channelFundedP addr cid)
      (rail'.channelFundedP addr cid + a.movedOn addr cid)
  undoable : rail.Undoable a ↔ (∀ addr, a.credits addr ≤ rail.balance addr) ∧
    ∀ addr cid, rail.channelFundedP addr cid =
      rail'.channelFundedP addr cid + a.movedOn addr cid

section takingBack
variable {rail} {rail' : AsyncRail}

theorem Reverts.of_balances {a : Applied} (h : SameBut rail rail') (hplaced : rail.Placed)
    (hbalance : ∀ addr, rail'.balance addr = rail.balance addr - a.credits addr + a.debits addr)
    (hmoved : ∀ addr cid, a.movedOn addr cid = 0) (hpaid : ∀ addr cid, a.paidOn addr cid = 0)
    (hpart : ∀ addr cid, a.part addr cid = ∅)
    (hundo : rail.Undoable a ↔ ∀ addr, a.credits addr ≤ rail.balance addr) :
    Reverts rail rail' a := by
  obtain ⟨hinst, hrefs, hnext⟩ := h
  have hfunded : ∀ addr cid, rail'.channelFundedP addr cid = rail.channelFundedP addr cid :=
    fun addr cid => by rw [channelFundedP, channelFundedP, hinst]
  refine ⟨hrefs, hnext, fun addr inst hi => hplaced addr inst (hinst ▸ hi), .of_instances hinst,
    hbalance, fun addr cid => ?_, fun addr cid => ?_, hundo.trans ?_⟩
  · rw [hmoved, hpaid]
    rfl
  · rw [hmoved, hpart, Nat.add_zero, Finset.Ioc_self]
  · refine ⟨fun hle => ⟨hle, fun addr cid => ?_⟩, And.left⟩
    rw [hmoved, hfunded]
    rfl

theorem credited_le_iff {dest : String} {amount : ℕ} {balance : String → ℕ} :
    amount ≤ balance dest ↔ ∀ addr, (if dest = addr then amount else 0) ≤ balance addr := by
  refine ⟨fun h addr => ?_, fun h => by simpa using h dest⟩
  split_ifs with heq
  · exact heq ▸ h
  · exact Nat.zero_le _

theorem advance_reverts (h : rail.Placed) {source : Option String} {addr : String}
    {cid : ByteArr 8} {delta : ℕ} {payouts : List Payout} {snapshot : Option ChannelWatermark}
    (hholds : rail.Holds (.advance source addr cid delta payouts snapshot)) :
    Reverts rail (rail.revert (.advance source addr cid delta payouts snapshot))
      (.advance source addr cid delta payouts snapshot) := by
  obtain ⟨inst, hinst, hstart, hadv⟩ := hholds
  have hsame := rail.revertPayouts_same payouts
  obtain ⟨hsnap, hrest⟩ := inst.restoreChannelWatermark_lookup cid snapshot
  have hbrought : Brought rail (rail.setInstance addr (inst.restoreChannelWatermark cid snapshot))
      addr cid (startOf snapshot) :=
    setInstance_brought h hinst rfl (hsnap.trans hstart) (fun hzero => by
      have := hadv.points hzero
      omega) hrest
  have hrestore : (rail.revertPayouts payouts).restoreAt addr cid snapshot =
      (rail.revertPayouts payouts).setInstance addr
        (inst.restoreChannelWatermark cid snapshot) := by
    rw [restoreAt, hsame.1, hinst]
  have hsource := creditSource_same ((rail.revertPayouts payouts).setInstance addr
    (inst.restoreChannelWatermark cid snapshot)) source delta
  have hinsts : ((rail.revertPayouts payouts).setInstance addr
      (inst.restoreChannelWatermark cid snapshot)).instances =
      (rail.setInstance addr (inst.restoreChannelWatermark cid snapshot)).instances := by
    unfold setInstance
    rw [hsame.1]
  have hafter := hbrought.of_instances (hsource.1.trans hinsts)
  unfold revert
  dsimp only
  rw [hrestore]
  refine ⟨hsource.2.1.trans hsame.2.1, hsource.2.2.trans hsame.2.2, hafter.placed, hafter.meeds,
    fun addr' => ?_, fun addr' cid' => ?_, fun addr' cid' => ?_, ?_⟩
  · rw [creditSource_balance]
    exact congrArg (· + _) (revertPayouts_balance payouts addr')
  · rw [hafter.funded]
    dsimp only [Applied.paidOn, Applied.movedOn]
    split_ifs with heq
    · obtain ⟨rfl, rfl⟩ := heq
      rw [floorsAt, floorsAt, hinst]
      exact (Nat.add_comm _ _).trans hadv.total
    · rfl
  · rw [hafter.funded]
    dsimp only [Applied.part, Applied.movedOn]
    split_ifs with heq
    · rfl
    · exact (Finset.Ioc_self _).symm
  · refine and_congr paidOut_le_iff ⟨fun hat addr' cid' => ?_, fun hall => ?_⟩
    · rw [hafter.funded]
      dsimp only [Applied.movedOn]
      split_ifs with heq
      · rw [← heq.1, ← heq.2, hat]
      · rfl
    · have hhere := hall addr cid
      rw [hafter.funded] at hhere
      simpa [Applied.movedOn] using hhere

theorem revert_reverts (h : rail.Placed) {a : Applied} (hholds : rail.Holds a) :
    Reverts rail (rail.revert a) a := by
  cases a with
  | plain dest amount =>
    exact .of_balances (rail.debit_same dest amount) h (fun addr => debit_balance dest amount addr)
      (fun _ _ => rfl) (fun _ _ => rfl) (fun _ _ => rfl) credited_le_iff
  | release source dest amount =>
    refine .of_balances (SameBut.trans (rail.debit_same dest amount) ⟨rfl, rfl, rfl⟩) h
      (fun addr => ?_) (fun _ _ => rfl) (fun _ _ => rfl) (fun _ _ => rfl) credited_le_iff
    exact (credit_balance source amount addr).trans
      (congrArg (· + _) (debit_balance dest amount addr))
  | advance source addr cid delta payouts snapshot => exact advance_reverts h hholds

end takingBack

end AsyncRail

end Paytp
