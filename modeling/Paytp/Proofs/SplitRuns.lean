import Paytp.Proofs.Conservation

/-!
# What splits receive and pay

A split receives what is paid to its address since it is there, and by each payment it has paid
every destination the floor of its points of all that was received. Its recipients are those of the
inputs that its address is derived from.
-/

namespace Paytp

namespace SplitState

/-- What a split paid a destination. -/
def paidTo (split : SplitState) (dest : String) : ℕ :=
  ((split.recipients.zip split.paid).map fun r => if r.1.1 = dest then r.2 else 0).sum

/-- A destination was paid the floors of its recipients' points. -/
theorem Sound.paidTo_eq {split : SplitState} (h : split.Sound) (dest : String) :
    split.paidTo dest = dueOf split.vReceived 10000 split.shares dest := by
  have hpaid : split.paid = split.recipients.map fun r => split.vReceived * r.2 / 10000 := by
    rw [h.paid, shares, List.map_map]
    rfl
  unfold paidTo dueOf shares
  rw [hpaid, ← List.map_prod_left_eq_zip, List.map_map, List.map_map]
  rfl

end SplitState

/-- What the inputs of a split give a destination of a total: the floor of the points of the vector,
and of the rest to the merchant. -/
def AddressInputs.due (inputs : AddressInputs) (total : ℕ) (dest : String) : ℕ :=
  total * pointsOf (inputs.vector.map fun e => ⟨e.dest, e.bp.toNat⟩) dest / 10000 +
    if inputs.merchantNet = some dest then
      total * (10000 - (inputs.vector.map fun e => e.bp.toNat).sum) / 10000
    else 0

/-- The recipients of a split are due what its inputs give them. -/
theorem AddressInputs.due_eq {inputs : AddressInputs} {net : String}
    {recipients : List (String × ℕ)} (hnet : inputs.merchantNet = some net)
    (h : VirtualRail.splitRecipients (inputs.vector.map fun e => (e.dest, e.bp.toNat)) net =
      some recipients) (total : ℕ) (dest : String) :
    dueOf total 10000 (recipients.map fun (d, bp) => ⟨d, bp⟩) dest = inputs.due total dest := by
  obtain ⟨agg, hone, hpoints, -, -, hrecipients⟩ := VirtualRail.splitRecipients_some h
  have hdue := MeedInstance.dueOf_eq total 10000 dest hone
  rw [hpoints, List.map_map] at hdue
  rw [hrecipients]
  unfold dueOf at hdue ⊢
  rw [List.map_append, List.sum_append, hdue]
  unfold due
  rw [hnet]
  simp [Function.comp_def]

namespace VirtualRail

variable (rail : VirtualRail) (addr : String)

/-! ## What splits pay -/

theorem credit_balance {dest : String} {amount : ℕ}
    (hfits : rail.balance dest + amount ≤ U128_MAX) :
    (rail.credit dest amount).balance addr =
      rail.balance addr + if dest = addr then amount else 0 := by
  unfold credit
  rw [satAddU128_of_le hfits]
  unfold balance
  rw [HashMap.lookup_insert_ite]
  by_cases heq : dest = addr
  · subst heq
    rw [if_pos rfl, if_pos rfl]
    rfl
  · rw [if_neg heq, if_neg (Ne.symm heq), Nat.add_zero]

/-- Payouts credit each destination with what they pay it. -/
theorem payChecked_balance (payouts : List Payout) :
    ∀ {rail rail' : VirtualRail}, rail.payChecked payouts = some rail' →
      rail'.balance addr = rail.balance addr + paidOut payouts addr := by
  induction payouts with
  | nil =>
    intro rail rail' h
    cases h
    rfl
  | cons p payouts ih =>
    intro rail rail' h
    obtain ⟨mid, hmid, hrest⟩ := Option.bind_eq_some_iff.1 h
    obtain ⟨hfits, rfl⟩ := creditChecked_eq_some.1 hmid
    rw [ih hrest, credit_balance _ _ hfits, Nat.add_assoc]
    rfl

/-- A payment to a split credits each destination with what it is due more. -/
theorem recordPayment_pays {t : Transfer} {split : SplitState} (hs : split.Sound)
    (hsplit : rail.splits.lookup t.dest = some split) {id : String}
    (hok : (rail.recordPayment t).1 = .ok id) :
    (rail.recordPayment t).2.balance addr = rail.balance addr +
      (dueOf (split.vReceived + t.amount) 10000 split.shares addr -
        dueOf split.vReceived 10000 split.shares addr) := by
  obtain ⟨paid, hpays, heq⟩ | ⟨e, heq⟩ := rail.recordPayment_cases t <;> rw [heq] at hok ⊢
  · rcases hpays with ⟨hnone, -⟩ | ⟨hsome, -, hdiv, hpaid⟩
    · rw [hsplit] at hnone
      cases hnone
    · obtain rfl := Option.some.inj (hsplit.symm.trans hsome)
      have hout := (@MeedInstance.entitle_floors split.vReceived (split.vReceived + t.amount) 10000
        (Nat.le_add_right _ _) addr split.shares).2
      have hdue : dueOf (split.vReceived + t.amount) 10000 split.shares addr -
          dueOf split.vReceived 10000 split.shares addr =
            paidOut (distribute (split.vReceived + t.amount) split.recipients split.paid).1
              addr := by
        rw [SplitState.distribute_eq, hs.paid]
        exact Nat.sub_eq_of_eq_add hout.symm
      have hbalance := payChecked_balance addr _ hpaid
      rw [hdue, hdiv]
      exact hbalance
  · cases hok

/-- A settlement under a new id to a split credits each destination with what it is due more. -/
theorem settle_pays {t : Transfer} {settleId : ByteArr 32} {id : String} {after : VirtualRail}
    {split : SplitState} (hs : split.Sound) (hsplit : rail.splits.lookup t.dest = some split)
    (hnew : rail.settleIds.lookup settleId = none)
    (h : rail.settle t settleId = (.ok id, after)) :
    after.balance addr = rail.balance addr +
      (dueOf (split.vReceived + t.amount) 10000 split.shares addr -
        dueOf split.vReceived 10000 split.shares addr) := by
  unfold settle at h
  rw [hnew] at h
  dsimp only at h
  split_ifs at h
  · cases h
  · rcases hrec : rail.recordPayment t with ⟨e | id', paid⟩ <;> rw [hrec] at h
    · cases h
    · obtain ⟨-, rfl⟩ := Prod.mk.inj h
      have hpays := rail.recordPayment_pays addr hs hsplit (by rw [hrec])
      rwa [hrec] at hpays

/-! ## What splits receive -/

/-- The recipients of the split at an address, and what it received. -/
def received : Option (List (String × ℕ) × ℕ) :=
  (rail.splits.lookup addr).map fun split => (split.recipients, split.vReceived)

theorem received_of_splits {rail rail' : VirtualRail} (h : rail'.splits = rail.splits) :
    rail'.received addr = rail.received addr := by
  unfold received
  rw [h]

theorem bring_zero (o : Option (List (String × ℕ) × ℕ)) : (o.map fun r => (r.1, r.2 + 0)) = o := by
  rcases o with _ | o <;> rfl

/-- A payment brings its amount to the split at its destination. -/
theorem recordPayment_received (t : Transfer) : (rail.recordPayment t).2.received addr =
    (rail.received addr).map fun r =>
      (r.1, r.2 + if t.dest = addr then ifAccepted (rail.recordPayment t).1 t.amount else 0) := by
  obtain ⟨paid, hpays, heq⟩ | ⟨e, heq⟩ := rail.recordPayment_cases t <;> rw [heq]
  · rcases hpays with ⟨hsplit, -⟩ | ⟨hsplit, -, -, hpaid⟩
    · split_ifs with hdest
      · subst hdest
        simp [received, recordRef, credit, hsplit]
      · rw [bring_zero]
        exact received_of_splits addr rfl
    · obtain ⟨ledger, rfl⟩ := payChecked_kept _ hpaid
      split_ifs with hdest
      · subst hdest
        simp [received, recordRef, withSplit, hsplit]
      · rw [bring_zero]
        simp [received, recordRef, withSplit, Ne.symm hdest]
  · simp

theorem submit_received (t : Transfer) : (rail.submit t).2.received addr =
    (rail.received addr).map fun r =>
      (r.1, r.2 + if t.dest = addr then ifAccepted (rail.submit t).1 t.amount else 0) := by
  unfold submit
  by_cases hout : rail.outage = true
  · simp [hout]
  · rw [if_neg hout]
    exact recordPayment_received rail addr t

/-- A settlement brings its amount the first time. -/
theorem settle_received (t : Transfer) (settleId : ByteArr 32) :
    (rail.settle t settleId).2.received addr = (rail.received addr).map fun r =>
      (r.1, r.2 + if t.dest = addr then
        ifAccepted (rail.settle t settleId).1 (rail.settleBrings t settleId) else 0) := by
  unfold settle settleBrings
  rcases rail.settleIds.lookup settleId with _ | existing
  · have hpaid := recordPayment_received rail addr t
    rw [Option.isSome_none, if_neg Bool.false_ne_true]
    dsimp only
    by_cases hout : rail.outage = true
    · simp [hout]
    · rw [if_neg hout]
      rcases hrec : rail.recordPayment t with ⟨res, after⟩
      rw [hrec] at hpaid
      rcases res with e | id
      · exact hpaid
      · exact hpaid
  · simp

theorem releaseLocked_splits (source dest asset : String) (amount : ℕ) :
    (rail.releaseLocked source dest asset amount).2.splits = rail.splits := by
  unfold releaseLocked
  split_ifs <;> rfl

theorem releaseKeyed_splits (cid : ByteArr 8) (ckptRef : ByteArr 32) (source dest asset : String)
    (amount : ℕ) :
    (rail.releaseKeyed cid ckptRef source dest asset amount).2.splits = rail.splits := by
  have hkept := rail.releaseLocked_splits source dest asset amount
  unfold releaseKeyed
  rcases rail.releaseKeys.lookup (cid, ckptRef) with _ | existing
  · rcases hrel : rail.releaseLocked source dest asset amount with ⟨e | id, after⟩
    · rw [hrel] at hkept
      exact hkept
    · rw [hrel] at hkept
      exact hkept
  · rfl

theorem advanceChannelMeed_splits (source : Option String) (instAddr : String) (cid : ByteArr 8)
    (target : ℕ) (asset : String) :
    (rail.advanceChannelMeed source instAddr cid target asset).2.splits = rail.splits := by
  unfold advanceChannelMeed
  split_ifs
  · rfl
  · rcases rail.instances.lookup instAddr with _ | inst
    · rfl
    · rcases source with _ | src
      · exact (applyPayouts_kept _ _).1
      · dsimp only
        split_ifs
        · rfl
        · exact (applyPayouts_kept _ _).1
        · exact (applyPayouts_kept _ _).1

end VirtualRail

namespace HostedRail

variable {suite : Suite} {s s' : HostedRail}

/-- What an operation pays at an address where a split is. -/
def arrives (addr : String) (s : HostedRail) : Op → ℕ
  | .submit t =>
    if t.dest = addr ∧ (s.rail.received addr).isSome then ifAccepted (s.rail.submit t).1 t.amount
    else 0
  | .settle t settleId =>
    if t.dest = addr ∧ (s.rail.received addr).isSome then
      ifAccepted (s.rail.settle t settleId).1 (s.rail.settleBrings t settleId)
    else 0
  | _ => 0

theorem onHosted_splits {α : Type} {x : Except RailError α} {next : α → HostedRail}
    (hx : ∀ a, x = .ok a → (next a).rail.splits = s.rail.splits) :
    (s.onHosted x next).1.rail.splits = s.rail.splits := by
  rcases x with e | a
  · rfl
  · exact hx a rfl

/-- Only payments and deployments concern the splits. -/
theorem step_splits {op : Op} (hsubmit : ∀ t, op ≠ .submit t)
    (hsettle : ∀ t settleId, op ≠ .settle t settleId)
    (hdeploy : ∀ seed inputs, op ≠ .deploySplit seed inputs) :
    (step suite s op).1.rail.splits = s.rail.splits := by
  rcases op
  case submit t => exact absurd rfl (hsubmit t)
  case settle t settleId => exact absurd rfl (hsettle t settleId)
  case deploySplit seed inputs => exact absurd rfl (hdeploy seed inputs)
  case advanceClock | setOutage => rfl
  case release => exact VirtualRail.releaseLocked_splits ..
  case releaseKeyed => exact VirtualRail.releaseKeyed_splits ..
  case advanceChannelMeed => exact VirtualRail.advanceChannelMeed_splits ..
  case deployInstance seed inputs =>
    refine onHosted_splits fun r h => ?_
    unfold deployInstance at h
    simp only [bind_eq_ok, pure_eq_ok] at h
    obtain ⟨_, -, _, -, rfl⟩ := h
    rfl
  case fundEntry addr t refundPtr asset =>
    refine onHosted_splits fun r h => ?_
    unfold fundEntry at h
    simp only [bind_eq_ok, pure_eq_ok] at h
    obtain ⟨_, -, _, -, _, -, rfl⟩ := h
    rfl
  case fundClaimRecord source addr cid ckptRef amount asset =>
    refine onHosted_splits fun r h => ?_
    unfold fundClaimRecord at h
    simp only [bind_eq_ok, pure_eq_ok] at h
    obtain ⟨_, -, _, -, _, -, x, -, _, -, rfl⟩ := h
    refine (VirtualRail.applyPayouts_kept _ _).1.trans ?_
    rcases source with _ | src <;> rfl
  all_goals
    refine onHosted_splits fun r h => ?_
    replace h : s.onEntries suite _ _ = .ok r := h
    unfold onEntries at h
    simp only [bind_eq_ok, pure_eq_ok] at h
    obtain ⟨x, -, y, -, rfl⟩ := h
    exact (VirtualRail.applyPayouts_kept _ _).1

/-- An operation deploys a split of these recipients at an address: the inputs that it states derive
the address, and name the recipients. -/
def Deploys (suite : Suite) (addr : String) (recipients : List (String × ℕ)) (op : Op) : Prop :=
  ∃ seed inputs, op = .deploySplit seed inputs ∧ inputs.seedSplit suite = some seed ∧
    VirtualRail.deriveAddress seed = addr ∧
    VirtualRail.splitRecipients (inputs.vector.map fun e => (e.dest, e.bp.toNat))
      (inputs.merchantNet.getD "") = some recipients

/-- A split that is deployed has received nothing, and one that is there stays. -/
theorem deploySplit_received {addr : String} {seed : ByteArr 32} {inputs : AddressInputs}
    {r : String × HostedRail} (h : s.deploySplit suite seed inputs = .ok r) :
    (∀ x, s.rail.received addr = some x → r.2.rail.received addr = some x) ∧
      ∀ x, s.rail.received addr = none → r.2.rail.received addr = some x →
        x.2 = 0 ∧ Deploys suite addr x.1 (.deploySplit seed inputs) := by
  unfold deploySplit at h
  simp only [bind_eq_ok, okOr_eq_ok, require_eq_ok, pure_eq_ok, beq_iff_eq] at h
  obtain ⟨expected, hseed, ⟨⟩, rfl, recipients, hrec, rfl⟩ := h
  unfold VirtualRail.received VirtualRail.deploySplit
  dsimp only
  rw [HashMap.lookup_orInsert]
  refine ⟨fun x hx => ?_, fun x hnone hx => ?_⟩
  · obtain ⟨split, hsplit, rfl⟩ := Option.map_eq_some_iff.1 hx
    split_ifs with haddr
    · rw [haddr] at hsplit
      rw [hsplit]
      rfl
    · exact hx
  · rw [Option.map_eq_none_iff] at hnone
    split_ifs at hx with haddr
    · rw [haddr] at hnone
      rw [hnone] at hx
      obtain rfl := Option.some.inj hx
      exact ⟨rfl, seed, inputs, rfl, hseed, haddr.symm, hrec⟩
    · rw [hnone] at hx
      cases hx

/-- What an operation does to the split at an address, or before there is one. -/
structure Receives (suite : Suite) (addr : String) (s : HostedRail) (op : Op) : Prop where
  stays : ∀ r, s.rail.received addr = some r →
    (step suite s op).1.rail.received addr = some (r.1, r.2 + arrives addr s op)
  starts : ∀ r, s.rail.received addr = none →
    (step suite s op).1.rail.received addr = some r → r.2 = 0 ∧ Deploys suite addr r.1 op
  before : s.rail.received addr = none → arrives addr s op = 0

/-- Where the splits stay as they are, nothing arrives. -/
theorem Receives.of_splits {addr : String} {op : Op} (harrives : arrives addr s op = 0)
    (h : (step suite s op).1.rail.received addr = s.rail.received addr) :
    Receives suite addr s op where
  stays r hr := by rw [h, hr, harrives, Nat.add_zero]
  starts r hnone hr := by
    rw [h, hnone] at hr
    cases hr
  before _ := harrives

/-- A payment arrives at the split that it is to. -/
theorem Receives.of_payment {addr dest : String} {op : Op} {amount : ℕ}
    (harrives : arrives addr s op =
      if dest = addr ∧ (s.rail.received addr).isSome then amount else 0)
    (h : (step suite s op).1.rail.received addr = (s.rail.received addr).map fun r =>
      (r.1, r.2 + if dest = addr then amount else 0)) :
    Receives suite addr s op where
  stays r hr := by
    rw [h, harrives, hr]
    simp
  starts r hnone hr := by
    rw [h, hnone] at hr
    cases hr
  before hnone := by
    rw [harrives, hnone]
    simp

theorem step_receives (addr : String) (s : HostedRail) (op : Op) : Receives suite addr s op := by
  have hother : (∀ t, op ≠ .submit t) → (∀ t settleId, op ≠ .settle t settleId) →
      (∀ seed inputs, op ≠ .deploySplit seed inputs) → arrives addr s op = 0 →
      Receives suite addr s op := fun hsubmit hsettle hdeploy harrives =>
    .of_splits harrives (VirtualRail.received_of_splits addr (step_splits hsubmit hsettle hdeploy))
  rcases op
  case submit t => exact .of_payment rfl (VirtualRail.submit_received s.rail addr t)
  case settle t settleId =>
    exact .of_payment rfl (VirtualRail.settle_received s.rail addr t settleId)
  case deploySplit seed inputs =>
    rcases hdeploy : s.deploySplit suite seed inputs with e | r
    · exact .of_splits rfl (by simp only [step, hdeploy, onHosted])
    · have hstep : (step suite s (.deploySplit seed inputs)).1 = r.2 := by
        simp only [step, hdeploy, onHosted]
      obtain ⟨hstays, hstarts⟩ := @deploySplit_received suite s addr _ _ _ hdeploy
      refine ⟨fun x hx => ?_, fun x hnone hx => ?_, fun _ => rfl⟩
      · rw [hstep]
        exact hstays x hx
      · rw [hstep] at hx
        exact hstarts x hnone hx
  all_goals exact hother (by simp) (by simp) (by simp) rfl

/-- What a run pays at an address since a split is there, step by step. -/
def arrivals (suite : Suite) (addr : String) : HostedRail → List Op → List ℕ :=
  marks (step suite) fun s op => some (arrives addr s op)

/-- Over a run, a split receives what arrives, from the operation on that deploys it. -/
theorem run_received (addr : String) : ∀ (ops : List Op) (s : HostedRail),
    (∀ r, s.rail.received addr = some r → (exec (step suite) s ops).rail.received addr =
      some (r.1, r.2 + (arrivals suite addr s ops).sum)) ∧
    ∀ r, s.rail.received addr = none → (exec (step suite) s ops).rail.received addr = some r →
      r.2 = (arrivals suite addr s ops).sum ∧ ∃ op ∈ ops, Deploys suite addr r.1 op
  | [], s => by
    refine ⟨fun r hr => hr, fun r hnone hr => ?_⟩
    rw [exec_nil, hnone] at hr
    cases hr
  | op :: ops, s => by
    obtain ⟨hstays, hstarts, hbefore⟩ := @step_receives suite addr s op
    obtain ⟨hrest, hlater⟩ := run_received addr ops (step suite s op).1
    have hsum : (arrivals suite addr s (op :: ops)).sum =
        arrives addr s op + (arrivals suite addr (step suite s op).1 ops).sum := rfl
    rw [exec_cons, hsum]
    refine ⟨fun r hr => ?_, fun r hnone hr => ?_⟩
    · rw [hrest _ (hstays r hr), Nat.add_assoc]
    · rw [hbefore hnone, Nat.zero_add]
      rcases hnext : (step suite s op).1.rail.received addr with _ | x
      · obtain ⟨hsum, op', hop', hdeploys⟩ := hlater r hnext hr
        exact ⟨hsum, op', List.mem_cons_of_mem _ hop', hdeploys⟩
      · obtain ⟨hzero, hdeploys⟩ := hstarts x hnone hnext
        rw [hrest x hnext, Option.some.injEq] at hr
        subst hr
        exact ⟨by dsimp only; rw [hzero, Nat.zero_add], op, List.mem_cons_self, hdeploys⟩

/-- A split that a run deployed is of inputs that derive its address. -/
theorem split_deployed {finalityDelay : ℕ} {ops : List Op} {addr : String} {split : SplitState}
    (hsplit : (exec (step suite) (new finalityDelay) ops).rail.splits.lookup addr = some split) :
    split.vReceived = (arrivals suite addr (new finalityDelay) ops).sum ∧
      ∃ seed inputs, .deploySplit seed inputs ∈ ops ∧ inputs.seedSplit suite = some seed ∧
        VirtualRail.deriveAddress seed = addr ∧ ∃ net, inputs.merchantNet = some net ∧
        VirtualRail.splitRecipients (inputs.vector.map fun e => (e.dest, e.bp.toNat)) net =
          some split.recipients := by
  have hreceived : (exec (step suite) (new finalityDelay) ops).rail.received addr =
      some (split.recipients, split.vReceived) := by
    unfold VirtualRail.received
    rw [hsplit]
    rfl
  obtain ⟨hsum, op, hop, seed, inputs, rfl, hseed, haddr, hrec⟩ :=
    (@run_received suite addr ops (new finalityDelay)).2 _ rfl hreceived
  have hnet : inputs.merchantNet.isSome = true := by
    unfold AddressInputs.seedSplit at hseed
    split_ifs at hseed with hnone
    exact Option.isSome_iff_ne_none.2 fun h => hnone (by rw [h]; rfl)
  obtain ⟨net, hnet⟩ := Option.isSome_iff_exists.1 hnet
  rw [hnet, Option.getD_some] at hrec
  exact ⟨hsum, seed, inputs, hop, hseed, haddr, net, hnet, hrec⟩

theorem split_sound {finalityDelay : ℕ} {ops : List Op} (htyped : ∀ op ∈ ops, op.Typed)
    {addr : String} {split : SplitState}
    (hsplit : (exec (step suite) (new finalityDelay) ops).rail.splits.lookup addr = some split) :
    split.Sound :=
  (@exec_sound suite ops _ (new_sound finalityDelay) htyped).rail.splits addr split hsplit

/-- Over any run, a split has received just what arrived at its address since it is there. Its
address is that of inputs that it was deployed from, and it has paid every destination what they
give it of all that was received, so that it keeps less than a unit for each recipient. What is
settled to it next is on the ledger of the destinations at once. -/
theorem splits_pay (suite : Suite) (finalityDelay : ℕ) (ops : List Op)
    (htyped : ∀ op ∈ ops, op.Typed) {addr : String} {split : SplitState}
    (hsplit : (exec (step suite) (new finalityDelay) ops).rail.splits.lookup addr = some split) :
    split.vReceived = (arrivals suite addr (new finalityDelay) ops).sum ∧
      split.paid.sum ≤ split.vReceived ∧
      split.vReceived < split.paid.sum + split.recipients.length ∧
      ∃ seed inputs, .deploySplit seed inputs ∈ ops ∧ inputs.seedSplit suite = some seed ∧
        VirtualRail.deriveAddress seed = addr ∧
        (∀ dest, split.paidTo dest = inputs.due split.vReceived dest) ∧
        ∀ t settleId id after, t.dest = addr →
          (exec (step suite) (new finalityDelay) ops).rail.settleIds.lookup settleId = none →
          (exec (step suite) (new finalityDelay) ops).rail.settle t settleId = (.ok id, after) →
          ∀ dest, after.balance dest =
            (exec (step suite) (new finalityDelay) ops).rail.balance dest +
              (inputs.due (split.vReceived + t.amount) dest - inputs.due split.vReceived dest) := by
  have hsound := split_sound htyped hsplit
  obtain ⟨hsum, seed, inputs, hop, hseed, haddr, net, hnet, hrec⟩ := split_deployed hsplit
  have hdue := fun total dest => AddressInputs.due_eq hnet hrec total dest
  refine ⟨hsum, hsound.paid_le, ?_, seed, inputs, hop, hseed, haddr, fun dest => ?_,
    fun t settleId id after ht hnew hpay dest => ?_⟩
  · have hlt := MeedInstance.lt_sum_floors split.vReceived (by norm_num)
      (VirtualRail.splitRecipients_sum hrec)
    rw [hsound.paid]
    simpa [SplitState.shares] using hlt
  · rw [← hdue]
    exact hsound.paidTo_eq dest
  · rw [← hdue, ← hdue]
    exact VirtualRail.settle_pays _ dest hsound (by rw [ht, hsplit]) hnew hpay

/-! A fund of one hundredth, of a split that is paid before it is deployed, and twice after. -/

def sharedInputs : AddressInputs := { inputsOf [⟨1, 100, "fund"⟩] with merchantNet := some "shop" }

def sharedSeed : ByteArr 32 := (sharedInputs.seedSplit keyedSuite).getD (.ofNat 32 0)

def sharedOut : List Op :=
  let addr := VirtualRail.deriveAddress sharedSeed
  [.submit (payTo addr 10), .deploySplit sharedSeed sharedInputs, .submit (payTo addr 150),
    .submit (payTo addr 49)]

theorem splits_pay_shared : ∃ split,
    (exec (step keyedSuite) (new 0) sharedOut).rail.splits.lookup
      (VirtualRail.deriveAddress sharedSeed) = some split ∧
    split.vReceived = 199 ∧ split.paidTo "fund" = 1 ∧ split.vReceived < split.paid.sum + 2 := by
  have hsplit : (exec (step keyedSuite) (new 0) sharedOut).rail.splits.lookup
      (VirtualRail.deriveAddress sharedSeed) =
        some
          { recipients := [("fund", 100), ("shop", 9900)], vReceived := 199
            paid := [1, 197] } := by
    decide +kernel
  obtain ⟨hreceived, -, hkept, -⟩ := splits_pay keyedSuite 0 sharedOut (by
    simp only [sharedOut, List.forall_mem_cons]
    exact ⟨trivial, trivial, trivial, trivial, nofun⟩) hsplit
  have hsum : (arrivals keyedSuite (VirtualRail.deriveAddress sharedSeed) (new 0) sharedOut).sum =
      199 := by decide +kernel
  exact ⟨_, hsplit, hreceived.trans hsum, by decide, hkept⟩

end HostedRail

end Paytp
