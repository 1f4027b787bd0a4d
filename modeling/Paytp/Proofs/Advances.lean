import Paytp.Crediting
import Paytp.Proofs.Payments
import Paytp.Proofs.SingleRefund

/-!
# What a rail has funded

A channel's position on the rail never goes back, and stays at least what every reference states
that advanced it. A merchant moves its rail by the rail's operations alone.
-/

namespace Paytp

/-- An advance states the position its channel has then, and takes no channel back. -/
theorem MeedInstance.advanceChannelMeed_funded (inst : MeedInstance) (cid : ByteArr 8)
    (targetP : ℕ) : let r := inst.advanceChannelMeed cid targetP
    r.2.seedInstance = inst.seedInstance ∧ r.1.1 = r.2.channelFundedP cid ∧
      ∀ cid', inst.channelFundedP cid' ≤ r.2.channelFundedP cid' := by
  have hmoved : ∀ {w : ChannelWatermark}, inst.channelFundedP cid < w.fundedP →
      w.fundedP = ({ inst with channelPaid := inst.channelPaid.insert cid w } :
        MeedInstance).channelFundedP cid ∧ ∀ cid', inst.channelFundedP cid' ≤
          ({ inst with channelPaid := inst.channelPaid.insert cid w } :
            MeedInstance).channelFundedP cid' := by
    intro w hlt
    have hhere : ({ inst with channelPaid := inst.channelPaid.insert cid w } :
        MeedInstance).channelFundedP cid = w.fundedP := by
      rw [channelFundedP, Finmap.lookup_insert]
      rfl
    refine ⟨hhere.symm, fun cid' => ?_⟩
    by_cases heq : cid' = cid
    · rw [heq, hhere]
      exact hlt.le
    · rw [channelFundedP, channelFundedP, Finmap.lookup_insert_of_ne _ heq]
  unfold advanceChannelMeed
  cases hw : inst.channelPaid.lookup cid with
  | none =>
    have hold : inst.channelFundedP cid = 0 := by
      rw [channelFundedP, hw]
      rfl
    dsimp only
    split_ifs with hskip
    · exact ⟨rfl, hold.symm, fun _ => le_rfl⟩
    · have hlt : inst.channelFundedP cid < targetP := by omega
      dsimp only
      exact ⟨rfl, @hmoved ⟨targetP, _, _⟩ hlt⟩
  | some w =>
    have hold : inst.channelFundedP cid = w.fundedP := by
      rw [channelFundedP, hw]
      rfl
    dsimp only
    split_ifs with hskip
    · exact ⟨rfl, hold.symm, fun _ => le_rfl⟩
    · have hlt : inst.channelFundedP cid < targetP := by omega
      dsimp only
      exact ⟨rfl, @hmoved ⟨targetP, _, _⟩ hlt⟩

namespace VirtualRail

variable {rail rail' : VirtualRail} {seed : ByteArr 32} {cid : ByteArr 8}

/-- No channel's position went back. -/
def Advances (rail rail' : VirtualRail) : Prop :=
  ∀ seed cid, rail.channelFundedP seed cid ≤ rail'.channelFundedP seed cid

/-- Every instance is at its address, and every reference that advanced a channel states no more
than the channel is funded to. -/
structure Funded (rail : VirtualRail) : Prop where
  seated : ∀ addr inst, rail.instances.lookup addr = some inst →
    addr = deriveAddress inst.seedInstance
  facts : ∀ r time info f, rail.refs.lookup r = some (time, info) →
    info.advancedChannelMeed = some f →
    f.fundedP ≤ rail.channelFundedP f.seedInstance f.channelId

theorem Advances.refl (rail : VirtualRail) : rail.Advances rail := fun _ _ => le_rfl

theorem Advances.trans {rail'' : VirtualRail} (h : rail.Advances rail')
    (h' : rail'.Advances rail'') : rail.Advances rail'' :=
  fun seed cid => (h seed cid).trans (h' seed cid)

theorem channelFundedP_of_instances (h : rail'.instances = rail.instances) (seed : ByteArr 32)
    (cid : ByteArr 8) : rail'.channelFundedP seed cid = rail.channelFundedP seed cid := by
  rw [channelFundedP, channelFundedP, h]

/-! ## Operations on the rail -/

/-- The instances and the references are what they were. -/
structure SameFacts (rail rail' : VirtualRail) : Prop where
  instances : rail'.instances = rail.instances
  refs : rail'.refs = rail.refs

theorem SameFacts.funded (h : SameFacts rail rail') (hf : rail.Funded) :
    rail'.Funded ∧ rail.Advances rail' := by
  refine ⟨⟨?_, ?_⟩, fun seed cid => ?_⟩
  · rw [h.instances]
    exact hf.seated
  · intro r time info f hr hfact
    rw [channelFundedP_of_instances h.instances]
    rw [h.refs] at hr
    exact hf.facts r time info f hr hfact
  · rw [channelFundedP_of_instances h.instances]

/-- Recording a reference keeps the facts where its own is one. -/
theorem Funded.recordRef (h : rail.Funded) {info : RefInfo}
    (hinfo : ∀ f, info.advancedChannelMeed = some f →
      f.fundedP ≤ rail.channelFundedP f.seedInstance f.channelId) :
    (rail.recordRef info).2.Funded := by
  refine ⟨h.seated, fun r time info' f hr hfact => ?_⟩
  have hinst : (rail.recordRef info).2.instances = rail.instances := rfl
  rw [channelFundedP_of_instances hinst]
  by_cases hid : r = "virt-ref:" ++ toString rail.nextRef
  · subst hid
    rw [VirtualRail.recordRef, Finmap.lookup_insert] at hr
    cases hr
    exact hinfo f hfact
  · rw [VirtualRail.recordRef, Finmap.lookup_insert_of_ne _ hid] at hr
    exact h.facts r time info' f hr hfact

theorem applyPayouts_sameFacts : ∀ (payouts : List Payout) (rail : VirtualRail),
    SameFacts rail (rail.applyPayouts payouts)
  | [], _ => ⟨rfl, rfl⟩
  | p :: payouts, rail => by
    have h := applyPayouts_sameFacts payouts (rail.credit p.dest p.amount)
    exact ⟨h.instances, h.refs⟩

/-- A recorded reference that advanced nothing. -/
theorem Funded.recordPlain {info : RefInfo} (h : SameFacts rail rail') (hf : rail.Funded)
    (hinfo : info.advancedChannelMeed = none) :
    (rail'.recordRef info).2.Funded ∧ rail.Advances (rail'.recordRef info).2 := by
  obtain ⟨hf', hadv⟩ := h.funded hf
  refine ⟨hf'.recordRef fun f hfact => ?_, hadv⟩
  rw [hinfo] at hfact
  cases hfact

theorem recordPayment_funded (h : rail.Funded) (transfer : Transfer) :
    (rail.recordPayment transfer).2.Funded ∧ rail.Advances (rail.recordPayment transfer).2 := by
  obtain ⟨paid, hpays, heq⟩ | ⟨e, heq⟩ := rail.recordPayment_cases transfer <;> rw [heq]
  · obtain ⟨ledger, splits, rfl⟩ := hpays.kept
    exact h.recordPlain ⟨rfl, rfl⟩ rfl
  · exact ⟨h, .refl rail⟩

theorem submit_funded (h : rail.Funded) (transfer : Transfer) :
    (rail.submit transfer).2.Funded ∧ rail.Advances (rail.submit transfer).2 := by
  unfold submit
  split_ifs
  · exact ⟨h, .refl rail⟩
  · exact recordPayment_funded h transfer

theorem settle_funded (h : rail.Funded) (transfer : Transfer) (settleId : ByteArr 32) :
    (rail.settle transfer settleId).2.Funded ∧
      rail.Advances (rail.settle transfer settleId).2 := by
  have hpay := recordPayment_funded h transfer
  unfold settle
  cases rail.settleIds.lookup settleId with
  | some existing => exact ⟨h, .refl rail⟩
  | none =>
    dsimp only
    split_ifs
    · exact ⟨h, .refl rail⟩
    · rcases hrec : rail.recordPayment transfer with ⟨_ | id, rail'⟩ <;> rw [hrec] at hpay
      · exact hpay
      · exact ⟨⟨hpay.1.seated, hpay.1.facts⟩, hpay.2⟩

theorem releaseLocked_funded (h : rail.Funded) (source dest asset : String) (amount : ℕ) :
    (rail.releaseLocked source dest asset amount).2.Funded ∧
      rail.Advances (rail.releaseLocked source dest asset amount).2 := by
  unfold releaseLocked
  split_ifs
  · exact ⟨h, .refl rail⟩
  · exact ⟨h, .refl rail⟩
  · exact h.recordPlain ⟨rfl, rfl⟩ rfl

theorem releaseKeyed_funded (h : rail.Funded) (cid : ByteArr 8) (ckptRef : ByteArr 32)
    (source dest asset : String) (amount : ℕ) :
    (rail.releaseKeyed cid ckptRef source dest asset amount).2.Funded ∧
      rail.Advances (rail.releaseKeyed cid ckptRef source dest asset amount).2 := by
  have hrel := releaseLocked_funded h source dest asset amount
  unfold releaseKeyed
  cases rail.releaseKeys.lookup (cid, ckptRef) with
  | some existing => exact ⟨h, .refl rail⟩
  | none =>
    dsimp only
    rcases heq : rail.releaseLocked source dest asset amount with ⟨_ | id, rail'⟩ <;>
      rw [heq] at hrel
    · exact hrel
    · exact ⟨⟨hrel.1.seated, hrel.1.facts⟩, hrel.2⟩

theorem advanceChannelMeed_funded (h : rail.Funded) (source : Option String) (addr : String)
    (cid : ByteArr 8) (targetP : ℕ) (asset : String) :
    (rail.advanceChannelMeed source addr cid targetP asset).2.Funded ∧
      rail.Advances (rail.advanceChannelMeed source addr cid targetP asset).2 := by
  unfold advanceChannelMeed
  split_ifs
  · exact ⟨h, .refl rail⟩
  cases hinst : rail.instances.lookup addr with
  | none => exact ⟨h, .refl rail⟩
  | some inst =>
    dsimp only
    by_cases hshort : source.any (fun src =>
        decide (targetP - inst.channelFundedP cid > rail.balance src)) = true
    · rw [if_pos hshort]
      exact ⟨h, .refl rail⟩
    · rw [if_neg hshort]
      obtain ⟨hseed, hfact, hgrow⟩ := inst.advanceChannelMeed_funded cid targetP
      generalize inst.advanceChannelMeed cid targetP = r at hseed hfact hgrow ⊢
      obtain ⟨⟨fundedP, delta, payouts⟩, inst'⟩ := r
      dsimp only at hseed hfact hgrow ⊢
      have haddr := h.seated addr inst hinst
      -- The instance at the address is replaced by one of the same seed that is funded further.
      set moved : VirtualRail := { rail with instances := rail.instances.insert addr inst' }
        with hmoved
      have hhere : ∀ cid', moved.channelFundedP inst.seedInstance cid' =
          inst'.channelFundedP cid' := by
        intro cid'
        rw [channelFundedP, ← haddr, hmoved]
        dsimp only
        rw [Finmap.lookup_insert]
        rfl
      have hadv : rail.Advances moved := by
        intro seed cid'
        by_cases heq : deriveAddress seed = addr
        · rw [channelFundedP, channelFundedP, heq, hinst, hmoved]
          dsimp only
          rw [Finmap.lookup_insert]
          exact hgrow cid'
        · rw [channelFundedP, channelFundedP, hmoved]
          dsimp only
          rw [Finmap.lookup_insert_of_ne _ heq]
      have hfunded : moved.Funded := by
        refine ⟨fun addr' inst₁ hlook => ?_, fun r time info f hr hf => ?_⟩
        · by_cases heq : addr' = addr
          · subst heq
            rw [hmoved, Finmap.lookup_insert] at hlook
            cases hlook
            rw [hseed]
            exact haddr
          · rw [hmoved, Finmap.lookup_insert_of_ne _ heq] at hlook
            exact h.seated addr' inst₁ hlook
        · exact (h.facts r time info f hr hf).trans (hadv _ _)
      have hpaid : ∀ {paid : VirtualRail}, SameFacts moved paid → ∀ info : RefInfo,
          (∀ f, info.advancedChannelMeed = some f →
            f.fundedP ≤ moved.channelFundedP f.seedInstance f.channelId) →
          ((paid.applyPayouts payouts).recordRef info).2.Funded ∧
            rail.Advances ((paid.applyPayouts payouts).recordRef info).2 := by
        intro paid hsame info hinfo
        have hout := applyPayouts_sameFacts payouts paid
        have hall : SameFacts moved (paid.applyPayouts payouts) :=
          ⟨hout.instances.trans hsame.instances, hout.refs.trans hsame.refs⟩
        obtain ⟨hf, hadv'⟩ := hall.funded hfunded
        refine ⟨hf.recordRef fun f hfact => ?_, hadv.trans hadv'⟩
        exact (hinfo f hfact).trans (hadv' _ _)
      have hstated : ∀ f, some (⟨cid, inst.seedInstance, fundedP, delta, asset⟩ : AdvancedFact) =
          some f → f.fundedP ≤ moved.channelFundedP f.seedInstance f.channelId := by
        rintro f ⟨⟩
        rw [hhere]
        exact hfact.le
      cases source with
      | none =>
        refine hpaid ⟨rfl, rfl⟩ _ ?_
        exact hstated
      | some src =>
        have hsource : SameFacts moved (if delta > 0 then moved.debit src delta else moved) := by
          split_ifs <;> exact ⟨rfl, rfl⟩
        refine hpaid hsource _ ?_
        exact hstated

theorem run_funded (h : rail.Funded) (op : Op) :
    (rail.run op).Funded ∧ rail.Advances (rail.run op) := by
  cases op with
  | advanceClock secs => exact SameFacts.funded ⟨rfl, rfl⟩ h
  | setOutage on => exact SameFacts.funded ⟨rfl, rfl⟩ h
  | deploySplit seed recipients => exact SameFacts.funded ⟨rfl, rfl⟩ h
  | deployInstance seed meed =>
    have hlook : ∀ addr, (rail.deployInstance seed meed).instances.lookup addr =
        if addr = deriveAddress seed then
          some ((rail.instances.lookup (deriveAddress seed)).getD (.new meed seed))
        else rail.instances.lookup addr :=
      fun addr => HashMap.lookup_orInsert ..
    have hadv : rail.Advances (rail.deployInstance seed meed) := by
      intro seed' cid
      rw [channelFundedP, channelFundedP, hlook]
      split_ifs with heq
      · rw [heq]
        cases rail.instances.lookup (deriveAddress seed) with
        | none => exact Nat.zero_le _
        | some inst => exact le_rfl
      · exact le_rfl
    refine ⟨⟨fun addr inst haddr => ?_, fun r time info f hr hf => ?_⟩, hadv⟩
    · change (rail.deployInstance seed meed).instances.lookup addr = some inst at haddr
      rw [hlook] at haddr
      split_ifs at haddr with heq
      · cases hold : rail.instances.lookup (deriveAddress seed) with
        | none =>
          rw [hold] at haddr
          cases haddr
          exact heq
        | some inst' =>
          rw [hold] at haddr
          cases haddr
          rw [heq]
          exact h.seated _ _ hold
      · exact h.seated addr inst haddr
    · exact (h.facts r time info f hr hf).trans (hadv _ _)
  | submit transfer => exact submit_funded h transfer
  | settle transfer settleId => exact settle_funded h transfer settleId
  | release source dest asset amount => exact releaseLocked_funded h source dest asset amount
  | releaseKeyed cid ckptRef source dest asset amount =>
    exact releaseKeyed_funded h cid ckptRef source dest asset amount
  | advanceChannelMeed source addr cid targetP asset =>
    exact advanceChannelMeed_funded h source addr cid targetP asset
  | entry ledger info =>
    cases info with
    | none => exact SameFacts.funded ⟨rfl, rfl⟩ h
    | some info => exact h.recordPlain ⟨rfl, rfl⟩ rfl

/-- The rail went on by its operations. -/
abbrev Runs : VirtualRail → VirtualRail → Prop :=
  Relation.ReflTransGen fun rail rail' => ∃ op, rail.run op = rail'

theorem Runs.funded (hruns : Runs rail rail') (h : rail.Funded) :
    rail'.Funded ∧ rail.Advances rail' := by
  induction hruns with
  | refl => exact ⟨h, .refl rail⟩
  | tail _ hop ih =>
    obtain ⟨op, rfl⟩ := hop
    obtain ⟨hf, hadv⟩ := run_funded ih.1 op
    exact ⟨hf, ih.2.trans hadv⟩

theorem Reachable.funded (h : Reachable rail) : rail.Funded := by
  induction h with
  | new finalityDelay =>
    refine ⟨fun addr inst haddr => ?_, fun r time info f hr => ?_⟩
    · cases (Finmap.lookup_empty addr).symm.trans haddr
    · cases (Finmap.lookup_empty r).symm.trans hr
  | run _ op ih => exact (run_funded ih op).1

end VirtualRail

namespace Carriage

variable {suite : Suite} {fails : StoreFaults} {s s' : Carriage VirtualRail}

/-! ## A merchant on the rail -/

/-- The rail is there still, and went on by its operations. -/
def RunsRail (s s' : Carriage VirtualRail) : Prop :=
  ∀ rail, s.rail = some rail → ∃ rail', s'.rail = some rail' ∧ VirtualRail.Runs rail rail'

theorem RunsRail.of_eq (h : s'.rail = s.rail) : s.RunsRail s' :=
  fun rail hrail => ⟨rail, h.trans hrail, .refl⟩

theorem RunsRail.trans {s'' : Carriage VirtualRail} (h : s.RunsRail s') (h' : s'.RunsRail s'') :
    s.RunsRail s'' := by
  intro rail hrail
  obtain ⟨rail', hrail', hruns⟩ := h rail hrail
  obtain ⟨rail'', hrail'', hruns'⟩ := h' rail' hrail'
  exact ⟨rail'', hrail'', hruns.trans hruns'⟩

theorem drawLocked_runsRail (s : Carriage VirtualRail) (cid : ByteArr 8) {rail : VirtualRail}
    (hrail : s.rail = some rail) (target : DrawTarget) :
    s.RunsRail (s.drawLocked (virtualEnv suite) cid rail target).2 := by
  intro rail₀ hrail₀
  rw [hrail] at hrail₀
  cases hrail₀
  obtain ⟨rail', heq, rfl | rfl⟩ := s.drawLocked_rail (virtualEnv suite) cid rail target
  · exact ⟨_, heq, .refl⟩
  · exact ⟨_, heq, .single ⟨.advanceChannelMeed _ _ cid target.targetP _, rfl⟩⟩

theorem runPrepayInterimDraw_runsRail (s : Carriage VirtualRail) (cid : ByteArr 8) :
    s.RunsRail (s.runPrepayInterimDraw (virtualEnv suite) cid).2 := by
  unfold runPrepayInterimDraw
  split
  · exact .of_eq rfl
  · rename_i target lock rail _ hrail
    have hlock : ∀ s₁ : Carriage VirtualRail, s₁.rail = s.rail →
        s.RunsRail (s₁.drawLocked (virtualEnv suite) cid rail target).2 := fun s₁ heq =>
      RunsRail.trans (.of_eq heq) (drawLocked_runsRail s₁ cid (heq.trans hrail) target)
    cases lock with
    | none => exact hlock s rfl
    | some round => exact hlock _ rfl
  · exact .of_eq rfl

theorem attemptPrepayCloseDraw_runsRail (s : Carriage VirtualRail) (cid : ByteArr 8) :
    s.RunsRail (s.attemptPrepayCloseDraw (virtualEnv suite) cid) := by
  unfold attemptPrepayCloseDraw
  split
  · rename_i ckptRef targetP terms rail _ _ hrail
    have hruns : ∀ s₁ : Carriage VirtualRail, s₁.rail = some (rail.advanceChannelMeed
        (some terms.settlePtr) (VirtualRail.deriveAddress terms.seedInstance) cid targetP
        terms.baselineAsset).2 → s.RunsRail s₁ := by
      intro s₁ heq rail₀ hrail₀
      rw [hrail] at hrail₀
      cases hrail₀
      exact ⟨_, heq, .single ⟨.advanceChannelMeed _ _ cid targetP _, rfl⟩⟩
    dsimp only
    split <;> exact hruns _ rfl
  · exact .of_eq rfl

theorem releaseRefund_runsRail (s : Carriage VirtualRail) (close : Close) :
    s.RunsRail (s.releaseRefund (virtualEnv suite) fails close) := by
  unfold releaseRefund
  split
  · rename_i refund rail _ hrail
    have hruns : ∀ s₁ : Carriage VirtualRail,
        s₁.rail = some (submitRefund (virtualEnv suite) close refund rail).2 → s.RunsRail s₁ := by
      intro s₁ heq rail₀ hrail₀
      rw [hrail] at hrail₀
      cases hrail₀
      exact ⟨_, heq, .single ⟨.releaseKeyed close.channelId close.ckptRef refund.settlePtr
        refund.refundPtr refund.denom refund.amount, rfl⟩⟩
    dsimp only
    split
    · exact hruns _ (decideKey_offRail ..).rail
    · exact hruns _ rfl
  · exact .of_eq rfl

theorem reconcile_runsRail (s : Carriage VirtualRail) (close : Close) :
    s.RunsRail (s.reconcile (virtualEnv suite) fails close).2 := by
  have hrelease : s.RunsRail (s.releaseRefund (virtualEnv suite) fails close) :=
    releaseRefund_runsRail s close
  refine hrelease.trans ?_
  unfold reconcile
  dsimp only
  have hdrain := ((s.releaseRefund (virtualEnv suite) fails close).drainInterimRounds_redrawn
    (virtualEnv suite) close.channelId).offRail
  generalize (s.releaseRefund (virtualEnv suite) fails close).drainInterimRounds
    (virtualEnv suite) close.channelId = s₂ at hdrain ⊢
  have hkeep := hdrain.trans (decideKey_offRail s₂ fails (dispKey close.channelId)
    (encodeDisp (.reconciled (s₂.computePendingDraw close.channelId))))
  unfold recordDisposition
  split <;> (rename_i heq; rw [heq] at hkeep; exact .of_eq hkeep.rail)

theorem onClose_runsRail (s : Carriage VirtualRail) (close : Close) :
    s.RunsRail (s.onClose (virtualEnv suite) fails close).2 := by
  unfold onClose
  split
  · exact .of_eq rfl
  · rename_i decision _
    have hclose : s.RunsRail (if s.chains close.channelId decision then
        s.closeChained close.channelId
        else s.closePlain (virtualEnv suite) fails close).2 := by
      split_ifs
      · exact .of_eq (by unfold closeChained; dsimp only; split_ifs <;> rfl)
      · unfold closePlain
        by_cases hf : s.firstClose close.channelId = true
        · have hr : s.RunsRail (s.reconcile (virtualEnv suite) fails close).2 :=
            reconcile_runsRail s close
          rw [if_pos hf]
          rcases heq : s.reconcile (virtualEnv suite) fails close with ⟨_ | _, s₁⟩ <;>
            rw [heq] at hr
          · exact hr
          · exact hr.trans (attemptPrepayCloseDraw_runsRail s₁ _)
        · rw [if_neg hf]
          exact attemptPrepayCloseDraw_runsRail s _
    dsimp only
    generalize (if s.chains close.channelId decision then
        s.closeChained close.channelId
        else s.closePlain (virtualEnv suite) fails close) = r at hclose ⊢
    obtain ⟨_ | _, s₁⟩ := r
    · exact hclose
    · exact hclose.trans (.of_eq (finishClose_rail ..))

/-- A message moves the rail by its operations. -/
theorem step_runsRail (s : Carriage VirtualRail) (e : Event VirtualRail)
    (h : Crediting.isRail e.call = false) : s.RunsRail (step (virtualEnv suite) s e).1 := by
  obtain ⟨call, fails⟩ := e
  cases call with
  | channelOpen o now => exact .of_eq (onOpen_rail s _ o now)
  | checkpointRequest request => exact .of_eq (onCheckpointRequest_unmoved s request).rail
  | fundingProof fp => exact .of_eq (onFunding_unmoved s fp).rail
  | settlementPropose p => exact .of_eq (onSettlementPropose_redrawn s p).offRail.rail
  | settlementProof proof => exact .of_eq (onSettlementProof_unmoved s proof).rail
  | close close => exact onClose_runsRail s close
  | batch cid slices => exact .of_eq (batch_unmoved s cid slices).rail
  | ackRequest req now => exact .of_eq rfl
  | prepayInterimDraw cid => exact runPrepayInterimDraw_runsRail s cid
  | rail op => cases h

end Carriage

end Paytp
