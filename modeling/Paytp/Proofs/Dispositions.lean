import Paytp.Proofs.Openings
import Paytp.Proofs.Untouched

/-!
# The disposition of a channel

A channel is live until a close for chaining makes it pending, an import commits it or a plain
close reconciles it. Committed and reconciled are terminal. Every step of the carriage moves the
recorded disposition of every channel along this machine.
-/

namespace Paytp

inductive Stage
  | live
  | pending
  | committed
  | reconciled
  deriving DecidableEq, Repr

namespace Stage

/-- What a disposition may become. -/
inductive Leads : Stage → Stage → Prop
  | refl (a : Stage) : Leads a a
  | live (b : Stage) : Leads .live b
  | committed : Leads .pending .committed
  | reconciled : Leads .pending .reconciled

theorem Leads.trans {a b c : Stage} (hab : Leads a b) (hbc : Leads b c) : Leads a c := by
  cases hab with
  | refl => exact hbc
  | live => exact .live c
  | committed =>
    cases hbc
    exact .committed
  | reconciled =>
    cases hbc
    exact .reconciled

theorem Leads.of_committed {a : Stage} (h : Leads .committed a) : a = .committed := by
  cases h
  rfl

theorem Leads.of_reconciled {a : Stage} (h : Leads .reconciled a) : a = .reconciled := by
  cases h
  rfl

/-- The stage a recorded disposition is at. -/
def of : Option ChainState → Stage
  | none => .live
  | some .pending => .pending
  | some (.committed _) => .committed
  | some (.reconciled _) => .reconciled

end Stage

namespace Carriage

variable {ρ : Type} {env : Env ρ} {fails : StoreFaults} {s s' : Carriage ρ}

def stage (s : Carriage ρ) (cid : ByteArr 8) : Stage := Stage.of (s.chainState.lookup cid)

/-- No channel moves back. -/
structure Forward (s s' : Carriage ρ) : Prop where
  leads : ∀ cid, (s.stage cid).Leads (s'.stage cid)

theorem Forward.refl (s : Carriage ρ) : s.Forward s := ⟨fun _ => .refl _⟩

theorem Forward.trans {a b c : Carriage ρ} (hab : a.Forward b) (hbc : b.Forward c) :
    a.Forward c := ⟨fun cid => (hab.leads cid).trans (hbc.leads cid)⟩

theorem stage_of_eq (h : s'.chainState = s.chainState) (cid : ByteArr 8) :
    s'.stage cid = s.stage cid := by
  rw [stage, stage, h]

theorem Forward.of_eq (h : s'.chainState = s.chainState) : s.Forward s' := by
  refine ⟨fun cid => ?_⟩
  rw [stage_of_eq h]
  exact .refl _

theorem Untouched.forward (h : s.Untouched s') : s.Forward s' := .of_eq h.chainState

theorem Unmoved.forward (h : s.Unmoved s') : s.Forward s' := .of_eq h.chainState

theorem stage_insert {cid : ByteArr 8} {d : ChainState}
    (h : s'.chainState = s.chainState.insert cid d) (cid' : ByteArr 8) :
    s'.stage cid' = if cid' = cid then Stage.of (some d) else s.stage cid' := by
  rw [stage, h, HashMap.lookup_insert_ite]
  split_ifs <;> rfl

/-- Recording a disposition that the one before leads to moves no channel back. -/
theorem Forward.insert {cid : ByteArr 8} {d : ChainState}
    (h : s'.chainState = s.chainState.insert cid d)
    (hd : (s.stage cid).Leads (Stage.of (some d))) : s.Forward s' := by
  refine ⟨fun cid' => ?_⟩
  rw [stage_insert h]
  split_ifs with he
  · rw [he]
    exact hd
  · exact .refl _

/-! ## Closing -/

theorem priorDisposition_none {cid : ByteArr 8} (h : (s.priorDisposition cid).isNone) :
    s.stage cid = .live := by
  unfold priorDisposition at h
  cases hc : s.chainState.lookup cid with
  | none => rw [stage, hc]; rfl
  | some d => rw [hc] at h; cases h

/-- A first close finds nothing terminal in memory. -/
theorem stage_of_firstClose {cid : ByteArr 8} (h : s.firstClose cid = true) :
    s.stage cid = .live ∨ s.stage cid = .pending := by
  unfold firstClose priorDisposition at h
  rw [stage]
  cases hc : s.chainState.lookup cid with
  | none => exact .inl rfl
  | some d =>
    rw [hc] at h
    cases d with
    | pending => exact .inr rfl
    | committed successor => cases h
    | reconciled draw => cases h

theorem closeChained_forward (s : Carriage ρ) (cid : ByteArr 8) :
    s.Forward (s.closeChained cid).2 := by
  unfold closeChained
  dsimp only
  split_ifs with _ _ hp
  · exact .refl s
  · exact .refl s
  · refine .insert rfl ?_
    rw [priorDisposition_none hp]
    exact .live _
  · exact .refl s

theorem decideKey_failed {key value : Bytes} (h : (s.decideKey fails key value).1 = .failed) :
    fails key = true := by
  unfold decideKey DecisionStore.decide at h
  split at h
  · dsimp only at h
    split_ifs at h with hf
    · exact hf
    · split at h <;> cases h
  · cases h

/-- A reconciliation records the disposition, unless the store fails to. -/
theorem reconcile_cases (s : Carriage ρ) (env : Env ρ) (fails : StoreFaults) (close : Close) :
    (∃ s₁, s.Untouched s₁ ∧ s.reconcile env fails close = (.error .rejected, s₁) ∧
      fails (dispKey close.channelId) = true) ∨
    (∃ s₁ draw, s.Untouched s₁ ∧ s.reconcile env fails close = (.ok (), { s₁ with
      chainState := s₁.chainState.insert close.channelId (.reconciled draw) })) := by
  have hdrain : s.Untouched ((s.releaseRefund env fails close).drainInterimRounds env
      close.channelId) :=
    (releaseRefund_untouched s close).trans (drainInterimRounds_redrawn ..).offRail.toUntouched
  unfold reconcile
  dsimp only
  generalize hs₂ : (s.releaseRefund env fails close).drainInterimRounds env close.channelId = s₂
    at hdrain ⊢
  generalize hd : ChainState.reconciled (s₂.computePendingDraw close.channelId) = d
  have hkeep := hdrain.trans (decideKey_offRail s₂ fails (dispKey close.channelId)
    (encodeDisp d)).toUntouched
  split
  case h_1 s₃ heq =>
    rw [recordDisposition] at heq
    refine .inl ⟨s₃, ?_, rfl, decideKey_failed (by rw [heq])⟩
    rwa [heq] at hkeep
  case h_2 decided s₃ hne heq =>
    rw [recordDisposition] at heq
    refine .inr ⟨s₃, s₂.computePendingDraw close.channelId, ?_, by rw [hd]⟩
    rwa [heq] at hkeep

theorem reconcile_forward (s : Carriage ρ) (close : Close)
    (h : s.firstClose close.channelId = true) :
    s.Forward (s.reconcile env fails close).2 := by
  obtain ⟨s₁, hs₁, heq, -⟩ | ⟨s₁, draw, hs₁, heq⟩ := s.reconcile_cases env fails close
  · rw [heq]
    exact hs₁.forward
  · rw [heq]
    refine hs₁.forward.trans (.insert rfl ?_)
    rw [stage_of_eq hs₁.chainState]
    obtain hlive | hpending := stage_of_firstClose h
    · rw [hlive]
      exact .live _
    · rw [hpending]
      exact .reconciled

theorem attemptPrepayCloseDraw_forward (s : Carriage ρ) (cid : ByteArr 8) :
    s.Forward (s.attemptPrepayCloseDraw env cid) := by
  unfold attemptPrepayCloseDraw
  split
  case h_1 ckptRef targetP terms rail hc _ _ =>
    have hstage : s.stage cid = .reconciled := by rw [stage, hc]; rfl
    have hdraw : (s.stage cid).Leads (Stage.of (some (.reconciled none))) := by
      rw [hstage]
      exact .refl _
    dsimp only
    split
    · exact .insert rfl hdraw
    · exact .insert rfl hdraw
    · exact (untouched_rail s _).forward
  case h_2 => exact .refl s

theorem closePlain_forward (s : Carriage ρ) (close : Close) :
    s.Forward (s.closePlain env fails close).2 := by
  unfold closePlain
  by_cases hf : s.firstClose close.channelId = true
  · have hr : s.Forward (s.reconcile env fails close).2 := reconcile_forward s close hf
    rw [if_pos hf]
    rcases heq : s.reconcile env fails close with ⟨_ | _, s₁⟩ <;> rw [heq] at hr
    · exact hr
    · exact hr.trans (attemptPrepayCloseDraw_forward s₁ _)
  · rw [if_neg hf]
    exact attemptPrepayCloseDraw_forward s _

theorem onClose_forward (s : Carriage ρ) (close : Close) :
    s.Forward (s.onClose env fails close).2 := by
  unfold onClose
  split
  · exact .refl s
  · rename_i decision _
    have hclose : s.Forward (if s.chains close.channelId decision then
        s.closeChained close.channelId else s.closePlain env fails close).2 := by
      split_ifs
      · exact closeChained_forward ..
      · exact closePlain_forward ..
    dsimp only
    generalize (if s.chains close.channelId decision then
        s.closeChained close.channelId else s.closePlain env fails close) = r at hclose ⊢
    obtain ⟨_ | _, s₁⟩ := r
    · exact hclose
    · exact hclose.trans (.of_eq (finishClose_chainState ..))

/-! ## Opening -/

/-- Committing a predecessor records it, whatever the store does. -/
theorem commitPredecessor_chainState (s : Carriage ρ) (fails : StoreFaults)
    (predecessor : Option (ByteArr 8 × ByteArr 32)) (successor : ByteArr 8) :
    (s.commitPredecessor fails predecessor successor).chainState = match predecessor with
      | some pred => s.chainState.insert pred.1 (.committed successor)
      | none => s.chainState := by
  cases predecessor with
  | none => rfl
  | some pred =>
    show (decideKey ..).2.chainState.insert _ _ = _
    rw [(decideKey_offRail ..).chainState]

theorem opened_chainState (s : Carriage ρ) (env : Env ρ) (fails : StoreFaults)
    (snaps : HashMap (ByteArr 8 × ByteArr 32) ChainSnapshot) (decisions : Option DecisionStore)
    (o : ChannelOpen) (acc : ChannelDriver.Accepted) :
    (s.opened env fails snaps decisions o acc).chainState = match o.auth.predecessor with
      | some pred => s.chainState.insert pred.1 (.committed o.auth.channelId)
      | none => s.chainState :=
  commitPredecessor_chainState ..

theorem onOpen_forward (s : Carriage ρ) (o : ChannelOpen) (now : ℕ) :
    s.Forward (s.onOpen env fails o now).2 := by
  obtain ⟨-, r, snaps, decisions, -, heq⟩ | ⟨-, snaps, _, _, acc, decisions, hs, -, -, -, -, heq⟩ :=
    s.onOpen_cases env fails o now <;> rw [heq]
  · exact .of_eq rfl
  · have hcs := s.opened_chainState env fails snaps decisions o acc
    cases hp : o.auth.predecessor with
    | none =>
      rw [hp] at hcs
      exact .of_eq hcs
    | some pred =>
      rw [hp] at hcs
      obtain ⟨-, hpred⟩ := screenOpen_cases hs
      obtain ⟨-, hopen⟩ := hpred pred hp
      refine .insert hcs ?_
      rw [stage]
      match hc : s.chainState.lookup pred.1 with
      | none => exact .live _
      | some .pending => exact .committed
      | some (.committed _) => exact .refl _
      | some (.reconciled draw) => exact absurd hc (hopen draw)

/-! ## Runs -/

theorem step_forward (s : Carriage ρ) (e : Event ρ) : s.Forward (step env s e).1 := by
  obtain ⟨call, fails⟩ := e
  cases call with
  | channelOpen o now => exact onOpen_forward s o now
  | checkpointRequest request => exact (onCheckpointRequest_unmoved s request).forward
  | fundingProof fp => exact (onFunding_unmoved s fp).forward
  | settlementPropose p => exact (onSettlementPropose_redrawn s p).offRail.unmoved.forward
  | settlementProof proof => exact (onSettlementProof_unmoved s proof).forward
  | close close => exact onClose_forward s close
  | batch cid slices => exact (batch_unmoved s cid slices).forward
  | ackRequest req now => exact .refl s
  | prepayInterimDraw cid => exact (runPrepayInterimDraw_untouched s cid).forward
  | rail op => exact (untouched_rail s _).forward

/-- A committed channel stays so. -/
theorem stage_committed_step {cid : ByteArr 8} (s : Carriage ρ) (e : Event ρ)
    (h : s.stage cid = .committed) : (step env s e).1.stage cid = .committed := by
  have hl : (s.stage cid).Leads ((step env s e).1.stage cid) := (step_forward s e).leads cid
  rw [h] at hl
  exact hl.of_committed

/-- A reconciled channel stays so. -/
theorem stage_reconciled_step {cid : ByteArr 8} (s : Carriage ρ) (e : Event ρ)
    (h : s.stage cid = .reconciled) : (step env s e).1.stage cid = .reconciled := by
  have hl : (s.stage cid).Leads ((step env s e).1.stage cid) := (step_forward s e).leads cid
  rw [h] at hl
  exact hl.of_reconciled

end Carriage

end Paytp
