import Paytp.Proofs.Refunds

/-!
# One refund for a channel

The virtual rail moves a keyed release once for its channel and basis, and remembers the key. A
channel whose refund is out can be refunded again only by a close that finds it due still and
names another basis.
-/

namespace Paytp

namespace VirtualRail

variable (rail : VirtualRail)

/-- The keys of the releases that were done. -/
def released : Finset (ByteArr 8 × ByteArr 32) := rail.releaseKeys.keys

theorem released_recordRef (info : RefInfo) : (rail.recordRef info).2.released = rail.released :=
  rfl

theorem released_applyPayouts : ∀ (payouts : List Payout) (rail : VirtualRail),
    (rail.applyPayouts payouts).released = rail.released
  | [], _ => rfl
  | p :: payouts, rail => released_applyPayouts payouts (rail.credit p.dest p.amount)

theorem released_releaseLocked (source dest asset : String) (amount : ℕ) :
    (rail.releaseLocked source dest asset amount).2.released = rail.released := by
  unfold releaseLocked
  split_ifs <;> rfl

theorem released_releaseKeyed (cid : ByteArr 8) (ckptRef : ByteArr 32)
    (source dest asset : String) (amount : ℕ) :
    (rail.releaseKeyed cid ckptRef source dest asset amount).2.released =
      if (rail.releaseKeyed cid ckptRef source dest asset amount).1.toOption.isSome then
        insert (cid, ckptRef) rail.released
      else rail.released := by
  unfold releaseKeyed
  split
  · rename_i existing hk
    have hmem : (cid, ckptRef) ∈ rail.released :=
      Finmap.mem_keys.mpr (Finmap.lookup_isSome.mp (by rw [hk]; rfl))
    exact (Finset.insert_eq_of_mem hmem).symm
  · have hl := rail.released_releaseLocked source dest asset amount
    split
    · rename_i id rail' heq
      rw [heq] at hl
      show (Finmap.insert (cid, ckptRef) id rail'.releaseKeys).keys = insert _ _
      rw [← hl]
      exact HashMap.keys_insert ..
    · rename_i e rail' heq
      rw [heq] at hl
      exact hl

theorem released_advanceChannelMeed (source : Option String) (addr : String) (cid : ByteArr 8)
    (targetP : ℕ) (asset : String) :
    (rail.advanceChannelMeed source addr cid targetP asset).2.released = rail.released := by
  unfold advanceChannelMeed
  split_ifs
  · rfl
  · split
    · rfl
    · dsimp only
      split
      · rfl
      · rw [released_recordRef, released_applyPayouts]
        split
        · split <;> rfl
        · rfl

end VirtualRail

namespace Carriage

/-- A carriage on the virtual rail. -/
def virtualEnv (suite : Suite) : Env VirtualRail := { suite, adapter := VirtualRail.adapter }

variable {ρ : Type} {suite : Suite} {fails : StoreFaults} {s s' : Carriage VirtualRail}

/-- The keys of the refunds that are out. -/
def released (s : Carriage VirtualRail) : Finset (ByteArr 8 × ByteArr 32) :=
  (s.rail.map VirtualRail.released).getD ∅

theorem released_of_rail (h : s'.rail = s.rail) : s'.released = s.released := by
  rw [released, h, released]

/-- The refund of the channel `cid` that moves value in a step: released on the rail, under a key
the rail does not know yet. -/
def refundMoved (suite : Suite) (cid : ByteArr 8) (s : Carriage VirtualRail)
    (e : Event VirtualRail) : Option String :=
  match s.refundOf (virtualEnv suite) e with
  | some (close, _) =>
    if (close.channelId, close.ckptRef) ∈ s.released then none
    else s.releaseOf (virtualEnv suite) cid e
  | none => none

/-- Does a close find a refund due on a channel that was refunded under another basis? -/
def namesOtherBasis (suite : Suite) (s : Carriage VirtualRail) (e : Event VirtualRail) : Bool :=
  (s.refundOf (virtualEnv suite) e).any fun r =>
    decide (∃ key ∈ s.released, key.1 = r.1.channelId ∧ key.2 ≠ r.1.ckptRef)

/-- Does a step of the rail forget the key of a release? -/
def railForgets (s : Carriage VirtualRail) (e : Event VirtualRail) : Bool :=
  match e.call with
  | .rail op => !decide (s.released ⊆ ({ s with rail := s.rail.map op } : Carriage _).released)
  | _ => false

/-! ## No step takes a release back -/

theorem drawLocked_released (s : Carriage VirtualRail) (cid : ByteArr 8) {rail : VirtualRail}
    (hrail : s.rail = some rail) (target : DrawTarget) :
    (s.drawLocked (virtualEnv suite) cid rail target).2.released = s.released := by
  have hs : s.released = rail.released := by rw [released, hrail]; rfl
  obtain ⟨rail', heq, rfl | rfl⟩ := s.drawLocked_rail (virtualEnv suite) cid rail target
  · rw [released_of_rail (heq.trans hrail.symm)]
  · rw [released, heq, hs]
    exact rail.released_advanceChannelMeed ..

theorem runPrepayInterimDraw_released (s : Carriage VirtualRail) (cid : ByteArr 8) :
    (s.runPrepayInterimDraw (virtualEnv suite) cid).2.released = s.released := by
  unfold runPrepayInterimDraw
  split
  · rfl
  · rename_i target lock rail _ hrail
    have hlock : ∀ s₁ : Carriage VirtualRail, s₁.rail = s.rail →
        (s₁.drawLocked (virtualEnv suite) cid rail target).2.released = s.released := by
      intro s₁ h
      rw [drawLocked_released s₁ cid (h.trans hrail) target, released_of_rail h]
    cases lock with
    | some round => exact hlock _ rfl
    | none => exact hlock s rfl
  · rfl

theorem attemptPrepayCloseDraw_released (s : Carriage VirtualRail) (cid : ByteArr 8) :
    (s.attemptPrepayCloseDraw (virtualEnv suite) cid).released = s.released := by
  unfold attemptPrepayCloseDraw
  split
  case h_1 ckptRef targetP terms rail _ _ hrail =>
    have hs : s.released = rail.released := by rw [released, hrail]; rfl
    have hkeep := rail.released_advanceChannelMeed (some terms.settlePtr)
      (VirtualRail.deriveAddress terms.seedInstance) cid targetP terms.baselineAsset
    dsimp only
    rw [hs, ← hkeep]
    split <;> rfl
  case h_2 => rfl

/-- A refund that is due is submitted, and what was released before stays so. -/
theorem releaseRefund_released {close : Close} {refund : Refund} {rail : VirtualRail}
    (hr : s.refundDue close.channelId = some refund) (hrail : s.rail = some rail) :
    (s.releaseRefund (virtualEnv suite) fails close).released =
      (submitRefund (virtualEnv suite) close refund rail).2.released := by
  unfold releaseRefund
  rw [hr, hrail]
  dsimp only
  split
  · rw [released_of_rail (decideKey_offRail ..).rail]
    rfl
  · rfl

theorem releaseRefund_keeps (s : Carriage VirtualRail) (close : Close) :
    s.released ⊆ (s.releaseRefund (virtualEnv suite) fails close).released := by
  cases hr : s.refundDue close.channelId with
  | none =>
    unfold releaseRefund
    rw [hr]
  | some refund =>
    cases hrail : s.rail with
    | none =>
      rw [released, hrail]
      exact Finset.empty_subset _
    | some rail =>
      have hs : s.released = rail.released := by rw [released, hrail]; rfl
      rw [releaseRefund_released hr hrail, hs]
      show _ ⊆ (rail.releaseKeyed ..).2.released
      rw [VirtualRail.released_releaseKeyed]
      split_ifs
      · exact Finset.subset_insert _ _
      · exact Finset.Subset.refl _

/-- After the refund, a close leaves the keys on the rail alone. -/
theorem reconcile_released (s : Carriage VirtualRail) (close : Close) :
    (s.reconcile (virtualEnv suite) fails close).2.released =
      (s.releaseRefund (virtualEnv suite) fails close).released := by
  unfold reconcile
  dsimp only
  have hdrain := ((s.releaseRefund (virtualEnv suite) fails close).drainInterimRounds_redrawn
    (virtualEnv suite) close.channelId).offRail
  generalize (s.releaseRefund (virtualEnv suite) fails close).drainInterimRounds
    (virtualEnv suite) close.channelId = s₂ at hdrain ⊢
  have hkeep := hdrain.trans (decideKey_offRail s₂ fails (dispKey close.channelId)
    (encodeDisp (.reconciled (s₂.computePendingDraw close.channelId))))
  rw [← released_of_rail hkeep.rail]
  unfold recordDisposition
  split <;> (rename_i heq; rw [heq])
  rfl

theorem closePlain_keeps (s : Carriage VirtualRail) (close : Close) :
    s.released ⊆ (s.closePlain (virtualEnv suite) fails close).2.released := by
  unfold closePlain
  by_cases hf : s.firstClose close.channelId = true
  · have hr : s.released ⊆ (s.reconcile (virtualEnv suite) fails close).2.released := by
      rw [reconcile_released]
      exact releaseRefund_keeps s close
    rw [if_pos hf]
    rcases heq : s.reconcile (virtualEnv suite) fails close with ⟨_ | _, s₁⟩ <;> rw [heq] at hr
    · exact hr
    · refine hr.trans (Finset.Subset.antisymm_iff.mp ?_).1
      exact (attemptPrepayCloseDraw_released s₁ _).symm
  · rw [if_neg hf]
    exact (Finset.Subset.antisymm_iff.mp (attemptPrepayCloseDraw_released s _).symm).1

theorem onClose_keeps (s : Carriage VirtualRail) (close : Close) :
    s.released ⊆ (s.onClose (virtualEnv suite) fails close).2.released := by
  unfold onClose
  split
  · exact Finset.Subset.refl _
  · rename_i decision _
    have hclose : s.released ⊆ (if s.chains close.channelId decision then
        s.closeChained close.channelId
        else s.closePlain (virtualEnv suite) fails close).2.released := by
      split_ifs
      · unfold closeChained
        dsimp only
        split_ifs <;> exact Finset.Subset.refl _
      · exact closePlain_keeps s close
    dsimp only
    generalize (if s.chains close.channelId decision then
        s.closeChained close.channelId
        else s.closePlain (virtualEnv suite) fails close) = r at hclose ⊢
    obtain ⟨_ | _, s₁⟩ := r
    · exact hclose
    · dsimp only
      rwa [released_of_rail (finishClose_rail ..)]

theorem opened_rail (s : Carriage ρ) (env : Env ρ) (fails : StoreFaults)
    (snaps : HashMap (ByteArr 8 × ByteArr 32) ChainSnapshot) (decisions : Option DecisionStore)
    (o : ChannelOpen) (acc : ChannelDriver.Accepted) :
    (s.opened env fails snaps decisions o acc).rail = s.rail := by
  unfold opened commitPredecessor
  split
  · exact (decideKey_offRail ..).rail
  · rfl

theorem onOpen_rail (s : Carriage ρ) (env : Env ρ) (o : ChannelOpen) (now : ℕ) :
    (s.onOpen env fails o now).2.rail = s.rail := by
  obtain ⟨-, r, snaps, decisions, -, heq⟩ | ⟨-, snaps, _, _, acc, decisions, -, -, -, -, -, heq⟩ :=
    s.onOpen_cases env fails o now <;> rw [heq]
  · rfl
  · exact opened_rail ..

/-- No step takes a release back, unless the rail forgets it. -/
theorem step_keeps (s : Carriage VirtualRail) (e : Event VirtualRail)
    (h : s.railForgets e = false) :
    s.released ⊆ (step (virtualEnv suite) s e).1.released := by
  have hsame : ∀ {s' : Carriage VirtualRail}, s'.rail = s.rail → s.released ⊆ s'.released := by
    intro s' hrail
    rw [released_of_rail hrail]
  obtain ⟨call, fails⟩ := e
  cases call with
  | channelOpen o now => exact hsame (onOpen_rail s _ o now)
  | checkpointRequest request => exact hsame (onCheckpointRequest_unmoved s request).rail
  | fundingProof fp => exact hsame (onFunding_unmoved s fp).rail
  | settlementPropose p => exact hsame (onSettlementPropose_redrawn s p).offRail.rail
  | settlementProof proof => exact hsame (onSettlementProof_unmoved s proof).rail
  | close close => exact onClose_keeps s close
  | batch cid slices => exact hsame (batch_unmoved s cid slices).rail
  | ackRequest req now => exact Finset.Subset.refl _
  | prepayInterimDraw cid =>
    exact (Finset.Subset.antisymm_iff.mp (runPrepayInterimDraw_released s cid).symm).1
  | rail op =>
    have hkeep : s.released ⊆ ({ s with rail := s.rail.map op } : Carriage _).released := by
      simpa [railForgets] using h
    exact hkeep

/-! ## One refund -/

/-- Was a refund of the channel released? -/
def Refunded (cid : ByteArr 8) (s : Carriage VirtualRail) : Prop :=
  ∃ ckptRef, (cid, ckptRef) ∈ s.released

theorem refundMoved_cases {cid : ByteArr 8} {e : Event VirtualRail} {ref : String}
    (h : s.refundMoved suite cid e = some ref) :
    ∃ close refund rail, s.refundOf (virtualEnv suite) e = some (close, refund) ∧
      s.rail = some rail ∧ close.channelId = cid ∧ (cid, close.ckptRef) ∉ s.released ∧
      (submitRefund (virtualEnv suite) close refund rail).1 = .ok ref := by
  unfold refundMoved at h
  split at h
  case h_1 close refund hr =>
    split_ifs at h with hkey
    obtain ⟨close', refund', rail, hr', hrail, rfl, hsub⟩ := releaseOf_cases h
    rw [hr] at hr'
    cases hr'
    exact ⟨close, refund, rail, hr, hrail, rfl, hkey, hsub⟩
  case h_2 => cases h

/-- A refund that moves value is on record on the rail. -/
theorem refunded_of_moved {cid : ByteArr 8} {e : Event VirtualRail}
    (h : (s.refundMoved suite cid e).isSome) :
    Refunded cid (step (virtualEnv suite) s e).1 := by
  obtain ⟨ref, href⟩ := Option.isSome_iff_exists.mp h
  obtain ⟨close, refund, rail, hr, hrail, rfl, -, hsub⟩ := refundMoved_cases href
  obtain ⟨-, -, -, -, -, hdue⟩ := refundOf_cases hr
  have hkey : (close.channelId, close.ckptRef) ∈
      (s.reconcile (virtualEnv suite) e.fails close).2.released := by
    rw [reconcile_released, releaseRefund_released hdue hrail]
    show _ ∈ (rail.releaseKeyed ..).2.released
    rw [VirtualRail.released_releaseKeyed, if_pos]
    · exact Finset.mem_insert_self _ _
    · show (submitRefund (virtualEnv suite) close refund rail).1.toOption.isSome = true
      rw [hsub]
      rfl
  refine ⟨close.ckptRef, ?_⟩
  rw [step_refund hr]
  rcases heq : s.reconcile (virtualEnv suite) e.fails close with ⟨_ | _, s₁⟩ <;>
    rw [heq] at hkey
  · exact hkey
  · dsimp only
    rw [released_of_rail (finishClose_rail ..), attemptPrepayCloseDraw_released]
    exact hkey

theorem Refunded.step {cid : ByteArr 8} {e : Event VirtualRail} (hrail : s.railForgets e = false)
    (h : Refunded cid s) : Refunded cid (Carriage.step (virtualEnv suite) s e).1 := by
  obtain ⟨ckptRef, hkey⟩ := h
  exact ⟨ckptRef, step_keeps s e hrail hkey⟩

/-- A refunded channel is refunded again under another basis only. -/
theorem refundMoved_none_of_refunded {cid : ByteArr 8} {e : Event VirtualRail}
    (hbasis : s.namesOtherBasis suite e = false) (h : Refunded cid s) :
    s.refundMoved suite cid e = none := by
  rw [Option.eq_none_iff_forall_ne_some]
  intro ref href
  obtain ⟨close, refund, rail, hr, -, rfl, hnew, -⟩ := refundMoved_cases href
  obtain ⟨ckptRef, hkey⟩ := h
  simp only [namesOtherBasis, hr, Option.any_some, decide_eq_false_iff_not, not_exists, not_and,
    not_not] at hbasis
  have hsame : ckptRef = close.ckptRef := hbasis _ hkey rfl
  rw [hsame] at hkey
  exact hnew hkey

/-- In every run in which no close that finds a refund due names another basis than a refund of
its channel that is out, and on a rail that forgets no release, at most one refund of a channel
moves value. -/
theorem one_refund (suite : Suite) (cid : ByteArr 8) (s : Carriage VirtualRail)
    (es : List (Event VirtualRail))
    (h : Along (step (virtualEnv suite))
      (fun s e => s.namesOtherBasis suite e = false ∧ s.railForgets e = false) s es) :
    (marks (step (virtualEnv suite)) (refundMoved suite cid) s es).length ≤ 1 :=
  marks_length_le_one (P := Refunded cid) (fun _ _ _ => refunded_of_moved)
    (fun _ _ hok => Refunded.step hok.2)
    (fun _ _ hok => refundMoved_none_of_refunded hok.1) s es h

open Sample in
/-- A funded channel closes plainly, but its disposition is not recorded; the merchant holds
another deposit; the close comes again and names `again`. -/
def closeTwice (again : ByteArr 32) : List (Event VirtualRail) :=
  [sent (.channelOpen (openOn (terms (cid 1) none 1000)) 1000),
    sent (.rail (pay (terms (cid 1) none 1000) 500)),
    sent (.fundingProof (fundingOf (terms (cid 1) none 1000) "virt-ref:0" 500)),
    sent (.rail (pay (terms (cid 2) none 1000) 500)),
    ⟨.close (closeOf (cid 1) (.replicate 32 0) false), fun key => key == dispKey (cid 1)⟩,
    sent (.close (closeOf (cid 1) again false))]

theorem one_refund_closeTwice :
    (marks (step (virtualEnv keyedSuite)) (refundMoved keyedSuite (Sample.cid 1)) Sample.start
      (closeTwice (.replicate 32 0))).length ≤ 1 ∧
    marks (step (virtualEnv keyedSuite)) (refundMoved keyedSuite (Sample.cid 1)) Sample.start
      (closeTwice (.replicate 32 0)) = ["virt-ref:2"] :=
  ⟨one_refund _ _ _ _ (by decide +kernel), by decide +kernel⟩

/-- The same deposit goes out twice, under two names of the basis. -/
theorem closeTwice_two_refunds :
    Built (virtualEnv keyedSuite) Sample.start ∧
      marks (step (virtualEnv keyedSuite)) (refundMoved keyedSuite (Sample.cid 1)) Sample.start
        (closeTwice (.replicate 32 1)) = ["virt-ref:2", "virt-ref:3"] :=
  ⟨Sample.start_built, by decide +kernel⟩

end Carriage

end Paytp
