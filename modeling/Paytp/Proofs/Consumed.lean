import Paytp.Proofs.Handlers

/-!
# Consumed references

A reference is consumed by a decision where there is a store, and by a set in memory where there
is none. What is consumed once is never consumed first again: no handler forgets a decided key or
a reference of the set.
-/

namespace Paytp

namespace DecisionStore

variable {fails : StoreFaults} {store : DecisionStore} {key value : Bytes}

/-- A store that has every decision of another. -/
def Extends (store store' : DecisionStore) : Prop := store.keys ⊆ store'.keys

theorem decide_extends (fails : StoreFaults) (store : DecisionStore) (key value : Bytes) :
    store.Extends (decide fails store key value).2 := by
  unfold decide
  split_ifs
  · exact Finset.Subset.refl _
  · split
    · exact Finset.Subset.refl _
    · dsimp only
      rw [Extends, HashMap.keys_insert]
      exact Finset.subset_insert _ _

/-- A fresh decision is of a key that was not decided, and that is decided from then on. -/
theorem decide_fresh (h : (decide fails store key value).1 = .fresh) :
    key ∉ store.keys ∧ key ∈ (decide fails store key value).2.keys := by
  unfold decide at h ⊢
  split_ifs at h ⊢
  cases hkey : store.lookup key with
  | some v =>
    rw [hkey] at h
    cases h
  | none =>
    dsimp only
    refine ⟨fun hmem => Finmap.lookup_eq_none.1 hkey (Finmap.mem_keys.1 hmem), ?_⟩
    rw [HashMap.keys_insert]
    exact Finset.mem_insert_self _ _

theorem extends_refl (store : Option DecisionStore) : Option.Rel Extends store store := by
  cases store with
  | none => exact .none
  | some store => exact .some (Finset.Subset.refl _)

end DecisionStore

namespace ChannelDriver

theorem decideOpen_extends (driver : ChannelDriver) (fails : StoreFaults)
    (store : Option DecisionStore) (cid : ByteArr 8) :
    Option.Rel DecisionStore.Extends store (driver.decideOpen fails store cid).2 := by
  unfold decideOpen
  split
  · exact .some (DecisionStore.decide_extends ..)
  · exact DecisionStore.extends_refl _

theorem openChannel_extends (driver : ChannelDriver) (suite : Suite) (fails : StoreFaults)
    (store : Option DecisionStore) (o : ChannelOpen) (now : ℕ) :
    Option.Rel DecisionStore.Extends store
      (driver.openChannel suite fails store o now).2.2 := by
  have hsame := DecisionStore.extends_refl store
  unfold openChannel
  dsimp only
  split
  · exact hsame
  · split
    · split_ifs <;> exact hsame
    · split
      · exact hsame
      · have hopen := driver.decideOpen_extends fails store o.auth.channelId
        split <;> (rename_i heq; rw [heq] at hopen; exact hopen)

end ChannelDriver

namespace Carriage

variable {ρ : Type} {env : Env ρ} {fails : StoreFaults} {s s' : Carriage ρ} {r : String}

/-- Is the reference consumed: decided, or in the set where there is no store? -/
def Consumed (s : Carriage ρ) (r : String) : Prop :=
  match s.decisions with
  | some store => fundKey r ∈ store.keys
  | none => r ∈ s.consumedFunding

/-- Nothing that was decided or consumed is forgotten. -/
structure Remembers (s s' : Carriage ρ) : Prop where
  decisions : Option.Rel DecisionStore.Extends s.decisions s'.decisions
  consumed : s.consumedFunding ⊆ s'.consumedFunding

namespace Remembers

theorem of_eq (hd : s'.decisions = s.decisions) (hc : s'.consumedFunding = s.consumedFunding) :
    s.Remembers s' := by
  refine ⟨?_, ?_⟩
  · rw [hd]
    exact DecisionStore.extends_refl _
  · rw [hc]

theorem refl (s : Carriage ρ) : s.Remembers s := .of_eq rfl rfl

theorem trans {a b c : Carriage ρ} (hab : a.Remembers b) (hbc : b.Remembers c) :
    a.Remembers c := by
  refine ⟨?_, hab.consumed.trans hbc.consumed⟩
  have hd := hab.decisions
  have hd' := hbc.decisions
  generalize a.decisions = x at hd ⊢
  generalize b.decisions = y at hd hd'
  cases hd with
  | none => exact hd'
  | some hxy =>
    generalize c.decisions = z at hd' ⊢
    cases hd' with
    | some hyz => exact .some (Finset.Subset.trans hxy hyz)

theorem consumes (h : s.Remembers s') (hr : s.Consumed r) : s'.Consumed r := by
  obtain ⟨hd, hc⟩ := h
  unfold Consumed at hr ⊢
  generalize s.decisions = x at hd hr
  generalize s'.decisions = y at hd ⊢
  cases hd with
  | none => exact hc hr
  | some hxy => exact hxy hr

end Remembers

/-! ## Consuming -/

theorem decideKey_remembers (s : Carriage ρ) (fails : StoreFaults) (key value : Bytes) :
    s.Remembers (s.decideKey fails key value).2 := by
  unfold decideKey
  cases hs : s.decisions with
  | none => exact .refl s
  | some store =>
    refine ⟨?_, Finset.Subset.refl _⟩
    rw [hs]
    exact .some (store.decide_extends fails key value)

theorem consumeRef_remembers (s : Carriage ρ) (fails : StoreFaults) (r : String) :
    s.Remembers (s.consumeRef fails r).2 := by
  unfold consumeRef
  cases hs : s.decisions with
  | none =>
    dsimp only
    split_ifs
    · exact .refl s
    · exact ⟨by rw [hs]; exact .none, Finset.subset_insert _ _⟩
  | some store =>
    have hext := store.decide_extends fails (fundKey r) []
    dsimp only
    split <;> (rename_i heq; rw [heq] at hext)
    · exact ⟨by rw [hs]; exact .some hext, Finset.subset_insert _ _⟩
    · exact ⟨by rw [hs]; exact .some hext, Finset.subset_insert _ _⟩
    · exact .refl s

/-- What is consumed first was not consumed, and is from then on. -/
theorem consumeRef_first (h : (s.consumeRef fails r).1 = .first) :
    ¬s.Consumed r ∧ (s.consumeRef fails r).2.Consumed r := by
  unfold consumeRef at h ⊢
  unfold Consumed
  cases hs : s.decisions with
  | none =>
    rw [hs] at h
    dsimp only at h ⊢
    split_ifs at h ⊢ with hmem
    exact ⟨hmem, Finset.mem_insert_self _ _⟩
  | some store =>
    rw [hs] at h
    dsimp only at h ⊢
    have hfresh (h : (store.decide fails (fundKey r) []).1 = .fresh) :
        fundKey r ∉ store.keys ∧ fundKey r ∈ (store.decide fails (fundKey r) []).2.keys :=
      DecisionStore.decide_fresh h
    split at h <;> (rename_i heq; rw [heq] at hfresh)
    · exact hfresh rfl
    · cases h
    · cases h

theorem consumeRefs_remembers (fails : StoreFaults) : ∀ (s : Carriage ρ) (rs : List String),
    s.Remembers (s.consumeRefs fails rs).2
  | s, [] => .refl s
  | s, r :: rs => by
    have hr := s.consumeRef_remembers fails r
    unfold consumeRefs
    split
    case h_1 s₁ heq =>
      rw [heq] at hr
      exact hr.trans (consumeRefs_remembers fails s₁ rs)
    case h_2 outcome s₁ hne heq =>
      rw [heq] at hr
      exact hr

/-- References that are all consumed first are distinct and were not consumed. -/
theorem consumeRefs_first : ∀ (s : Carriage ρ) (rs : List String),
    (s.consumeRefs fails rs).1 = .first →
      rs.Nodup ∧ ∀ r ∈ rs, ¬s.Consumed r ∧ (s.consumeRefs fails rs).2.Consumed r
  | _, [], _ => ⟨List.nodup_nil, fun _ hr => absurd hr List.not_mem_nil⟩
  | s, r :: rs, h => by
    have hfirst (h : (s.consumeRef fails r).1 = .first) := consumeRef_first h
    have hkeep := s.consumeRef_remembers fails r
    unfold consumeRefs at h ⊢
    split at h
    case h_1 s₁ heq =>
      rw [heq] at hfirst hkeep
      obtain ⟨hnew, hconsumed⟩ := hfirst rfl
      obtain ⟨hnodup, hrest⟩ := consumeRefs_first s₁ rs h
      refine ⟨List.nodup_cons.2 ⟨fun hmem => (hrest r hmem).1 hconsumed, hnodup⟩, ?_⟩
      intro r' hr'
      rcases List.mem_cons.1 hr' with rfl | hmem
      · exact ⟨hnew, (consumeRefs_remembers fails s₁ rs).consumes hconsumed⟩
      · exact ⟨fun hc => (hrest r' hmem).1 (hkeep.consumes hc), (hrest r' hmem).2⟩
    case h_2 outcome s₁ hne heq => exact absurd h hne

/-! ## No handler forgets -/

theorem commitPredecessor_remembers (s : Carriage ρ) (fails : StoreFaults)
    (predecessor : Option (ByteArr 8 × ByteArr 32)) (successor : ByteArr 8) :
    s.Remembers (s.commitPredecessor fails predecessor successor) := by
  unfold commitPredecessor
  split
  · exact (decideKey_remembers s fails _ _).trans (.of_eq rfl rfl)
  · exact .refl s

theorem screenOpen_remembers {auth : ChannelAuth} (h : s.screenOpen env auth = .ok s') :
    s.Remembers s' := by
  obtain ⟨⟨snaps, rfl, -⟩, -⟩ := screenOpen_cases h
  exact .of_eq rfl rfl

theorem onOpen_remembers (s : Carriage ρ) (o : ChannelOpen) (now : ℕ) :
    s.Remembers (s.onOpen env fails o now).2 := by
  unfold onOpen
  split
  · exact .refl s
  · rename_i s₁ hscreen
    have hs₁ := screenOpen_remembers hscreen
    have hext := s₁.driver.openChannel_extends env.suite fails s₁.decisions o now
    dsimp only
    generalize s₁.driver.openChannel env.suite fails s₁.decisions o now = outcome at hext ⊢
    obtain ⟨outcome, driver, decisions⟩ := outcome
    have hopen : s.Remembers { s₁ with driver, decisions } :=
      hs₁.trans ⟨hext, Finset.Subset.refl _⟩
    split
    · exact hopen
    · split_ifs <;> exact hopen
    · rename_i est _
      have hinstalled : s.Remembers
          (({ s₁ with driver, decisions } : Carriage ρ).install est o.auth.predecessor) :=
        hopen.trans (.of_eq rfl rfl)
      split_ifs
      · exact hopen
      · exact hinstalled.trans (commitPredecessor_remembers ..)

theorem onFunding_remembers (s : Carriage ρ) (fp : FundingProof) :
    s.Remembers (s.onFunding env fails fp).2 := by
  unfold onFunding
  split
  · exact .refl s
  · rename_i c _
    have hkeep := s.consumeRef_remembers fails c.canonicalRef
    split <;> (rename_i heq; rw [heq] at hkeep)
    · exact hkeep
    · exact hkeep
    · exact hkeep.trans (.of_eq rfl rfl)

theorem onSettlementProof_remembers (s : Carriage ρ) (proof : SettlementProof) :
    s.Remembers (s.onSettlementProof env fails proof).2 := by
  unfold onSettlementProof
  split
  · exact .refl s
  · exact .refl s
  · exact .of_eq rfl rfl
  · rename_i fold _
    have hkeep := consumeRefs_remembers fails s (if fold.foldNet then fold.netRefs else [])
    split <;> (rename_i heq; rw [heq] at hkeep)
    · exact hkeep
    · exact hkeep
    · exact hkeep.trans (.of_eq rfl rfl)

theorem Redrawn.remembers (h : s.Redrawn s') : s.Remembers s' := by
  obtain ⟨rounds, ledger, rfl⟩ := h
  exact .of_eq rfl rfl

theorem releaseRefund_remembers (s : Carriage ρ) (env : Env ρ) (fails : StoreFaults)
    (close : Close) :
    s.Remembers (s.releaseRefund env fails close) := by
  unfold releaseRefund
  split
  · have hreserve : ∀ rail : Option ρ, s.Remembers
        { (s.decideKey fails (refundReserveKey close.channelId close.ckptRef) []).2 with rail } :=
      fun _ => (decideKey_remembers ..).trans (.of_eq rfl rfl)
    dsimp only
    split
    · exact (hreserve _).trans (decideKey_remembers ..)
    · exact hreserve _
  · exact .refl s

theorem reconcile_remembers (s : Carriage ρ) (env : Env ρ) (fails : StoreFaults)
    (close : Close) :
    s.Remembers (s.reconcile env fails close).2 := by
  unfold reconcile
  dsimp only
  have hdrain := (s.releaseRefund_remembers env fails close).trans
    (drainInterimRounds_redrawn _ env close.channelId).remembers
  generalize (s.releaseRefund env fails close).drainInterimRounds env close.channelId = s₁
    at hdrain ⊢
  generalize ChainState.reconciled (s₁.computePendingDraw close.channelId) = d
  have hkeep := s₁.decideKey_remembers fails (dispKey close.channelId) (encodeDisp d)
  split <;> (rename_i heq; rw [recordDisposition] at heq; rw [heq] at hkeep)
  · exact hdrain.trans hkeep
  · exact (hdrain.trans hkeep).trans (.of_eq rfl rfl)

theorem attemptPrepayCloseDraw_remembers (s : Carriage ρ) (cid : ByteArr 8) :
    s.Remembers (s.attemptPrepayCloseDraw env cid) := by
  unfold attemptPrepayCloseDraw
  split
  · dsimp only
    split <;> exact .of_eq rfl rfl
  · exact .refl s

theorem closePlain_remembers (s : Carriage ρ) (close : Close) :
    s.Remembers (s.closePlain env fails close).2 := by
  unfold closePlain
  split_ifs
  · have hrec := s.reconcile_remembers env fails close
    rcases heq : s.reconcile env fails close with ⟨_ | _, s₁⟩ <;> rw [heq] at hrec
    · exact hrec
    · exact hrec.trans (attemptPrepayCloseDraw_remembers s₁ _)
  · exact attemptPrepayCloseDraw_remembers s _

theorem finishClose_remembers (s : Carriage ρ) (cid : ByteArr 8) :
    s.Remembers (s.finishClose cid).2 := by
  unfold finishClose
  split
  · exact .refl s
  · exact .of_eq rfl rfl

theorem onClose_remembers (s : Carriage ρ) (close : Close) :
    s.Remembers (s.onClose env fails close).2 := by
  unfold onClose
  split
  · exact .refl s
  · rename_i decision _
    have hclose : s.Remembers (if s.chains close.channelId decision then
        s.closeChained close.channelId else s.closePlain env fails close).2 := by
      split_ifs
      · unfold closeChained
        dsimp only
        split_ifs <;> exact .of_eq rfl rfl
      · exact closePlain_remembers s close
    dsimp only
    generalize (if s.chains close.channelId decision then s.closeChained close.channelId
        else s.closePlain env fails close) = r at hclose ⊢
    obtain ⟨_ | _, s₁⟩ := r
    · exact hclose
    · exact hclose.trans (finishClose_remembers s₁ _)

/-- No step forgets a decided key or a consumed reference. -/
theorem step_remembers (s : Carriage ρ) (e : Event ρ) : s.Remembers (step env s e).1 := by
  obtain ⟨call, fails⟩ := e
  cases call with
  | channelOpen o now => exact onOpen_remembers s o now
  | checkpointRequest request =>
    show s.Remembers (s.onCheckpointRequest env request).2
    unfold onCheckpointRequest
    split
    · exact .refl s
    · dsimp only
      split_ifs
      · split <;> exact .of_eq rfl rfl
      · exact .refl s
      · exact .refl s
  | fundingProof fp => exact onFunding_remembers s fp
  | settlementPropose p => exact (onSettlementPropose_redrawn s p).remembers
  | settlementProof proof => exact onSettlementProof_remembers s proof
  | close close => exact onClose_remembers s close
  | batch cid slices =>
    show s.Remembers (s.batch env cid slices).2
    obtain heq | ⟨st, st', -, heq, -⟩ := s.batch_cases env cid slices <;> rw [heq]
    · exact .refl s
    · exact .of_eq rfl rfl
  | ackRequest req now => exact .refl s
  | prepayInterimDraw cid =>
    obtain ⟨rail, hdraw⟩ := s.runPrepayInterimDraw_redrawn env cid
    have hrail : s.Remembers { s with rail } := .of_eq rfl rfl
    exact hrail.trans hdraw.remembers
  | rail op => exact .of_eq rfl rfl

end Carriage

end Paytp
