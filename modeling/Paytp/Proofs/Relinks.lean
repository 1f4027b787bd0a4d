import Paytp.Lib.Links
import Paytp.Proofs.Booked
import Paytp.Proofs.Consumed

/-!
# Where links come from

A committed predecessor is linked to its successor, in memory and in the store. No handler makes
a link but the OPEN that establishes the successor.
-/

namespace Paytp

/-! ## Keys -/

theorem head_storeKey (ns : String) (b : UInt8) (bs : Bytes) (h : Bytes.ofString ns = b :: bs)
    (parts : List Bytes) : (storeKey ns parts).head? = some b := by
  rw [storeKey, h]
  rfl

theorem head_dispKey (cid : ByteArr 8) : (dispKey cid).head? = some 100 :=
  head_storeKey "disp:" 100 [105, 115, 112, 58] (by decide) _

/-- A key of another name space than the dispositions'. -/
theorem ne_dispKey {key : Bytes} {b : UInt8} (h : key.head? = some b) (hb : b ≠ 100)
    (cid : ByteArr 8) : key ≠ dispKey cid := by
  rintro rfl
  rw [head_dispKey, Option.some_inj] at h
  exact hb h.symm

theorem fundKey_ne (r : String) (cid : ByteArr 8) : fundKey r ≠ dispKey cid :=
  ne_dispKey (head_storeKey "fund:" 102 [117, 110, 100, 58] (by decide) _)
    (by decide) cid

theorem chopenKey_ne (cid cid' : ByteArr 8) : chopenKey cid ≠ dispKey cid' :=
  ne_dispKey (head_storeKey "chopen:" 99 [104, 111, 112, 101, 110, 58] (by decide) _)
    (by decide) cid'

theorem refundReserveKey_ne (cid : ByteArr 8) (ckptRef : ByteArr 32) (cid' : ByteArr 8) :
    refundReserveKey cid ckptRef ≠ dispKey cid' :=
  ne_dispKey (head_storeKey "rfnd:" 114 [102, 110, 100, 58] (by decide) _)
    (by decide) cid'

theorem refundRefKey_ne (cid : ByteArr 8) (ckptRef : ByteArr 32) (cid' : ByteArr 8) :
    refundRefKey cid ckptRef ≠ dispKey cid' :=
  ne_dispKey (head_storeKey "rref:" 114 [114, 101, 102, 58] (by decide) _)
    (by decide) cid'

theorem dispKey_inj {cid cid' : ByteArr 8} : dispKey cid = dispKey cid' ↔ cid = cid' := by
  simp only [dispKey, storeKey, List.flatten_cons, List.flatten_nil, List.append_nil,
    List.append_cancel_left_eq]
  exact ⟨fun h => Subtype.ext h, fun h => by rw [h]⟩

theorem decodeDisp_committed (successor : ByteArr 8) :
    decodeDisp (encodeDisp (.committed successor)) = some (.committed successor) := by
  rw [encodeDisp, decodeDisp, ByteArr.ofBytes?_toList]
  rfl

theorem decodeDisp_reconciled (draw : Option (ByteArr 32 × ℕ)) (successor : ByteArr 8) :
    decodeDisp (encodeDisp (.reconciled draw)) ≠ some (.committed successor) := by
  rcases draw with _ | ⟨ckpt, p⟩
  · exact nofun
  · rw [encodeDisp, decodeDisp]
    split_ifs
    · intro h
      obtain ⟨_, -, he⟩ := Option.map_eq_some_iff.1 h
      cases he
    · exact nofun

/-! ## Links -/

/-- The successor a disposition names. -/
def ChainState.successor? : ChainState → Option (ByteArr 8)
  | .committed successor => some successor
  | _ => none

namespace DecisionStore

/-- The successor recorded for a channel. -/
def link (store : DecisionStore) (cid : ByteArr 8) : Option (ByteArr 8) :=
  ((store.lookup (dispKey cid)).bind decodeDisp).bind ChainState.successor?

/-- No links are recorded but those that `R` allows. -/
def Relinks (R : ByteArr 8 → ByteArr 8 → Prop) (store store' : DecisionStore) : Prop :=
  ∀ a b, store'.link a = some b → store.link a = some b ∨ R a b

theorem decide_relinks {R : ByteArr 8 → ByteArr 8 → Prop} (fails : StoreFaults)
    (store : DecisionStore) (key value : Bytes)
    (h : ∀ a b, key = dispKey a → (decodeDisp value).bind ChainState.successor? = some b →
      R a b) :
    store.Relinks R (decide fails store key value).2 := by
  unfold decide
  split_ifs
  · exact fun _ _ => .inl
  · cases store.lookup key with
    | some v => exact fun _ _ => .inl
    | none =>
      intro a b hb
      rw [link, HashMap.lookup_insert_ite] at hb
      split_ifs at hb with hkey
      · exact .inr (h a b hkey.symm hb)
      · exact .inl hb

end DecisionStore

namespace Carriage

variable {ρ : Type} {env : Env ρ} {fails : StoreFaults} {s s' : Carriage ρ}
  {R : ByteArr 8 → ByteArr 8 → Prop}

/-- The successor a channel is committed to. -/
def link (s : Carriage ρ) (cid : ByteArr 8) : Option (ByteArr 8) :=
  (s.chainState.lookup cid).bind ChainState.successor?

/-- No links are R but those that `R` allows. -/
structure Relinks (R : ByteArr 8 → ByteArr 8 → Prop) (s s' : Carriage ρ) : Prop where
  memory : ∀ a b, s'.link a = some b → s.link a = some b ∨ R a b
  store : Option.Rel (DecisionStore.Relinks R) s.decisions s'.decisions

namespace Relinks

theorem of_eq (hc : s'.chainState = s.chainState) (hd : s'.decisions = s.decisions) :
    s.Relinks R s' := by
  refine ⟨fun a b h => ?_, ?_⟩
  · rw [link, hc] at h
    exact .inl h
  · rw [hd]
    cases s.decisions with
    | none => exact .none
    | some store => exact .some fun _ _ => .inl

theorem refl (s : Carriage ρ) : s.Relinks R s := .of_eq rfl rfl

theorem trans {a b c : Carriage ρ} (hab : a.Relinks R b) (hbc : b.Relinks R c) :
    a.Relinks R c := by
  refine ⟨fun x y h => ?_, ?_⟩
  · rcases hbc.memory x y h with h | h
    · exact hab.memory x y h
    · exact .inr h
  · have hd := hab.store
    have hd' := hbc.store
    generalize a.decisions = x at hd ⊢
    generalize b.decisions = y at hd hd'
    cases hd with
    | none => exact hd'
    | some hxy =>
      generalize c.decisions = z at hd' ⊢
      cases hd' with
      | some hyz =>
        refine .some fun p q h => ?_
        rcases hyz p q h with h | h
        · exact hxy p q h
        · exact .inr h

theorem mono {Q : ByteArr 8 → ByteArr 8 → Prop} (h : s.Relinks R s')
    (himp : ∀ a b, R a b → Q a b) : s.Relinks Q s' :=
  ⟨fun a b hl => (h.memory a b hl).imp_right (himp a b),
    by
      have hrel := h.store
      generalize s.decisions = x, s'.decisions = y at hrel
      cases hrel with
      | none => exact .none
      | some hrel => exact .some fun a b hl => (hrel a b hl).imp_right (himp a b)⟩

end Relinks

theorem decideKey_relinks (s : Carriage ρ) (fails : StoreFaults) {key value : Bytes}
    (h : ∀ a b, key = dispKey a → (decodeDisp value).bind ChainState.successor? = some b →
      R a b) :
    s.Relinks R (s.decideKey fails key value).2 := by
  refine ⟨fun a b hl => ?_, ?_⟩
  · rw [link, (decideKey_offRail s fails key value).chainState] at hl
    exact .inl hl
  · unfold decideKey
    cases hs : s.decisions with
    | none =>
      rw [hs]
      exact .none
    | some store => exact .some (store.decide_relinks fails key value h)

/-- A key of another name space records no link. -/
theorem decideKey_relinks_of_ne (s : Carriage ρ) (fails : StoreFaults) {key : Bytes}
    (value : Bytes) (h : ∀ cid, key ≠ dispKey cid) :
    s.Relinks R (s.decideKey fails key value).2 :=
  decideKey_relinks s fails fun a _ ha => absurd ha (h a)

theorem consumeRef_relinks (s : Carriage ρ) (fails : StoreFaults) (r : String) :
    s.Relinks R (s.consumeRef fails r).2 := by
  unfold consumeRef
  cases hs : s.decisions with
  | none =>
    dsimp only
    split_ifs <;> exact .of_eq rfl (by simp [hs])
  | some store =>
    have hrel := store.decide_relinks (R := R) fails (fundKey r) []
      fun a _ ha => absurd ha (fundKey_ne r a)
    dsimp only
    split <;> (rename_i heq; rw [heq] at hrel)
    · exact ⟨fun _ _ => .inl, by rw [hs]; exact .some hrel⟩
    · exact ⟨fun _ _ => .inl, by rw [hs]; exact .some hrel⟩
    · exact .of_eq rfl rfl

theorem consumeRefs_relinks (fails : StoreFaults) : ∀ (s : Carriage ρ) (rs : List String),
    s.Relinks R (s.consumeRefs fails rs).2
  | s, [] => .refl s
  | s, r :: rs => by
    have hr := s.consumeRef_relinks (R := R) fails r
    unfold consumeRefs
    split
    case h_1 s₁ heq =>
      rw [heq] at hr
      exact hr.trans (consumeRefs_relinks fails s₁ rs)
    case h_2 outcome s₁ hne heq =>
      rw [heq] at hr
      exact hr

/-! ## Closing -/

/-- Recording a disposition that names no successor makes no link. -/
theorem Relinks.insert {cid : ByteArr 8} {d : ChainState}
    (hc : s'.chainState = s.chainState.insert cid d) (hd : s'.decisions = s.decisions)
    (h : d.successor? = none) : s.Relinks R s' := by
  have hstore : s.Relinks R { s with decisions := s'.decisions } := .of_eq rfl hd
  refine ⟨fun a b hl => ?_, hstore.store⟩
  rw [link, hc, HashMap.lookup_insert_ite] at hl
  split_ifs at hl with ha
  · rw [Option.bind_some, h] at hl
    cases hl
  · exact .inl hl

theorem Redrawn.relinks (h : s.Redrawn s') : s.Relinks R s' := by
  obtain ⟨rounds, ledger, rfl⟩ := h
  exact .of_eq rfl rfl

theorem releaseRefund_relinks (s : Carriage ρ) (env : Env ρ) (fails : StoreFaults)
    (close : Close) : s.Relinks R (s.releaseRefund env fails close) := by
  unfold releaseRefund
  split
  · have hreserve : ∀ rail : Option ρ, s.Relinks R
        { (s.decideKey fails (refundReserveKey close.channelId close.ckptRef) []).2 with rail } :=
      fun _ => (decideKey_relinks_of_ne s fails [] (refundReserveKey_ne _ _)).trans (.of_eq rfl rfl)
    dsimp only
    split
    · exact (hreserve _).trans (decideKey_relinks_of_ne _ fails _ (refundRefKey_ne _ _))
    · exact hreserve _
  · exact .refl s

theorem reconcile_relinks (s : Carriage ρ) (env : Env ρ) (fails : StoreFaults)
    (close : Close) : s.Relinks R (s.reconcile env fails close).2 := by
  unfold reconcile
  dsimp only
  have hdrain := (s.releaseRefund_relinks (R := R) env fails close).trans
    (drainInterimRounds_redrawn _ env close.channelId).relinks
  generalize (s.releaseRefund env fails close).drainInterimRounds env close.channelId = s₁
    at hdrain ⊢
  have hplain : ∀ a b, dispKey close.channelId = dispKey a →
      (decodeDisp (encodeDisp (.reconciled (s₁.computePendingDraw close.channelId)))).bind
        ChainState.successor? = some b → R a b := by
    intro a b _ hb
    obtain ⟨d, hd, hsucc⟩ := Option.bind_eq_some_iff.1 hb
    cases d with
    | committed successor => exact absurd hd (decodeDisp_reconciled _ successor)
    | _ => cases hsucc
  have hkeep := s₁.decideKey_relinks fails hplain
  split <;> (rename_i heq; rw [recordDisposition] at heq; rw [heq] at hkeep)
  · exact hdrain.trans hkeep
  · exact (hdrain.trans hkeep).trans (.insert rfl rfl rfl)

theorem attemptPrepayCloseDraw_relinks (s : Carriage ρ) (cid : ByteArr 8) :
    s.Relinks R (s.attemptPrepayCloseDraw env cid) := by
  unfold attemptPrepayCloseDraw
  split
  · dsimp only
    split
    · exact .insert rfl rfl rfl
    · exact .insert rfl rfl rfl
    · exact .of_eq rfl rfl
  · exact .refl s

theorem closePlain_relinks (s : Carriage ρ) (close : Close) :
    s.Relinks R (s.closePlain env fails close).2 := by
  unfold closePlain
  split_ifs
  · have hrec := s.reconcile_relinks (R := R) env fails close
    rcases heq : s.reconcile env fails close with ⟨_ | _, s₁⟩ <;> rw [heq] at hrec
    · exact hrec
    · exact hrec.trans (attemptPrepayCloseDraw_relinks s₁ _)
  · exact attemptPrepayCloseDraw_relinks s _

theorem onClose_relinks (s : Carriage ρ) (close : Close) :
    s.Relinks R (s.onClose env fails close).2 := by
  unfold onClose
  split
  · exact .refl s
  · rename_i decision _
    have hclose : s.Relinks R (if s.chains close.channelId decision then
        s.closeChained close.channelId else s.closePlain env fails close).2 := by
      split_ifs
      · unfold closeChained
        dsimp only
        split_ifs
        · exact .refl s
        · exact .refl s
        · exact .insert rfl rfl rfl
        · exact .refl s
      · exact closePlain_relinks s close
    dsimp only
    generalize (if s.chains close.channelId decision then s.closeChained close.channelId
        else s.closePlain env fails close) = r at hclose ⊢
    obtain ⟨_ | _, s₁⟩ := r
    · exact hclose
    · refine hclose.trans ?_
      unfold finishClose
      dsimp only
      split
      · exact .refl s₁
      · exact .of_eq rfl rfl

/-! ## Opening -/

theorem openChannel_relinks (driver : ChannelDriver) (suite : Suite) (fails : StoreFaults)
    (store : Option DecisionStore) (o : ChannelOpen) (now : ℕ) :
    Option.Rel (DecisionStore.Relinks R) store
      (driver.openChannel suite fails store o now).2.2 := by
  have hsame : Option.Rel (DecisionStore.Relinks R) store store := by
    cases store with
    | none => exact .none
    | some store => exact .some fun _ _ => .inl
  unfold ChannelDriver.openChannel
  dsimp only
  split
  · exact hsame
  · split
    · split_ifs <;> exact hsame
    · split
      · exact hsame
      · have hopen : Option.Rel (DecisionStore.Relinks R) store
            (driver.decideOpen fails store o.auth.channelId).2 := by
          unfold ChannelDriver.decideOpen
          split
          · exact .some (DecisionStore.decide_relinks fails _ _ _
              fun a _ ha => absurd ha (chopenKey_ne _ a))
          · exact hsame
        split <;> (rename_i heq; rw [heq] at hopen; exact hopen)

/-- Committing a predecessor makes one link. -/
theorem commitPredecessor_relinks (s : Carriage ρ) (fails : StoreFaults)
    (predecessor : Option (ByteArr 8 × ByteArr 32)) (successor : ByteArr 8) :
    s.Relinks (fun a b => predecessor.map Prod.fst = some a ∧ b = successor)
      (s.commitPredecessor fails predecessor successor) := by
  cases predecessor with
  | none => exact .refl s
  | some pred =>
    have hdec : s.Relinks (fun a b => some pred.1 = some a ∧ b = successor)
        (s.decideKey fails (dispKey pred.1) (encodeDisp (.committed successor))).2 := by
      refine decideKey_relinks s fails fun a b ha hb => ?_
      rw [decodeDisp_committed, Option.bind_some] at hb
      exact ⟨congrArg some (dispKey_inj.1 ha), (Option.some_inj.1 hb).symm⟩
    refine hdec.trans ⟨fun a b hl => ?_, (Relinks.refl _).store⟩
    rw [link, show (s.commitPredecessor fails (some pred) successor).chainState =
      (s.decideKey fails (dispKey pred.1) (encodeDisp (.committed successor))).2.chainState.insert
        pred.1 (.committed successor) from rfl, HashMap.lookup_insert_ite] at hl
    split_ifs at hl with ha
    · exact .inr ⟨congrArg some ha.symm, (Option.some_inj.1 hl).symm⟩
    · exact .inl hl

/-- A step links a predecessor to the successor it establishes, and no other. -/
theorem onOpen_relinks (s : Carriage ρ) (o : ChannelOpen) (now : ℕ) :
    s.Relinks (fun a b => s.successorOf env a ⟨.channelOpen o now, fails⟩ = some b)
      (s.onOpen env fails o now).2 := by
  unfold onOpen
  cases hs : s.screenOpen env o.auth with
  | error e => exact .refl s
  | ok s₁ =>
    obtain ⟨⟨snaps, rfl, -⟩, -⟩ := screenOpen_cases hs
    have hrel := openChannel_relinks
      (R := fun a b => s.successorOf env a ⟨.channelOpen o now, fails⟩ = some b)
      (s.withSnapshots snaps).driver env.suite fails (s.withSnapshots snaps).decisions o now
    obtain ⟨r, store', heq, hne⟩ | ⟨authHash, openHash, acc, store', -, -, -, heq⟩ :=
      (s.withSnapshots snaps).driver.openChannel_cases env.suite fails
        (s.withSnapshots snaps).decisions o now <;>
      rw [heq] at hrel <;> dsimp only <;> rw [heq]
    · rcases r with e | est | ack
      · exact ⟨fun _ _ => .inl, hrel⟩
      · exact absurd rfl (hne est)
      · dsimp only
        split_ifs <;> exact ⟨fun _ _ => .inl, hrel⟩
    · dsimp only
      split_ifs
      · exact ⟨fun _ _ => .inl, hrel⟩
      · have hinstalled : s.Relinks
            (fun a b => s.successorOf env a ⟨.channelOpen o now, fails⟩ = some b)
            (({ s.withSnapshots snaps with
                driver := (s.withSnapshots snaps).driver.retain o.auth acc, decisions := store' } :
              Carriage ρ).install (ChannelDriver.established env.suite o.auth acc)
              o.auth.predecessor) := ⟨fun _ _ => .inl, hrel⟩
        refine hinstalled.trans ((commitPredecessor_relinks ..).mono ?_)
        rintro a b ⟨hpred, rfl⟩
        have hest : s.establishes env ⟨.channelOpen o now, fails⟩ = some o.auth := by
          unfold establishes
          dsimp only
          rw [hs]
          dsimp only
          rw [heq]
        rw [successorOf, hest, Option.bind_some, if_pos hpred]
        rfl

/-- A step links a predecessor to the successor it establishes, and no other. -/
theorem step_relinks (s : Carriage ρ) (e : Event ρ) :
    s.Relinks (fun a b => s.successorOf env a e = some b) (step env s e).1 := by
  obtain ⟨call, fails⟩ := e
  cases call with
  | channelOpen o now => exact onOpen_relinks s o now
  | checkpointRequest request =>
    have h : s.Unmoved (s.onCheckpointRequest env request).2 :=
      s.onCheckpointRequest_unmoved request
    refine .of_eq h.chainState ?_
    show (s.onCheckpointRequest env request).2.decisions = _
    unfold onCheckpointRequest
    split
    · rfl
    · dsimp only
      split_ifs
      · split <;> rfl
      · rfl
      · rfl
  | fundingProof fp =>
    show s.Relinks _ (s.onFunding env fails fp).2
    unfold onFunding
    split
    · exact .refl s
    · rename_i c _
      have hkeep := s.consumeRef_relinks
        (R := fun a b => s.successorOf env a ⟨.fundingProof fp, fails⟩ = some b) fails
        c.canonicalRef
      split <;> (rename_i heq; rw [heq] at hkeep)
      · exact hkeep
      · exact hkeep
      · exact hkeep.trans (.of_eq rfl rfl)
  | settlementPropose p => exact (onSettlementPropose_redrawn s p).relinks
  | settlementProof proof =>
    show s.Relinks _ (s.onSettlementProof env fails proof).2
    unfold onSettlementProof
    split
    · exact .refl s
    · exact .refl s
    · exact .of_eq rfl rfl
    · rename_i fold _
      have hkeep := consumeRefs_relinks
        (R := fun a b => s.successorOf env a ⟨.settlementProof proof, fails⟩ = some b) fails s
        (if fold.foldNet then fold.netRefs else [])
      split <;> (rename_i heq; rw [heq] at hkeep)
      · exact hkeep
      · exact hkeep
      · exact hkeep.trans (.of_eq rfl rfl)
  | close close => exact onClose_relinks s close
  | batch cid slices =>
    show s.Relinks _ (s.batch env cid slices).2
    obtain heq | ⟨st, st', -, heq, -⟩ := s.batch_cases env cid slices <;> rw [heq]
    · exact .refl s
    · exact .of_eq rfl rfl
  | ackRequest req now => exact .refl s
  | prepayInterimDraw cid =>
    obtain ⟨rail, hdraw⟩ := s.runPrepayInterimDraw_redrawn env cid
    have hrail : s.Relinks (fun a b => s.successorOf env a ⟨.prepayInterimDraw cid, fails⟩ = some b)
      { s with rail } := .of_eq rfl rfl
    exact hrail.trans hdraw.relinks
  | rail op => exact .of_eq rfl rfl

end Carriage

end Paytp
