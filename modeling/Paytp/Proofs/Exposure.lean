import Paytp.Lib.Run
import Paytp.Proofs.OwnMetering
import Paytp.Sample

/-!
# The exposure of a wallet

Whatever it is called with, a prepay wallet with a value threshold owes at most a round beyond
the round it waits for. That one is of at most a round too, and only a credit from the rail
clears it.
-/

namespace Paytp

namespace Wallet

namespace ChannelClient

variable {ρ : Type} (env : Env ρ) {c c' : ChannelClient} {e : Event ρ}

/-- The round that a notice resumes: all that the operative checkpoint owes. -/
structure Resumes (c : ChannelClient) (receipt : PrepayDrawCompleted) (op : Operative)
    (pv : PendingVerify) : Prop where
  operative : c.operative = some op
  carve : ∃ carve, c.carveAt op.cumTotal = some carve
  target : c.cumulativeTargetAt op.cumTotal = some pv.amount
  total : pv.cumTotal = op.cumTotal
  channelId : receipt.channelId = c.channelId
  ckptRef : pv.ckptRef = receipt.ckptRef
  amount : pv.amount = receipt.amount

/-- What a call does to the channel, its halt apart. -/
inductive Moves (c : ChannelClient) : Event ρ → ChannelClient → Prop
  | idle (e : Event ρ) : Moves c e c
  | mint (e : Event ρ) (nextSeq amt : ℕ) :
      (c.prepay = true → 0 < c.roundCarve →
        c.owedBeyondInFlight (satAddU128 c.cumStreamed amt) ≤ c.roundCarve) →
      Moves c e { c with nextSeq, cumStreamed := satAddU128 c.cumStreamed amt }
  | supersede (bilateral : Checkpoint) (now : ℕ) (op : Operative) : op.cumTotal ≤ c.cumStreamed →
      (∀ old ∈ c.operative, old.cumTotal ≤ op.cumTotal) →
      Moves c ⟨.recordOperative bilateral, now⟩ { c with operative := some op }
  | resume (receipt : PrepayDrawCompleted) (now : ℕ) (op : Operative) (pv : PendingVerify) :
      c.pendingVerify = none → Resumes c receipt op pv →
      Moves c ⟨.resumeOnPrepayDraw receipt, now⟩ { c with pendingVerify := some pv }
  | repoint (e : Event ρ) (pv : PendingVerify) (txRef : String) : c.pendingVerify = some pv →
      pv.defaulted = true → Moves c e { c with pendingVerify := some { pv with txRef } }
  | default (e : Event ρ) (pv : PendingVerify) : c.pendingVerify = some pv →
      Moves c e { c with pendingVerify := some { pv with defaulted := true } }
  | credit (rail : ρ) (settled now : ℕ) (pv : PendingVerify) (folded : ChannelClient) :
      c.pendingVerify = some pv → c.railFunded env rail pv = true →
      c.foldCredited pv.cumTotal = some folded →
      Moves c ⟨.verifyPendingDraw rail settled, now⟩
        { folded with pendingVerify := none, lastSettle := settled }

/-- A slice is minted where neither halt is met, within a round beyond what is in flight. -/
theorem nextSlice_ok {now amt : ℕ} {approved : Decision} {slice : Slice}
    (h : c.nextSlice env now approved amt = (.ok slice, c')) :
    (c.refreshHalt now).halted = false ∧
      (c.prepay = true → 0 < c.roundCarve →
        c.owedBeyondInFlight (satAddU128 c.cumStreamed amt) ≤ c.roundCarve) ∧
      c' = { c with halted := (c.refreshHalt now).halted, nextSeq := c.nextSeq + 1,
                    cumStreamed := satAddU128 c.cumStreamed amt } := by
  unfold nextSlice at h
  by_cases hhalt : (c.refreshHalt now).halted = true
  · rw [if_pos hhalt] at h
    cases h
  rw [if_neg hhalt] at h
  cases approved with
  | deny why => cases h
  | approve =>
    by_cases hvalue : ((c.refreshHalt now).prepay && decide ((c.refreshHalt now).roundCarve > 0) &&
        decide ((c.refreshHalt now).owedBeyondInFlight
          (satAddU128 (c.refreshHalt now).cumStreamed amt) > (c.refreshHalt now).roundCarve)) = true
    · simp only [if_pos hvalue] at h
      cases h
    simp only [if_neg hvalue] at h
    split at h
    · cases h
    split at h
    · cases h
    cases h
    refine ⟨by simpa using hhalt, fun hprepay hround => ?_, rfl⟩
    simp only [Bool.and_eq_true, decide_eq_true_eq, not_and, not_lt] at hvalue
    exact hvalue ⟨hprepay, hround⟩

/-- Where no slice is minted, only the halt is looked at again. -/
theorem nextSlice_error {now amt : ℕ} {approved : Decision} {err : ChannelClientError}
    (h : c.nextSlice env now approved amt = (.error err, c')) :
    ∃ halted, c' = { c with halted } := by
  unfold nextSlice at h
  dsimp only at h
  split at h
  · cases h
    exact ⟨_, rfl⟩
  cases approved with
  | deny why =>
    cases h
    exact ⟨_, rfl⟩
  | approve =>
    dsimp only at h
    split at h
    · cases h
      exact ⟨_, rfl⟩
    split at h
    · cases h
      exact ⟨_, rfl⟩
    split at h
    · cases h
      exact ⟨_, rfl⟩
    · cases h

theorem nextSlice_moves (c : ChannelClient) (e : Event ρ) (approved : Decision) (amt : ℕ) :
    ∃ moved halted, Moves env c e moved ∧
      (c.nextSlice env e.now approved amt).2 = { moved with halted } := by
  cases h : c.nextSlice env e.now approved amt with
  | mk r c' =>
    cases r with
    | ok slice =>
      obtain ⟨-, howed, rfl⟩ := nextSlice_ok env h
      exact ⟨_, _, .mint e _ amt howed, rfl⟩
    | error err =>
      obtain ⟨halted, rfl⟩ := nextSlice_error env h
      exact ⟨c, halted, .idle e, rfl⟩

theorem checkpointBasisOk_le {cp : Checkpoint} {cum : ℕ} (h : c.checkpointBasisOk cp = some cum) :
    cum ≤ c.cumStreamed := by
  unfold checkpointBasisOk at h
  simp only [Option.bind_eq_bind, Option.bind_eq_some_iff, Option.guard_eq_some',
    Option.pure_def, Option.some.injEq] at h
  obtain ⟨-, -, _, -, -, hle, -, -, -, -, rfl⟩ := h
  exact hle

theorem recordOperative_moves (c : ChannelClient) (bilateral : Checkpoint) (now : ℕ) :
    ∃ moved halted, Moves env c ⟨.recordOperative bilateral, now⟩ moved ∧
      (c.recordOperative env now bilateral).2 = { moved with halted } := by
  unfold recordOperative
  by_cases hboth : bilateral.verifyBilateral env.suite (c.custody.payerKey env.suite c.scope)
      c.merchantKey
  swap
  · rw [if_pos (by simpa using hboth)]
    exact ⟨c, c.halted, .idle _, rfl⟩
  rw [if_neg (by simpa using hboth)]
  cases hcum : c.checkpointBasisOk bilateral with
  | none => exact ⟨c, c.halted, .idle _, rfl⟩
  | some cum =>
    cases href : bilateral.reference env.suite with
    | none => exact ⟨c, c.halted, .idle _, rfl⟩
    | some ckptRef =>
      dsimp only
      split_ifs with hold
      · exact ⟨c, c.halted, .idle _, rfl⟩
      · refine ⟨_, _, .supersede bilateral now ⟨ckptRef, cum⟩ (checkpointBasisOk_le hcum) ?_, rfl⟩
        intro old hop
        simp only [superseded, Option.mem_def.1 hop, Option.any_some, Bool.or_eq_true,
          decide_eq_true_eq, not_or, not_lt] at hold
        exact hold.1

theorem resumedRound_eq_some {receipt : PrepayDrawCompleted} {amount : ℕ} {pv : PendingVerify}
    (hamount : u128OfNat receipt.amount = some amount)
    (h : c.resumedRound env receipt amount = some pv) : ∃ op, Resumes c receipt op pv := by
  unfold resumedRound at h
  simp only [Option.bind_eq_bind, Option.bind_eq_some_iff, Option.guard_eq_some',
    Option.pure_def, Option.some.injEq] at h
  obtain ⟨op, hop, -, ⟨hchannel, -, -⟩, _, htarget, -, rfl, carve, hcarve, -, -, -, -, rfl⟩ := h
  exact ⟨op, hop, ⟨carve, hcarve⟩, htarget, rfl, hchannel, rfl,
    (Carriage.u128OfNat_eq_some.1 hamount).2.symm⟩

theorem resumeOnPrepayDraw_moves (c : ChannelClient) (receipt : PrepayDrawCompleted) (now : ℕ) :
    ∃ moved halted, Moves env c ⟨.resumeOnPrepayDraw receipt, now⟩ moved ∧
      (c.resumeOnPrepayDraw env now receipt).2 = { moved with halted } := by
  unfold resumeOnPrepayDraw
  cases hamount : u128OfNat receipt.amount with
  | none => exact ⟨c, c.halted, .idle _, rfl⟩
  | some amount =>
    dsimp only
    by_cases hzero : amount = 0
    · rw [if_pos hzero]
      exact ⟨c, c.halted, .idle _, rfl⟩
    rw [if_neg hzero]
    cases hpending : c.pendingVerify with
    | none =>
      cases hround : c.resumedRound env receipt amount with
      | none => exact ⟨c, c.halted, .idle _, rfl⟩
      | some pv =>
        obtain ⟨op, hresumes⟩ := resumedRound_eq_some env hamount hround
        exact ⟨_, _, .resume receipt now op pv hpending hresumes, rfl⟩
    | some pv =>
      dsimp only
      split_ifs with _ _ hdefaulted
      · exact ⟨c, c.halted, .idle _, rfl⟩
      · exact ⟨c, c.halted, .idle _, rfl⟩
      · exact ⟨_, c.halted, .repoint _ pv receipt.txRef hpending hdefaulted, rfl⟩
      · exact ⟨c, c.halted, .idle _, rfl⟩

/-- A round is credited on a draw that the rail shows. -/
theorem tryCredit_eq_some {rail : ρ} {pv : PendingVerify}
    (h : c.tryCredit env rail pv = some c') :
    c.railFunded env rail pv = true ∧ c.foldCredited pv.cumTotal = some c' := by
  unfold tryCredit at h
  simp only [Option.bind_eq_bind, Option.bind_eq_some_iff, Option.guard_eq_some'] at h
  obtain ⟨-, -, -, hfunded, hfold⟩ := h
  exact ⟨hfunded, hfold⟩

theorem verifyPendingDraw_moves (c : ChannelClient) (rail : ρ) (settled now : ℕ) :
    ∃ moved halted, Moves env c ⟨.verifyPendingDraw rail settled, now⟩ moved ∧
      (c.verifyPendingDraw env rail settled now).2 = { moved with halted } := by
  unfold verifyPendingDraw
  cases hpending : c.pendingVerify with
  | none => exact ⟨c, c.halted, .idle _, rfl⟩
  | some pv =>
    dsimp only
    cases hcredit : c.tryCredit env rail pv with
    | none => exact ⟨_, _, .default _ pv hpending, rfl⟩
    | some folded =>
      obtain ⟨hfunded, hfold⟩ := tryCredit_eq_some env hcredit
      exact ⟨_, _, .credit rail settled now pv folded hpending hfunded hfold, rfl⟩

/-- Every call makes one of the moves. -/
theorem step_moves (c : ChannelClient) (e : Event ρ) :
    ∃ moved halted, Moves env c e moved ∧ (step env c e).1 = { moved with halted } := by
  obtain ⟨call, now⟩ := e
  cases call with
  | nextSlice approved amt =>
    exact nextSlice_moves env c ⟨.nextSlice approved amt, now⟩ approved amt
  | cosignCheckpoint cp => exact ⟨c, c.halted, .idle _, rfl⟩
  | requestCheckpoint cp => exact ⟨c, c.halted, .idle _, rfl⟩
  | recordOperative bilateral =>
    exact recordOperative_moves env c bilateral now
  | onOverdueMeed decision => exact ⟨c, _, .idle _, rfl⟩
  | resumeOnPrepayDraw receipt =>
    exact resumeOnPrepayDraw_moves env c receipt now
  | verifyPendingDraw rail settled => exact verifyPendingDraw_moves env c rail settled now

/-! ## What the calls keep -/

/-- What the opening fixed is as it was. -/
structure SameTerms (c c' : ChannelClient) : Prop where
  custody : c'.custody = c.custody
  channelId : c'.channelId = c.channelId
  merchantKey : c'.merchantKey = c.merchantKey
  scope : c'.scope = c.scope
  seedInstance : c'.seedInstance = c.seedInstance
  finMeed : c'.finMeed = c.finMeed
  prepay : c'.prepay = c.prepay
  thTime : c'.thTime = c.thTime
  rolesBp : c'.rolesBp = c.rolesBp
  roundCarve : c'.roundCarve = c.roundCarve

/-- Folding credits the roles, and nothing else changes. -/
theorem foldCredited_eq {cum : ℕ} (h : c.foldCredited cum = some c') :
    ∃ creditedR, c' = { c with creditedR } := by
  obtain ⟨d, -, rfl⟩ := Option.map_eq_some_iff.1 h
  exact ⟨_, rfl⟩

theorem SameTerms.refl (c : ChannelClient) : SameTerms c c :=
  ⟨rfl, rfl, rfl, rfl, rfl, rfl, rfl, rfl, rfl, rfl⟩

theorem SameTerms.trans {c₁ c₂ c₃ : ChannelClient} (h : SameTerms c₁ c₂) (h' : SameTerms c₂ c₃) :
    SameTerms c₁ c₃ where
  custody := h'.custody.trans h.custody
  channelId := h'.channelId.trans h.channelId
  merchantKey := h'.merchantKey.trans h.merchantKey
  scope := h'.scope.trans h.scope
  seedInstance := h'.seedInstance.trans h.seedInstance
  finMeed := h'.finMeed.trans h.finMeed
  prepay := h'.prepay.trans h.prepay
  thTime := h'.thTime.trans h.thTime
  rolesBp := h'.rolesBp.trans h.rolesBp
  roundCarve := h'.roundCarve.trans h.roundCarve

theorem Moves.sameTerms (h : Moves env c e c') : SameTerms c c' := by
  cases h with
  | credit rail settled now pv folded _ _ hfold =>
    obtain ⟨_, rfl⟩ := foldCredited_eq hfold
    exact ⟨rfl, rfl, rfl, rfl, rfl, rfl, rfl, rfl, rfl, rfl⟩
  | _ => exact ⟨rfl, rfl, rfl, rfl, rfl, rfl, rfl, rfl, rfl, rfl⟩

theorem step_sameTerms (c : ChannelClient) (e : Event ρ) : SameTerms c (step env c e).1 := by
  obtain ⟨moved, halted, hmoves, heq⟩ := step_moves env c e
  rw [heq]
  exact (hmoves.sameTerms).trans ⟨rfl, rfl, rfl, rfl, rfl, rfl, rfl, rfl, rfl, rfl⟩

theorem exec_sameTerms (c : ChannelClient) (es : List (Event ρ)) :
    SameTerms c (exec (step env) c es) :=
  exec_related (P := fun _ => True) .refl (fun _ _ _ => .trans) (fun _ _ _ => trivial)
    (fun c e _ => step_sameTerms env c e) c es trivial

/-- The carve of the round that waits, defaulted or not. -/
def pendingCarve (c : ChannelClient) : ℕ :=
  (c.pendingVerify.bind fun pv => c.carveAt pv.cumTotal).getD 0

theorem pendingCarve_of_none (h : c.pendingVerify = none) : c.pendingCarve = 0 := by
  rw [pendingCarve, h]
  rfl

theorem inFlightAmount_le : c.inFlightAmount ≤ c.pendingCarve := by
  unfold inFlightAmount pendingCarve
  cases c.pendingVerify with
  | none => exact le_refl _
  | some pv =>
    cases h : pv.defaulted <;> simp [Option.filter, h]

/-- The wallet owes at most a round beyond the one it waits for, which is of at most a round. -/
structure Bounded (c : ChannelClient) : Prop where
  prepay : c.prepay = true
  roles : c.rolesBp.length ≤ Fee.MAX_ROLES
  round : 0 < c.roundCarve
  room : c.roundCarve < U128_MAX
  streamed : c.cumStreamed ≤ U128_MAX
  operative : ∀ op, c.operative = some op → op.cumTotal ≤ c.cumStreamed
  pending : ∀ pv, c.pendingVerify = some pv → pv.cumTotal ≤ c.cumStreamed ∧
    ∃ carve, c.carveAt pv.cumTotal = some carve ∧ carve ≤ c.roundCarve
  carve : ∃ carve, c.carveAt c.cumStreamed = some carve ∧ carve ≤ c.pendingCarve + c.roundCarve

theorem Bounded.pendingCarve_le (h : Bounded c) : c.pendingCarve ≤ c.roundCarve := by
  unfold pendingCarve
  cases hpending : c.pendingVerify with
  | none => exact Nat.zero_le _
  | some pv =>
    obtain ⟨-, carve, hcarve, hle⟩ := h.pending pv hpending
    rw [Option.bind_some, hcarve]
    exact hle

theorem Bounded.halted (h : Bounded c) (halted : Bool) : Bounded { c with halted } :=
  ⟨h.prepay, h.roles, h.round, h.room, h.streamed, h.operative, h.pending, h.carve⟩

/-- What is owed beyond what is in flight is in range only where the carve is computed. -/
theorem carveAt_of_owed {cum : ℕ} (hroom : c.roundCarve < U128_MAX)
    (h : c.owedBeyondInFlight cum ≤ c.roundCarve) :
    ∃ carve, c.carveAt cum = some carve ∧ carve ≤ c.inFlightAmount + c.roundCarve := by
  unfold owedBeyondInFlight at h
  cases hcarve : c.carveAt cum with
  | none =>
    rw [hcarve] at h
    dsimp only at h
    omega
  | some carve =>
    rw [hcarve] at h
    dsimp only at h
    exact ⟨carve, rfl, by omega⟩

theorem Bounded.moves (h : Bounded c) (hmoves : Moves env c e c') : Bounded c' := by
  cases hmoves with
  | idle => exact h
  | mint _ nextSeq amt howed =>
    obtain ⟨carve, hcarve, hle⟩ := carveAt_of_owed h.room (howed h.prepay h.round)
    have hgrows : c.cumStreamed ≤ satAddU128 c.cumStreamed amt := by
      have hstreamed := h.streamed
      unfold satAddU128
      omega
    refine ⟨h.prepay, h.roles, h.round, h.room, ?_, fun op hop => (h.operative op hop).trans hgrows,
      fun pv hpv => ⟨(h.pending pv hpv).1.trans hgrows, (h.pending pv hpv).2⟩, carve, hcarve, ?_⟩
    · exact Nat.min_le_left _ _
    · exact hle.trans (Nat.add_le_add_right inFlightAmount_le _)
  | supersede _ _ op hle =>
    refine ⟨h.prepay, h.roles, h.round, h.room, h.streamed, ?_, h.pending, h.carve⟩
    rintro _ ⟨⟩
    exact hle
  | resume receipt now op pv hpending hresumes =>
    obtain ⟨hop, ⟨carve, hcarve⟩, -, hcum⟩ := hresumes
    obtain ⟨owed, howed, hle⟩ := h.carve
    have hnone := pendingCarve_of_none hpending
    have hpart : carve ≤ owed := carveAt_mono h.roles (h.operative op hop) hcarve howed
    have hround : carve ≤ c.roundCarve := by omega
    refine ⟨h.prepay, h.roles, h.round, h.room, h.streamed, h.operative, ?_, owed, howed, ?_⟩
    · rintro _ ⟨⟩
      rw [hcum]
      exact ⟨h.operative op hop, carve, hcarve, hround⟩
    · exact (hle.trans_eq (by rw [hnone, Nat.zero_add])).trans (Nat.le_add_left _ _)
  | repoint _ pv txRef hpending _ =>
    obtain ⟨owed, howed, hle⟩ := h.carve
    refine ⟨h.prepay, h.roles, h.round, h.room, h.streamed, h.operative, ?_, owed, howed, ?_⟩
    · rintro _ ⟨⟩
      exact h.pending pv hpending
    · rw [pendingCarve, hpending] at hle
      exact hle
  | default _ pv hpending =>
    obtain ⟨owed, howed, hle⟩ := h.carve
    refine ⟨h.prepay, h.roles, h.round, h.room, h.streamed, h.operative, ?_, owed, howed, ?_⟩
    · rintro _ ⟨⟩
      exact h.pending pv hpending
    · rw [pendingCarve, hpending] at hle
      exact hle
  | credit rail settled now pv folded hpending _ hfold =>
    obtain ⟨owed, howed, hle⟩ := h.carve
    obtain ⟨hcum, carve, hcarve, -⟩ := h.pending pv hpending
    have hrest := carveAt_foldCredited h.roles hcum hfold hcarve howed
    rw [pendingCarve, hpending, Option.bind_some, hcarve, Option.getD_some] at hle
    obtain ⟨_, rfl⟩ := foldCredited_eq hfold
    refine ⟨h.prepay, h.roles, h.round, h.room, h.streamed, h.operative, nofun, owed - carve,
      hrest, ?_⟩
    show owed - carve ≤ 0 + c.roundCarve
    omega

theorem Bounded.step (h : Bounded c) (e : Event ρ) : Bounded (step env c e).1 := by
  obtain ⟨moved, halted, hmoves, heq⟩ := step_moves env c e
  rw [heq]
  exact (h.moves env hmoves).halted halted

theorem Bounded.exec (h : Bounded c) (es : List (Event ρ)) :
    Bounded (Paytp.exec (ChannelClient.step env) c es) :=
  exec_invariant (fun _ e hb => hb.step env e) c es h

/-- A call keeps the round that waits, its reference apart, or credits it from the rail. -/
theorem step_pending {pv : PendingVerify} (hpending : c.pendingVerify = some pv) (e : Event ρ) :
    (∃ txRef defaulted, (pv.defaulted = true → defaulted = true) ∧
      (step env c e).1.pendingVerify = some { pv with txRef, defaulted }) ∨
    (∃ rail settled folded, e.call = .verifyPendingDraw rail settled ∧
      c.railFunded env rail pv = true ∧ c.foldCredited pv.cumTotal = some folded ∧
      (step env c e).1.creditedR = folded.creditedR ∧
      (step env c e).1.pendingVerify = none) := by
  obtain ⟨moved, halted, hmoves, heq⟩ := step_moves env c e
  rw [heq]
  cases hmoves with
  | idle => exact .inl ⟨pv.txRef, pv.defaulted, id, hpending⟩
  | mint => exact .inl ⟨pv.txRef, pv.defaulted, id, hpending⟩
  | supersede => exact .inl ⟨pv.txRef, pv.defaulted, id, hpending⟩
  | resume _ _ op pv' hnone =>
    rw [hpending] at hnone
    cases hnone
  | repoint _ pv' txRef hpv =>
    rw [hpending] at hpv
    cases hpv
    exact .inl ⟨txRef, pv.defaulted, id, rfl⟩
  | default _ pv' hpv =>
    rw [hpending] at hpv
    cases hpv
    exact .inl ⟨pv.txRef, true, fun _ => rfl, rfl⟩
  | credit rail settled now pv' folded hpv hfunded hfold =>
    rw [hpending] at hpv
    cases hpv
    exact .inr ⟨rail, settled, folded, rfl, hfunded, hfold, rfl, rfl⟩

/-! ## The time since the last credit -/

/-- The time of the credit a call makes. -/
def creditedAt (c : ChannelClient) (e : Event ρ) : Option ℕ :=
  match e.call, (step env c e).2 with
  | .verifyPendingDraw _ settled, .verified true => some settled
  | _, _ => none

/-- Only a verification dates a credit. -/
theorem step_lastSettle_of_ne (c : ChannelClient)
    (hne : ∀ rail settled, e.call ≠ .verifyPendingDraw rail settled) :
    (step env c e).1.lastSettle = c.lastSettle := by
  obtain ⟨moved, halted, hmoves, heq⟩ := step_moves env c e
  rw [heq]
  cases hmoves with
  | credit rail settled now pv folded => exact absurd rfl (hne rail settled)
  | _ => rfl

theorem step_lastSettle (c : ChannelClient) (e : Event ρ) :
    (step env c e).1.lastSettle = (creditedAt env c e).getD c.lastSettle := by
  obtain ⟨call, now⟩ := e
  cases call with
  | verifyPendingDraw rail settled =>
    unfold creditedAt step verifyPendingDraw
    cases c.pendingVerify with
    | none => rfl
    | some pv =>
      dsimp only
      cases c.tryCredit env rail pv with
      | none => rfl
      | some folded => rfl
  | _ => exact step_lastSettle_of_ne env c nofun

/-- The wallet counts the time from its last credit, or from the opening. -/
theorem exec_lastSettle (c : ChannelClient) (es : List (Event ρ)) :
    (exec (step env) c es).lastSettle =
      (marks (step env) (creditedAt env) c es).getLast?.getD c.lastSettle :=
  exec_last_mark (fun c e => step_lastSettle env c e) c es

/-- No slice is minted once the time is up while something is to be settled. -/
theorem nextSlice_ok_time {now amt : ℕ} {approved : Decision} {slice : Slice}
    (h : c.nextSlice env now approved amt = (.ok slice, c')) (hprepay : c.prepay = true)
    (htime : 0 < c.thTime) (hdue : c.thTime ≤ now - c.lastSettle) :
    c.carveAt c.cumStreamed = some 0 := by
  obtain ⟨hhalt, -, -⟩ := nextSlice_ok env h
  simp only [refreshHalt, hprepay, Bool.true_and, Bool.or_eq_false_iff, timeHalt,
    decide_eq_true htime, decide_eq_true hdue, settleableValuePresent] at hhalt
  simpa using hhalt.2

/-- A minted slice leaves at most a round owed beyond what is in flight. -/
theorem Bounded.nextSlice_ok (hb : Bounded c) {now amt : ℕ} {approved : Decision} {slice : Slice}
    (h : c.nextSlice env now approved amt = (.ok slice, c')) :
    ∃ carve, c'.carveAt c'.cumStreamed = some carve ∧
      carve ≤ c'.inFlightAmount + c.roundCarve := by
  obtain ⟨-, howed, rfl⟩ := ChannelClient.nextSlice_ok env h
  exact carveAt_of_owed hb.room (howed hb.prepay hb.round)

/-! ## From the opening -/

theorem roundCarveOf_room {thValue : ℕ} (hpos : 0 < thValue) (hle : thValue ≤ U128_MAX) :
    0 < roundCarveOf thValue SCHEMA_01_ROLES ∧
      roundCarveOf thValue SCHEMA_01_ROLES < U128_MAX := by
  have hsum : (SCHEMA_01_ROLES.map fun r => r.2.toNat).sum = 100 := rfl
  have hfits : thValue * 100 / Fee.BP_DENOM ≤ U128_MAX := by
    unfold Fee.BP_DENOM
    omega
  unfold roundCarveOf
  rw [if_neg (Nat.ne_of_gt hpos)]
  simp only [hsum, u128OfNat, if_pos hfits, Option.getD_some]
  unfold Fee.BP_DENOM U128_MAX at *
  omega

/-- Where nothing was streamed or credited, nothing is owed. -/
theorem Bounded.fresh {thValue : ℕ} (hpos : 0 < thValue) (hle : thValue ≤ U128_MAX)
    (hprepay : c.prepay = true) (hroles : c.rolesBp = SCHEMA_01_ROLES)
    (hround : c.roundCarve = roundCarveOf thValue SCHEMA_01_ROLES) (hcum : c.cumStreamed = 0)
    (hcredited : c.creditedR = List.replicate SCHEMA_01_ROLES.length 0)
    (hop : c.operative = none) (hpending : c.pendingVerify = none) : Bounded c := by
  obtain ⟨hpositive, hroom⟩ := roundCarveOf_room hpos hle
  have hlen : c.rolesBp.length ≤ Fee.MAX_ROLES := by
    rw [hroles]
    decide
  refine ⟨hprepay, hlen, hround ▸ hpositive, hround ▸ hroom, hcum ▸ Nat.zero_le _, ?_, ?_, 0, ?_,
    Nat.zero_le _⟩
  · rw [hop]
    nofun
  · rw [hpending]
    nofun
  · refine (carveAt_eq_some hlen).2 ?_
    rw [hroles, hcredited, hcum]
    refine ⟨?_, rfl⟩
    unfold Settles
    decide

/-- A prepay wallet with a value threshold owes nothing when it opens. -/
theorem openInner_bounded {trust : PayerChannelTrust} {opened : ℕ} {approved : Decision}
    {params : ChannelOpenParams} {s : ByteArr 32} {o : ChannelOpen}
    (h : openInner env trust opened approved params s = .ok (o, c))
    (hprepay : params.prepay = true) (hvalue : 0 < params.thValue) :
    Bounded c ∧ c.thTime = params.thTime ∧ c.lastSettle = opened := by
  unfold openInner at h
  cases approved with
  | deny why => cases h
  | approve =>
    simp only [bind_eq_ok, okOr_eq_ok, require_eq_ok, pure_eq_ok, Prod.mk.injEq] at h
    obtain ⟨scope, -, -, hgov, -, -, seed, -, signed, -, aad, -, sealed, -, -, rfl⟩ := h
    have hroles := ChannelAuth.validateVectorGoverned_roles hgov
    refine ⟨.fresh hvalue params.thValue_le hprepay hroles ?_ rfl ?_ rfl rfl, rfl, rfl⟩
    · exact congrArg (roundCarveOf params.thValue) hroles
    · exact congrArg (fun roles => List.replicate roles.length 0) hroles

/-- Whatever a prepay wallet with a value threshold is called with, it owes at most two rounds,
and at most one while it waits for none. A slice leaves it at most a round beyond what is in
flight, and is not minted once the time is up since the last credit while something is owed. The
one round it waits for stays until a draw that the rail shows is credited. -/
theorem exposure_bounded {trust : PayerChannelTrust} {opened : ℕ} {approved : Decision}
    {params : ChannelOpenParams} {s : ByteArr 32} {o : ChannelOpen} {c : ChannelClient}
    (hopen : openInner env trust opened approved params s = .ok (o, c))
    (hprepay : params.prepay = true) (hvalue : 0 < params.thValue) (es : List (Event ρ)) :
    let c' := exec (step env) c es
    let lastCredit := (marks (step env) (creditedAt env) c es).getLast?.getD opened
    (∃ carve, c'.carveAt c'.cumStreamed = some carve ∧ carve ≤ 2 * c.roundCarve ∧
      (c'.pendingVerify = none → carve ≤ c.roundCarve)) ∧
    (∀ now approved amt slice minted, c'.nextSlice env now approved amt = (.ok slice, minted) →
      (∃ carve, minted.carveAt minted.cumStreamed = some carve ∧
        carve ≤ minted.inFlightAmount + c.roundCarve) ∧
      (0 < params.thTime → params.thTime ≤ now - lastCredit →
        c'.carveAt c'.cumStreamed = some 0)) ∧
    ∀ pv, c'.pendingVerify = some pv → ∀ e,
      (∃ txRef defaulted, (pv.defaulted = true → defaulted = true) ∧
        (step env c' e).1.pendingVerify = some { pv with txRef, defaulted }) ∨
      (∃ rail settled folded, e.call = .verifyPendingDraw rail settled ∧
        c'.railFunded env rail pv = true ∧ c'.foldCredited pv.cumTotal = some folded ∧
        (step env c' e).1.creditedR = folded.creditedR ∧
        (step env c' e).1.pendingVerify = none) := by
  intro c' lastCredit
  obtain ⟨hbounded, htime, hsettle⟩ := openInner_bounded env hopen hprepay hvalue
  have hb : Bounded c' := hbounded.exec env es
  have hterms : SameTerms c c' := exec_sameTerms env c es
  have hlast : c'.lastSettle = lastCredit := by
    rw [exec_lastSettle, hsettle]
  refine ⟨?_, fun now approved amt slice minted hmint => ⟨?_, fun hpos hdue => ?_⟩,
    fun pv hpv e => step_pending env hpv e⟩
  · obtain ⟨carve, hcarve, hle⟩ := hb.carve
    rw [hterms.roundCarve] at hle
    have hpending := hb.pendingCarve_le
    rw [hterms.roundCarve] at hpending
    refine ⟨carve, hcarve, by omega, fun hnone => ?_⟩
    rwa [pendingCarve_of_none hnone, Nat.zero_add] at hle
  · rw [← hterms.roundCarve]
    exact hb.nextSlice_ok env hmint
  · rw [← htime, ← hterms.thTime] at hpos hdue
    rw [← hlast] at hdue
    exact nextSlice_ok_time env hmint hb.prepay hpos hdue

theorem exposure_bounded_wallet :
    let c' := exec (step Sample.walletEnv) Sample.wallet
      [⟨.nextSlice .approve 9999, 1100⟩, ⟨.nextSlice .approve 1, 1200⟩]
    c'.carveAt c'.cumStreamed = some 100 ∧ c'.halted = false ∧
      ∃ carve, c'.carveAt c'.cumStreamed = some carve ∧ carve ≤ 2 * Sample.wallet.roundCarve ∧
        (c'.pendingVerify = none → carve ≤ Sample.wallet.roundCarve) :=
  ⟨by decide +kernel, by decide +kernel,
    (exposure_bounded Sample.walletEnv Sample.wallet_opened rfl (by decide) _).1⟩

end ChannelClient

end Wallet

end Paytp
