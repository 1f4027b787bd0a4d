import Paytp.Proofs.SingleImport

/-!
# Refund or import

A close that finds a refund due releases it before it records the disposition. Where the record
is made, the channel is reconciled for good and no successor imports it; where the store fails to
make it, the refund is out and the channel is still open to everything.
-/

namespace Paytp

namespace Carriage

variable {ρ : Type} {env : Env ρ}

/-- A refund is due in a step that closes the channel plainly for the first time. -/
theorem refundOf_cases {s : Carriage ρ} {e : Event ρ} {close : Close} {refund : Refund}
    (h : s.refundOf env e = some (close, refund)) :
    ∃ decision, e.call = .close close ∧ s.screenClose env close = .ok decision ∧
      s.chains close.channelId decision = false ∧ s.firstClose close.channelId = true ∧
      s.refundDue close.channelId = some refund := by
  obtain ⟨call, fails⟩ := e
  cases call with
  | close c =>
    unfold refundOf at h
    dsimp only at h
    cases hs : s.screenClose env c with
    | error err =>
      rw [hs] at h
      cases h
    | ok decision =>
      rw [hs] at h
      dsimp only at h
      split_ifs at h with hc
      obtain ⟨r, hr, heq⟩ := Option.map_eq_some_iff.mp h
      cases heq
      rw [Bool.or_eq_true, not_or, Bool.not_eq_true, Bool.not_eq_true, Bool.not_eq_false'] at hc
      exact ⟨decision, rfl, hs, hc.1, hc.2, hr⟩
  | _ => cases h

/-- What a step that finds a refund due leads to. -/
theorem step_refund {s : Carriage ρ} {e : Event ρ} {close : Close} {refund : Refund}
    (h : s.refundOf env e = some (close, refund)) :
    (step env s e).1 = match s.reconcile env e.fails close with
      | (.error _, s₁) => s₁
      | (.ok _, s₁) =>
        ((s₁.attemptPrepayCloseDraw env close.channelId).finishClose close.channelId).2 := by
  obtain ⟨decision, hcall, hs, hchain, hfirst, -⟩ := refundOf_cases h
  obtain ⟨call, fails⟩ := e
  cases hcall
  show (s.onClose env fails close).2 = _
  unfold onClose
  rw [hs]
  dsimp only
  rw [hchain, if_neg Bool.false_ne_true]
  unfold closePlain
  rw [if_pos hfirst]
  rcases s.reconcile env fails close with ⟨_ | _, s₁⟩ <;> rfl

theorem releaseOf_cases {s : Carriage ρ} {e : Event ρ} {cid : ByteArr 8} {ref : String}
    (h : s.releaseOf env cid e = some ref) :
    ∃ close refund rail, s.refundOf env e = some (close, refund) ∧ s.rail = some rail ∧
      close.channelId = cid ∧ (submitRefund env close refund rail).1 = .ok ref := by
  unfold releaseOf at h
  split at h
  case h_1 close refund rail hr hrail =>
    split_ifs at h with hc
    refine ⟨close, refund, rail, hr, hrail, hc, ?_⟩
    cases hsub : (submitRefund env close refund rail).1 with
    | error err =>
      rw [hsub] at h
      cases h
    | ok r =>
      rw [hsub] at h
      cases h
      rfl
  case h_2 => cases h

/-- Does a close find a refund due whose disposition the store fails to record? -/
def losesDisposition (env : Env ρ) (s : Carriage ρ) (e : Event ρ) : Bool :=
  (s.refundOf env e).any fun r => e.fails (dispKey r.1.channelId)

/-- A channel whose refund is released is reconciled, unless the record of that is lost. -/
theorem stage_of_release {s : Carriage ρ} {e : Event ρ} {cid : ByteArr 8}
    (hkept : s.losesDisposition env e = false) (h : (s.releaseOf env cid e).isSome) :
    (step env s e).1.stage cid = .reconciled := by
  obtain ⟨ref, href⟩ := Option.isSome_iff_exists.mp h
  obtain ⟨close, refund, rail, hr, -, rfl, -⟩ := releaseOf_cases href
  rw [losesDisposition, hr, Option.any_some] at hkept
  obtain ⟨s₁, -, -, hfails⟩ | ⟨s₁, draw, -, heq⟩ := s.reconcile_cases env e.fails close
  · rw [hkept] at hfails
    cases hfails
  · rw [step_refund hr, heq]
    dsimp only
    generalize hs₂ : ({ s₁ with
      chainState := s₁.chainState.insert close.channelId (.reconciled draw) } : Carriage ρ) = s₂
    have hstage : s₂.stage close.channelId = .reconciled := by
      rw [← hs₂, stage_insert (s := s₁) rfl, if_pos rfl]
      rfl
    rw [stage_of_eq (finishClose_chainState ..)]
    have hf : s₂.Forward (s₂.attemptPrepayCloseDraw env close.channelId) :=
      attemptPrepayCloseDraw_forward s₂ _
    have hl := hf.leads close.channelId
    rw [hstage] at hl
    exact hl.of_reconciled

/-- Nothing is released for a channel that is committed. -/
theorem release_none_of_committed {s : Carriage ρ} {e : Event ρ} {cid : ByteArr 8}
    (h : s.stage cid = .committed) : s.releaseOf env cid e = none := by
  rw [Option.eq_none_iff_forall_ne_some]
  intro ref href
  obtain ⟨close, refund, rail, hr, -, rfl, -⟩ := releaseOf_cases href
  obtain ⟨-, -, -, -, hfirst, -⟩ := refundOf_cases hr
  obtain hs | hs := stage_of_firstClose hfirst <;> rw [h] at hs <;> cases hs

/-- No successor imports a channel that is reconciled. -/
theorem successor_none_of_reconciled {s : Carriage ρ} {e : Event ρ} {cid : ByteArr 8}
    (h : s.stage cid = .reconciled) : s.successorOf env cid e = none := by
  rw [Option.eq_none_iff_forall_ne_some]
  intro successor hsucc
  obtain ⟨auth, ckptRef, hest, hnamed, -⟩ := successorOf_cases hsucc
  obtain ⟨_, _, snaps, _, _, _, _, -, -, hscreen, -⟩ := establishes_cases hest
  obtain ⟨-, hopen⟩ := (screenOpen_cases hscreen).2 _ hnamed
  rw [stage] at h
  cases hc : s.chainState.lookup cid with
  | none => rw [hc] at h; cases h
  | some d =>
    cases d with
    | reconciled draw => exact hopen draw hc
    | _ => rw [hc] at h; cases h

/-- A step releases a refund or establishes a successor, not both. -/
theorem release_or_successor (s : Carriage ρ) (e : Event ρ) (cid : ByteArr 8) :
    s.releaseOf env cid e = none ∨ s.successorOf env cid e = none := by
  cases hr : s.releaseOf env cid e with
  | none => exact .inl rfl
  | some ref =>
    right
    obtain ⟨close, refund, rail, href, -⟩ := releaseOf_cases hr
    obtain ⟨-, hcall, -⟩ := refundOf_cases href
    rw [successorOf, establishes, hcall]
    rfl

/-- In every run whose store records the disposition of every channel that a refund is due on,
no channel is both refunded and imported. -/
theorem refund_or_import (env : Env ρ) (cid : ByteArr 8) (s : Carriage ρ) (es : List (Event ρ))
    (h : Along (step env) (fun s e => s.losesDisposition env e = false) s es) :
    marks (step env) (releaseOf env cid) s es = [] ∨
      marks (step env) (successorOf env cid) s es = [] :=
  marks_exclusive (P := fun s => s.stage cid = .reconciled)
    (Q := fun s => s.stage cid = .committed) (fun _ _ => stage_of_release)
    (fun _ _ _ => stage_of_successor) (fun s e _ => stage_reconciled_step s e)
    (fun s e _ => stage_committed_step s e) (fun _ _ _ => release_none_of_committed)
    (fun _ _ _ => successor_none_of_reconciled) (fun s e => release_or_successor s e cid) s es h

open Sample in
/-- A funded channel closes plainly while the store may fail on the key, then for chaining, and a
successor that names its position opens. -/
def refundThenChain (fails : StoreFaults) : List (Event VirtualRail) :=
  [sent (.channelOpen (openOn (terms (cid 1) none 1000)) 1000),
    sent (.rail (pay (terms (cid 1) none 1000) 500)),
    sent (.fundingProof (fundingOf (terms (cid 1) none 1000) "virt-ref:0" 500)),
    ⟨.close (closeOf (cid 1) (.replicate 32 0) false), fails⟩,
    sent (.close (closeOf (cid 1) (.replicate 32 0) true)),
    sent (.channelOpen (openOn (terms (cid 2) (some (cid 1, birthRef (cid 1) 500 1000)) 3000))
      3000)]

theorem refund_or_import_refunded :
    (marks (step Sample.env) (releaseOf Sample.env (Sample.cid 1)) Sample.start
        (refundThenChain fun _ => false) = [] ∨
      marks (step Sample.env) (successorOf Sample.env (Sample.cid 1)) Sample.start
        (refundThenChain fun _ => false) = []) ∧
    marks (step Sample.env) (releaseOf Sample.env (Sample.cid 1)) Sample.start
      (refundThenChain fun _ => false) = ["virt-ref:1"] :=
  ⟨refund_or_import _ _ _ _ (by decide +kernel), by decide +kernel⟩

/-- A refund whose disposition is not recorded is out, and the channel is imported after it. -/
theorem refund_and_import :
    Built Sample.env Sample.start ∧
      marks (step Sample.env) (releaseOf Sample.env (Sample.cid 1)) Sample.start
        (refundThenChain fun key => key == dispKey (Sample.cid 1)) = ["virt-ref:1"] ∧
      marks (step Sample.env) (successorOf Sample.env (Sample.cid 1)) Sample.start
        (refundThenChain fun key => key == dispKey (Sample.cid 1)) = [Sample.cid 2] :=
  ⟨Sample.start_built, by decide +kernel, by decide +kernel⟩

end Carriage

end Paytp
