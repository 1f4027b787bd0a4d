import Paytp.Proofs.Refunds
import Paytp.Proofs.Solvent
import Paytp.Proofs.SingleRefund
import Paytp.Proofs.Watermark

/-!
# Prepay solvency

A prepay channel never meters more than its chain was credited, so a close always finds what to
refund. What a close refunds and the target it pins come to no more than the credit, and so do all
the refunds and targets of a run whose store records the disposition of every refund.
-/

namespace Paytp

open Carriage

namespace Books

variable {crypto : Crypto} {b b' : Books}

/-- With the round in flight no more is settled than is evidenced. -/
theorem Sound.pending_le (h : b.Sound) {r : ByteArr 32 × RoundDecision} (hr : r ∈ b.rounds)
    (hconf : r.2.confirmed = false) (hfold : r.2.meedFolded = false) :
    sumOf b.ledger.settledR + sumOf r.2.eR ≤ sumOf b.evidence := by
  have hle := (h.pending r hr hconf hfold).le
  have hform := h.formed r hr
  have hroles : (SCHEMA_01_ROLES.map Prod.fst).Nodup := by decide
  rw [sumOf_eq h.distinct hroles h.settled_roles, sumOf_eq hform.distinct hroles hform.roles,
    sumOf_eq h.evidence_distinct hroles fun e he => h.roles ▸ List.mem_map_of_mem he]
  rw [← List.sum_map_add]
  exact List.sum_le_sum fun role _ => hle role

/-- A target stands on what was settled at the opening and under what is evidenced. -/
theorem Sound.targetP_le (h : b.Sound) {t : ℕ} (ht : b.targetP b.evidence = some t) :
    sumOf b.opening + t * 10000 ≤ sumOf b.evidence := by
  obtain ⟨heq, hpos⟩ := h.targetP_eq ht
  omega

/-- What the moves of a prepay channel only add to. -/
structure Grows (b b' : Books) : Prop where
  evidenceCum : b.evidenceCum ≤ b'.evidenceCum
  funding : b.ledger.fundingSum ≤ b'.ledger.fundingSum
  opening : b'.opening = b.opening
  settling : b.state.phase ≠ .open → b'.state.phase ≠ .open

theorem Grows.refl (b : Books) : b.Grows b := ⟨le_rfl, le_rfl, rfl, id⟩

theorem Grows.trans {b₁ b₂ b₃ : Books} (h₁ : b₁.Grows b₂) (h₂ : b₂.Grows b₃) : b₁.Grows b₃ where
  evidenceCum := h₁.evidenceCum.trans h₂.evidenceCum
  funding := h₁.funding.trans h₂.funding
  opening := h₂.opening.trans h₁.opening
  settling := fun hp => h₂.settling (h₁.settling hp)

theorem Solvent.grows (h : b.Solvent) (hs : b.Sound) {kind : Kind} (hm : Move crypto kind b b') :
    b.Grows b' := by
  cases hm with
  | meter taken =>
    refine ⟨le_rfl, le_rfl, rfl, fun hp => ?_⟩
    rw [taken.frame]
    exact hp
  | idle pausedWindow settles => exact ⟨le_rfl, le_rfl, rfl, settles⟩
  | @countersign _ proposed ckptRef recomputes =>
    refine ⟨?_, le_rfl, rfl, id⟩
    have hsplit := ChannelState.amounts_split b.state.window proposed.lastSeq
    have hunev := hs.wellFormed.unevidenced_eq
    have hmetered := h.metered
    have hcum := ChannelState.cumTotal_of_recomputes recomputes
    show b.evidenceCum ≤ proposed.cumTotal
    omega
  | fund => exact ⟨le_rfl, Nat.le_add_right _ _, rfl, id⟩
  | fold =>
    obtain ⟨balance, pausedWindow, hstate⟩ := foldLegs_state b _ _
    refine ⟨le_rfl, le_rfl, rfl, fun hp => ?_⟩
    rw [hstate]
    exact hp
  | lock | restate | draw | drop => exact ⟨le_rfl, le_rfl, rfl, id⟩

theorem Reachable.grows {kinds : List Kind} (hb : Reachable crypto b)
    (hmode : b.state.mode = .prepay) (hm : Moves crypto kinds b b') : b.Grows b' := by
  induction hm with
  | refl => exact .refl b
  | tail hms hm ih =>
    obtain ⟨kind, -, hm⟩ := hm
    have hreach := hb.moves crypto hms
    exact ih.trans ((hreach.solvent ((Moves.mode_eq hms).trans hmode)).grows hreach.sound hm)

end Books

namespace Carriage

variable {ρ : Type} {env : Env ρ} {fails : StoreFaults} {s s' : Carriage ρ} {cid : ByteArr 8}

/-- The amount of the refund of the channel that the rail releases in a step. -/
def refundPaid (env : Env ρ) (cid : ByteArr 8) (s : Carriage ρ) (e : Event ρ) : Option ℕ :=
  if (s.releaseOf env cid e).isSome then (s.refundOf env e).map fun r => r.2.amount else none

/-- The target that a step draws for on the channel, or pins at its first plain close. -/
def targetOf (env : Env ρ) (cid : ByteArr 8) (s : Carriage ρ) (e : Event ρ) : Option ℕ :=
  match e.call with
  | .prepayInterimDraw c =>
    if c = cid then
      match s.drawPlan env cid with
      | some (.draw target _) => some target.targetP
      | _ => none
    else none
  | .close close =>
    if close.channelId = cid then
      match s.screenClose env close with
      | .error _ => none
      | .ok decision =>
        if s.chains cid decision || !s.firstClose cid then none
        else
          (((s.releaseRefund env e.fails close).drainInterimRounds env cid).computePendingDraw
            cid).map Prod.snd
    else none
  | _ => none

/-- A close draw stands on the channel, its terms and its evidence alone. -/
theorem computePendingDraw_untouched (h : s.Untouched s') (cid : ByteArr 8) :
    s'.computePendingDraw cid = s.computePendingDraw cid := by
  unfold computePendingDraw cumulativeTargetP
  rw [h.channels, h.driver, h.operative, h.importedBasis]

/-- A target of a step is one that the evidence covers, of a channel that is open or closes. -/
theorem targetOf_le {b : Books} (hs : b.Sound) (hb : s.books cid = some b)
    (hmode : b.state.mode = .prepay) {e : Event ρ} {t : ℕ} (ht : s.targetOf env cid e = some t) :
    sumOf b.opening + t * 10000 ≤ sumOf b.evidence := by
  obtain ⟨st, hst, rfl⟩ := books_eq_some.1 hb
  obtain ⟨call, fails⟩ := e
  unfold targetOf at ht
  cases call with
  | prepayInterimDraw c =>
    dsimp only at ht
    split_ifs at ht
    split at ht
    · rename_i target lock hplan
      cases ht
      obtain ⟨st', hst', -, -, ⟨_, _, _, hr, -⟩ | ⟨target', d, hr, hd, hconf, heR, htarget⟩ |
        ⟨target', op, d, hr, hop, -, -, -, -, -, htarget⟩⟩ := drawPlan_ok hplan
      · cases hr
      · cases hr
        have hfold : d.meedFolded = false := by
          by_contra hne
          have hdone := ((hs.formed _ hd).drawn hmode).2.1 (Bool.eq_true_of_not_eq_false hne)
          rw [hconf] at hdone
          cases hdone
        have hle : _ + sumOf d.eR ≤ _ := hs.pending_le hd hconf hfold
        have hpinned : _ + sumOf d.eR = _ := (hs.pending _ hd hconf hfold).pinned _ htarget
        omega
      · cases hr
        rw [hst] at hst'
        cases hst'
        refine hs.targetP_le ?_
        have hev : (s.bookOf cid st).evidence = op.accruals := by
          unfold Books.evidence bookOf
          dsimp only
          rw [hop]
        rw [hev]
        exact htarget
    · cases ht
  | close close =>
    dsimp only at ht
    split_ifs at ht with hcid
    split at ht
    · cases ht
    · split_ifs at ht
      obtain ⟨⟨ref, t'⟩, hdraw, rfl⟩ := Option.map_eq_some_iff.mp ht
      have hkeep : s.Untouched ((s.releaseRefund env fails close).drainInterimRounds env cid) :=
        (releaseRefund_untouched s close).trans (drainInterimRounds_redrawn ..).offRail.toUntouched
      rw [computePendingDraw_untouched hkeep] at hdraw
      exact hs.targetP_le (s.computePendingDraw_target st hdraw)
  | _ => cases ht

/-- A refund that is due and what is evidenced come to no more than the credit. -/
theorem refundOf_le {b : Books} (h : b.Solvent) (hb : s.books cid = some b) {e : Event ρ}
    {close : Close} {refund : Refund} (hr : s.refundOf env e = some (close, refund))
    (hcid : close.channelId = cid) : refund.amount + b.evidenceCum ≤ b.ledger.fundingSum := by
  subst hcid
  obtain ⟨st, hst, rfl⟩ := books_eq_some.1 hb
  obtain ⟨-, -, -, -, -, hdue⟩ := refundOf_cases hr
  have hev := h.evidenceCum_le
  have hbasis := basisCum_eq st (hev.trans h.funding_le)
  unfold refundDue at hdue
  simp only [Option.bind_eq_bind, Option.bind_eq_some_iff, toOption_eq_some,
    Option.guard_eq_some'] at hdue
  obtain ⟨-, -, led, hled, terms, -, refundPtr, -, amount, hamount, -, -, hrefund⟩ := hdue
  cases hrefund
  have hledger : (s.bookOf close.channelId st).ledger = led := by
    unfold bookOf
    dsimp only
    rw [hled, Option.getD_some]
  rw [hbasis, ← hledger, h.deposit] at hamount
  cases hamount
  have hfits : (u128OfNat ((s.bookOf close.channelId st).ledger.fundingSum -
      (s.bookOf close.channelId st).evidenceCum)).getD 0 ≤
      (s.bookOf close.channelId st).ledger.fundingSum -
      (s.bookOf close.channelId st).evidenceCum := by
    unfold u128OfNat
    split_ifs
    · exact le_rfl
    · exact Nat.zero_le _
  dsimp only
  omega

theorem refundPaid_cases {e : Event ρ} {amount : ℕ} (h : s.refundPaid env cid e = some amount) :
    ∃ close refund, s.refundOf env e = some (close, refund) ∧ close.channelId = cid ∧
      refund.amount = amount ∧ (s.releaseOf env cid e).isSome := by
  unfold refundPaid at h
  split_ifs at h with hrel
  obtain ⟨⟨close, refund⟩, hr, rfl⟩ := Option.map_eq_some_iff.mp h
  obtain ⟨ref, href⟩ := Option.isSome_iff_exists.mp hrel
  obtain ⟨close', refund', rail, hr', -, hcid, -⟩ := releaseOf_cases href
  rw [hr] at hr'
  cases hr'
  exact ⟨close, refund, hr, hcid, rfl, hrel⟩

/-- A channel that closed is not open. -/
theorem finishClose_phase {b : Books} (h : (s.finishClose cid).2.books cid = some b) :
    b.state.phase ≠ .open := by
  unfold finishClose at h
  cases hst : s.channels.lookup cid with
  | none => simp only [hst, Carriage.books, Option.map_none, reduceCtorEq] at h
  | some st =>
    simp only [hst, Carriage.books, Finmap.lookup_insert, Option.map_some,
      Option.some.injEq] at h
    subst h
    exact beginSettling_phase st

/-- A release whose disposition is recorded leaves its channel settling. -/
theorem phase_of_release {e : Event ρ} (hkept : s.losesDisposition env e = false)
    (h : (s.releaseOf env cid e).isSome) {b : Books}
    (hb : (step env s e).1.books cid = some b) : b.state.phase ≠ .open := by
  obtain ⟨ref, href⟩ := Option.isSome_iff_exists.mp h
  obtain ⟨close, refund, rail, hr, -, rfl, -⟩ := releaseOf_cases href
  rw [losesDisposition, hr, Option.any_some] at hkept
  obtain ⟨s₁, -, -, hfails⟩ | ⟨s₁, draw, -, heq⟩ := s.reconcile_cases env e.fails close
  · rw [hkept] at hfails
    cases hfails
  · rw [step_refund hr, heq] at hb
    exact finishClose_phase hb

/-- Nothing is refunded and no target is set on a channel that is not there. -/
theorem absent_marks (env : Env ρ) (h : s.books cid = none) (e : Event ρ) :
    s.refundPaid env cid e = none ∧ s.targetOf env cid e = none := by
  have hst : s.channels.lookup cid = none := Option.map_eq_none_iff.mp h
  constructor
  · rw [Option.eq_none_iff_forall_ne_some]
    intro amount ha
    obtain ⟨close, refund, hr, rfl, -⟩ := refundPaid_cases ha
    obtain ⟨-, -, -, -, -, hdue⟩ := refundOf_cases hr
    unfold refundDue at hdue
    rw [hst] at hdue
    cases hdue
  · rw [Option.eq_none_iff_forall_ne_some]
    intro t ht
    obtain ⟨call, fails⟩ := e
    unfold targetOf at ht
    cases call with
    | prepayInterimDraw c =>
      dsimp only at ht
      split_ifs at ht
      split at ht
      · rename_i hplan
        obtain ⟨st, hst', -⟩ := drawPlan_ok hplan
        rw [hst] at hst'
        cases hst'
      · cases ht
    | close close =>
      dsimp only at ht
      split_ifs at ht
      split at ht
      · cases ht
      · split_ifs at ht
        obtain ⟨draw, hdraw, -⟩ := Option.map_eq_some_iff.mp ht
        have hkeep : s.Untouched ((s.releaseRefund env fails close).drainInterimRounds env cid) :=
          (releaseRefund_untouched s close).trans
            (drainInterimRounds_redrawn ..).offRail.toUntouched
        rw [computePendingDraw_untouched hkeep] at hdraw
        unfold computePendingDraw at hdraw
        rw [hst] at hdraw
        cases hdraw
    | _ => cases ht

/-- Nothing more is refunded and no target is set on a channel that is reconciled and settles. -/
theorem settled_marks (env : Env ρ) (hstage : s.stage cid = .reconciled) {b : Books}
    (hb : s.books cid = some b) (hphase : b.state.phase ≠ .open) (e : Event ρ) :
    s.refundPaid env cid e = none ∧ s.targetOf env cid e = none := by
  have hfirst : ∀ {c}, c = cid → s.firstClose c ≠ true := by
    rintro _ rfl hf
    obtain hlive | hpending := stage_of_firstClose hf <;> rw [hstage] at *
    · cases hlive
    · cases hpending
  constructor
  · rw [Option.eq_none_iff_forall_ne_some]
    intro amount ha
    obtain ⟨close, refund, hr, hcid, -⟩ := refundPaid_cases ha
    obtain ⟨-, -, -, -, hf, -⟩ := refundOf_cases hr
    exact hfirst hcid hf
  · rw [Option.eq_none_iff_forall_ne_some]
    intro t ht
    obtain ⟨call, fails⟩ := e
    unfold targetOf at ht
    cases call with
    | prepayInterimDraw c =>
      dsimp only at ht
      split_ifs at ht
      split at ht
      · rename_i hplan
        obtain ⟨st, hst, -, hopen, -⟩ := drawPlan_ok hplan
        rw [books_of hst] at hb
        cases hb
        exact hphase hopen
      · cases ht
    | close close =>
      dsimp only at ht
      split_ifs at ht
      split at ht
      · cases ht
      · rename_i decision _
        have hskip : (s.chains cid decision || !s.firstClose cid) = true := by
          rw [Bool.eq_false_of_not_eq_true (hfirst rfl), Bool.not_false, Bool.or_true]
        rw [if_pos hskip] at ht
        cases ht
    | _ => cases ht

/-! ## Accounts -/

/-- What the refunds and the targets of a prepay channel came to so far: nothing was refunded, or
the channel is done with. -/
structure Accounted (env : Env ρ) (cid : ByteArr 8) (s : Carriage ρ) (refunds targets : List ℕ) :
    Prop where
  booked : s.Booked env.suite.toCrypto
  absent : s.books cid = none → refunds = [] ∧ targets = []
  within : ∀ b, s.books cid = some b → b.state.mode = .prepay →
    (refunds = [] ∧ ∀ t ∈ targets, sumOf b.opening / 10000 + t ≤ b.evidenceCum) ∨
    s.stage cid = .reconciled ∧ b.state.phase ≠ .open ∧ ∀ t ∈ 0 :: targets,
      refunds.sum + sumOf b.opening / 10000 + t ≤ b.ledger.fundingSum

theorem Accounted.step {e : Event ρ} {refunds targets : List ℕ}
    (hok : s.losesDisposition env e = false) (h : s.Accounted env cid refunds targets) :
    (step env s e).1.Accounted env cid (refunds ++ (s.refundPaid env cid e).toList)
      (targets ++ (s.targetOf env cid e).toList) := by
  obtain ⟨hbooked, hmoves⟩ := h.booked.step e
  cases hbooks : s.books cid with
  | none =>
    obtain ⟨hr, ht⟩ := absent_marks env hbooks e
    obtain ⟨rfl, rfl⟩ := h.absent hbooks
    rw [hr, ht]
    exact ⟨hbooked, fun _ => ⟨rfl, rfl⟩, fun b _ _ => .inl ⟨rfl, nofun⟩⟩
  | some b =>
    obtain ⟨b', hb', hm⟩ := hmoves cid b hbooks
    have hreach := h.booked.reachable cid b hbooks
    refine ⟨hbooked, fun hnone => ?_, fun b'' hb'' hmode => ?_⟩
    · rw [hb'] at hnone
      cases hnone
    · rw [hb'] at hb''
      cases hb''
      have hmode' := (Books.Moves.mode_eq hm).symm.trans hmode
      have hsolvent := hreach.solvent hmode'
      have hgrows := hreach.grows hmode' hm
      have hev := hgrows.evidenceCum
      have hfund := hgrows.funding
      rw [hgrows.opening]
      obtain ⟨rfl, htargets⟩ | ⟨hstage, hphase, htargets⟩ := h.within b hbooks hmode'
      · -- the targets so far and the one of this step are covered by the evidence
        have hcovered : ∀ t ∈ targets ++ (s.targetOf env cid e).toList,
            sumOf b.opening / 10000 + t ≤ b.evidenceCum := by
          intro t ht
          obtain ht | ht := List.mem_append.1 ht
          · exact htargets t ht
          · rw [Option.mem_toList] at ht
            exact hsolvent.target_le (targetOf_le hreach.sound hbooks hmode' ht)
        cases hr : s.refundPaid env cid e with
        | none =>
          refine .inl ⟨rfl, fun t ht => ?_⟩
          have := hcovered t ht
          omega
        | some amount =>
          obtain ⟨close, refund, hdue, hcid, rfl, hrel⟩ := refundPaid_cases hr
          have hle := refundOf_le hsolvent hbooks hdue hcid
          refine .inr ⟨stage_of_release hok hrel, phase_of_release hok hrel hb', fun t ht => ?_⟩
          have hopening : sumOf b.opening / 10000 + 0 ≤ b.evidenceCum := by
            refine hsolvent.target_le ?_
            have := hreach.sound.outstanding_opening
            omega
          have hcov : sumOf b.opening / 10000 + t ≤ b.evidenceCum := by
            obtain rfl | ht := List.mem_cons.1 ht
            · exact hopening
            · exact hcovered t ht
          simp only [List.nil_append, Option.toList_some, List.sum_cons, List.sum_nil]
          omega
      · obtain ⟨hr, ht⟩ := settled_marks env hstage hbooks hphase e
        rw [hr, ht, Option.toList_none, List.append_nil, List.append_nil]
        refine .inr ⟨stage_reconciled_step s e hstage, hgrows.settling hphase, fun t ht => ?_⟩
        have := htargets t ht
        omega

/-- In every state that a run reaches, a prepay channel has metered no more than its chain was
credited, what is not consumed computes, and a refund that is due and the target that is pinned
with it come, with what the chain settled before, to no more than the credit. So do all refunds
and targets of the run, where the store records the disposition of every refund. -/
theorem prepay_solvent (h : Built env s) (es : List (Event ρ)) {b : Books}
    (hb : (exec (step env) s es).books cid = some b) (hmode : b.state.mode = .prepay) :
    b.state.cumTotal ≤ b.ledger.fundingSum ∧
    Fee.Reconcile.prepayUnconsumedDeposit b.ledger.fundingSum
        ((exec (step env) s es).basisCum cid) =
      .ok (b.ledger.fundingSum - (exec (step env) s es).basisCum cid) ∧
    (∀ e close refund, (exec (step env) s es).refundOf env e = some (close, refund) →
      close.channelId = cid → ∀ t ∈ 0 :: ((exec (step env) s es).targetOf env cid e).toList,
        refund.amount + sumOf b.opening / 10000 + t ≤ b.ledger.fundingSum) ∧
    (Along (step env) (fun s e => s.losesDisposition env e = false) s es →
      ∀ t ∈ 0 :: marks (step env) (targetOf env cid) s es,
        (marks (step env) (refundPaid env cid) s es).sum + sumOf b.opening / 10000 + t ≤
          b.ledger.fundingSum) := by
  have hbooked : (exec (step env) s es).Booked env.suite.toCrypto := exec_booked (.built h) es
  have hreach := hbooked.reachable cid b hb
  have hsolvent := hreach.solvent hmode
  have hev := hsolvent.evidenceCum_le
  obtain ⟨st, -, rfl⟩ := books_eq_some.1 hb
  have hopening : sumOf (bookOf (exec (step env) s es) cid st).opening / 10000 + 0 ≤
      (bookOf (exec (step env) s es) cid st).evidenceCum := by
    refine hsolvent.target_le ?_
    have := hreach.sound.outstanding_opening
    omega
  refine ⟨hsolvent.cum_le, ?_, fun e close refund hr hcid t ht => ?_, fun hok t ht => ?_⟩
  · rw [basisCum_eq st (hev.trans hsolvent.funding_le)]
    exact hsolvent.deposit
  · have hle := refundOf_le hsolvent hb hr hcid
    obtain rfl | ht := List.mem_cons.1 ht
    · omega
    · rw [Option.mem_toList] at ht
      have := hsolvent.target_le (targetOf_le hreach.sound hb hmode ht)
      omega
  · have hempty : s.books cid = none := by
      rw [Carriage.books, h.channels]
      rfl
    have hacc : s.Accounted env cid [] [] :=
      ⟨.built h, fun _ => ⟨rfl, rfl⟩, fun b hb => by rw [hempty] at hb; cases hb⟩
    have hend : (exec (step env) s es).Accounted env cid
        ([] ++ marks (step env) (refundPaid env cid) s es)
        ([] ++ marks (step env) (targetOf env cid) s es) :=
      marks_related (fun _ _ _ _ hok h => h.step hok) s es [] [] hok hacc
    rw [List.nil_append, List.nil_append] at hend
    obtain ⟨hzero, htargets⟩ | ⟨-, -, htargets⟩ := hend.within _ hb hmode
    · rw [hzero, List.sum_nil, Nat.zero_add]
      obtain rfl | ht := List.mem_cons.1 ht
      · omega
      · have := htargets t ht
        omega
    · exact htargets t ht

section sample

open Sample

/-- A prepay channel draws its meed and closes plainly. -/
def drawThenClose : List (Event VirtualRail) :=
  drawRun ++ [sent (.close
    (closeOf (Sample.cid 1) (ckptRefOf (checkpointOf prepayTerms 500 prepaySlices)) false))]

theorem prepay_solvent_drawThenClose : ∃ b,
    (exec (step Sample.env) start drawThenClose).books (Sample.cid 1) = some b ∧
      b.ledger.fundingSum = 500 ∧
      marks (step Sample.env) (refundPaid Sample.env (Sample.cid 1)) start drawThenClose = [100] ∧
      ∀ t ∈ 0 :: marks (step Sample.env) (targetOf Sample.env (Sample.cid 1)) start drawThenClose,
        (marks (step Sample.env) (refundPaid Sample.env (Sample.cid 1)) start drawThenClose).sum +
          sumOf b.opening / 10000 + t ≤ b.ledger.fundingSum := by
  have hbooks : ((exec (step Sample.env) start drawThenClose).books (Sample.cid 1)).map
      (fun b => (b.ledger.fundingSum, b.state.mode)) = some (500, .prepay) := by
    decide +kernel
  obtain ⟨b, hb, hfund⟩ := Option.map_eq_some_iff.mp hbooks
  rw [Prod.mk.injEq] at hfund
  have hsolvent := prepay_solvent start_built drawThenClose hb hfund.2
  exact ⟨b, hb, hfund.1, by decide +kernel, hsolvent.2.2.2 (by decide +kernel)⟩

/-- A deposit of 500 goes out twice where the disposition of the first close is not recorded. -/
theorem closeTwice_overdrawn : Built Sample.env start ∧ ∃ b,
    (exec (step Sample.env) start (closeTwice (.replicate 32 1))).books (Sample.cid 1) = some b ∧
      b.state.mode = .prepay ∧ b.ledger.fundingSum = 500 ∧
      marks (step Sample.env) (refundPaid Sample.env (Sample.cid 1)) start
        (closeTwice (.replicate 32 1)) = [500, 500] ∧
      (marks (step Sample.env) (refundMoved keyedSuite (Sample.cid 1)) start
        (closeTwice (.replicate 32 1))).length = 2 := by
  refine ⟨start_built, ?_⟩
  have hbooks : ((exec (step Sample.env) start (closeTwice (.replicate 32 1))).books
      (Sample.cid 1)).map (fun b => (b.state.mode, b.ledger.fundingSum)) =
      some (.prepay, 500) := by
    decide +kernel
  obtain ⟨b, hb, heq⟩ := Option.map_eq_some_iff.mp hbooks
  rw [Prod.mk.injEq] at heq
  exact ⟨b, hb, heq.1, heq.2, by decide +kernel, by decide +kernel⟩

end sample

end Carriage

end Paytp
