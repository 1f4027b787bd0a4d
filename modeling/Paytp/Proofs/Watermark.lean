import Paytp.Lib.Telescope
import Paytp.Proofs.Booked
import Paytp.Proofs.Relay

/-!
# Watermarks

The targets of the rounds of a channel telescope: each completed round stands on the one before by
the units it carved, the round in flight on what is advanced, and so does the target of whatever
evidence there is. What is advanced is the whole of what the rounds settled.
-/

namespace Paytp

open Carriage

namespace Books

variable {crypto : Crypto} {b b' : Books}

/-- The targets of the rounds whose meed leg is folded, with the units of each round. -/
def marks (b : Books) : Set (ℕ × ℕ) :=
  {m | ∃ r ∈ b.rounds, r.2.meedFolded = true ∧ r.2.targetP = some m.1 ∧ r.2.meedAmount = some m.2}

section rounds
variable {k : ByteArr 32} {d d' : RoundDecision}

theorem marks_put (hk : (b.rounds.map Prod.fst).Nodup) (hd : (k, d) ∈ b.rounds)
    (hfold : d'.meedFolded = d.meedFolded) (htarget : d'.targetP = d.targetP)
    (hamount : d'.meedAmount = d.meedAmount) :
    ({ b with rounds := Keyed.put k d' b.rounds } : Books).marks = b.marks := by
  ext m
  constructor
  · rintro ⟨r, hr, hf, ht, ha⟩
    rcases Keyed.mem_put.1 hr with rfl | ⟨hr, -⟩
    · exact ⟨_, hd, hfold ▸ hf, htarget ▸ ht, hamount ▸ ha⟩
    · exact ⟨r, hr, hf, ht, ha⟩
  · rintro ⟨⟨k₁, d₁⟩, hr, hf, ht, ha⟩
    by_cases hk₁ : k₁ = k
    · subst hk₁
      cases Keyed.value_unique hk hd hr
      exact ⟨_, Keyed.mem_put.2 (.inl rfl), hfold.trans hf, htarget.trans ht, hamount.trans ha⟩
    · exact ⟨_, Keyed.mem_put.2 (.inr ⟨hr, hk₁⟩), hf, ht, ha⟩

theorem marks_put_folded (hk : (b.rounds.map Prod.fst).Nodup) (hd : (k, d) ∈ b.rounds)
    (hfold : d.meedFolded = false) (hfold' : d'.meedFolded = true) {t p : ℕ}
    (htarget : d'.targetP = some t) (hamount : d'.meedAmount = some p) :
    ({ b with rounds := Keyed.put k d' b.rounds } : Books).marks = insert (t, p) b.marks := by
  ext m
  constructor
  · rintro ⟨r, hr, hf, ht, ha⟩
    rcases Keyed.mem_put.1 hr with rfl | ⟨hr, -⟩
    · have htm : t = m.1 := Option.some.inj (htarget.symm.trans ht)
      have hpm : p = m.2 := Option.some.inj (hamount.symm.trans ha)
      exact .inl (Prod.ext htm.symm hpm.symm)
    · exact .inr ⟨r, hr, hf, ht, ha⟩
  · rintro (rfl | ⟨⟨k₁, d₁⟩, hr, hf, ht, ha⟩)
    · exact ⟨_, Keyed.mem_put.2 (.inl rfl), hfold', htarget, hamount⟩
    · have hk₁ : k₁ ≠ k := by
        rintro rfl
        cases Keyed.value_unique hk hd hr
        rw [hfold] at hf
        cases hf
      exact ⟨_, Keyed.mem_put.2 (.inr ⟨hr, hk₁⟩), hf, ht, ha⟩

theorem marks_put_new (hk : ∀ r ∈ b.rounds, r.1 ≠ k) (hfold : d.meedFolded = false) :
    ({ b with rounds := Keyed.put k d b.rounds } : Books).marks = b.marks := by
  ext m
  constructor
  · rintro ⟨r, hr, hf, ht, ha⟩
    rcases Keyed.mem_put.1 hr with rfl | ⟨hr, -⟩
    · rw [hfold] at hf
      cases hf
    · exact ⟨r, hr, hf, ht, ha⟩
  · rintro ⟨r, hr, hf, ht, ha⟩
    exact ⟨r, Keyed.mem_put.2 (.inr ⟨hr, hk r hr⟩), hf, ht, ha⟩

theorem marks_drop (hk : (b.rounds.map Prod.fst).Nodup) (hd : (k, d) ∈ b.rounds)
    (hfold : d.meedFolded = false) :
    ({ b with rounds := Keyed.drop k b.rounds } : Books).marks = b.marks := by
  ext m
  constructor
  · rintro ⟨r, hr, hf, ht, ha⟩
    exact ⟨r, (Keyed.mem_drop.1 hr).1, hf, ht, ha⟩
  · rintro ⟨⟨k₁, d₁⟩, hr, hf, ht, ha⟩
    have hk₁ : k₁ ≠ k := by
      rintro rfl
      cases Keyed.value_unique hk hd hr
      rw [hfold] at hf
      cases hf
    exact ⟨_, Keyed.mem_drop.2 ⟨hr, hk₁⟩, hf, ht, ha⟩

end rounds

/-! ## The rounds telescope -/

namespace Sound

/-- The round in flight stands on what is advanced. -/
theorem target_eq (h : b.Sound) {r : ByteArr 32 × RoundDecision} (hr : r ∈ b.rounds)
    (hfold : r.2.meedFolded = false) {t p : ℕ} (ht : r.2.targetP = some t)
    (hp : r.2.meedAmount = some p) : t = b.advanced + p := by
  have hform := h.formed r hr
  have hconf : r.2.confirmed = false := by
    by_contra hne
    have hdone := hform.confirmed (Bool.eq_true_of_not_eq_false hne) (by rw [hp]; rfl)
    rw [hfold] at hdone
    cases hdone
  have hpinned := (h.pending r hr hconf hfold).pinned t ht
  have hsum := hform.sum
  have hadv := h.settled_advanced
  rw [hp, Option.getD_some] at hsum
  omega

/-- Folding the meed leg of the round in flight marks its target. -/
theorem telescopes_settle (h : b.Sound) (ht : Telescopes b.advanced b.marks) {k : ByteArr 32}
    {d : RoundDecision} (d' : RoundDecision) (hd : (k, d) ∈ b.rounds) (hfold : d.meedFolded = false)
    (hsome : d.meedAmount.isSome = true) (hfold' : d'.meedFolded = true)
    (htarget : d'.targetP = d.targetP) (hamount : d'.meedAmount = d.meedAmount) :
    let b' : Books := { b with rounds := Keyed.put k d' b.rounds }
    Telescopes b'.advanced b'.marks := by
  have hform := h.formed _ hd
  obtain ⟨p, hp⟩ := Option.isSome_iff_exists.1 hsome
  obtain ⟨t, htp⟩ := Option.isSome_iff_exists.1 (hform.targeted.trans hsome)
  have heq := h.target_eq hd hfold htp hp
  have hadv : ({ b with rounds := Keyed.put k d' b.rounds } : Books).advanced = b.advanced + p := by
    refine (meedSum_put_folded _ h.keys hd hfold hfold' (by rw [hamount])).trans ?_
    rw [hp]
    rfl
  have hmarks := marks_put_folded h.keys hd hfold hfold' (htarget.trans htp) (hamount.trans hp)
  intro b'
  rw [hadv, hmarks, heq]
  exact ht.step (hform.pos p hp)

theorem telescopes_move (h : b.Sound) (ht : Telescopes b.advanced b.marks) {kind : Kind}
    (hm : Move crypto kind b b') : Telescopes b'.advanced b'.marks := by
  have hunfolded : ∀ {k : ByteArr 32} {d : RoundDecision}, (k, d) ∈ b.rounds →
      d.confirmed = false → b.state.mode = .prepay → d.meedFolded = false := by
    intro k d hd hconf hmode
    by_contra hne
    have hdone := ((h.formed _ hd).drawn hmode).2.1 (Bool.eq_true_of_not_eq_false hne)
    rw [hconf] at hdone
    cases hdone
  cases hm with
  | meter taken live within => exact ht
  | idle pausedWindow settles => exact ht
  | countersign ckptRef recomputes => exact ht
  | fund fits owed => exact ht
  | lock operative new quiet owes =>
    rw [advanced, meedSum_put_new _ new owes.meedFolded, marks_put_new new owes.meedFolded]
    exact ht
  | restate round restates proposed =>
    rw [advanced, meedSum_put _ h.keys round restates.meedFolded (by rw [restates.meedAmount]),
      marks_put h.keys round restates.meedFolded restates.targetP restates.meedAmount]
    exact ht
  | @fold _ k fold folds =>
    by_cases hmeed : fold.foldMeed = true
    · obtain ⟨hsome, hfold⟩ := folds.meed hmeed
      exact h.telescopes_settle ht (foldedRound fold (b.foldedLedger fold).version) folds.round
        hfold hsome (by simp [foldedRound, hmeed]) rfl rfl
    · have hsame : (foldedRound fold (b.foldedLedger fold).version).meedFolded =
          fold.round.meedFolded := by
        simp [foldedRound, hmeed]
      have hadv : (b.foldLegs k fold).advanced = b.advanced :=
        meedSum_put (fun d => d.meedAmount.getD 0) h.keys folds.round hsame rfl
      have hmarks : (b.foldLegs k fold).marks = b.marks :=
        marks_put h.keys folds.round hsame rfl rfl
      rw [hadv, hmarks]
      exact ht
  | @draw _ k d finalTime round unfolded unconfirmed prepay =>
    exact h.telescopes_settle ht (drawnRound d finalTime (b.drawnLedger d).version) round unfolded
      ((h.formed _ round).drawn prepay).1 rfl rfl rfl
  | drop round unconfirmed prepay =>
    have hfold := hunfolded round unconfirmed prepay
    rw [advanced, meedSum_drop _ h.keys round hfold, marks_drop h.keys round hfold]
    exact ht

end Sound

theorem marks_nil (h : b.rounds = []) : b.marks = ∅ := by
  ext m
  simp [marks, h]

/-- The books that a channel reaches telescope. -/
theorem Reachable.telescopes (h : Reachable crypto b) : Telescopes b.advanced b.marks := by
  induction h with
  | fresh channelId kSession mode limitL limitE =>
    rw [marks_nil rfl]
    exact .empty
  | imported ckptRef _ hands hacc hnew ih =>
    rw [marks_nil rfl]
    exact .empty
  | move hb hm ih => exact hb.sound.telescopes_move ih hm

/-! ## What the evidence of a channel comes to -/

/-- What a move counts. -/
theorem counts_move {s₀ : ChannelState} {counted : List Slice}
    (hc : ChannelState.Counts s₀ counted b.state) {kind : Kind} (hm : Move crypto kind b b') :
    ∃ counted', ChannelState.Counts s₀ counted' b'.state := by
  cases hm with
  | meter taken live within => exact ⟨_, hc.taken taken⟩
  | idle pausedWindow settles =>
    exact ⟨_, hc.keep { hc.wellFormed with } rfl rfl rfl le_rfl fun k hk => .inr hk⟩
  | countersign ckptRef recomputes =>
    exact ⟨_,
      hc.checkpointUpto (ChannelState.floor_le_of_recomputes hc.wellFormed recomputes)⟩
  | fund fits owed =>
    exact ⟨_, hc.keep (hc.wellFormed.creditFunding _) rfl rfl rfl le_rfl
      fun k hk => .inr hk⟩
  | lock => exact ⟨_, hc⟩
  | restate => exact ⟨_, hc⟩
  | @fold _ k fold folds =>
    refine ⟨counted, ?_⟩
    show ChannelState.Counts s₀ counted
      (if b.gross fold > 0 then b.state.applySettlementRound (b.gross fold) else b.state)
    split_ifs
    · exact (hc.applySettlementRound _).1
    · exact hc
  | draw => exact ⟨_, hc⟩
  | drop => exact ⟨_, hc⟩

/-- A channel that opened with nothing metered the slices it counted, and nothing else. -/
theorem Reachable.counts (h : Reachable crypto b) (hbasis : b.basis = none) :
    ∃ s₀ counted, ChannelState.Counts s₀ counted b.state ∧ s₀.cumTotal = 0 ∧
      s₀.vector = SCHEMA_01_ROLES ∧ s₀.accruals = [0, 0, 0, 0] := by
  induction h with
  | fresh channelId kSession mode limitL limitE =>
    exact ⟨_, _, .refl (ChannelState.wellFormed_new ..), rfl, rfl, rfl⟩
  | imported => cases hbasis
  | @move kind b b' hb hm ih =>
    have hsame : b'.basis = b.basis := by
      cases hm <;> rfl
    obtain ⟨s₀, counted, hc, hstart⟩ := ih (hsame ▸ hbasis)
    obtain ⟨counted', hc'⟩ := counts_move hc hm
    exact ⟨s₀, counted', hc', hstart⟩

/-- A channel that opened with nothing stays in the domain of the settlement arithmetic. -/
theorem Reachable.evidence_lt (h : Reachable crypto b) (hbasis : b.basis = none) :
    ∀ e ∈ b.evidence, e.2 < 2 ^ 128 := by
  obtain ⟨s₀, counted, hc, -, hvec, hacc⟩ := h.counts hbasis
  have hamt := ChannelState.amounts_le hc.nodup hc.positive
  have hbound : ∀ role, ofRole b.state.accrualsByRole role ≤
      50 * ChannelState.amounts counted := by
    intro role
    rw [ChannelState.accrualsByRole, hc.vector, hc.accruals, hvec, hacc]
    simp only [SCHEMA_01_ROLES, ChannelState.accrue, List.map_cons, List.map_nil,
      List.zip_cons_cons, List.zip_nil_right, ofRole_cons, ofRole_nil]
    split_ifs <;> simp <;> omega
  intro e he
  have hle := h.sound.evidence_le e.1
  rw [ofRole_of_mem h.sound.evidence_distinct he] at hle
  have := hbound e.1
  omega

/-! ## Dust -/

/-- The numerators that the evidence has over the opening are in the domain of the settlement
arithmetic. -/
def InDomain (b : Books) : Prop :=
  ∀ e ∈ b.evidence, e.2 ≤ Fee.U256_MAX ∧ e.2 - ofRole b.opening e.1 < 2 ^ 128

theorem Reachable.inDomain (h : Reachable crypto b) (hbasis : b.basis = none) : b.InDomain := by
  intro e he
  have hlt := h.evidence_lt hbasis e he
  unfold Fee.U256_MAX
  omega

namespace Sound

/-- In the domain the evidence has a target, unless that is nothing. -/
theorem targetP_getD (h : b.Sound) (hdom : b.InDomain) :
    (b.targetP b.evidence).getD 0 = (sumOf b.evidence - sumOf b.opening) / 10000 := by
  have hlen : b.evidence.length ≤ Fee.MAX_ROLES := by
    have hroles := congrArg List.length h.roles
    rw [List.length_map, List.length_map] at hroles
    rw [hroles]
    decide
  have hasc : rolesAscending b.evidence = true := by
    rw [rolesAscending, h.roles]
    decide
  obtain ⟨div, hdiv⟩ := divideOutstanding_isOk hlen (fun e he => (hdom e he).1) h.covers_opening
    fun e he => (hdom e he).2
  have hround := divideOutstanding_round h.evidence_distinct hdiv
  have hsum := h.outstanding_opening
  have hp : div.p = (sumOf b.evidence - sumOf b.opening) / 10000 := by
    rw [hround.p_eq]
    congr 1
    omega
  have hsmall : div.p ≤ U128_MAX := by
    have hlt : (outstanding b.evidence b.opening).sum < _ := Fee.sum_lt_of_domain
      (by rwa [outstanding, List.length_map])
      (List.forall_mem_map.2 fun e he => (hdom e he).2)
    rw [hround.p_eq]
    unfold U128_MAX
    omega
  unfold Books.targetP
  rw [hasc, hdiv]
  by_cases hleg : div.leg = true
  · simp [Except.toOption, hleg, u128OfNat, hsmall, ← hp]
  · have hzero : div.p = 0 := Nat.eq_zero_of_not_pos fun hpos => hleg (hround.leg_iff.2 hpos)
    simp [Except.toOption, hleg, ← hp, hzero]

end Sound

/-- Past the domain the evidence has no target. -/
theorem targetP_none {e : UInt8 × ℕ} (he : e ∈ b.evidence)
    (hover : 2 ^ 128 ≤ e.2 - ofRole b.opening e.1) : b.targetP b.evidence = none := by
  rw [Option.eq_none_iff_forall_ne_some]
  intro t ht
  unfold Books.targetP at ht
  simp only [Option.bind_eq_bind, Option.bind_eq_some_iff, toOption_eq_some] at ht
  obtain ⟨-, -, div, hdiv, -⟩ := ht
  obtain ⟨-, -, hround⟩ := divideOutstanding_eq_ok.1 hdiv
  obtain ⟨⟨-, hlt⟩, -⟩ := Fee.divideRound_unity_iff.1 hround
  exact absurd (hlt _ (List.mem_map_of_mem he)) (Nat.not_lt.2 hover)

/-- The whole carve of some numerators, or nothing where it does not fit. -/
def carve (rows : List (UInt8 × ℕ)) : ℕ :=
  (u128OfNat (Fee.Reconcile.meedCarve
    (rows.filterMap fun e => (Fee.u256FromBiguint e.2).toOption))).getD 0

theorem carve_eq {rows : List (UInt8 × ℕ)} (h : ∀ e ∈ rows, e.2 ≤ Fee.U256_MAX) :
    carve rows = if sumOf rows / 10000 ≤ U128_MAX then sumOf rows / 10000 else 0 := by
  have hcols : ∀ rows : List (UInt8 × ℕ), (∀ e ∈ rows, e.2 ≤ Fee.U256_MAX) →
      rows.filterMap (fun e => (Fee.u256FromBiguint e.2).toOption) = rows.map Prod.snd := by
    intro rows hall
    induction rows with
    | nil => rfl
    | cons e rows ih =>
      obtain ⟨he, hall⟩ := List.forall_mem_cons.1 hall
      rw [List.filterMap_cons, u256FromBiguint_eq_ok.2 ⟨he, rfl⟩, List.map_cons, ← ih hall]
      rfl
  rw [carve, hcols rows h, Fee.Reconcile.meedCarve, Fee.sum_eq_min]
  have hmin : min Fee.U256_MAX (rows.map Prod.snd).sum / Fee.BP_DENOM ≤ U128_MAX ↔
      sumOf rows / 10000 ≤ U128_MAX := by
    unfold sumOf Fee.U256_MAX U128_MAX Fee.BP_DENOM
    omega
  unfold u128OfNat
  split_ifs with h₁ h₂ h₂
  · unfold sumOf Fee.U256_MAX U128_MAX Fee.BP_DENOM at *
    rw [Option.getD_some]
    omega
  · exact absurd (hmin.1 h₁) h₂
  · exact absurd (hmin.2 h₂) h₁
  · rfl

theorem carve_nil : carve [] = 0 := rfl

/-- The dust: what the whole carve exceeds the opening's and the target by. -/
def dust (b : Books) : ℕ := carve b.evidence - carve b.opening - (b.targetP b.evidence).getD 0

theorem Sound.opening_le (h : b.Sound) (hmax : ∀ e ∈ b.evidence, e.2 ≤ Fee.U256_MAX) :
    ∀ e ∈ b.opening, e.2 ≤ Fee.U256_MAX := by
  intro e he
  obtain ⟨e', he', heq⟩ := List.mem_map.1 (h.roles ▸ h.opening_roles e he)
  have hcov := h.covers_opening e' he'
  rw [heq, ofRole_of_mem h.opening_distinct he] at hcov
  exact hcov.trans (hmax e' he')

theorem Sound.dust_le (h : b.Sound) (hdom : b.InDomain) : b.dust ≤ 1 := by
  have hopening := h.opening_le fun e he => (hdom e he).1
  have hsum := h.outstanding_opening
  rw [dust, carve_eq fun e he => (hdom e he).1, carve_eq hopening, h.targetP_getD hdom]
  split_ifs <;> omega

theorem Sound.dust_eq_zero (h : b.Sound) (hdom : b.InDomain) (hbasis : b.basis = none) :
    b.dust = 0 := by
  have hopening : b.opening = [] := by
    rw [opening, hbasis]
    rfl
  rw [dust, carve_eq fun e he => (hdom e he).1, h.targetP_getD hdom, hopening, carve_nil, sumOf_nil]
  split_ifs <;> omega

end Books

namespace Carriage

variable {ρ : Type} {env : Env ρ} {s : Carriage ρ} {cid : ByteArr 8}

/-- The dust is that of the books, where there is evidence. -/
theorem reconciliationDust_cases (s : Carriage ρ) (cid : ByteArr 8) (st : ChannelState) :
    s.reconciliationDust cid = (s.bookOf cid st).dust ∨
      s.operative.lookup cid = none ∧ s.importedBasis.lookup cid = none ∧
        s.reconciliationDust cid = 0 := by
  unfold Books.dust
  rw [targetP_bookOf]
  unfold reconciliationDust Books.evidence Books.opening bookOf
  generalize s.cumulativeTargetP cid = targetP
  cases s.operative.lookup cid with
  | some op =>
    left
    cases s.importedBasis.lookup cid with
    | some basis => rfl
    | none =>
      simp only [Option.map_none, Option.getD_none, Books.carve_nil]
      rfl
  | none =>
    cases s.importedBasis.lookup cid with
    | some basis => exact .inl rfl
    | none => exact .inr ⟨rfl, rfl, rfl⟩

/-- A close draw is the target of the evidence. -/
theorem computePendingDraw_target (s : Carriage ρ) (st : ChannelState) {ref : ByteArr 32} {t : ℕ}
    (h : s.computePendingDraw cid = some (ref, t)) :
    (s.bookOf cid st).targetP (s.bookOf cid st).evidence = some t := by
  rw [targetP_bookOf]
  unfold computePendingDraw at h
  unfold Books.evidence bookOf
  cases hop : s.operative.lookup cid with
  | some op =>
    simp only [hop, Option.bind_eq_bind, Option.bind_eq_some_iff, Option.guard_eq_some'] at h
    obtain ⟨-, -, terms, -, -, -, _, hpair, t', ht, -, -, hres⟩ := h
    cases hpair
    cases hres
    exact ht
  | none =>
    cases hbasis : s.importedBasis.lookup cid with
    | some basis =>
      simp only [hop, hbasis, Option.bind_eq_bind, Option.bind_eq_some_iff,
        Option.guard_eq_some'] at h
      obtain ⟨-, -, terms, -, -, -, _, hpair, t', ht, -, -, hres⟩ := h
      cases hpair
      cases hres
      exact ht
    | none => simp [hop, hbasis] at h

/-- How the targets of a channel and the units its rounds carve go together. -/
structure Watermarked (s : Carriage ρ) (cid : ByteArr 8) (b : Books) : Prop where
  rounds : Telescopes b.advanced b.marks
  advanced : b.advanced = (sumOf b.ledger.settledR - sumOf b.opening) / 10000
  inFlight : ∀ r ∈ b.rounds, r.2.meedFolded = false → ∀ t p, r.2.targetP = some t →
    r.2.meedAmount = some p → t = b.advanced + p
  recomputed : ∀ op r t, b.operative = some op → s.recomputeRound cid = .ok r →
    s.cumulativeTargetP cid op.accruals = some t → t = b.advanced + r.meedAmount.getD 0
  closing : ∀ ref t, s.computePendingDraw cid = some (ref, t) →
    t = (sumOf b.evidence - sumOf b.opening) / 10000 ∧
      ∀ div, divideOutstanding b.evidence b.ledger.settledR = .ok div → t = b.advanced + div.p
  dust : b.InDomain → s.reconciliationDust cid ≤ 1
  firstGeneration : b.basis = none → s.reconciliationDust cid = 0

theorem Booked.watermarked (h : s.Booked env.suite.toCrypto) {b : Books}
    (hb : s.books cid = some b) : s.Watermarked cid b := by
  have hreach := h.reachable cid b hb
  have hsound := hreach.sound
  obtain ⟨st, hst, rfl⟩ := books_eq_some.1 hb
  have hop : ∀ op, s.operative.lookup cid = some op →
      (s.bookOf cid st).evidence = op.accruals := by
    intro op hop
    unfold Books.evidence bookOf
    dsimp only
    rw [hop]
  have hdust : s.reconciliationDust cid ≤ (s.bookOf cid st).dust := by
    rcases s.reconciliationDust_cases cid st with heq | ⟨-, -, hzero⟩
    · exact heq.le
    · exact hzero ▸ Nat.zero_le _
  constructor
  · exact hreach.telescopes
  · have hadv := hsound.settled_advanced
    omega
  · exact fun r hr hfold t p => hsound.target_eq hr hfold
  · intro op r t hoper hr ht
    obtain ⟨op', div, hop', -, hdiv, -, hamount⟩ := recomputeRound_ok hr
    have hev := hop op' hop'
    rw [show s.operative.lookup cid = some op from hoper] at hop'
    cases hop'
    rw [← targetP_bookOf s cid st, ← hev] at ht
    rw [← hev] at hdiv
    have hround := divideOutstanding_round hsound.evidence_distinct hdiv
    rw [hsound.targetP_step ht hdiv, hamount]
    by_cases hleg : div.leg = true
    · rw [if_pos hleg, Option.getD_some]
    · rw [if_neg hleg, Option.getD_none,
        Nat.eq_zero_of_not_pos fun hpos => hleg (hround.leg_iff.2 hpos)]
  · intro ref t ht
    have htarget := s.computePendingDraw_target st ht
    exact ⟨(hsound.targetP_eq htarget).1, fun div hdiv => hsound.targetP_step htarget hdiv⟩
  · exact fun hdom => hdust.trans (hsound.dust_le hdom)
  · intro hbasis
    have hzero := hsound.dust_eq_zero (hreach.inDomain hbasis) hbasis
    omega

/-- Where a first plain close pins its draw: the refund is out and the rounds are drained. -/
def drained (env : Env ρ) (fails : StoreFaults) (s : Carriage ρ) (close : Close) : Carriage ρ :=
  (s.releaseRefund env fails close).drainInterimRounds env close.channelId

theorem Booked.drained (h : s.Booked env.suite.toCrypto) (fails : StoreFaults) (close : Close) :
    (drained env fails s close).Booked env.suite.toCrypto := by
  have hsame : s.SameBooks (s.releaseRefund env fails close) := s.releaseRefund_sameBooks close
  have hreleased : (s.releaseRefund env fails close).Booked env.suite.toCrypto :=
    h.follows (.of_same hsame : s.Follows env.suite.toCrypto [] _)
      (h.evidenced.untouched (releaseRefund_untouched s close)) (by rw [hsame.driver])
  have hoff := ((s.releaseRefund env fails close).drainInterimRounds_redrawn env
    close.channelId).offRail
  exact hreleased.follows (drainInterimRounds_follows hreleased close.channelId)
    (hreleased.evidenced.untouched hoff.toUntouched)
    (congrArg ChannelDriver.chainSnapshots hoff.driver)

/-- In every state a run reaches, and where a close then pins its draw, the targets of the rounds
telescope, and what is advanced and the dust are as the ledger has them. -/
theorem watermark_telescopes (h : Built env s) (es : List (Event ρ)) :
    (∀ cid b, (exec (step env) s es).books cid = some b →
      (exec (step env) s es).Watermarked cid b) ∧
    ∀ fails close b,
      (drained env fails (exec (step env) s es) close).books close.channelId = some b →
      (drained env fails (exec (step env) s es) close).Watermarked close.channelId b := by
  have hbooked := exec_booked (.built h) es
  exact ⟨fun cid b hb => hbooked.watermarked hb,
    fun fails close b hb => (hbooked.drained fails close).watermarked hb⟩

section sample
open Sample

def prepayTerms : ChannelAuth := Sample.terms (Sample.cid 1) none 1000

def prepaySlices : List Slice :=
  [sliceOf prepayTerms 1 250 one_le_seqMax (by decide),
    sliceOf prepayTerms 2 150 two_le_seqMax (by decide)]

/-- A funded prepay channel is metered and evidenced and draws its meed. -/
def drawRun : List (Event VirtualRail) :=
  [sent (.channelOpen (openOn prepayTerms) 1000),
    sent (.rail (pay prepayTerms 500)),
    sent (.fundingProof (fundingOf prepayTerms "virt-ref:0" 500)),
    sent (.batch (Sample.cid 1) prepaySlices),
    sent (.checkpointRequest (checkpointOf prepayTerms 500 prepaySlices)),
    sent (.rail (payMeed prepayTerms 0)),
    sent (.prepayInterimDraw (Sample.cid 1))]

theorem watermark_telescopes_drawRun : ∃ b,
    (exec (step Sample.env) start drawRun).books (Sample.cid 1) = some b ∧
      (exec (step Sample.env) start drawRun).Watermarked (Sample.cid 1) b ∧ b.advanced = 4 := by
  have hfour : ((exec (step Sample.env) start drawRun).books (Sample.cid 1)).map Books.advanced =
      some 4 := by
    decide +kernel
  obtain ⟨b, hb, hadv⟩ := Option.map_eq_some_iff.mp hfour
  exact ⟨b, hb, (watermark_telescopes start_built drawRun).1 _ b hb, hadv⟩

end sample

end Carriage

namespace Relay

open Sample Carriage

/-- Far enough on, the evidence of the channel is past the domain of the settlement arithmetic: it
has no target, and the dust is the whole carve. -/
theorem dust_exceeds : Built env start ∧ ∃ es b,
    (exec (Carriage.step env) start es).books (cid (2 ^ 12 + 1)) = some b ∧
      1 < (exec (Carriage.step env) start es).reconciliationDust (cid (2 ^ 12 + 1)) := by
  obtain ⟨es, hes⟩ := reach (2 ^ 12) (by decide) (by norm_num)
  have hbooked := exec_booked (.built start_built) es
  have hb := books_of hes.channel
  have hsound := hbooked.sound hes.channel
  refine ⟨start_built, es, _, hb, ?_⟩
  generalize exec (Carriage.step env) start es = s at *
  generalize hC : 2 ^ 12 * full = C at *
  have hbig : 2 ^ 128 ≤ C * 50 ∧ C ≤ U128_MAX := by
    rw [← hC]
    decide
  have hled : (s.bookOf (cid (2 ^ 12 + 1)) (position (2 ^ 12) C)).ledger = funded C := hes.ledger
  -- nothing is unevidenced, so the evidence is what the channel started with
  have hev : (s.bookOf (cid (2 ^ 12 + 1)) (position (2 ^ 12) C)).evidence = accruals C := by
    have hacc := hsound.accruals
    change (accruals C).map Prod.snd = ChannelState.accrue 0 _ _ at hacc
    rw [ChannelState.accrue_zero] at hacc
    have hroles : (accruals C).map Prod.fst = SCHEMA_01_ROLES.map Prod.fst := rfl
    rw [← zip_fst_snd (accruals C), hroles, ← hsound.roles, hacc, zip_fst_snd]
  have hopening : sumOf (s.bookOf (cid (2 ^ 12 + 1)) (position (2 ^ 12) C)).opening = 0 := by
    have hsum := hsound.settled_sum
    rw [hled] at hsum
    exact Nat.eq_zero_of_add_eq_zero_right hsum.symm
  have hrole : ofRole (s.bookOf (cid (2 ^ 12 + 1)) (position (2 ^ 12) C)).opening 0x10 = 0 := by
    have hset := hsound.settled_eq 0x10
    rw [hled] at hset
    exact Nat.eq_zero_of_add_eq_zero_right hset.symm
  have hmax : ∀ e ∈ accruals C, e.2 ≤ Fee.U256_MAX := by
    intro e he
    obtain ⟨r, -, rfl⟩ := List.mem_map.1 he
    calc C * r.2.toNat ≤ U128_MAX * 2 ^ 16 := Nat.mul_le_mul hbig.2 r.2.toNat_lt.le
      _ ≤ Fee.U256_MAX := by decide
  have hsum : sumOf (accruals C) = C * 100 := by
    show C * 50 + (C * 10 + (C * 30 + (C * 10 + 0))) = _
    omega
  have hmem : (0x10, C * 50) ∈
      (s.bookOf (cid (2 ^ 12 + 1)) (position (2 ^ 12) C)).evidence := by
    rw [hev]
    exact List.mem_cons_self
  have hnone := Books.targetP_none hmem (by rw [hrole]; exact hbig.1)
  rcases s.reconciliationDust_cases (cid (2 ^ 12 + 1)) (position (2 ^ 12) C) with
    hdust | ⟨hop, hbasis, -⟩
  · rw [hdust, Books.dust, hnone, Books.carve_eq (hsound.opening_le (hev ▸ hmax)), hopening, hev,
      Books.carve_eq hmax, hsum]
    unfold U128_MAX at *
    split_ifs <;> dsimp only [Option.getD_none] <;> omega
  · have hzero : (s.bookOf (cid (2 ^ 12 + 1)) (position (2 ^ 12) C)).evidence =
        SCHEMA_01_ROLES.map fun v => (v.1, 0) := by
      unfold Books.evidence Carriage.bookOf
      rw [hop, hbasis]
      rfl
    rw [hzero] at hev
    rw [← hev] at hsum
    have hfalse : C * 100 = 0 := hsum.symm
    omega

end Relay

end Paytp
