import Paytp.Crediting
import Paytp.Proofs.Booked
import Paytp.Proofs.Tallied

/-!
# Folded rounds

A round that a prepay channel folded stays folded for the target it had. A step folds at most one
round, and what is settled then is the target of that round over what was settled at the opening.
-/

namespace Paytp

open Carriage

namespace Books

variable {crypto : Crypto} {b b' : Books} {k : ByteArr 32} {t t' : ℕ}

/-- The round of the name is folded, for the target. -/
def Folded (b : Books) (k : ByteArr 32) (t : ℕ) : Prop :=
  ∃ d, (k, d) ∈ b.rounds ∧ d.meedFolded = true ∧ d.targetP = some t

theorem Sound.folded_unique (h : b.Sound) (ht : b.Folded k t) (ht' : b.Folded k t') : t = t' := by
  obtain ⟨d, hd, -, hdt⟩ := ht
  obtain ⟨d', hd', -, hdt'⟩ := ht'
  rw [Keyed.value_unique h.keys hd hd', hdt'] at hdt
  exact (Option.some.inj hdt).symm

/-- A folded round has a target. -/
theorem Sound.folded_of_mem (h : b.Sound) {d : RoundDecision} (hd : (k, d) ∈ b.rounds)
    (hfold : d.meedFolded = true) : ∃ t, d.targetP = some t ∧ b.Folded k t := by
  have hform := h.formed _ hd
  obtain ⟨t, ht⟩ := Option.isSome_iff_exists.1 (hform.targeted.trans (hform.folded hfold))
  exact ⟨t, ht, d, hd, hfold, ht⟩

/-- A round of a prepay channel that is not complete is not folded. -/
theorem Sound.unfolded (h : b.Sound) (hmode : b.state.mode = .prepay) {d : RoundDecision}
    (hd : (k, d) ∈ b.rounds) (hconf : d.confirmed = false) : d.meedFolded = false := by
  by_contra hne
  have hdone := ((h.formed _ hd).drawn hmode).2.1 (Bool.eq_true_of_not_eq_false hne)
  rw [hconf] at hdone
  cases hdone

/-- Of the rounds folded after a round takes another value, the others were folded before. -/
theorem folded_put {d' : RoundDecision} (hb : b'.rounds = Keyed.put k d' b.rounds)
    {k' : ByteArr 32} (hf : b'.Folded k' t) :
    b.Folded k' t ∨ k' = k ∧ d'.meedFolded = true ∧ d'.targetP = some t := by
  obtain ⟨d₁, hd₁, hfold, ht⟩ := hf
  rw [hb] at hd₁
  rcases Keyed.mem_put.1 hd₁ with heq | ⟨hd₁, -⟩
  · cases heq
    exact .inr ⟨rfl, hfold, ht⟩
  · exact .inl ⟨d₁, hd₁, hfold, ht⟩

/-- A round that takes another value and stays folded for its target leaves all folded. -/
theorem Sound.put_folded {d d' : RoundDecision} (h : b.Sound) (hd : (k, d) ∈ b.rounds)
    (hb : b'.rounds = Keyed.put k d' b.rounds) (htarget : d'.targetP = d.targetP)
    (hfold : d.meedFolded = true → d'.meedFolded = true) {k' : ByteArr 32} (hf : b.Folded k' t) :
    b'.Folded k' t := by
  obtain ⟨d₁, hd₁, hfold₁, ht⟩ := hf
  rw [Folded, hb]
  by_cases hk : k' = k
  · subst hk
    cases Keyed.value_unique h.keys hd hd₁
    exact ⟨d', Keyed.mem_put.2 (.inl rfl), hfold hfold₁, htarget.trans ht⟩
  · exact ⟨d₁, Keyed.mem_put.2 (.inr ⟨hd₁, hk⟩), hfold₁, ht⟩

/-- What is folded stays folded. -/
theorem Move.folded {kind : Kind} (hm : Move crypto kind b b') (h : b.Sound) (hf : b.Folded k t) :
    b'.Folded k t := by
  cases hm with
  | meter | idle | countersign | fund => exact hf
  | lock operative new quiet owes =>
    obtain ⟨d, hd, hfold, ht⟩ := hf
    exact ⟨d, Keyed.mem_put.2 (.inr ⟨hd, new _ hd⟩), hfold, ht⟩
  | restate round restates =>
    exact h.put_folded round rfl restates.targetP (fun hfold => restates.meedFolded.trans hfold) hf
  | @fold _ k' fold folds =>
    have hrounds : (b.foldLegs k' fold).rounds =
        Keyed.put k' (foldedRound fold (b.foldedLedger fold).version) b.rounds := rfl
    exact h.put_folded folds.round hrounds rfl (fun hfold => by simp [foldedRound, hfold]) hf
  | @draw _ k' d' finalTime round =>
    have hrounds : (b.foldInterimRound k' d' finalTime).rounds =
        Keyed.put k' (drawnRound d' finalTime (b.drawnLedger d').version) b.rounds := rfl
    exact h.put_folded round hrounds rfl (fun _ => rfl) hf
  | @drop _ k' d' round unconfirmed prepay =>
    obtain ⟨d, hd, hfold, ht⟩ := hf
    refine ⟨d, Keyed.mem_drop.2 ⟨hd, ?_⟩, hfold, ht⟩
    intro hk
    dsimp only at hk
    subst hk
    cases Keyed.value_unique h.keys round hd
    rw [h.unfolded prepay round unconfirmed] at hfold
    cases hfold

theorem Moves.folded {kinds : List Kind} (hb : Reachable crypto b) (hm : Moves crypto kinds b b')
    (hf : b.Folded k t) : b'.Folded k t := by
  induction hm with
  | refl => exact hf
  | tail hms hm ih =>
    obtain ⟨kind, -, hm⟩ := hm
    exact hm.folded (hb.moves crypto hms).sound ih

/-- On a prepay channel only a draw folds a round or settles anything. -/
theorem Move.undrawn {kind : Kind} (hm : Move crypto kind b b') (h : b.Sound)
    (hmode : b.state.mode = .prepay) (hkind : kind ≠ .draw) :
    b'.ledger.settledR = b.ledger.settledR ∧ ∀ k t, b'.Folded k t → b.Folded k t := by
  cases hm with
  | meter | idle | countersign | fund => exact ⟨rfl, fun _ _ hf => hf⟩
  | @lock _ op d operative new quiet owes =>
    refine ⟨rfl, ?_⟩
    rintro k t ⟨d₁, hd₁, hfold, ht⟩
    rcases Keyed.mem_put.1 hd₁ with heq | ⟨hd₁, -⟩
    · cases heq
      rw [owes.meedFolded] at hfold
      cases hfold
    · exact ⟨d₁, hd₁, hfold, ht⟩
  | @restate _ k' d d' round restates =>
    refine ⟨rfl, fun k t hf => ?_⟩
    rcases folded_put rfl hf with hf | ⟨rfl, hfold, ht⟩
    · exact hf
    · exact ⟨d, round, restates.meedFolded ▸ hfold, restates.targetP ▸ ht⟩
  | fold folds =>
    have hpost := (h.formed _ folds.round).proposed folds.proposed
    rw [hmode] at hpost
    cases hpost
  | draw => exact absurd rfl hkind
  | drop round =>
    refine ⟨rfl, ?_⟩
    rintro k t ⟨d₁, hd₁, hfold, ht⟩
    exact ⟨d₁, (Keyed.mem_drop.1 hd₁).1, hfold, ht⟩

theorem Moves.undrawn {kinds : List Kind} (hb : Reachable crypto b)
    (hmode : b.state.mode = .prepay) (hkinds : .draw ∉ kinds) (hm : Moves crypto kinds b b') :
    b'.ledger.settledR = b.ledger.settledR ∧ ∀ k t, b'.Folded k t → b.Folded k t := by
  induction hm with
  | refl => exact ⟨rfl, fun _ _ hf => hf⟩
  | tail hms hm ih =>
    obtain ⟨kind, hk, hm⟩ := hm
    obtain ⟨hset, hback⟩ := hm.undrawn (hb.moves crypto hms).sound
      ((Moves.mode_eq hms).trans hmode) fun heq => hkinds (heq ▸ hk)
    exact ⟨hset.trans ih.1, fun k t hf => ih.2 k t (hback k t hf)⟩

/-- A draw folds one round: what is settled then is its target, and no round is left in flight. -/
theorem Move.drawn (hm : Move crypto .draw b b') (h : b.Sound) :
    (∀ r ∈ b'.rounds, r.2.confirmed = true) ∧ ∀ k t, b'.Folded k t →
      b.Folded k t ∨ sumOf b'.ledger.settledR = sumOf b.opening + t * 10000 := by
  cases hm with
  | @draw _ k' d finalTime round unfolded unconfirmed prepay =>
    constructor
    · intro r hr
      rcases Keyed.mem_put.1 hr with rfl | ⟨hr, hne⟩
      · rfl
      · by_contra hconf
        have heq := h.unique r hr _ round (Bool.eq_false_of_not_eq_true hconf) unconfirmed
        exact hne (by rw [heq])
    · intro k t hf
      have hrounds : (b.foldInterimRound k' d finalTime).rounds =
          Keyed.put k' (drawnRound d finalTime (b.drawnLedger d).version) b.rounds := rfl
      rcases folded_put hrounds hf with hf | ⟨-, -, ht⟩
      · exact .inl hf
      · right
        have hadds := addSettled_adds h.distinct (h.formed _ round).distinct
        have hpinned := (h.pending _ round unconfirmed unfolded).pinned t ht
        show sumOf (addSettled b.ledger.settledR d.eR) = _
        rw [hadds.sumOf_eq, hpinned]

/-- The moves of a close fold at most one round. -/
theorem Moves.drawn (hb : Reachable crypto b) (hmode : b.state.mode = .prepay)
    (hm : Moves crypto [.draw, .drop, .idle] b b') : ∀ k t, b'.Folded k t →
      b.Folded k t ∨ sumOf b'.ledger.settledR = sumOf b.opening + t * 10000 := by
  have hcases : b'.ledger.settledR = b.ledger.settledR ∧ b'.opening = b.opening ∧
        (∀ k t, b'.Folded k t → b.Folded k t) ∨
      (∀ r ∈ b'.rounds, r.2.confirmed = true) ∧ ∀ k t, b'.Folded k t →
        b.Folded k t ∨ sumOf b'.ledger.settledR = sumOf b.opening + t * 10000 := by
    induction hm with
    | refl => exact .inl ⟨rfl, rfl, fun _ _ hf => hf⟩
    | @tail x y hms hm ih =>
      obtain ⟨kind, hk, hm⟩ := hm
      have hsound := (hb.moves crypto hms).sound
      have hmode' := (Moves.mode_eq hms).trans hmode
      by_cases hdraw : kind = .draw
      · subst hdraw
        rcases ih with ⟨hset, hopening, hback⟩ | ⟨hdone, -⟩
        · obtain ⟨hdone, hnew⟩ := hm.drawn hsound
          refine .inr ⟨hdone, fun k t hf => (hnew k t hf).imp (hback k t) fun hsum => ?_⟩
          rw [hsum, hopening]
        · cases hm with
          | draw finalTime round unfolded unconfirmed =>
            have hconf := hdone _ round
            dsimp only at hconf
            rw [unconfirmed] at hconf
            cases hconf
      · obtain ⟨hset, hback⟩ := hm.undrawn hsound hmode' hdraw
        have hdrop : y.opening = x.opening ∧ ((∀ r ∈ x.rounds, r.2.confirmed = true) →
            ∀ r ∈ y.rounds, r.2.confirmed = true) := by
          simp only [List.mem_cons, List.not_mem_nil, or_false] at hk
          rcases hk with rfl | rfl | rfl
          · exact absurd rfl hdraw
          · cases hm
            exact ⟨rfl, fun hdone r hr => hdone r (Keyed.mem_drop.1 hr).1⟩
          · cases hm
            exact ⟨rfl, id⟩
        rcases ih with ⟨hset', hopening, hback'⟩ | ⟨hdone, hnew⟩
        · exact .inl ⟨hset.trans hset', hdrop.1.trans hopening,
            fun k t hf => hback' k t (hback k t hf)⟩
        · refine .inr ⟨hdrop.2 hdone, fun k t hf => (hnew k t (hback k t hf)).imp id fun hsum => ?_⟩
          rw [hset]
          exact hsum
  intro k t hf
  rcases hcases with ⟨-, -, hback⟩ | ⟨-, hnew⟩
  · exact .inl (hback k t hf)
  · exact hnew k t hf

end Books

namespace Carriage

variable {ρ : Type} {env : Env ρ} {s s' : Carriage ρ} {cid : ByteArr 8} {k : ByteArr 32} {t : ℕ}

/-- An OPEN leaves the rounds. -/
theorem onOpen_rounds (s : Carriage ρ) (env : Env ρ) (fails : StoreFaults) (o : ChannelOpen)
    (now : ℕ) : (s.onOpen env fails o now).2.rounds = s.rounds := by
  obtain ⟨-, r, snaps, decisions, -, heq⟩ | ⟨-, snaps, _, _, acc, decisions, -, -, -, -, -, heq⟩ :=
    s.onOpen_cases env fails o now <;> rw [heq]
  · rfl
  · unfold opened commitPredecessor
    split
    · exact (decideKey_sameBooks ..).rounds
    · rfl

/-- The kinds of the moves that draw nothing. -/
def undrawnKinds : List Books.Kind :=
  [.meter, .idle, .countersign, .fund, .lock, .restate, .fold]

/-- A message that is no OPEN first moves the books without a draw, and then as a close does. -/
theorem Booked.stages (h : s.Booked env.suite.toCrypto) (e : Event ρ)
    (hopen : ∀ o now, e.call ≠ .channelOpen o now) :
    ∃ mid : Carriage ρ, s.Follows env.suite.toCrypto undrawnKinds mid ∧
      mid.Follows env.suite.toCrypto [.draw, .drop, .idle] (Carriage.step env s e).1 := by
  have hfirst : ∀ {kinds : List Books.Kind} {s' : Carriage ρ}, kinds ⊆ undrawnKinds →
      s.Follows env.suite.toCrypto kinds s' → ∃ mid : Carriage ρ,
        s.Follows env.suite.toCrypto undrawnKinds mid ∧
        mid.Follows env.suite.toCrypto [.draw, .drop, .idle] s' :=
    fun hsub hs => ⟨_, hs.mono hsub, .refl _⟩
  obtain ⟨call, fails⟩ := e
  cases call with
  | channelOpen o now => exact absurd rfl (hopen o now)
  | checkpointRequest request =>
    exact hfirst (by simp [undrawnKinds]) (onCheckpointRequest_follows s request)
  | fundingProof fp => exact hfirst (by simp [undrawnKinds]) (onFunding_follows s fp)
  | settlementPropose p => exact hfirst (by simp [undrawnKinds]) (onSettlementPropose_follows h p)
  | settlementProof proof =>
    exact hfirst (by simp [undrawnKinds]) (onSettlementProof_follows h proof)
  | close close => exact ⟨s, .refl s, onClose_follows h close⟩
  | batch cid slices => exact hfirst (by simp [undrawnKinds]) (batch_follows h cid slices)
  | ackRequest req now => exact hfirst (List.nil_subset _) (.refl s)
  | prepayInterimDraw cid =>
    obtain ⟨mid, hlocked, hdrawn⟩ := runPrepayInterimDraw_stages env s cid
    exact ⟨mid, hlocked.mono (by simp [undrawnKinds]), hdrawn.mono (by simp)⟩
  | rail op => exact hfirst (List.nil_subset _) (.of_same (sameBooks_rail s _))

/-- The round of the channel is folded, for the target. -/
def Folded (s : Carriage ρ) (cid : ByteArr 8) (k : ByteArr 32) (t : ℕ) : Prop :=
  ∃ d, (k, d) ∈ s.roundsOf cid ∧ d.meedFolded = true ∧ d.targetP = some t

theorem Folded.isEmpty (h : s.roundsOf cid = []) : ¬ s.Folded cid k t := by
  rintro ⟨d, hd, -⟩
  rw [h] at hd
  cases hd

theorem settled_bookOf (s : Carriage ρ) (cid : ByteArr 8) (st : ChannelState) :
    s.settled cid = sumOf (s.bookOf cid st).ledger.settledR := by
  unfold settled bookOf
  cases s.ledger.lookup cid <;> rfl

/-- No step makes a channel that is there another generation's. -/
theorem Booked.firstGeneration (h : s.Booked env.suite.toCrypto) (e : Event ρ)
    (hfirst : (Carriage.step env s e).1.FirstGeneration cid) : s.FirstGeneration cid := by
  intro st hst
  obtain ⟨b', hb', hm⟩ := (h.step e).2 cid _ (books_of hst)
  obtain ⟨st', hst', rfl⟩ := books_eq_some.1 hb'
  obtain ⟨hmode, hbasis⟩ := hfirst st' hst'
  exact ⟨(Books.Moves.mode_eq hm).symm.trans hmode, (Books.Moves.basis_eq hm).symm.trans hbasis⟩

/-- A step of a prepay channel that succeeds no other keeps what is folded, and what it folds then
it settles up to the target. -/
theorem Booked.step_folded (h : s.Booked env.suite.toCrypto) (e : Event ρ)
    (hfirst : (Carriage.step env s e).1.FirstGeneration cid) :
    (∀ k t, s.Folded cid k t → (Carriage.step env s e).1.Folded cid k t) ∧
      ∀ k t, (Carriage.step env s e).1.Folded cid k t →
        s.Folded cid k t ∨ (Carriage.step env s e).1.settled cid = t * 10000 := by
  have hrounds : ∀ o now, e.call = .channelOpen o now →
      (Carriage.step env s e).1.rounds = s.rounds := by
    intro o now hopen
    obtain ⟨call, fails⟩ := e
    cases hopen
    exact onOpen_rounds s env fails o now
  cases hst : s.channels.lookup cid with
  | none =>
    have hnil : (Carriage.step env s e).1.roundsOf cid = [] := by
      by_cases hopen : ∃ o now, e.call = .channelOpen o now
      · obtain ⟨o, now, hopen⟩ := hopen
        rw [roundsOf, hrounds o now hopen]
        exact h.rounds cid hst
      · obtain ⟨mid, hs, hs'⟩ := h.stages e fun o now heq => hopen ⟨o, now, heq⟩
        have hmid := hs.vacant cid hst
        rw [(hs'.vacant cid (hmid.channels.trans hst)).rounds, hmid.rounds]
        exact h.rounds cid hst
    exact ⟨fun k t hf => absurd hf (Folded.isEmpty (h.rounds cid hst)),
      fun k t hf => absurd hf (Folded.isEmpty hnil)⟩
  | some st =>
    have hb := books_of hst
    obtain ⟨hmode, hbasis⟩ := h.firstGeneration e hfirst st hst
    have hopening : sumOf (s.bookOf cid st).opening = 0 := by
      unfold Books.opening bookOf
      rw [hbasis]
      rfl
    by_cases hopen : ∃ o now, e.call = .channelOpen o now
    · obtain ⟨o, now, hopen⟩ := hopen
      have heq : (Carriage.step env s e).1.roundsOf cid = s.roundsOf cid := by
        rw [roundsOf, hrounds o now hopen, roundsOf]
      unfold Folded
      rw [heq]
      exact ⟨fun _ _ hf => hf, fun _ _ hf => .inl hf⟩
    · obtain ⟨mid, hs, hs'⟩ := h.stages e fun o now heq => hopen ⟨o, now, heq⟩
      obtain ⟨b₁, hb₁, hm₁⟩ := hs.moves cid _ hb
      obtain ⟨b', hb', hm'⟩ := hs'.moves cid _ hb₁
      have hreach := h.reachable cid _ hb
      have hreach₁ := hreach.moves _ hm₁
      obtain ⟨-, hback⟩ := Books.Moves.undrawn hreach hmode (by decide) hm₁
      have hnew := Books.Moves.drawn hreach₁ ((Books.Moves.mode_eq hm₁).trans hmode) hm'
      have hopening₁ : b₁.opening = (s.bookOf cid st).opening := by
        rw [Books.opening, Books.Moves.basis_eq hm₁]
        rfl
      obtain ⟨st', hst', rfl⟩ := books_eq_some.1 hb'
      refine ⟨fun k t hf => ?_, fun k t hf => ?_⟩
      · exact Books.Moves.folded hreach₁ hm' (Books.Moves.folded hreach hm₁ hf)
      · rw [settled_bookOf _ cid st']
        refine (hnew k t hf).imp (hback k t) fun hsum => ?_
        rw [hsum, hopening₁, hopening, Nat.zero_add]

/-! ## Notices -/

theorem foldInterimRound_folded {d : RoundDecision} (hd : (k, d) ∈ s.roundsOf cid)
    (ht : d.targetP = some t) (eR : List (UInt8 × ℕ)) (finalTime : Option ℕ) :
    (s.foldInterimRound cid k eR finalTime).Folded cid k t := by
  unfold Carriage.foldInterimRound
  rw [mem_roundsOf.1 hd]
  dsimp only
  split_ifs with hfold
  · exact ⟨d, hd, hfold, ht⟩
  · refine ⟨_, mem_roundsOf.2 (AList.lookup_insert _), rfl, ht⟩

/-- A draw for a locked round returns the notice of that round, and has it folded. -/
theorem drawLocked_notice {target : DrawTarget} {d : RoundDecision}
    (hd : (target.ckptRef, d) ∈ s.roundsOf cid) (ht : d.targetP = some target.targetP) {rail : ρ}
    {m : PrepayDrawCompleted} (h : (s.drawLocked env cid rail target).1 = some m) :
    m.channelId = cid ∧ (s.drawLocked env cid rail target).2.Folded cid m.ckptRef m.amount := by
  unfold drawLocked at h ⊢
  dsimp only at h ⊢
  split at h
  · cases h
  · cases h
  · rename_i r _
    split_ifs at h ⊢
    cases h
    have hset : ∀ rail' : Option ρ, (target.ckptRef, { d with drawRef := some r }) ∈
        (({ s with rail := rail' } : Carriage ρ).setDrawRef (cid, target.ckptRef) r).roundsOf
          cid := by
      intro rail'
      unfold setDrawRef
      rw [mem_roundsOf.1 hd]
      exact mem_roundsOf.2 (AList.lookup_insert _)
    exact ⟨rfl, foldInterimRound_folded (hset _) ht _ _⟩

/-- A notice is of a round that is folded, for the target it states. -/
theorem runPrepayInterimDraw_notice (h : s.Booked env.suite.toCrypto)
    {m : PrepayDrawCompleted} (hm : (s.runPrepayInterimDraw env cid).1 = some m) :
    m.channelId = cid ∧ (s.runPrepayInterimDraw env cid).2.Folded cid m.ckptRef m.amount := by
  unfold Carriage.runPrepayInterimDraw at hm ⊢
  split at hm
  · rename_i target txRef rail hplan hrail
    obtain ⟨st, hst, hmode, -, ⟨_, _, d, hr, hd, hconf, ht⟩ | ⟨_, _, hr, -⟩ | ⟨_, _, _, hr, -⟩⟩ :=
      drawPlan_ok hplan <;> cases hr
    cases hm
    have hform := (h.sound hst).formed _ hd
    exact ⟨rfl, d, hd, hform.confirmed hconf (hform.drawn hmode).1, ht⟩
  · rename_i target lock rail hplan hrail
    obtain ⟨st, hst, hmode, -, ⟨_, _, _, hr, -⟩ | ⟨_, d, hr, hd, -, -, ht⟩ |
      ⟨_, op, d, hr, hop, href, -, -, -, howes, ht⟩⟩ := drawPlan_ok hplan <;> cases hr
    · exact drawLocked_notice hd ht hm
    · have hd : (target.ckptRef, d) ∈
          ({ s with rounds := s.rounds.insert (cid, target.ckptRef) d } : Carriage ρ).roundsOf
            cid := mem_roundsOf.2 (AList.lookup_insert _)
      have htarget : d.targetP = some target.targetP := by
        rw [howes.targeted, ht]
        exact if_pos (howes.drawn hmode).1
      exact drawLocked_notice hd htarget hm
  · cases hm

end Carriage

end Paytp
