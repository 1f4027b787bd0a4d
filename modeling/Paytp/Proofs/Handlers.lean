import Paytp.Proofs.Ledgers

/-!
# Handlers move the books

What the handlers check before they change anything is what allows a move: each of them takes the
books of its channel along moves of its kinds and leaves the others alone.
-/

namespace Paytp

open Carriage

namespace Carriage

variable {ρ : Type} {env : Env ρ} {fails : StoreFaults} {s s' : Carriage ρ} {cid : ByteArr 8}

/-- A batch leaves everything as it was, or meters its channel or pauses it. -/
theorem batch_cases (s : Carriage ρ) (env : Env ρ) (cid : ByteArr 8) (slices : List Slice) :
    (s.batch env cid slices).2 = s ∨ ∃ st st', s.channels.lookup cid = some st ∧
      (s.batch env cid slices).2 = { s with channels := s.channels.insert cid st' } ∧
      ((∃ pausedWindow, st' = { st with pausedWindow }) ∨
        (s.batch env cid slices).1 = .ok .accepted ∧ slices ≠ [] ∧
          st.acceptEach env.suite.toCrypto slices = (.ok (), st')) := by
  unfold Carriage.batch
  by_cases hempty : slices.isEmpty = true
  · rw [if_pos hempty]
    exact .inl rfl
  · rw [if_neg hempty]
    have hne : slices ≠ [] := fun hnil => hempty (by rw [hnil]; rfl)
    split
    · exact .inl rfl
    · rename_i st hst
      unfold ChannelState.acceptBatch
      rcases heach : st.acceptEach env.suite.toCrypto slices with ⟨e | ⟨⟩, st'⟩
      · refine .inr ⟨st, _, hst, rfl, .inl ?_⟩
        split_ifs
        · exact ⟨true, rfl⟩
        · exact ⟨st.pausedWindow, rfl⟩
      · exact .inr ⟨st, st', hst, rfl, .inr ⟨rfl, hne, heach⟩⟩

theorem batch_follows (h : s.Booked env.suite.toCrypto) (cid : ByteArr 8) (slices : List Slice) :
    s.Follows env.suite.toCrypto [.meter, .idle] (s.batch env cid slices).2 := by
  obtain heq | ⟨st, st', hst, heq, hcases⟩ := s.batch_cases env cid slices <;> rw [heq]
  · exact .refl s
  · refine .at_channel hst (Finmap.lookup_insert _) ?_ fun cid' hne =>
      ⟨Finmap.lookup_insert_of_ne _ hne, rfl, rfl, rfl, rfl⟩
    obtain ⟨pausedWindow, rfl⟩ | ⟨-, hne, heach⟩ := hcases
    · exact .single ⟨.idle, by simp, .idle pausedWindow id⟩
    · refine .single ⟨.meter, by simp, ?_⟩
      have hw := (h.sound hst).wellFormed
      exact .meter (ChannelState.acceptEach_taken hw heach)
        (fun _ => ChannelState.acceptEach_open hne heach)
        (ChannelState.acceptEach_within hne heach)

theorem onCheckpointRequest_follows (s : Carriage ρ) (request : CheckpointRequest) :
    s.Follows env.suite.toCrypto [.countersign] (s.onCheckpointRequest env request).2 := by
  unfold Carriage.onCheckpointRequest
  split
  · exact .refl s
  · rename_i state hscreen
    obtain ⟨hst, href⟩ := screenCheckpoint_ok hscreen
    dsimp only
    split_ifs with hrec
    · split
      · rename_i hnone
        rw [hnone] at href
        cases href
      · rename_i ckptRef _
        refine .at_channel hst (Finmap.lookup_insert _) (.single ⟨.countersign, by simp, ?_⟩) ?_
        · have hmove := Books.Move.countersign (b := s.bookOf request.proposed.channelId state)
            ckptRef hrec
          convert hmove using 1
          unfold bookOf
          dsimp only
          rw [Finmap.lookup_insert]
          rfl
        · exact fun cid' hne => ⟨Finmap.lookup_insert_of_ne _ hne,
            Finmap.lookup_insert_of_ne _ hne, rfl, rfl, rfl⟩
    · exact .refl s
    · exact .refl s

/-- A funding credits no more than its ledger holds and, in postpay, than is outstanding. -/
theorem fundingCredit_ok {fp : FundingProof} {c : FundingCredit}
    (h : s.fundingCredit env fp = .ok c) : s.channels.lookup c.target = some c.channel ∧
      c.newFunding = (s.bookOf c.target c.channel).ledger.fundingSum + c.credited ∧
      c.newFunding ≤ U128_MAX ∧
      (c.channel.mode = .postpay → c.credited ≤ (s.bookOf c.target c.channel).outstandingNet) := by
  unfold fundingCredit at h
  simp only [bind_eq_ok, okOr_eq_ok, pure_eq_ok, u128OfNat_eq_some] at h
  obtain ⟨payerKey, -, authHash, -, -, -, -, -, -, -, ⟨amount, canonicalRef⟩, -, -, -, channel,
    hchannel, newFunding, ⟨hle, rfl⟩, rfl⟩ := h
  refine ⟨hchannel, rfl, hle, fun hmode => ?_⟩
  unfold creditedFunding
  dsimp only at hmode
  rw [hmode]
  exact min_le_right _ _

theorem onFunding_follows (s : Carriage ρ) (fp : FundingProof) :
    s.Follows env.suite.toCrypto [.fund] (s.onFunding env fails fp).2 := by
  unfold Carriage.onFunding
  split
  · exact .refl s
  · rename_i c hc
    obtain ⟨hch, hnew, hle, howed⟩ := fundingCredit_ok hc
    have hkeep := s.consumeRef_sameBooks fails c.canonicalRef
    split <;> (rename_i s₁ heq; rw [heq] at hkeep)
    · exact .of_same hkeep
    · exact .of_same hkeep
    · refine (Follows.of_same hkeep).trans ?_
      rw [← hkeep.channels] at hch
      rw [← (hkeep.sameAt c.target).bookOf] at hnew howed
      refine .at_channel hch (Finmap.lookup_insert _) (.single ⟨.fund, by simp, ?_⟩) ?_
      · have hmove : Books.Move env.suite.toCrypto .fund (s₁.bookOf c.target c.channel) _ :=
          .fund (hnew ▸ hle) howed
        convert hmove using 1
        unfold bookOf at hnew ⊢
        dsimp only at hnew ⊢
        rw [Finmap.lookup_insert, hnew]
        rfl
      · exact fun cid' hne => ⟨Finmap.lookup_insert_of_ne _ hne, rfl, rfl,
          Finmap.lookup_insert_of_ne _ hne, rfl⟩

/-! ## Proposals -/

/-- A round that recomputes is the division of what is outstanding at the operative checkpoint. -/
theorem recomputeRound_ok {r : RecomputedRound} (h : s.recomputeRound cid = .ok r) :
    ∃ op div, s.operative.lookup cid = some op ∧ rolesAscending op.accruals = true ∧
      divideOutstanding op.accruals ((s.ledger.lookup cid).getD {}).settledR = .ok div ∧
      r.eR = (op.accruals.map Prod.fst).zip div.eR ∧
      r.meedAmount = if div.leg then some div.p else none := by
  unfold recomputeRound at h
  simp only [bind_eq_ok, okOr_eq_ok, require_eq_ok, mapError_eq_ok] at h
  obtain ⟨op, hop, terms, -, -, hasc, div, hdiv, cum, -, h⟩ := h
  refine ⟨op, div, hop, hasc, hdiv, ?_⟩
  by_cases hleg : div.leg = true
  · rw [if_pos hleg] at h ⊢
    simp only [bind_eq_ok, map_eq_ok, okOr_eq_ok, u128OfNat_eq_some, pure_eq_ok] at h
    obtain ⟨_, ⟨p, ⟨-, rfl⟩, rfl⟩, rfl⟩ := h
    exact ⟨rfl, rfl⟩
  · rw [if_neg hleg] at h ⊢
    simp only [bind_eq_ok, pure_eq_ok] at h
    obtain ⟨_, rfl, rfl⟩ := h
    exact ⟨rfl, rfl⟩

theorem targetP_bookOf (s : Carriage ρ) (cid : ByteArr 8) (st : ChannelState)
    (accruals : List (UInt8 × ℕ)) :
    (s.bookOf cid st).targetP accruals = s.cumulativeTargetP cid accruals := rfl

theorem ne_prepay {m : Option Mode} {mode : Mode} (h : (m != some .prepay) = true)
    (hm : m = some mode) : mode = .postpay := by
  cases mode with
  | postpay => rfl
  | prepay =>
    rw [hm] at h
    cases h

/-- A proposal names a round or an operative checkpoint of the channel. -/
theorem proposedRound_named {p : SettlementPropose} {d : RoundDecision}
    (h : s.proposedRound env p = .ok d) : (∃ d₀, (p.ckptRef, d₀) ∈ s.roundsOf p.channelId) ∨
      ∃ op, s.operative.lookup p.channelId = some op := by
  unfold proposedRound at h
  simp only [bind_eq_ok, require_eq_ok] at h
  obtain ⟨-, -, -, -, -, -, -, -, -, -, -, -, -, -, -, hop, -⟩ := h
  rcases Bool.or_eq_true_iff.1 hop with hop | hop
  · obtain ⟨op, hop, -⟩ := Option.map_eq_some_iff.1 (beq_iff_eq.1 hop)
    exact .inr ⟨op, hop⟩
  · obtain ⟨d₀, hd₀⟩ := Option.isSome_iff_exists.1 hop
    exact .inl ⟨d₀, mem_roundsOf.2 hd₀⟩

/-- A proposal restates the round it names or locks the one that is owed. -/
theorem proposedRound_ok {p : SettlementPropose} {d : RoundDecision} {st : ChannelState}
    (hst : s.channels.lookup p.channelId = some st) (h : s.proposedRound env p = .ok d) :
    (∃ d₀, (p.ckptRef, d₀) ∈ s.roundsOf p.channelId ∧ Books.Restates d₀ d ∧ st.mode = .postpay) ∨
    (∃ op, s.operative.lookup p.channelId = some op ∧ op.ckptRef = p.ckptRef ∧
      (∀ r ∈ s.roundsOf p.channelId, r.1 ≠ op.ckptRef) ∧
      (∀ r ∈ s.roundsOf p.channelId, r.2.confirmed = true) ∧
      (s.bookOf p.channelId st).Owes op d) := by
  unfold proposedRound at h
  dsimp only at h
  cases hstarted : s.rounds.lookup (p.channelId, p.ckptRef) with
  | some d₀ =>
    rw [hstarted] at h
    simp only [bind_eq_ok, okOr_eq_ok, require_eq_ok, pure_eq_ok] at h
    obtain ⟨-, -, -, -, -, -, -, -, -, hmode, -, -, -, -, -, -, -, -, -, -, -, -, -, -, ph, -, -, -,
      rfl⟩ := h
    refine .inl ⟨d₀, mem_roundsOf.2 hstarted, ⟨rfl, rfl, rfl, rfl, rfl, rfl, rfl⟩, ?_⟩
    exact ne_prepay hmode (by rw [hst]; rfl)
  | none =>
    rw [hstarted] at h
    simp only [bind_eq_ok, okOr_eq_ok, require_eq_ok] at h
    obtain ⟨-, -, -, -, -, -, -, -, -, hmode, -, -, -, hquiet, -, hop, -, -, -, -, -, -, -, -, r,
      hr, -, -, h⟩ := h
    have hpost : st.mode = .postpay := ne_prepay hmode (by rw [hst]; rfl)
    obtain ⟨op, div, hop', hasc, hdiv, heR, hamount⟩ := recomputeRound_ok hr
    have href : op.ckptRef = p.ckptRef := by
      rw [hop'] at hop
      simpa using hop
    have hbuilt : d.targetP =
        (if r.meedAmount.isSome then s.cumulativeTargetP p.channelId op.accruals else none) ∧
        d.targetP.isSome = r.meedAmount.isSome ∧ d.meedAmount = r.meedAmount ∧ d.eR = r.eR ∧
        d.meedFolded = false ∧ d.confirmed = false ∧ d.netFolded = false := by
      cases heq : r.meedAmount with
      | some amount =>
        rw [heq] at h
        simp only [bind_eq_ok, map_eq_ok, okOr_eq_ok, pure_eq_ok] at h
        obtain ⟨op₁, hop₁, _, ⟨t, ht, rfl⟩, -, -, ph, -, rfl⟩ := h
        rw [hop'] at hop₁
        cases hop₁
        exact ⟨ht.symm, rfl, rfl, rfl, rfl, rfl, rfl⟩
      | none =>
        rw [heq] at h
        simp only [bind_eq_ok, okOr_eq_ok, pure_eq_ok] at h
        obtain ⟨_, rfl, -, -, ph, -, rfl⟩ := h
        exact ⟨rfl, rfl, rfl, rfl, rfl, rfl, rfl⟩
    obtain ⟨htarget, hsome, hamount', heR', hmeed, hconf, hnet⟩ := hbuilt
    have hnew : ∀ r ∈ s.roundsOf p.channelId, r.1 ≠ op.ckptRef := by
      rintro ⟨k, d⟩ hr rfl
      rw [mem_roundsOf, href, hstarted] at hr
      cases hr
    refine .inr ⟨op, hop', href, hnew, ?_, ?_⟩
    · intro r hr
      by_contra hconf
      rw [Bool.not_eq_eq_eq_not, Bool.not_true, List.any_eq_false] at hquiet
      have hne := hnew r hr
      rw [href] at hne
      exact hquiet r hr (by simp [hne, Bool.eq_false_of_not_eq_true hconf])
    · refine ⟨hasc, ⟨div, hdiv, heR'.trans heR, hamount'.trans hamount⟩, ?_, ?_, hmeed, hconf,
        fun _ => hpost, fun hpre => ?_, fun _ => hnet⟩
      · rw [hamount']
        exact htarget
      · rw [hamount']
        exact hsome
      · have hmode' : st.mode = .prepay := hpre
        rw [hpost] at hmode'
        cases hmode'

/-- A round is put into the books of its channel. -/
theorem Follows.put {crypto : Crypto} {kinds : List Books.Kind} {kind : Books.Kind}
    {st : ChannelState} {k : ByteArr 32} {d : RoundDecision} (hk : kind ∈ kinds)
    (hst : s.channels.lookup cid = some st)
    (hm : Books.Move crypto kind (s.bookOf cid st)
      { s.bookOf cid st with rounds := Keyed.put k d (s.roundsOf cid) }) :
    s.Follows crypto kinds { s with rounds := s.rounds.insert (cid, k) d } := by
  have hput : Books.Move crypto kind (s.bookOf cid st)
      (({ s with rounds := s.rounds.insert (cid, k) d } : Carriage ρ).bookOf cid st) := by
    convert hm using 1
    unfold bookOf
    rw [roundsOf_insert]
  exact .at_channel hst hst (.single ⟨kind, hk, hput⟩) fun cid' hne =>
    ⟨rfl, rfl, rfl, rfl, roundsOf_insert_ne s hne k d⟩

theorem onSettlementPropose_follows (h : s.Booked env.suite.toCrypto) (p : SettlementPropose) :
    s.Follows env.suite.toCrypto [.lock, .restate] (s.onSettlementPropose env p).2 := by
  unfold Carriage.onSettlementPropose
  split
  · exact .refl s
  · rename_i d hd
    obtain ⟨st, hst⟩ : ∃ st, s.channels.lookup p.channelId = some st := by
      cases hch : s.channels.lookup p.channelId with
      | some st => exact ⟨st, rfl⟩
      | none =>
        have hret := proposedRound_named hd
        rcases hret with ⟨d₀, hd₀⟩ | ⟨op, hop⟩
        · exact absurd (h.channel_of_round hd₀) (by rw [hch]; simp)
        · exact absurd (h.channel_of_operative hop) (by rw [hch]; simp)
    obtain ⟨d₀, hd₀, hs, hmode⟩ | ⟨op, hop, href, hnew, hquiet, howes⟩ := proposedRound_ok hst hd
    · exact .put (by simp) hst (.restate hd₀ hs fun _ => .inr hmode)
    · have hmove : Books.Move env.suite.toCrypto .lock (s.bookOf p.channelId st) _ :=
        .lock hop hnew hquiet howes
      rw [href] at hmove
      exact .put (by simp) hst hmove

/-! ## Proofs -/

/-- What a proof folds of the round it was matched to. -/
theorem roundFold_ok {rail : ρ} {proof : SettlementProof} {key : ByteArr 8 × ByteArr 32}
    {round : RoundDecision} {fold : RoundFold}
    (h : s.roundFold env rail proof key round = .ok fold) :
    fold.key = key ∧ fold.round = round ∧
      (fold.foldMeed = true → round.meedAmount.isSome = true ∧ round.meedFolded = false) ∧
      (fold.foldNet = true → round.netFolded = false ∧
        netTotal round.outputs = some fold.netTotal) ∧
      (fold.foldNet = false → fold.netTotal = 0) ∧
      fold.newNetLegs =
        ((s.ledger.lookup proof.channelId).getD {}).netLegsSum + fold.netTotal ∧
      (fold.confirmed.isSome = true → round.meedAmount.isSome = true →
        round.meedFolded = true ∨ fold.foldMeed = true) := by
  unfold roundFold at h
  simp only [bind_eq_ok, okOr_eq_ok, require_eq_ok] at h
  obtain ⟨-, -, terms, -, m, -, -, -, -, -, h⟩ := h
  have hmeed : (round.meedAmount.isSome && !round.meedFolded && m.meedTime.isSome) = true →
      round.meedAmount.isSome = true ∧ round.meedFolded = false := by
    simp only [Bool.and_eq_true, Bool.not_eq_true']
    exact fun hm => hm.1
  have hconfirms : ∀ {receipt : SettlementConfirmed}, (if (!round.meedAmount.isSome ||
      round.meedFolded || round.meedAmount.isSome && !round.meedFolded && m.meedTime.isSome) &&
      (round.netFolded || m.matched.all id) then some receipt else none).isSome = true →
      round.meedAmount.isSome = true → round.meedFolded = true ∨
        (round.meedAmount.isSome && !round.meedFolded && m.meedTime.isSome) = true := by
    intro receipt hconf hsome
    split_ifs at hconf with hwill
    · simp only [hsome, Bool.not_true, Bool.false_or, Bool.and_eq_true, Bool.or_eq_true] at hwill
      simpa [hsome] using hwill.1
    · cases hconf
  by_cases hnet : (!round.netFolded && m.matched.all id && !m.netRefs.isEmpty) = true
  · rw [if_pos hnet] at h
    simp only [bind_eq_ok, okOr_eq_ok, require_eq_ok, pure_eq_ok, u128OfNat_eq_some] at h
    obtain ⟨total, htotal, _, ⟨-, rfl⟩, -, -, rfl⟩ := h
    refine ⟨rfl, rfl, hmeed, fun _ => ⟨?_, htotal⟩, fun hno => ?_, rfl, hconfirms⟩
    · simp only [Bool.and_eq_true, Bool.not_eq_true'] at hnet
      exact hnet.1.1
    · rw [hnet] at hno
      cases hno
  · rw [if_neg hnet] at h
    simp only [bind_eq_ok, okOr_eq_ok, require_eq_ok, pure_eq_ok, u128OfNat_eq_some] at h
    obtain ⟨_, rfl, _, ⟨-, rfl⟩, -, -, rfl⟩ := h
    exact ⟨rfl, rfl, hmeed, fun hyes => absurd hyes hnet, fun _ => rfl, rfl, hconfirms⟩

/-- A proof keeps evidence with a round or folds what is provable of it. -/
theorem proofPlan_ok {proof : SettlementProof} {plan : ProofPlan}
    (h : s.proofPlan env proof = .ok plan) :
    (∃ r, plan = .answer r) ∨
    (∃ k round, plan = .keepEvidence (proof.channelId, k) round ∧
      (k, round) ∈ s.roundsOf proof.channelId) ∨
    (∃ k fold, plan = .foldRound fold ∧ fold.key = (proof.channelId, k) ∧
      (k, fold.round) ∈ s.roundsOf proof.channelId ∧
      ∀ st, (s.bookOf proof.channelId st).Folds k fold) := by
  unfold proofPlan at h
  simp only [bind_eq_ok, okOr_eq_ok, require_eq_ok] at h
  obtain ⟨payerKey, -, -, -, ⟨k, round⟩, hfind, h⟩ := h
  have hround := List.mem_of_find?_eq_some hfind
  have hhash : proof.proposalHash ∈ round.proposalHashes := by
    simpa using List.find?_some hfind
  dsimp only at h
  by_cases hconf : round.confirmed = true
  · rw [if_pos hconf] at h
    split_ifs at h <;> (cases h; exact .inl ⟨_, rfl⟩)
  · rw [if_neg hconf] at h
    split at h
    · rename_i rail _ _
      rw [map_eq_ok] at h
      obtain ⟨fold, hfold, rfl⟩ := h
      obtain ⟨hkey, hr, hmeed, hnet, hzero, hnew, hconfirms⟩ := roundFold_ok hfold
      refine .inr (.inr ⟨k, fold, rfl, hkey, hr ▸ hround, fun st => ?_⟩)
      constructor
      · exact hr ▸ hround
      · rw [hr]
        exact Bool.eq_false_of_not_eq_true hconf
      · rw [hr]
        exact ⟨_, hhash⟩
      · rw [hr]
        exact hmeed
      · rw [hr]
        exact hnet
      · exact hzero
      · exact hnew
      · rw [hr]
        exact hconfirms
    · cases h
      exact .inr (.inl ⟨k, round, rfl, hround⟩)

theorem foldLegs_eq (s : Carriage ρ) {fold : RoundFold} {k : ByteArr 32} {st : ChannelState}
    (hkey : fold.key = (cid, k)) (hst : s.channels.lookup cid = some st) :
    s.foldLegs fold = { s with
      ledger := s.ledger.insert cid ((s.bookOf cid st).foldedLedger fold)
      channels := if (s.bookOf cid st).gross fold > 0 then
          s.channels.insert cid (st.applySettlementRound ((s.bookOf cid st).gross fold))
        else s.channels
      rounds := s.rounds.insert (cid, k)
        (Books.foldedRound fold ((s.bookOf cid st).foldedLedger fold).version) } := by
  unfold Carriage.foldLegs
  rw [hkey]
  dsimp only
  rw [hst]
  rfl

/-- Folding a round in the carriage is folding it in the books. -/
theorem foldLegs_books (s : Carriage ρ) {fold : RoundFold} {k : ByteArr 32} {st : ChannelState}
    (hkey : fold.key = (cid, k)) (hst : s.channels.lookup cid = some st) :
    (s.foldLegs fold).books cid = some ((s.bookOf cid st).foldLegs k fold) ∧
      ∀ cid', cid' ≠ cid → SameAt cid' s (s.foldLegs fold) := by
  rw [foldLegs_eq s hkey hst]
  constructor
  · have hch : (if (s.bookOf cid st).gross fold > 0 then
          s.channels.insert cid (st.applySettlementRound ((s.bookOf cid st).gross fold))
        else s.channels).lookup cid =
        some (if (s.bookOf cid st).gross fold > 0 then
          st.applySettlementRound ((s.bookOf cid st).gross fold) else st) := by
      split_ifs
      · exact Finmap.lookup_insert _
      · exact hst
    refine (books_of hch).trans ?_
    rw [bookOf]
    dsimp only
    rw [Finmap.lookup_insert]
    refine congrArg some (congrArg (Books.mk _ _ _ _) ?_)
    exact roundsOf_insert { s with channels := _, ledger := _ } cid k _
  · intro cid' hne
    refine ⟨?_, rfl, rfl, Finmap.lookup_insert_of_ne _ hne, ?_⟩
    · dsimp only
      split_ifs
      · exact Finmap.lookup_insert_of_ne _ hne
      · rfl
    · exact roundsOf_insert_ne { s with channels := _, ledger := _ } hne k _

theorem onSettlementProof_follows (h : s.Booked env.suite.toCrypto) (proof : SettlementProof) :
    s.Follows env.suite.toCrypto [.restate, .fold] (s.onSettlementProof env fails proof).2 := by
  unfold Carriage.onSettlementProof
  split
  · exact .refl s
  · exact .refl s
  · rename_i key round hplan
    obtain ⟨r, hr⟩ | ⟨k, round, hr, hround⟩ | ⟨k, fold, hr, -⟩ := proofPlan_ok hplan
    · cases hr
    · cases hr
      obtain ⟨st, hst⟩ := h.channel_of_round hround
      exact .put (by simp) hst (.restate hround ⟨rfl, rfl, rfl, rfl, rfl, rfl, rfl⟩ .inl)
    · cases hr
  · rename_i fold hplan
    have hkeep := consumeRefs_sameBooks fails s (if fold.foldNet then fold.netRefs else [])
    split <;> (rename_i s₁ heq; rw [heq] at hkeep)
    · exact .of_same hkeep
    · exact .of_same hkeep
    · refine (Follows.of_same hkeep).trans ?_
      obtain ⟨r, hr⟩ | ⟨k, round, hr, -⟩ | ⟨k, fold, hr, hkey, hround, hfolds⟩ :=
        proofPlan_ok hplan
      · cases hr
      · cases hr
      · cases hr
        obtain ⟨st, hst⟩ := h.channel_of_round hround
        have hfolds := hfolds st
        rw [← (hkeep.sameAt proof.channelId).bookOf] at hfolds
        rw [← hkeep.channels] at hst
        obtain ⟨hbooks, hother⟩ := foldLegs_books s₁ hkey hst
        obtain ⟨st', hst', hbook⟩ := books_eq_some.1 hbooks
        refine .at_channel hst hst' (.single ⟨.fold, by simp, ?_⟩) hother
        rw [hbook]
        exact .fold hfolds

/-! ## Draws -/

section draw
variable {crypto : Crypto} {st : ChannelState} {k : ByteArr 32} {d : RoundDecision}

/-- Folding the round of a draw is a move. -/
theorem foldInterimRound_follows (hst : s.channels.lookup cid = some st)
    (hmode : st.mode = .prepay) (hd : (k, d) ∈ s.roundsOf cid) (hconf : d.confirmed = false)
    {eR : List (UInt8 × ℕ)} (heR : d.eR = eR) (finalTime : Option ℕ) :
    s.Follows crypto [.draw] (s.foldInterimRound cid k eR finalTime) := by
  unfold Carriage.foldInterimRound
  rw [mem_roundsOf.1 hd]
  dsimp only
  split_ifs with hfold
  · exact .refl s
  · have hmove : Books.Move crypto .draw (s.bookOf cid st) _ :=
      .draw finalTime hd (Bool.eq_false_of_not_eq_true hfold) hconf hmode
    subst heR
    refine .at_channel hst hst (.single ⟨.draw, by simp, ?_⟩) fun cid' hne => ?_
    · convert hmove using 1
      unfold bookOf Books.foldInterimRound
      dsimp only
      rw [Finmap.lookup_insert]
      exact congrArg (Books.mk _ _ _ _) (roundsOf_insert { s with ledger := _ } cid k _)
    · exact ⟨rfl, rfl, rfl, Finmap.lookup_insert_of_ne _ hne,
        roundsOf_insert_ne { s with ledger := _ } hne k _⟩

/-- Keeping the reference of a draw restates its round. -/
theorem setDrawRef_follows (crypto : Crypto) (hst : s.channels.lookup cid = some st)
    (hd : (k, d) ∈ s.roundsOf cid) (r : String) :
    s.Follows crypto [.restate] (s.setDrawRef (cid, k) r) ∧
      (k, { d with drawRef := some r }) ∈ (s.setDrawRef (cid, k) r).roundsOf cid := by
  unfold setDrawRef
  rw [mem_roundsOf.1 hd]
  dsimp only
  constructor
  · exact .put (by simp) hst (.restate hd ⟨rfl, rfl, rfl, rfl, rfl, rfl, rfl⟩ .inl)
  · rw [roundsOf_insert]
    exact Keyed.mem_put.2 (.inl rfl)

/-- A draw of a locked round keeps its reference with it, and then completes it or not. -/
theorem drawLocked_stages (env : Env ρ) (crypto : Crypto) (hst : s.channels.lookup cid = some st)
    (hmode : st.mode = .prepay) {target : DrawTarget} (hd : (target.ckptRef, d) ∈ s.roundsOf cid)
    (hconf : d.confirmed = false) (heR : d.eR = target.eR) (rail : ρ) :
    ∃ mid : Carriage ρ, s.Follows crypto [.restate] mid ∧
      mid.Follows crypto [.draw] (s.drawLocked env cid rail target).2 := by
  have hfold : ∀ {s' : Carriage ρ} {d' : RoundDecision} (finalTime : Option ℕ),
      s'.channels.lookup cid = some st → (target.ckptRef, d') ∈ s'.roundsOf cid →
      d'.confirmed = false → d'.eR = target.eR → s'.Follows crypto [.draw]
        (s'.foldInterimRound cid target.ckptRef target.eR finalTime) := by
    intro s' d' finalTime hst' hd' hconf' heR'
    exact foldInterimRound_follows hst' hmode hd' hconf' heR' finalTime
  unfold drawLocked
  dsimp only
  split
  · exact ⟨_, .of_same (sameBooks_rail s _), hfold none hst hd hconf heR⟩
  · exact ⟨_, .of_same (sameBooks_rail s _), .refl _⟩
  · rename_i r _
    have hset : ∀ rail' : ρ, s.Follows crypto [.restate]
        (({ s with rail := some rail' } : Carriage ρ).setDrawRef (cid, target.ckptRef) r) ∧
        (target.ckptRef, { d with drawRef := some r }) ∈
          (({ s with rail := some rail' } : Carriage ρ).setDrawRef (cid, target.ckptRef)
            r).roundsOf cid := by
      intro rail'
      have hset := setDrawRef_follows crypto (s := { s with rail := some rail' }) hst hd r
      exact ⟨(Follows.of_same (sameBooks_rail s _)).trans hset.1, hset.2⟩
    have hst' : ∀ rail' : ρ, (({ s with rail := some rail' } : Carriage ρ).setDrawRef
        (cid, target.ckptRef) r).channels.lookup cid = some st := by
      intro rail'
      rw [(setDrawRef_redrawn _ _ _).offRail.channels]
      exact hst
    split_ifs
    · exact ⟨_, (hset _).1, hfold _ (hst' _) (hset _).2 hconf heR⟩
    · exact ⟨_, (hset _).1, .refl _⟩

end draw

/-- A channel whose status is live is open. -/
theorem phase_of_status {st : ChannelState}
    (h : st.status = .open ∨ st.status = .pausedWindow ∨ st.status = .pausedEvidence) :
    st.phase = .open := by
  unfold ChannelState.status at h
  cases hphase : st.phase <;> rw [hphase] at h <;> simp at h ⊢

/-- A draw works on the round in flight or on the one that is owed. -/
theorem drawPlan_ok {plan : DrawPlan} (h : s.drawPlan env cid = some plan) :
    ∃ st, s.channels.lookup cid = some st ∧ st.mode = .prepay ∧ st.phase = .open ∧
      ((∃ target txRef d, plan = .repeatNotice target txRef ∧
        (target.ckptRef, d) ∈ s.roundsOf cid ∧ d.confirmed = true ∧
        d.targetP = some target.targetP) ∨
      (∃ target d, plan = .draw target none ∧ (target.ckptRef, d) ∈ s.roundsOf cid ∧
        d.confirmed = false ∧ d.eR = target.eR ∧ d.targetP = some target.targetP) ∨
      (∃ target op d, plan = .draw target (some d) ∧ s.operative.lookup cid = some op ∧
        target.ckptRef = op.ckptRef ∧ (∀ r ∈ s.roundsOf cid, r.1 ≠ op.ckptRef) ∧
        (∀ r ∈ s.roundsOf cid, r.2.confirmed = true) ∧ d.eR = target.eR ∧
        (s.bookOf cid st).Owes op d ∧
        (s.bookOf cid st).targetP op.accruals = some target.targetP)) := by
  unfold drawPlan at h
  simp only [Option.bind_eq_bind, Option.bind_eq_some_iff] at h
  obtain ⟨terms, hterms, rail, -, h⟩ := h
  unfold drawTerms at hterms
  simp only [Option.bind_eq_bind, Option.bind_eq_some_iff, Option.guard_eq_some'] at hterms
  obtain ⟨st, hst, -, hmode, -, hstatus, -⟩ := hterms
  refine ⟨st, hst, hmode, phase_of_status hstatus, ?_⟩
  cases hfind : (s.roundsOf cid).find? fun r => !r.2.confirmed with
  | some r =>
    obtain ⟨k, d⟩ := r
    rw [hfind] at h
    simp only [Option.bind_eq_some_iff] at h
    obtain ⟨targetP, htarget, h⟩ := h
    cases h
    refine .inr (.inl ⟨_, d, rfl, List.mem_of_find?_eq_some hfind, ?_, rfl, htarget⟩)
    simpa using List.find?_some hfind
  | none =>
    rw [hfind] at h
    simp only [Option.bind_eq_some_iff] at h
    obtain ⟨op, hop, h⟩ := h
    cases hround : s.rounds.lookup (cid, op.ckptRef) with
    | some d =>
      rw [hround] at h
      simp only [Option.bind_eq_some_iff] at h
      simp only [Option.guard_eq_some'] at h
      obtain ⟨-, hconf, targetP, htarget, txRef, -, h⟩ := h
      cases h
      exact .inl ⟨_, _, d, rfl, mem_roundsOf.2 hround, hconf, htarget⟩
    | none =>
      rw [hround] at h
      simp only [Option.bind_eq_some_iff, toOption_eq_some] at h
      obtain ⟨r, hr, p, hp, targetP, htarget, h⟩ := h
      cases h
      obtain ⟨op', div, hop', hasc, hdiv, heR, hamount⟩ := recomputeRound_ok hr
      rw [hop] at hop'
      cases hop'
      refine .inr (.inr ⟨_, op, _, rfl, hop, rfl, ?_, ?_, rfl, ?_, htarget⟩)
      · rintro ⟨k, d⟩ hd rfl
        rw [mem_roundsOf, hround] at hd
        cases hd
      · intro r hr'
        have hnone := List.find?_eq_none.1 hfind r hr'
        simpa using hnone
      · refine ⟨hasc, ⟨div, hdiv, heR, hp.symm.trans hamount⟩, htarget.symm, rfl, rfl, rfl,
          fun hne => ?_, fun _ => ⟨rfl, rfl, rfl⟩, fun hpost => ?_⟩
        · exact absurd hne (by simp [lockedRound])
        · have hmode' : st.mode = .postpay := hpost
          rw [hmode] at hmode'
          cases hmode'

variable (env) in
/-- A draw locks the round that is owed, unless one is in flight, and draws for it. -/
theorem runPrepayInterimDraw_stages (s : Carriage ρ) (cid : ByteArr 8) :
    ∃ mid : Carriage ρ, s.Follows env.suite.toCrypto [.lock, .restate] mid ∧
      mid.Follows env.suite.toCrypto [.draw] (s.runPrepayInterimDraw env cid).2 := by
  unfold Carriage.runPrepayInterimDraw
  split
  · exact ⟨s, .refl s, .refl s⟩
  · rename_i target lock rail hplan _
    obtain ⟨st, hst, hmode, -, ⟨_, _, _, hr, -⟩ | ⟨target, d, hr, hd, hconf, heR, -⟩ |
      ⟨target, op, d, hr, hop, href, hnew, hquiet, heR, howes, -⟩⟩ := drawPlan_ok hplan
    · cases hr
    · cases hr
      obtain ⟨mid, hlocked, hdrawn⟩ :=
        drawLocked_stages env env.suite.toCrypto hst hmode hd hconf heR rail
      exact ⟨mid, hlocked.mono (by simp), hdrawn⟩
    · cases hr
      have hmove : Books.Move env.suite.toCrypto .lock (s.bookOf cid st) _ :=
        .lock hop hnew hquiet howes
      rw [← href] at hmove
      have hput : s.Follows env.suite.toCrypto [.lock, .restate]
          { s with rounds := s.rounds.insert (cid, target.ckptRef) d } :=
        .put (by simp) hst hmove
      have hd : (target.ckptRef, d) ∈
          ({ s with rounds := s.rounds.insert (cid, target.ckptRef) d } : Carriage ρ).roundsOf
            cid := by
        rw [roundsOf_insert]
        exact Keyed.mem_put.2 (.inl rfl)
      obtain ⟨mid, hlocked, hdrawn⟩ := drawLocked_stages env env.suite.toCrypto
        (s := { s with rounds := s.rounds.insert (cid, target.ckptRef) d }) hst hmode hd
        howes.confirmed heR rail
      exact ⟨mid, hput.trans (hlocked.mono (by simp)), hdrawn⟩
  · exact ⟨s, .refl s, .refl s⟩

theorem runPrepayInterimDraw_follows (s : Carriage ρ) (cid : ByteArr 8) :
    s.Follows env.suite.toCrypto [.lock, .restate, .draw]
      (s.runPrepayInterimDraw env cid).2 := by
  obtain ⟨mid, hlocked, hdrawn⟩ := runPrepayInterimDraw_stages env s cid
  exact (hlocked.mono (by simp)).trans (hdrawn.mono (by simp))

/-! ## Closing -/

theorem beginSettling_phase (st : ChannelState) : st.beginSettling.phase ≠ .open := by
  unfold ChannelState.beginSettling
  split_ifs with hclosed
  · exact nofun
  · rw [not_not.mp hclosed]
    exact nofun

theorem beginSettling_cumTotal (st : ChannelState) : st.beginSettling.cumTotal = st.cumTotal := by
  unfold ChannelState.beginSettling
  split_ifs <;> rfl

theorem beginSettling_mode (st : ChannelState) : st.beginSettling.mode = st.mode := by
  unfold ChannelState.beginSettling
  split_ifs <;> rfl

/-- What a close reconciles against is the evidence, where that is in its domain. -/
theorem basisCum_eq (st : ChannelState) (h : (s.bookOf cid st).evidenceCum ≤ U128_MAX) :
    s.basisCum cid = (s.bookOf cid st).evidenceCum := by
  unfold basisCum
  unfold Books.evidenceCum bookOf at h ⊢
  dsimp only at h ⊢
  cases hop : s.operative.lookup cid with
  | some op =>
    rw [hop] at h
    dsimp only at h ⊢
    rw [u128OfNat, if_pos h, Option.getD_some]
  | none => cases s.importedBasis.lookup cid <;> rfl

theorem drainInterimRounds_follows (h : s.Booked env.suite.toCrypto) (cid : ByteArr 8) :
    s.Follows env.suite.toCrypto [.draw, .drop] (s.drainInterimRounds env cid) := by
  unfold Carriage.drainInterimRounds
  by_cases hmode : (s.channels.lookup cid).map ChannelState.mode ≠ some .prepay
  · rw [if_pos hmode]
    exact .refl s
  · rw [if_neg hmode]
    obtain ⟨st, hst, hprepay⟩ := Option.map_eq_some_iff.1 (not_not.1 hmode)
    split
    · exact .refl s
    · rename_i terms _
      have hsound := h.sound hst
      have hmem : ∀ r ∈ (s.roundsOf cid).filter fun r => !r.2.confirmed,
          r ∈ s.roundsOf cid ∧ r.2.confirmed = false := by
        intro r hr
        simpa using List.mem_filter.1 hr
      have hnodup : ((s.roundsOf cid).filter fun r => !r.2.confirmed).Nodup :=
        (List.Nodup.of_map _ hsound.keys).filter _
      -- at most one round is in flight
      rcases hlist : (s.roundsOf cid).filter fun r => !r.2.confirmed with _ | ⟨⟨k, d⟩, rest⟩
      · rw [hlist]
        exact .refl s
      · rw [hlist] at hmem hnodup ⊢
        obtain ⟨hd, hconf⟩ := hmem (k, d) List.mem_cons_self
        have hrest : rest = [] := by
          refine List.eq_nil_iff_forall_not_mem.2 fun r hr => ?_
          obtain ⟨hr', hconf'⟩ := hmem r (List.mem_cons_of_mem _ hr)
          have heq := hsound.unique r hr' (k, d) hd hconf' hconf
          exact (List.nodup_cons.1 hnodup).1 (heq ▸ hr)
        rw [hrest, List.foldl_cons, List.foldl_nil]
        unfold drainRound
        split_ifs
        · exact (foldInterimRound_follows hst hprepay hd hconf rfl none).mono (by simp)
        · refine .at_channel hst hst (.single ⟨.drop, by simp, ?_⟩) fun cid' hne =>
            ⟨rfl, rfl, rfl, rfl, roundsOf_erase_ne s hne k⟩
          have hmove : Books.Move env.suite.toCrypto .drop (s.bookOf cid st) _ :=
            .drop hd hconf hprepay
          convert hmove using 1
          unfold bookOf
          rw [roundsOf_erase]

theorem reconcile_follows (h : s.Booked env.suite.toCrypto) (close : Close) :
    s.Follows env.suite.toCrypto [.draw, .drop] (s.reconcile env fails close).2 := by
  have hrelease : s.SameBooks (s.releaseRefund env fails close) := s.releaseRefund_sameBooks close
  have hbooked : (s.releaseRefund env fails close).Booked env.suite.toCrypto :=
    h.follows (.of_same hrelease : s.Follows env.suite.toCrypto [] _)
      (h.evidenced.untouched (releaseRefund_untouched s close)) (by rw [hrelease.driver])
  have hdrain := (Follows.of_same hrelease).trans
    (drainInterimRounds_follows hbooked close.channelId)
  unfold reconcile
  dsimp only
  generalize hs₂ : (s.releaseRefund env fails close).drainInterimRounds env close.channelId = s₂
    at hdrain ⊢
  generalize ChainState.reconciled (s₂.computePendingDraw close.channelId) = d
  have hkeep := s₂.decideKey_sameBooks fails (dispKey close.channelId) (encodeDisp d)
  split <;> (rename_i s₃ heq; rw [recordDisposition] at heq; rw [heq] at hkeep)
  · exact hdrain.trans (.of_same hkeep)
  · exact (hdrain.trans (.of_same hkeep)).trans (.of_same ⟨rfl, rfl, rfl, rfl, rfl, rfl⟩)

theorem closePlain_follows (h : s.Booked env.suite.toCrypto) (close : Close) :
    s.Follows env.suite.toCrypto [.draw, .drop] (s.closePlain env fails close).2 := by
  unfold closePlain
  split_ifs
  · have hrec : s.Follows env.suite.toCrypto _ (s.reconcile env fails close).2 :=
      reconcile_follows h close
    rcases heq : s.reconcile env fails close with ⟨_ | _, s₁⟩ <;> rw [heq] at hrec
    · exact hrec
    · exact hrec.trans (.of_same (attemptPrepayCloseDraw_sameBooks s₁ _))
  · exact .of_same (attemptPrepayCloseDraw_sameBooks s _)

theorem closeChained_sameBooks (s : Carriage ρ) (cid : ByteArr 8) :
    s.SameBooks (s.closeChained cid).2 := by
  unfold closeChained
  dsimp only
  split_ifs <;> exact ⟨rfl, rfl, rfl, rfl, rfl, rfl⟩

theorem finishClose_follows (s : Carriage ρ) (cid : ByteArr 8) :
    s.Follows env.suite.toCrypto [.idle] (s.finishClose cid).2 := by
  unfold finishClose
  split
  · exact .refl s
  · rename_i st hst
    refine .at_channel hst (Finmap.lookup_insert _) ?_ fun cid' hne =>
      ⟨Finmap.lookup_insert_of_ne _ hne, rfl, rfl, rfl, rfl⟩
    unfold ChannelState.beginSettling
    split_ifs
    · exact .single ⟨.idle, by simp, .idle st.pausedWindow fun _ => nofun⟩
    · exact .refl

theorem onClose_follows (h : s.Booked env.suite.toCrypto) (close : Close) :
    s.Follows env.suite.toCrypto [.draw, .drop, .idle] (s.onClose env fails close).2 := by
  unfold Carriage.onClose
  split
  · exact .refl s
  · rename_i decision _
    have hclose : s.Follows env.suite.toCrypto [.draw, .drop, .idle]
        (if s.chains close.channelId decision then s.closeChained close.channelId
          else s.closePlain env fails close).2 := by
      split_ifs
      · exact .of_same (closeChained_sameBooks s _)
      · exact (closePlain_follows h close).mono (by simp)
    dsimp only
    generalize (if s.chains close.channelId decision then s.closeChained close.channelId
        else s.closePlain env fails close) = r at hclose ⊢
    obtain ⟨_ | _, s₁⟩ := r
    · exact hclose
    · exact hclose.trans ((finishClose_follows s₁ close.channelId).mono (by simp))

end Carriage

end Paytp
