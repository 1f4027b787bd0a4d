import Paytp.Proofs.Booked
import Paytp.Proofs.Consumed
import Paytp.Sample

/-!
# One credit for a payment

A funding and the net legs of a round credit a channel once every reference they rest on was
consumed first. So over all the carriages that a merchant builds on one store, one after the
other, no reference is credited twice, to whichever channel.
-/

namespace Paytp

namespace Books

variable {crypto : Crypto} {b b' : Books}

/-- What the fundings and the net legs of a channel were credited. -/
def credited (b : Books) : ℕ := b.ledger.fundingSum + b.ledger.netLegsSum

theorem Move.credited_eq {kind : Kind} (hm : Move crypto kind b b') (hfund : kind ≠ .fund)
    (hfold : kind ≠ .fold) : b'.credited = b.credited := by
  cases hm with
  | fund _ _ => exact absurd rfl hfund
  | fold _ => exact absurd rfl hfold
  | _ => rfl

theorem Moves.credited_eq {kinds : List Kind} (hfund : .fund ∉ kinds) (hfold : .fold ∉ kinds)
    (hm : Moves crypto kinds b b') : b'.credited = b.credited := by
  induction hm with
  | refl => rfl
  | tail _ hm ih =>
    obtain ⟨kind, hk, hm⟩ := hm
    rw [hm.credited_eq (fun he => hfund (he ▸ hk)) (fun he => hfold (he ▸ hk)), ih]

end Books

namespace Carriage

variable {ρ : Type} {env : Env ρ} {fails : StoreFaults} {s s' : Carriage ρ} {cid : ByteArr 8}

/-- What the fundings and the net legs of a channel were credited; a successor starts with what its
predecessor was. -/
def creditedTo (s : Carriage ρ) (cid : ByteArr 8) : ℕ :=
  let led := (s.ledger.lookup cid).getD {}
  led.fundingSum + led.netLegsSum

/-- The references a message rests on, and the channel it would credit. -/
def claims (env : Env ρ) (s : Carriage ρ) (e : Event ρ) : Option (List String × ByteArr 8) :=
  match e.call with
  | .fundingProof fp =>
    match s.fundingCredit env fp with
    | .ok c => some ([c.canonicalRef], c.target)
    | .error _ => none
  | .settlementProof proof =>
    match s.proofPlan env proof with
    | .ok (.foldRound fold) => some (if fold.foldNet then fold.netRefs else [], fold.key.1)
    | _ => none
  | _ => none

/-- How the references of a message were consumed. -/
def consumption (env : Env ρ) (s : Carriage ρ) (e : Event ρ) : Option ConsumeOutcome :=
  (s.claims env e).map fun c => (s.consumeRefs e.fails c.1).1

/-- The references that a step credits, each with its channel. -/
def credits (env : Env ρ) (s : Carriage ρ) (e : Event ρ) : List (String × ByteArr 8) :=
  match s.claims env e with
  | some (refs, cid) =>
    if (s.consumeRefs e.fails refs).1 = .first then refs.map fun r => (r, cid) else []
  | none => []

/-- The carriages of one merchant, one after the other, and what they credited: each is built on
a store that has every decision of the one before. -/
inductive Serves (env : Env ρ) : Carriage ρ → List (String × ByteArr 8) → Prop
  | built {s : Carriage ρ} (h : Built env s) : Serves env s []
  | step {s : Carriage ρ} {credited : List (String × ByteArr 8)} (h : Serves env s credited)
    (e : Event ρ) : Serves env (step env s e).1 (credited ++ s.credits env e)
  | restart {s s' : Carriage ρ} {credited : List (String × ByteArr 8)}
    {store store' : DecisionStore} (h : Serves env s credited) (hs : s.decisions = some store)
    (hs' : s'.decisions = some store') (hstore : store.Extends store') (hbuilt : Built env s') :
    Serves env s' credited

/-- The references that a run credits, each with its channel. -/
def creditsAlong (env : Env ρ) : Carriage ρ → List (Event ρ) → List (String × ByteArr 8)
  | _, [] => []
  | s, e :: es => s.credits env e ++ creditsAlong env (step env s e).1 es

theorem Serves.run : ∀ {s : Carriage ρ} {credited : List (String × ByteArr 8)}
    (es : List (Event ρ)), Serves env s credited →
      Serves env (exec (Carriage.step env) s es) (credited ++ creditsAlong env s es)
  | s, credited, [], h => by
    rw [creditsAlong, List.append_nil]
    exact h
  | s, credited, e :: es, h => by
    rw [creditsAlong, ← List.append_assoc]
    exact (h.step e).run es

theorem consumeRefs_singleton (s : Carriage ρ) (fails : StoreFaults) (r : String) :
    s.consumeRefs fails [r] = s.consumeRef fails r := by
  unfold consumeRefs
  split
  · rename_i s₁ heq
    rw [heq]
    rfl
  · rename_i outcome s₁ _ heq
    rw [heq]

/-! ## What a step consumes -/

/-- A message that rests on references consumes them, and no more is done unless all of them are
consumed first. -/
theorem claims_step {e : Event ρ} {refs : List String} (h : s.claims env e = some (refs, cid)) :
    (s.consumeRefs e.fails refs).2.Remembers (step env s e).1 ∧
      ((s.consumeRefs e.fails refs).1 ≠ .first →
        (step env s e).1 = (s.consumeRefs e.fails refs).2) := by
  obtain ⟨call, fails⟩ := e
  unfold claims at h
  cases call with
  | fundingProof fp =>
    dsimp only at h ⊢
    split at h
    · rename_i c hc
      cases h
      show (s.consumeRefs fails [c.canonicalRef]).2.Remembers (s.onFunding env fails fp).2 ∧
        (_ → (s.onFunding env fails fp).2 = _)
      unfold onFunding
      rw [consumeRefs_singleton, hc]
      dsimp only
      rcases s.consumeRef fails c.canonicalRef with ⟨_ | _ | _, s₁⟩
      · exact ⟨.of_eq rfl rfl, fun hne => absurd rfl hne⟩
      · exact ⟨.refl _, fun _ => rfl⟩
      · exact ⟨.refl _, fun _ => rfl⟩
    · cases h
  | settlementProof proof =>
    dsimp only at h ⊢
    split at h
    · rename_i fold hplan
      cases h
      show (s.consumeRefs fails (if fold.foldNet then fold.netRefs else [])).2.Remembers
          (s.onSettlementProof env fails proof).2 ∧
        (_ → (s.onSettlementProof env fails proof).2 = _)
      unfold onSettlementProof
      rw [hplan]
      dsimp only
      rcases s.consumeRefs fails (if fold.foldNet then fold.netRefs else []) with
        ⟨_ | _ | _, s₁⟩
      · exact ⟨.of_eq rfl rfl, fun hne => absurd rfl hne⟩
      · exact ⟨.refl _, fun _ => rfl⟩
      · exact ⟨.refl _, fun _ => rfl⟩
    · cases h
  | _ => cases h

/-- What a step credits was not consumed, and is from then on. -/
theorem credits_consumed (env : Env ρ) (s : Carriage ρ) (e : Event ρ) :
    ((s.credits env e).map Prod.fst).Nodup ∧ ∀ c ∈ s.credits env e,
      ¬s.Consumed c.1 ∧ (step env s e).1.Consumed c.1 := by
  unfold credits
  split
  · rename_i refs cid hclaims
    split_ifs with hfirst
    · obtain ⟨hnodup, hrefs⟩ := consumeRefs_first s refs hfirst
      refine ⟨by simpa [Function.comp_def] using hnodup, fun c hc => ?_⟩
      obtain ⟨r, hr, rfl⟩ := List.mem_map.1 hc
      exact ⟨(hrefs r hr).1, (claims_step hclaims).1.consumes (hrefs r hr).2⟩
    · exact ⟨List.nodup_nil, fun c hc => absurd hc List.not_mem_nil⟩
  · exact ⟨List.nodup_nil, fun c hc => absurd hc List.not_mem_nil⟩

/-- What was credited is consumed, and no reference was credited twice. -/
theorem Serves.consumed {credited : List (String × ByteArr 8)} (h : Serves env s credited) :
    (credited.map Prod.fst).Nodup ∧ ∀ c ∈ credited, s.Consumed c.1 := by
  induction h with
  | built _ => exact ⟨List.nodup_nil, fun c hc => absurd hc List.not_mem_nil⟩
  | @step s credited _ e ih =>
    obtain ⟨hnodup, hconsumed⟩ := ih
    obtain ⟨hnew, hcredits⟩ := s.credits_consumed env e
    constructor
    · rw [List.map_append, List.nodup_append']
      refine ⟨hnodup, hnew, fun r hr hr' => ?_⟩
      obtain ⟨c, hc, rfl⟩ := List.mem_map.1 hr
      obtain ⟨c', hc', heq⟩ := List.mem_map.1 hr'
      exact (hcredits c' hc').1 (heq ▸ hconsumed c hc)
    · intro c hc
      rcases List.mem_append.1 hc with hc | hc
      · exact (s.step_remembers e).consumes (hconsumed c hc)
      · exact (hcredits c hc).2
  | @restart s s' credited store store' _ hs hs' hstore _ ih =>
    refine ⟨ih.1, fun c hc => ?_⟩
    have hc' := ih.2 c hc
    unfold Consumed at hc' ⊢
    rw [hs] at hc'
    rw [hs']
    exact hstore hc'

theorem Serves.booked {credited : List (String × ByteArr 8)} (h : Serves env s credited) :
    s.Booked env.suite.toCrypto := by
  induction h with
  | built h => exact .built h
  | step _ e ih => exact (ih.step e).1
  | restart _ _ _ _ h _ => exact .built h

/-! ## What a step credits -/

/-- Net legs are folded only with references. -/
theorem roundFold_netRefs {rail : ρ} {proof : SettlementProof} {key : ByteArr 8 × ByteArr 32}
    {round : RoundDecision} {fold : RoundFold}
    (h : s.roundFold env rail proof key round = .ok fold) (hnet : fold.foldNet = true) :
    fold.netRefs ≠ [] := by
  unfold roundFold at h
  simp only [bind_eq_ok, okOr_eq_ok, require_eq_ok] at h
  obtain ⟨-, -, terms, -, m, -, -, -, -, -, h⟩ := h
  by_cases hfold : (!round.netFolded && m.matched.all id && !m.netRefs.isEmpty) = true
  · have hne : m.netRefs ≠ [] := by
      simp only [Bool.and_eq_true, Bool.not_eq_true', List.isEmpty_eq_false_iff] at hfold
      exact hfold.2
    rw [if_pos hfold] at h
    simp only [bind_eq_ok, okOr_eq_ok, require_eq_ok, pure_eq_ok] at h
    obtain ⟨total, -, newNetLegs, -, -, -, rfl⟩ := h
    exact hne
  · rw [if_neg hfold] at h
    simp only [bind_eq_ok, okOr_eq_ok, require_eq_ok, pure_eq_ok] at h
    obtain ⟨total, -, newNetLegs, -, -, -, rfl⟩ := h
    exact absurd hnet hfold

theorem proofPlan_netRefs {proof : SettlementProof} {fold : RoundFold}
    (h : s.proofPlan env proof = .ok (.foldRound fold)) (hnet : fold.foldNet = true) :
    fold.netRefs ≠ [] := by
  unfold proofPlan at h
  simp only [bind_eq_ok, okOr_eq_ok, require_eq_ok] at h
  obtain ⟨payerKey, -, -, -, ⟨k, round⟩, -, h⟩ := h
  dsimp only at h
  by_cases hconf : round.confirmed = true
  · rw [if_pos hconf] at h
    split_ifs at h <;> cases h
  · rw [if_neg hconf] at h
    split at h
    · obtain ⟨fold', hfold, heq⟩ := map_eq_ok.1 h
      cases heq
      exact roundFold_netRefs hfold hnet
    · cases h

theorem creditedTo_of_ledger (h : s'.ledger.lookup cid = s.ledger.lookup cid) :
    s'.creditedTo cid = s.creditedTo cid := by
  rw [creditedTo, h, creditedTo]

theorem SameBooks.creditedTo (h : s.SameBooks s') (cid : ByteArr 8) :
    s'.creditedTo cid = s.creditedTo cid := creditedTo_of_ledger (by rw [h.ledger])

/-- A message that claims nothing credits nothing. -/
theorem creditedTo_of_unclaimed (h : s.Booked env.suite.toCrypto) {e : Event ρ}
    {st : ChannelState} (hst : s.channels.lookup cid = some st) (hnone : s.claims env e = none) :
    (step env s e).1.creditedTo cid = s.creditedTo cid := by
  have hmoves : .fund ∉ e.call.kinds → .fold ∉ e.call.kinds →
      (step env s e).1.creditedTo cid = s.creditedTo cid := by
    intro hfund hfold
    obtain ⟨b', hb', hm⟩ := (h.step e).2 cid _ (books_of hst)
    obtain ⟨st', -, rfl⟩ := books_eq_some.1 hb'
    exact hm.credited_eq hfund hfold
  obtain ⟨call, fails⟩ := e
  unfold claims at hnone
  cases call with
  | fundingProof fp =>
    dsimp only at hnone
    split at hnone
    · cases hnone
    · rename_i hc
      show (s.onFunding env fails fp).2.creditedTo cid = _
      rw [onFunding, hc]
  | settlementProof proof =>
    show (s.onSettlementProof env fails proof).2.creditedTo cid = _
    unfold onSettlementProof
    rcases hplan : s.proofPlan env proof with _ | _ | _ | fold
    · rfl
    · rfl
    · rfl
    · dsimp only at hnone
      rw [hplan] at hnone
      cases hnone
  | _ => exact hmoves (by simp [Call.kinds]) (by simp [Call.kinds])

/-- A message whose references are consumed first credits the channel it names, if it has any. -/
theorem creditedTo_of_claimed {e : Event ρ} {refs : List String} {cid' : ByteArr 8}
    (h : s.claims env e = some (refs, cid')) (hfirst : (s.consumeRefs e.fails refs).1 = .first)
    (hrise : s.creditedTo cid < (step env s e).1.creditedTo cid) : cid = cid' ∧ refs ≠ [] := by
  have hsame := consumeRefs_sameBooks e.fails s refs
  obtain ⟨call, fails⟩ := e
  unfold claims at h
  cases call with
  | fundingProof fp =>
    dsimp only at h hfirst hsame
    split at h
    · rename_i c hc
      cases h
      refine ⟨?_, List.cons_ne_nil _ _⟩
      by_contra hne
      refine hrise.ne' ?_
      show (s.onFunding env fails fp).2.creditedTo cid = _
      unfold onFunding
      rw [consumeRefs_singleton] at hfirst hsame
      rw [hc]
      dsimp only
      rcases heq : s.consumeRef fails c.canonicalRef with ⟨outcome, s₁⟩
      rw [heq] at hfirst hsame
      cases hfirst
      refine creditedTo_of_ledger ?_
      rw [← hsame.ledger]
      exact Finmap.lookup_insert_of_ne _ hne
    · cases h
  | settlementProof proof =>
    dsimp only at h hfirst hsame
    split at h
    · rename_i fold hplan
      cases h
      have hstep : (step env s ⟨.settlementProof proof, fails⟩).1 =
          (s.consumeRefs fails (if fold.foldNet then fold.netRefs else [])).2.foldLegs fold := by
        show (s.onSettlementProof env fails proof).2 = _
        unfold onSettlementProof
        rw [hplan]
        dsimp only
        rcases heq : s.consumeRefs fails (if fold.foldNet then fold.netRefs else []) with
          ⟨outcome, s₁⟩
        rw [heq] at hfirst
        cases hfirst
        rfl
      rw [hstep, ← hsame.creditedTo cid] at hrise
      generalize (s.consumeRefs fails (if fold.foldNet then fold.netRefs else [])).2 = s₁
        at hrise
      have hcid : cid = fold.key.1 := by
        by_contra hne
        exact hrise.ne' (creditedTo_of_ledger (Finmap.lookup_insert_of_ne _ hne))
      refine ⟨hcid, fun hnil => hrise.ne' ?_⟩
      have hnet : fold.foldNet = false := by
        by_contra hnet
        rw [Bool.not_eq_false] at hnet
        rw [if_pos hnet] at hnil
        exact proofPlan_netRefs hplan hnet hnil
      subst hcid
      unfold Carriage.creditedTo foldLegs
      dsimp only
      rw [Finmap.lookup_insert, hnet]
      rfl
    · cases h
  | _ => cases h

/-- Over all the carriages of a merchant's store, whatever is replayed and whichever decisions
fail, no reference is credited twice; a channel is credited in a step only for references that
the step credits to it, and a message with a reference that failed to be consumed changes no
books. -/
theorem one_credit {credited : List (String × ByteArr 8)} (h : Serves env s credited) :
    (credited.map Prod.fst).Nodup ∧ ∀ e : Event ρ,
      (∀ cid st, s.channels.lookup cid = some st →
        s.creditedTo cid < (step env s e).1.creditedTo cid → ∃ r, (r, cid) ∈ s.credits env e) ∧
      (s.consumption env e = some .failed → s.SameBooks (step env s e).1) := by
  refine ⟨h.consumed.1, fun e => ⟨fun cid st hst hrise => ?_, fun hfailed => ?_⟩⟩
  · rcases hclaims : s.claims env e with _ | ⟨refs, cid'⟩
    · exact absurd (creditedTo_of_unclaimed h.booked hst hclaims) hrise.ne'
    · by_cases hfirst : (s.consumeRefs e.fails refs).1 = .first
      · obtain ⟨rfl, hne⟩ := creditedTo_of_claimed hclaims hfirst hrise
        obtain ⟨r, hr⟩ := List.exists_mem_of_ne_nil refs hne
        refine ⟨r, ?_⟩
        rw [credits, hclaims]
        dsimp only
        rw [if_pos hfirst]
        exact List.mem_map.2 ⟨r, hr, rfl⟩
      · rw [(claims_step hclaims).2 hfirst] at hrise
        exact absurd ((consumeRefs_sameBooks e.fails s refs).creditedTo cid) hrise.ne'
  · obtain ⟨⟨refs, cid⟩, hclaims, houtcome⟩ := Option.map_eq_some_iff.1 hfailed
    have hne : (s.consumeRefs e.fails refs).1 ≠ .first := fun hfirst => by
      rw [hfirst] at houtcome
      cases houtcome
    rw [(claims_step hclaims).2 hne]
    exact consumeRefs_sameBooks e.fails s refs

/-! ## A payment that is claimed again -/

/-- A channel claims a payment. -/
def claim (channelId : ByteArr 8) (txRef : String) (fails : StoreFaults) : Event VirtualRail :=
  ⟨.fundingProof (Sample.fundingOf (Sample.terms channelId none 1000) txRef 500), fails⟩

/-- A channel opens and claims the payment "pay". -/
def claimPay (channelId : ByteArr 8) : List (Event VirtualRail) :=
  [Sample.sent (.channelOpen (Sample.openOn (Sample.terms channelId none 1000)) 1000),
    claim channelId "pay" fun _ => false]

/-- A demo carriage without a rail, on a new store. -/
def onNewStore : Carriage VirtualRail := (demo Sample.driver none (some [])).get rfl

/-- The carriage that is built on the store after the payment was claimed. -/
def afterClaim : Carriage VirtualRail :=
  (demo Sample.driver none (some [(fundKey "pay", [])])).get (by decide +kernel)

/-- One channel claims the payment, the carriage restarts and another claims it again. -/
def claimedAgain : Carriage VirtualRail :=
  exec (step Sample.env) afterClaim (claimPay (Sample.cid 2))

theorem claimedAgain_serves : Serves Sample.env claimedAgain [("pay", Sample.cid 1)] := by
  have hnew : Serves Sample.env onNewStore [] := .built (.demo (Option.some_get _).symm)
  have hcredits : creditsAlong Sample.env onNewStore (claimPay (Sample.cid 1)) =
      [("pay", Sample.cid 1)] := by decide +kernel
  have hclaimed := hcredits ▸ hnew.run (claimPay (Sample.cid 1))
  have hrestarted : Serves Sample.env afterClaim [("pay", Sample.cid 1)] :=
    hclaimed.restart (Option.some_get (by decide +kernel)).symm
      (Option.some_get (by decide +kernel)).symm (Finset.subset_iff.2 (by decide +kernel))
      (.demo (Option.some_get _).symm)
  have hagain : creditsAlong Sample.env afterClaim (claimPay (Sample.cid 2)) = [] := by
    decide +kernel
  have h := hrestarted.run (claimPay (Sample.cid 2))
  rw [hagain, List.append_nil] at h
  exact h

theorem one_credit_claimedAgain :
    ([("pay", Sample.cid 1)].map Prod.fst).Nodup ∧
      claimedAgain.creditedTo (Sample.cid 2) = 0 ∧
      claimedAgain.SameBooks
        (step Sample.env claimedAgain (claim (Sample.cid 2) "another" fun _ => true)).1 :=
  ⟨(one_credit claimedAgain_serves).1, by decide +kernel,
    ((one_credit claimedAgain_serves).2 _).2 (by decide +kernel)⟩

end Carriage

end Paytp
