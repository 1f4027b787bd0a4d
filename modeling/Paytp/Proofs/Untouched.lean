import Paytp.Carriage

/-!
# What the parts of the handlers leave alone

Deciding keys, consuming references, folding and drawing rounds and releasing a refund move no
metering, no evidence and no disposition, and they leave the driver alone. Most of them leave
the rail alone too.
-/

namespace Paytp

namespace Carriage

variable {ρ : Type} {env : Env ρ} {fails : StoreFaults} {s s' : Carriage ρ}

/-- The channels, their evidence and their dispositions are what they were. -/
structure Untouched (s s' : Carriage ρ) : Prop where
  driver : s'.driver = s.driver
  channels : s'.channels = s.channels
  operative : s'.operative = s.operative
  chainState : s'.chainState = s.chainState
  importedBasis : s'.importedBasis = s.importedBasis

namespace Untouched

theorem refl (s : Carriage ρ) : s.Untouched s := ⟨rfl, rfl, rfl, rfl, rfl⟩

theorem trans {a b c : Carriage ρ} (hab : a.Untouched b) (hbc : b.Untouched c) :
    a.Untouched c where
  driver := hbc.driver.trans hab.driver
  channels := hbc.channels.trans hab.channels
  operative := hbc.operative.trans hab.operative
  chainState := hbc.chainState.trans hab.chainState
  importedBasis := hbc.importedBasis.trans hab.importedBasis

end Untouched

/-- Untouched, and on the same rail. -/
structure OffRail (s s' : Carriage ρ) : Prop extends Untouched s s' where
  rail : s'.rail = s.rail

namespace OffRail

theorem refl (s : Carriage ρ) : s.OffRail s := ⟨.refl s, rfl⟩

theorem trans {a b c : Carriage ρ} (hab : a.OffRail b) (hbc : b.OffRail c) : a.OffRail c :=
  ⟨hab.toUntouched.trans hbc.toUntouched, hbc.rail.trans hab.rail⟩

end OffRail

/-- The driver, the dispositions, the imported positions and the rail are what they were. -/
structure Unmoved (s s' : Carriage ρ) : Prop where
  driver : s'.driver = s.driver
  chainState : s'.chainState = s.chainState
  importedBasis : s'.importedBasis = s.importedBasis
  rail : s'.rail = s.rail

theorem Unmoved.refl (s : Carriage ρ) : s.Unmoved s := ⟨rfl, rfl, rfl, rfl⟩

theorem OffRail.unmoved (h : s.OffRail s') : s.Unmoved s' :=
  ⟨h.driver, h.chainState, h.importedBasis, h.rail⟩

/-- Only the rounds and the ledgers differ. -/
def Redrawn (s s' : Carriage ρ) : Prop := ∃ rounds ledger, s' = { s with rounds, ledger }

namespace Redrawn

theorem refl (s : Carriage ρ) : s.Redrawn s := ⟨s.rounds, s.ledger, rfl⟩

theorem trans {a b c : Carriage ρ} (hab : a.Redrawn b) (hbc : b.Redrawn c) : a.Redrawn c := by
  obtain ⟨_, _, rfl⟩ := hab
  obtain ⟨rounds, ledger, rfl⟩ := hbc
  exact ⟨rounds, ledger, rfl⟩

theorem rounds (s : Carriage ρ) (rounds : AList fun _ : ByteArr 8 × ByteArr 32 => RoundDecision) :
    s.Redrawn { s with rounds } := ⟨rounds, s.ledger, rfl⟩

theorem offRail (h : s.Redrawn s') : s.OffRail s' := by
  obtain ⟨rounds, ledger, rfl⟩ := h
  exact ⟨⟨rfl, rfl, rfl, rfl, rfl⟩, rfl⟩

end Redrawn

/-! ## Parts off the rail -/

theorem decideKey_offRail (s : Carriage ρ) (fails : StoreFaults) (key value : Bytes) :
    s.OffRail (s.decideKey fails key value).2 := by
  unfold decideKey
  split <;> exact ⟨⟨rfl, rfl, rfl, rfl, rfl⟩, rfl⟩

theorem consumeRef_offRail (s : Carriage ρ) (fails : StoreFaults) (r : String) :
    s.OffRail (s.consumeRef fails r).2 := by
  unfold consumeRef
  split
  · split <;> exact ⟨⟨rfl, rfl, rfl, rfl, rfl⟩, rfl⟩
  · split_ifs <;> exact ⟨⟨rfl, rfl, rfl, rfl, rfl⟩, rfl⟩

theorem consumeRefs_offRail (fails : StoreFaults) : ∀ (s : Carriage ρ) (rs : List String),
    s.OffRail (s.consumeRefs fails rs).2
  | s, [] => .refl s
  | s, r :: rs => by
    have hr := s.consumeRef_offRail fails r
    unfold consumeRefs
    split
    case h_1 s₁ heq =>
      rw [heq] at hr
      exact hr.trans (consumeRefs_offRail fails s₁ rs)
    case h_2 outcome s₁ hne heq =>
      rw [heq] at hr
      exact hr

theorem foldInterimRound_redrawn (s : Carriage ρ) (cid : ByteArr 8) (ckptRef : ByteArr 32)
    (eR : List (UInt8 × ℕ)) (finalTime : Option ℕ) :
    s.Redrawn (s.foldInterimRound cid ckptRef eR finalTime) := by
  unfold foldInterimRound
  split
  · exact .refl s
  · split_ifs
    · exact .refl s
    · exact ⟨_, _, rfl⟩

theorem drainRound_redrawn (s : Carriage ρ) (cid : ByteArr 8) (seedInstance : ByteArr 32)
    (round : ByteArr 32 × RoundDecision) :
    s.Redrawn (drainRound env cid seedInstance s round) := by
  unfold drainRound
  split_ifs
  · exact foldInterimRound_redrawn ..
  · exact .rounds s _

theorem foldl_drainRound_redrawn (cid : ByteArr 8) (seedInstance : ByteArr 32) :
    ∀ (rounds : List (ByteArr 32 × RoundDecision)) (s : Carriage ρ),
      s.Redrawn (rounds.foldl (drainRound env cid seedInstance) s)
  | [], s => .refl s
  | round :: rounds, s => (drainRound_redrawn s cid seedInstance round).trans
      (foldl_drainRound_redrawn cid seedInstance rounds _)

theorem drainInterimRounds_redrawn (s : Carriage ρ) (env : Env ρ) (cid : ByteArr 8) :
    s.Redrawn (s.drainInterimRounds env cid) := by
  unfold drainInterimRounds
  split_ifs
  · exact .refl s
  · split
    · exact .refl s
    · exact foldl_drainRound_redrawn ..

theorem setDrawRef_redrawn (s : Carriage ρ) (key : ByteArr 8 × ByteArr 32) (r : String) :
    s.Redrawn (s.setDrawRef key r) := by
  unfold setDrawRef
  split
  · exact .rounds s _
  · exact .refl s

theorem onSettlementPropose_redrawn (s : Carriage ρ) (p : SettlementPropose) :
    s.Redrawn (s.onSettlementPropose env p).2 := by
  unfold onSettlementPropose
  split
  · exact .refl s
  · exact .rounds s _

/-! ## Parts that move value on the rail -/

theorem untouched_rail (s : Carriage ρ) (rail : Option ρ) : s.Untouched { s with rail } :=
  ⟨rfl, rfl, rfl, rfl, rfl⟩

/-- A draw of a locked round moves the rail, and then no more than the round and its ledger. -/
theorem drawLocked_redrawn (s : Carriage ρ) (env : Env ρ) (cid : ByteArr 8) (rail : ρ)
    (target : DrawTarget) :
    ∃ rail' : Option ρ, Redrawn { s with rail := rail' } (s.drawLocked env cid rail target).2 := by
  unfold drawLocked
  dsimp only
  split
  · exact ⟨_, foldInterimRound_redrawn ..⟩
  · exact ⟨_, .refl _⟩
  · split_ifs
    · exact ⟨_, (setDrawRef_redrawn ..).trans (foldInterimRound_redrawn ..)⟩
    · exact ⟨_, setDrawRef_redrawn ..⟩

/-- The rail after a draw is the one before it or the one the draw led to. -/
theorem drawLocked_rail (s : Carriage ρ) (env : Env ρ) (cid : ByteArr 8) (rail : ρ)
    (target : DrawTarget) :
    ∃ rail', (s.drawLocked env cid rail target).2.rail = some rail' ∧ (rail' = rail ∨
      rail' = (env.adapter.advanceChannelMeed rail (some target.terms.settlePtr)
        (env.adapter.deriveAddress rail target.terms.seedInstance) cid target.targetP
        target.terms.baselineAsset).2) := by
  unfold drawLocked
  dsimp only
  cases (s.rounds.lookup (cid, target.ckptRef)).bind RoundDecision.drawRef with
  | some r =>
    refine ⟨rail, ?_, .inl rfl⟩
    dsimp only
    split_ifs
    · exact ((setDrawRef_redrawn ..).trans (foldInterimRound_redrawn ..)).offRail.rail
    · exact (setDrawRef_redrawn ..).offRail.rail
  | none =>
    refine ⟨_, ?_, .inr rfl⟩
    dsimp only
    split
    · exact (foldInterimRound_redrawn ..).offRail.rail
    · rfl
    · split_ifs
      · exact ((setDrawRef_redrawn ..).trans (foldInterimRound_redrawn ..)).offRail.rail
      · exact (setDrawRef_redrawn ..).offRail.rail

theorem runPrepayInterimDraw_redrawn (s : Carriage ρ) (env : Env ρ) (cid : ByteArr 8) :
    ∃ rail : Option ρ, Redrawn { s with rail } (s.runPrepayInterimDraw env cid).2 := by
  unfold runPrepayInterimDraw
  split
  · exact ⟨s.rail, .refl s⟩
  · rename_i target lock rail _ _
    cases lock with
    | none => exact drawLocked_redrawn ..
    | some round =>
      obtain ⟨rail', hdraw⟩ := drawLocked_redrawn
        { s with rounds := s.rounds.insert (cid, target.ckptRef) round } env cid rail target
      exact ⟨rail', .trans ⟨_, _, rfl⟩ hdraw⟩
  · exact ⟨s.rail, .refl s⟩

theorem runPrepayInterimDraw_untouched (s : Carriage ρ) (cid : ByteArr 8) :
    s.Untouched (s.runPrepayInterimDraw env cid).2 := by
  obtain ⟨rail, hdraw⟩ := s.runPrepayInterimDraw_redrawn env cid
  exact (untouched_rail s rail).trans hdraw.offRail.toUntouched

theorem releaseRefund_untouched (s : Carriage ρ) (close : Close) :
    s.Untouched (s.releaseRefund env fails close) := by
  unfold releaseRefund
  split
  · dsimp only
    split
    · exact ((decideKey_offRail ..).toUntouched.trans (untouched_rail _ _)).trans
        (decideKey_offRail ..).toUntouched
    · exact (decideKey_offRail ..).toUntouched.trans (untouched_rail _ _)
  · exact .refl s

/-! ## Handlers that meter and settle -/

theorem onSettlementProof_unmoved (s : Carriage ρ) (proof : SettlementProof) :
    s.Unmoved (s.onSettlementProof env fails proof).2 := by
  unfold onSettlementProof
  split
  case h_4 fold _ =>
    have h := (consumeRefs_offRail fails s (if fold.foldNet then fold.netRefs else [])).unmoved
    split <;> (rename_i heq; rw [heq] at h)
    · exact h
    · exact h
    · exact ⟨h.driver, h.chainState, h.importedBasis, h.rail⟩
  all_goals exact ⟨rfl, rfl, rfl, rfl⟩

theorem onCheckpointRequest_unmoved (s : Carriage ρ) (request : CheckpointRequest) :
    s.Unmoved (s.onCheckpointRequest env request).2 := by
  unfold onCheckpointRequest
  split
  · exact .refl s
  · dsimp only
    split_ifs
    · split <;> exact ⟨rfl, rfl, rfl, rfl⟩
    · exact .refl s
    · exact .refl s

theorem onFunding_unmoved (s : Carriage ρ) (fp : FundingProof) :
    s.Unmoved (s.onFunding env fails fp).2 := by
  unfold onFunding
  split
  · exact .refl s
  · rename_i c _
    have h := (consumeRef_offRail s fails c.canonicalRef).unmoved
    split <;> (rename_i heq; rw [heq] at h)
    · exact h
    · exact h
    · exact ⟨h.driver, h.chainState, h.importedBasis, h.rail⟩

theorem batch_unmoved (s : Carriage ρ) (cid : ByteArr 8) (slices : List Slice) :
    s.Unmoved (s.batch env cid slices).2 := by
  unfold batch
  split_ifs
  · exact .refl s
  · split
    · exact .refl s
    · dsimp only
      split <;> exact ⟨rfl, rfl, rfl, rfl⟩

theorem finishClose_rail (s : Carriage ρ) (cid : ByteArr 8) :
    (s.finishClose cid).2.rail = s.rail := by
  unfold finishClose
  split <;> rfl

theorem finishClose_chainState (s : Carriage ρ) (cid : ByteArr 8) :
    (s.finishClose cid).2.chainState = s.chainState := by
  unfold finishClose
  split <;> rfl

/-! ## Construction -/

/-- The store records no channel that waits for its successor. -/
theorem decodeDisp_ne_pending {bytes : Bytes} {d : ChainState} (h : decodeDisp bytes = some d) :
    d ≠ .pending := by
  unfold decodeDisp at h
  split at h
  · obtain ⟨successor, -, rfl⟩ := Option.map_eq_some_iff.mp h
    exact nofun
  · cases h
    exact nofun
  · split_ifs at h
    obtain ⟨ckpt, -, rfl⟩ := Option.map_eq_some_iff.mp h
    exact nofun
  · cases h

/-- Replaying a key consumes a reference, records a disposition or does nothing. -/
theorem replayGuard_cases {strict : Bool} {entry : Bytes × Bytes}
    (h : replayGuard strict s entry = some s') :
    s' = s ∨ (∃ r, s' = { s with consumedFunding := insert r s.consumedFunding }) ∨
      ∃ cid d, d ≠ .pending ∧ s' = { s with chainState := s.chainState.insert cid d } := by
  have hcorrupt : ∀ {s' : Carriage ρ}, (if strict then none else some s) = some s' → s' = s := by
    intro s' hs
    split_ifs at hs
    cases hs
    rfl
  unfold replayGuard at h
  dsimp only at h
  split at h
  · split at h
    · by_cases hempty : entry.2.isEmpty = true
      · rw [if_pos hempty] at h
        cases h
        exact .inr (.inl ⟨_, rfl⟩)
      · rw [if_neg hempty] at h
        exact .inl (hcorrupt h)
    · exact .inl (hcorrupt h)
  · split at h
    · rename_i hstate
      cases h
      exact .inr (.inr ⟨_, _, decodeDisp_ne_pending hstate, rfl⟩)
    · exact .inl (hcorrupt h)
  · cases h
    exact .inl rfl

section built
variable {P : Carriage ρ → Prop}
  (hconsumed : ∀ (s : Carriage ρ) r, P s →
    P { s with consumedFunding := insert r s.consumedFunding })
  (hdisposition : ∀ (s : Carriage ρ) cid d, d ≠ .pending → P s →
    P { s with chainState := s.chainState.insert cid d })
  (hstore : ∀ (s : Carriage ρ) store, P s → P { s with decisions := some store })
include hconsumed hdisposition hstore

theorem replayGuards_invariant {strict : Bool} {entries : List (Bytes × Bytes)}
    (h : replayGuards strict s entries = some s') (hs : P s) : P s' := by
  have hfold : ∀ (entries : List (Bytes × Bytes)) {s s' : Carriage ρ},
      entries.foldlM (replayGuard strict) s = some s' → P s → P s' := by
    intro entries
    induction entries with
    | nil =>
      intro s s' h hs
      cases h
      exact hs
    | cons entry entries ih =>
      intro s s' h hs
      rw [List.foldlM_cons] at h
      obtain ⟨s₁, h₁, h⟩ := Option.bind_eq_some_iff.mp h
      refine ih h ?_
      obtain rfl | ⟨r, rfl⟩ | ⟨cid, d, hd, rfl⟩ := replayGuard_cases h₁
      · exact hs
      · exact hconsumed s r hs
      · exact hdisposition s cid d hd hs
  obtain ⟨s₁, h₁, rfl⟩ := Option.map_eq_some_iff.mp h
  exact hstore s₁ _ (hfold entries h₁ hs)

/-- What holds of a carriage without channels, and still does when its store is replayed. -/
theorem Built.invariant (h : Built env s)
    (hempty : ∀ (driver : ChannelDriver) profile rail, driver.retained = ∅ →
      driver.chainSnapshots = ∅ → driver.key = env.suite.ed25519Public driver.signingKey →
      P { (empty driver profile : Carriage ρ) with rail }) : P s := by
  cases h with
  | @demo signingKey encSeed settlePtr rail entries _ heq =>
    have hnew := hempty (.new env.suite signingKey encSeed settlePtr) .demo rail rfl rfl rfl
    cases entries with
    | none =>
      cases heq
      exact hnew
    | some entries => exact replayGuards_invariant hconsumed hdisposition hstore heq hnew
  | proof heq =>
    obtain ⟨tombstones, -, heq⟩ := Option.bind_eq_some_iff.mp heq
    exact replayGuards_invariant hconsumed hdisposition hstore heq (hempty _ _ _ rfl rfl rfl)

end built

end Carriage

end Paytp
