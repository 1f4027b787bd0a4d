import Paytp.Lib.Links
import Paytp.Proofs.Replays
import Paytp.Proofs.SingleImport

/-!
# The tip of a chain

A driver refuses the channels it retains and those it has a tombstone of, so the successor that it
establishes has no links that lead on. A link to it closes no cycle, and a predecessor that is
committed keeps the link it has.
-/

namespace Paytp

/-- The channel was opened before, in this life or an earlier one. -/
def ChannelDriver.Knows (driver : ChannelDriver) (cid : ByteArr 8) : Prop :=
  (driver.retained.lookup cid).isSome ∨ cid ∈ driver.tombstones

namespace Carriage

variable {ρ : Type} {env : Env ρ} {fails : StoreFaults} {s s' : Carriage ρ}

/-! ## Histories -/

/-- The past of a carriage: the successors established of each channel, and whether every driver
knew the channels of the lives before its own. -/
structure Past where
  guarded : Bool
  successors : ByteArr 8 → List (ByteArr 8)

namespace Past

def new : Past := ⟨true, fun _ => []⟩

/-- The past after a step. -/
def after (past : Past) (env : Env ρ) (s : Carriage ρ) (e : Event ρ) : Past :=
  { past with
    successors := fun cid => past.successors cid ++ (s.successorOf env cid e).toList }

/-- The past of a carriage built on a store. Under a driver that does not know the channels of the
lives before, a channel that the store links to none begins anew. -/
def restarted (past : Past) (known : Bool) (s : Carriage ρ) : Past :=
  if past.guarded && known then past
  else ⟨false, fun cid => if (s.link cid).isSome then past.successors cid else []⟩

end Past

/-- The carriages of one merchant: one that starts on no store or a new one, the steps that `ok`
admits, and the carriages, proof or demo, built on the store of an earlier one. A life that ends
within a step ends as one in which the decisions that follow in the step fail. -/
inductive History (env : Env ρ) (ok : Past → Carriage ρ → Event ρ → Prop) :
    Past → Carriage ρ → Prop
  | demo {signingKey encSeed : ByteArr 32} {settlePtr : String} {rail : Option ρ}
    {entries : Option (List (Bytes × Bytes))} {s : Carriage ρ} (hnew : entries.all List.isEmpty)
    (h : demo (.new env.suite signingKey encSeed settlePtr) rail entries = some s) :
    History env ok .new s
  | proof {signingKey encSeed : ByteArr 32} {settlePtr : String} {rail : ρ} {s : Carriage ρ}
    (h : proof (.new env.suite signingKey encSeed settlePtr) rail [] = some s) :
    History env ok .new s
  | step {past : Past} {s : Carriage ρ} (h : History env ok past s) (e : Event ρ)
    (hok : ok past s e) : History env ok (past.after env s e) (step env s e).1
  | restart {past : Past} {s s' : Carriage ρ} {store : DecisionStore}
    {signingKey encSeed : ByteArr 32} {settlePtr : String} {rail : ρ}
    {entries : List (Bytes × Bytes)} (h : History env ok past s)
    (hstore : s.decisions = some store) (hentries : store.Lists entries)
    (h' : Carriage.proof (.new env.suite signingKey encSeed settlePtr) rail entries = some s') :
    History env ok (past.restarted s.driver.durable s') s'
  | restartDemo {past : Past} {s s' : Carriage ρ} {store : DecisionStore}
    {signingKey encSeed : ByteArr 32} {settlePtr : String} {rail : Option ρ}
    {entries : List (Bytes × Bytes)} (h : History env ok past s)
    (hstore : s.decisions = some store) (hentries : store.Lists entries)
    (h' : Carriage.demo (.new env.suite signingKey encSeed settlePtr) rail (some entries) =
      some s') :
    History env ok (past.restarted false s') s'

/-- Does the call chain a channel to a predecessor that is committed itself already? -/
def reopens (env : Env ρ) (s : Carriage ρ) (e : Event ρ) : Bool :=
  (s.establishes env e).any fun auth =>
    auth.predecessor.isSome && decide (s.stage auth.channelId = .committed)

/-- A step that imports no snapshot left behind and, under a driver that does not know the channels
of the past, chains no channel that is committed already. -/
def Fresh (env : Env ρ) (past : Past) (s : Carriage ρ) (e : Event ρ) : Prop :=
  s.importsStale env e = false ∧ (past.guarded = true ∨ s.reopens env e = false)

/-! ## What a step does to the driver -/

theorem computeChainSnapshot_retained {suite : Suite} {cid : ByteArr 8} {ckptRef : ByteArr 32}
    {snap : ChainSnapshot} (h : s.computeChainSnapshot suite cid ckptRef = some snap) :
    (s.driver.retained.lookup cid).isSome := by
  unfold computeChainSnapshot at h
  simp only [Option.bind_eq_bind, Option.bind_eq_some_iff] at h
  obtain ⟨ch, -, payerKey, hpayer, -⟩ := h
  rw [ChannelDriver.payerKey] at hpayer
  obtain ⟨r, hr, -⟩ := Option.map_eq_some_iff.1 hpayer
  rw [hr]
  rfl

/-- A step that establishes no channel records snapshots, terminates a channel, or leaves the driver
alone. -/
theorem quiet_driver {e : Event ρ} (h : s.establishes env e = none) :
    (step env s e).1.driver = s.driver ∨
    (∃ snaps, s.Recorded env snaps ∧
      (step env s e).1.driver = { s.driver with chainSnapshots := snaps }) ∨
    ∃ cid, (step env s e).1.driver = s.driver.terminate cid := by
  obtain ⟨call, fails⟩ := e
  cases call with
  | channelOpen o now =>
    obtain ⟨-, r, snaps, decisions, hrec, heq⟩ | ⟨hest, -⟩ := s.onOpen_cases env fails o now
    · refine .inr (.inl ⟨snaps, hrec, ?_⟩)
      show (s.onOpen env fails o now).2.driver = _
      rw [heq]
      rfl
    · rw [h] at hest
      cases hest
  | checkpointRequest request => exact .inl (onCheckpointRequest_unmoved s request).driver
  | fundingProof fp => exact .inl (onFunding_unmoved s fp).driver
  | settlementPropose p => exact .inl (onSettlementPropose_redrawn s p).offRail.driver
  | settlementProof proof => exact .inl (onSettlementProof_unmoved s proof).driver
  | close close =>
    obtain heq | heq := s.onClose_driver env fails close
    · exact .inl heq
    · exact .inr (.inr ⟨close.channelId, heq⟩)
  | batch cid slices => exact .inl (batch_unmoved s cid slices).driver
  | ackRequest req now => exact .inl rfl
  | prepayInterimDraw cid => exact .inl (runPrepayInterimDraw_untouched s cid).driver
  | rail op => exact .inl rfl

theorem openChannel_fresh {driver : ChannelDriver} (hdur : driver.durable = true) (suite : Suite)
    (fails : StoreFaults) (store : DecisionStore) (o : ChannelOpen) (now : ℕ) {est : Established}
    (h : (driver.openChannel suite fails (some store) o now).1 = .ok (.established est)) :
    ∃ store', (driver.openChannel suite fails (some store) o now).2.2 = some store' ∧
      chopenKey o.auth.channelId ∈ store'.keys := by
  unfold ChannelDriver.openChannel at h ⊢
  dsimp only at h ⊢
  split at h
  · cases h
  · split at h
    · split_ifs at h
      cases h
    · split at h
      · cases h
      · split at h
        · rename_i d store' heq
          simp only [ChannelDriver.decideOpen, hdur] at heq
          have hd := congrArg Prod.fst heq
          refine ⟨_, (congrArg Prod.snd heq).symm, (DecisionStore.decide_fresh hd).2⟩
        · cases h
        · cases h

/-- Where the driver shares the store, a step that establishes a channel has decided it. -/
theorem establishes_decided {e : Event ρ} {auth : ChannelAuth} {store : DecisionStore}
    (h : s.establishes env e = some auth) (hdur : s.driver.durable = true)
    (hstore : s.decisions = some store) : ∃ store', (step env s e).1.decisions = some store' ∧
      chopenKey auth.channelId ∈ store'.keys := by
  obtain ⟨call, fails⟩ := e
  cases call with
  | channelOpen o now =>
    show ∃ store', (s.onOpen env fails o now).2.decisions = some store' ∧ _
    unfold establishes at h
    unfold onOpen
    dsimp only at h
    cases hs : s.screenOpen env o.auth with
    | error e =>
      rw [hs] at h
      cases h
    | ok s₁ =>
      obtain ⟨⟨snaps, rfl, -⟩, -⟩ := screenOpen_cases hs
      rw [hs] at h
      dsimp only at h ⊢
      rw [show (s.withSnapshots snaps).decisions = some store from hstore] at h ⊢
      have hdur' : (s.withSnapshots snaps).driver.durable = true := hdur
      have hfresh (est : Established) :=
        @openChannel_fresh _ hdur' env.suite fails store o now est
      generalize (s.withSnapshots snaps).driver.openChannel env.suite fails (some store) o now = out
        at h hfresh ⊢
      rcases out with ⟨e | est | ack, driver, decisions⟩
      · cases h
      · cases h
        obtain ⟨store', hstore', hmem⟩ := hfresh est rfl
        dsimp only at hstore' ⊢
        split_ifs
        · exact ⟨store', hstore', hmem⟩
        · have hkeep := commitPredecessor_remembers
            (({ s.withSnapshots snaps with driver, decisions } : Carriage ρ).install est
              o.auth.predecessor) fails o.auth.predecessor est.channelId
          have hext := hkeep.decisions
          rw [show (({ s.withSnapshots snaps with driver, decisions } : Carriage ρ).install est
            o.auth.predecessor).decisions = some store' from hstore'] at hext
          generalize (Carriage.commitPredecessor _ _ _ _).decisions = d at hext ⊢
          cases hext with
          | some hsub => exact ⟨_, rfl, hsub hmem⟩
      · cases h
  | _ => cases h

/-- A step that establishes a channel found it unknown, and its predecessor with a snapshot. -/
theorem establishes_driver {e : Event ρ} {auth : ChannelAuth}
    (h : s.establishes env e = some auth) : ∃ snaps, s.Recorded env snaps ∧
      s.driver.retained.lookup auth.channelId = none ∧
      auth.channelId ∉ s.driver.tombstones ∧
      (∀ pred, auth.predecessor = some pred → (snaps.lookup pred).isSome) ∧
      ∃ acc, (step env s e).1.driver =
        ({ s.driver with chainSnapshots := snaps } : ChannelDriver).retain auth acc := by
  obtain ⟨call, fails⟩ := e
  cases call with
  | channelOpen o now =>
    obtain ⟨hnone, -⟩ | ⟨hauth, snaps, authHash, openHash, acc, decisions, hs, hrec, hscreen, hret,
      hacc, heq⟩ := s.onOpen_cases env fails o now
    · rw [hnone] at h
      cases h
    · rw [hauth, Option.some_inj] at h
      subst h
      refine ⟨snaps, hrec, hret, Retention.screenOpen_tombstones hscreen, fun pred hpred => ?_,
        acc, ?_⟩
      · obtain ⟨-, i, kSession, seed, -, himp⟩ := (ChannelDriver.acceptOpen_ok hacc).2.2 pred hpred
        exact ChannelDriver.chainedImport_snapshot himp
      · show (s.onOpen env fails o now).2.driver = _
        rw [heq]
        exact (commitPredecessor_sameBooks fails _ _ _).driver
  | _ => cases h

/-- A channel is committed exactly if it is linked to a successor. -/
theorem link_isSome (s : Carriage ρ) (cid : ByteArr 8) :
    (s.link cid).isSome = true ↔ s.stage cid = .committed := by
  rw [link, stage]
  rcases s.chainState.lookup cid with _ | _ | successor | draw <;>
    simp [ChainState.successor?, Stage.of]

theorem Recorded.isSome {snaps : HashMap (ByteArr 8 × ByteArr 32) ChainSnapshot}
    (hrec : s.Recorded env snaps) {key : ByteArr 8 × ByteArr 32}
    (h : (snaps.lookup key).isSome) :
    (s.driver.chainSnapshots.lookup key).isSome ∨ (s.driver.retained.lookup key.1).isSome := by
  obtain ⟨snap, hsnap⟩ := Option.isSome_iff_exists.1 h
  obtain hold | ⟨-, hnew⟩ := hrec key snap hsnap
  · rw [hold]
    exact .inl rfl
  · exact .inr (computeChainSnapshot_retained hnew)

variable (env) in
/-- A step retains what was and the channel it establishes, and records snapshots of channels that
are retained. -/
theorem step_driver (s : Carriage ρ) (e : Event ρ) :
    (∀ cid, ((step env s e).1.driver.retained.lookup cid).isSome ↔
      (s.driver.retained.lookup cid).isSome ∨
        (s.establishes env e).map ChannelAuth.channelId = some cid) ∧
    (step env s e).1.driver.tombstones = s.driver.tombstones ∧
    (step env s e).1.driver.durable = s.driver.durable ∧
    ∀ key, ((step env s e).1.driver.chainSnapshots.lookup key).isSome →
      (s.driver.chainSnapshots.lookup key).isSome ∨ (s.driver.retained.lookup key.1).isSome := by
  cases he : s.establishes env e with
  | none =>
    obtain heq | ⟨snaps, hrec, heq⟩ | ⟨cid, heq⟩ := quiet_driver he <;> rw [heq]
    · exact ⟨fun _ => by simp, rfl, rfl, fun _ => .inl⟩
    · exact ⟨fun _ => by simp, rfl, rfl, fun _ => hrec.isSome⟩
    · obtain ⟨htomb, hdur⟩ := Retention.terminate_tombstones s.driver cid
      refine ⟨fun cid' => ?_, htomb, hdur, fun key hkey => ?_⟩
      · rw [Retention.terminate_lookup]
        simp
      · rw [terminate_chainSnapshots] at hkey
        exact .inl hkey
  | some auth =>
    obtain ⟨snaps, hrec, -, -, -, acc, heq⟩ := establishes_driver he
    rw [heq]
    refine ⟨fun cid => ?_, rfl, rfl, fun _ => hrec.isSome⟩
    rw [ChannelDriver.retain, HashMap.lookup_insert_ite, Option.map_some, Option.some_inj]
    split_ifs with hc
    · simp [hc]
    · simp [Ne.symm hc]

/-- A step links the predecessor that it chains a successor to, and leaves the other links. -/
theorem step_link (s : Carriage ρ) (e : Event ρ) (cid : ByteArr 8) :
    (step env s e).1.link cid = (s.successorOf env cid e).or (s.link cid) := by
  cases he : s.establishes env e with
  | none =>
    have hnone : ∀ a, s.successorOf env a e = none := fun a => by
      rw [successorOf, he, Option.bind_none]
    have hlinks : s.Relinks (fun a b => s.successorOf env a e = some b) (step env s e).1 :=
      s.step_relinks e
    have hold : ∀ b, (step env s e).1.link cid = some b → s.link cid = some b := fun b hb =>
      (hlinks.memory cid b hb).resolve_right fun h => by rw [hnone] at h; cases h
    rw [hnone, Option.none_or]
    cases hl : s.link cid with
    | none =>
      rw [Option.eq_none_iff_forall_ne_some]
      intro b hb
      rw [hold b hb] at hl
      cases hl
    | some b =>
      have hstage : s.stage cid = .committed := (s.link_isSome cid).1 (by rw [hl]; rfl)
      obtain ⟨c, hc⟩ :=
        Option.isSome_iff_exists.1 ((link_isSome _ cid).2 (stage_committed_step s e hstage))
      rw [hc, ← hold c hc, hl]
  | some auth =>
    obtain ⟨o, -, snaps, -, -, acc, decisions, -, rfl, -, -, -, heq⟩ := establishes_cases he
    have hcs := s.opened_chainState env e.fails snaps decisions o acc
    rw [heq, link, hcs, successorOf, he, Option.bind_some]
    rcases o.auth.predecessor with _ | ⟨pred, ckptRef⟩
    · rfl
    · dsimp only [Option.map_some]
      rw [HashMap.lookup_insert_ite]
      by_cases hc : cid = pred
      · rw [if_pos hc, if_pos (by rw [hc])]
        rfl
      · rw [if_neg hc, if_neg fun h => hc (Option.some_inj.1 h).symm]
        rfl

/-! ## The invariant -/

/-- A channel whose link was lost with an earlier life: this one does not open it anew. -/
structure Lost (s : Carriage ρ) (cid : ByteArr 8) : Prop where
  unlinked : s.link cid = none
  unretained : s.driver.retained.lookup cid = none
  tombstone : cid ∈ s.driver.tombstones

theorem Lost.step {cid : ByteArr 8} {e : Event ρ} (h : s.Lost cid)
    (hs : s.successorOf env cid e = none) : (step env s e).1.Lost cid := by
  obtain ⟨hret, htomb, -, -⟩ := s.step_driver env e
  refine ⟨?_, ?_, ?_⟩
  · rw [step_link, hs, Option.none_or]
    exact h.unlinked
  · rw [← Option.not_isSome_iff_eq_none, hret]
    rintro (hold | hnew)
    · rw [h.unretained] at hold
      cases hold
    · obtain ⟨auth, hest, rfl⟩ := Option.map_eq_some_iff.1 hnew
      obtain ⟨-, -, -, hnotomb, -⟩ := establishes_driver hest
      exact hnotomb h.tombstone
  · rw [htomb]
    exact h.tombstone

/-- Links without a cycle, and successors that they are of. -/
structure Chained (past : Past) (s : Carriage ρ) : Prop where
  acyclic : Links.Acyclic s.link
  successors : ∀ cid, past.successors cid = (s.link cid).toList ∨ s.Lost cid
  stored : ∀ store, s.decisions = some store → ∀ a b, store.link a = some b → s.link a = some b
  snapshots : ∀ key, (s.driver.chainSnapshots.lookup key).isSome →
    (s.driver.retained.lookup key.1).isSome

/-- A driver that knows the channels of the past. -/
structure Guarded (past : Past) (s : Carriage ρ) : Prop where
  closed : ∀ cid, past.successors cid ≠ [] → s.driver.Knows cid
  decided : s.driver.durable = true → ∃ store, s.decisions = some store ∧
    ∀ cid, s.driver.Knows cid → chopenKey cid ∈ store.keys

/-- The driver knows a channel after a step if it did before or the step establishes it. -/
theorem step_knows (s : Carriage ρ) (e : Event ρ) (cid : ByteArr 8) :
    (step env s e).1.driver.Knows cid ↔ s.driver.Knows cid ∨
      (s.establishes env e).map ChannelAuth.channelId = some cid := by
  obtain ⟨hret, htomb, -, -⟩ := s.step_driver env e
  rw [ChannelDriver.Knows, ChannelDriver.Knows, hret, htomb]
  tauto

section invariant
variable {past : Past} {e : Event ρ}

/-- A channel that is committed is in the past. -/
theorem Chained.successors_ne (h : Chained past s) {cid : ByteArr 8}
    (hcid : s.stage cid = .committed) : past.successors cid ≠ [] := by
  obtain ⟨b, hb⟩ := Option.isSome_iff_exists.1 ((s.link_isSome cid).2 hcid)
  rcases h.successors cid with heq | hlost
  · rw [heq, hb]
    exact List.cons_ne_nil b []
  · rw [hlost.unlinked] at hb
    cases hb

/-- A successor is chained to a channel that is retained, and is itself one that the driver does
not know. -/
theorem Chained.opens (h : Chained past s) {pred successor : ByteArr 8}
    (hs : s.successorOf env pred e = some successor) :
    (s.driver.retained.lookup pred).isSome ∧ ¬s.driver.Knows successor := by
  obtain ⟨auth, ckptRef, hest, hnamed, rfl⟩ := successorOf_cases hs
  obtain ⟨snaps, hrec, hunknown, hnotomb, hpred, -⟩ := establishes_driver hest
  refine ⟨(hrec.isSome (hpred _ hnamed)).elim (h.snapshots _) id, fun hknows => ?_⟩
  rcases hknows with hret | htomb
  · rw [hunknown] at hret
    cases hret
  · exact hnotomb htomb

/-- A successor is established where it is not committed. -/
theorem Chained.opens_live (h : Chained past s) (hguard : past.guarded = true → Guarded past s)
    (hok : Fresh env past s e) {pred successor : ByteArr 8}
    (hs : s.successorOf env pred e = some successor) : s.stage successor ≠ .committed := by
  intro hstage
  rcases hok.2 with hguarded | hreopens
  · exact (h.opens hs).2 ((hguard hguarded).closed successor (h.successors_ne hstage))
  · obtain ⟨auth, ckptRef, hest, hnamed, rfl⟩ := successorOf_cases hs
    rw [reopens, hest, Option.any_some, hnamed, hstage] at hreopens
    simp at hreopens

/-- A step that chains a successor to a channel finds it uncommitted and without a past. -/
theorem Chained.successors_nil (h : Chained past s) (hok : Fresh env past s e)
    {pred successor : ByteArr 8} (hs : s.successorOf env pred e = some successor) :
    s.link pred = none ∧ past.successors pred = [] := by
  have hlink : s.link pred = none := by
    rw [← Option.not_isSome_iff_eq_none, link_isSome]
    intro hstage
    rw [successor_none_of_committed hok.1 hstage] at hs
    cases hs
  refine ⟨hlink, ?_⟩
  rcases h.successors pred with heq | hlost
  · rw [heq, hlink]
    rfl
  · have hret := (h.opens hs).1
    rw [hlost.unretained] at hret
    cases hret

theorem Chained.step (h : Chained past s) (hguard : past.guarded = true → Guarded past s)
    (hok : Fresh env past s e) : Chained (past.after env s e) (step env s e).1 := by
  obtain ⟨hret, htomb, -, hsnaps⟩ := s.step_driver env e
  refine ⟨?_, fun cid => ?_, fun store hstore a b hl => ?_, fun key hkey => ?_⟩
  · by_cases hmade : ∃ pred successor, s.successorOf env pred e = some successor
    · obtain ⟨pred, successor, hs⟩ := hmade
      refine h.acyclic.link (a := pred) (b := successor) (fun x y hxy => ?_) fun hback => ?_
      · rw [step_link] at hxy
        cases hx : s.successorOf env x e with
        | none =>
          rw [hx] at hxy
          exact .inl hxy
        | some z =>
          obtain ⟨auth, _, hest, hnamed, rfl⟩ := successorOf_cases hs
          obtain ⟨auth', _, hest', hnamed', rfl⟩ := successorOf_cases hx
          rw [hx] at hxy
          rw [hest, Option.some_inj] at hest'
          subst hest'
          rw [hnamed, Option.some_inj] at hnamed'
          exact .inr ⟨(Prod.mk.inj hnamed').1.symm, (Option.some_inj.1 hxy).symm⟩
      · -- The successor is not the predecessor, which is retained, and is linked to nothing.
        rcases hback.cases_head with rfl | ⟨z, hz, -⟩
        · exact (h.opens hs).2 (.inl (h.opens hs).1)
        · exact h.opens_live hguard hok hs ((s.link_isSome successor).1 (by rw [hz]; rfl))
    · refine h.acyclic.mono fun a b hab => ?_
      rw [step_link] at hab
      cases ha : s.successorOf env a e with
      | none =>
        rw [ha] at hab
        exact hab
      | some b' => exact absurd ⟨a, b', ha⟩ hmade
  · rw [step_link, Past.after]
    dsimp only
    cases hs : s.successorOf env cid e with
    | none =>
      rw [Option.toList_none, List.append_nil, Option.none_or]
      exact (h.successors cid).imp_right fun hlost => hlost.step hs
    | some b =>
      rw [(h.successors_nil hok hs).2]
      exact .inl rfl
  · have hrel : Option.Rel (DecisionStore.Relinks fun a b => s.successorOf env a e = some b)
        s.decisions (Carriage.step env s e).1.decisions := (s.step_relinks e).store
    rw [hstore] at hrel
    generalize hold : s.decisions = old at hrel
    cases hrel with
    | some hrel =>
      rw [step_link]
      rcases hrel a b hl with hlinked | hs
      · have hlink := h.stored _ hold a b hlinked
        cases hs : s.successorOf env a e with
        | none => exact hlink
        | some c =>
          rw [(h.successors_nil hok hs).1] at hlink
          cases hlink
      · rw [hs]
        rfl
  · rw [hret]
    exact (hsnaps key hkey).elim (fun hold => .inl (h.snapshots key hold)) .inl

theorem Guarded.step (h : Guarded past s) (hchained : Chained past s) :
    Guarded (past.after env s e) (step env s e).1 := by
  obtain ⟨-, -, hdur, -⟩ := s.step_driver env e
  refine ⟨fun cid hcid => (s.step_knows e cid).2 (.inl ?_), fun hd => ?_⟩
  · cases hs : s.successorOf env cid e with
    | none =>
      rw [Past.after] at hcid
      dsimp only at hcid
      rw [hs, Option.toList_none, List.append_nil] at hcid
      exact h.closed cid hcid
    | some b => exact .inl (hchained.opens hs).1
  · rw [hdur] at hd
    obtain ⟨store, hstore, hdecided⟩ := h.decided hd
    have hkeep := (show s.Remembers (Carriage.step env s e).1 from s.step_remembers e).decisions
    rw [hstore] at hkeep
    cases hs' : (Carriage.step env s e).1.decisions with
    | none =>
      rw [hs'] at hkeep
      cases hkeep
    | some store' =>
      rw [hs'] at hkeep
      refine ⟨store', rfl, fun cid hcid => ?_⟩
      rcases (s.step_knows e cid).1 hcid with hold | hnew
      · cases hkeep with
        | some hsub => exact hsub (hdecided cid hold)
      · obtain ⟨auth, hest, rfl⟩ := Option.map_eq_some_iff.1 hnew
        obtain ⟨store'', hstore'', hmem⟩ := establishes_decided hest hd hstore
        rw [hs', Option.some_inj] at hstore''
        rwa [hstore'']

end invariant

/-! ## Starting -/

/-- What a carriage built on a store starts with. -/
structure Starts (s : Carriage ρ) (store : DecisionStore) : Prop where
  decisions : s.decisions = some store
  links : ∀ cid, s.link cid = store.link cid
  retained : s.driver.retained = ∅
  snapshots : s.driver.chainSnapshots = ∅

section start
variable {store : DecisionStore} {entries : List (Bytes × Bytes)} {suite : Suite}
  {signingKey encSeed : ByteArr 32} {settlePtr : String} {past : Past}

theorem starts_of_replay {strict : Bool} {driver : ChannelDriver} {profile : Profile}
    {rail : Option ρ} (hret : driver.retained = ∅) (hsnaps : driver.chainSnapshots = ∅)
    (hlists : store.Lists entries)
    (h : replayGuards strict { (empty driver profile : Carriage ρ) with rail } entries = some s) :
    s.Starts store ∧ s.driver = driver := by
  obtain ⟨hstore, hrebuilt⟩ := replayGuards_rebuilt h hlists (rebuilt_empty driver profile rail)
  have hdriver : s.driver = driver :=
    replayGuards_invariant (P := fun s => s.driver = driver) (fun _ _ h => h)
      (fun _ _ _ _ h => h) (fun _ _ h => h) h rfl
  refine ⟨⟨hstore, fun cid => ?_, hdriver ▸ hret, hdriver ▸ hsnaps⟩, hdriver⟩
  have hrecorded : s.chainState.lookup cid = store.recorded cid := hrebuilt.dispositions cid
  rw [link, hrecorded]
  rfl

theorem starts_demo {rail : Option ρ} (hlists : store.Lists entries)
    (h : Carriage.demo (.new suite signingKey encSeed settlePtr) rail (some entries) = some s) :
    s.Starts store ∧ s.driver.durable = false := by
  obtain ⟨hstarts, hdriver⟩ := starts_of_replay rfl rfl hlists h
  rw [hdriver]
  exact ⟨hstarts, rfl⟩

/-- Under the driver of a proof carriage the channels that the store accepted are tombstones. -/
theorem starts_proof {rail : ρ} (hlists : store.Lists entries)
    (h : Carriage.proof (.new suite signingKey encSeed settlePtr) rail entries = some s) :
    s.Starts store ∧ ∀ cid, cid ∈ s.driver.tombstones ↔ chopenKey cid ∈ store.keys := by
  obtain ⟨tombstones, htomb, h⟩ := Option.bind_eq_some_iff.1 h
  obtain ⟨hstarts, hdriver⟩ := starts_of_replay rfl rfl hlists h
  rw [hdriver]
  refine ⟨hstarts, fun cid => ?_⟩
  dsimp only
  rw [ChannelDriver.new, Finset.empty_union, Retention.mem_tombstonesOf htomb, Finmap.mem_keys,
    ← Finmap.lookup_isSome, Option.isSome_iff_exists]
  constructor
  · rintro ⟨⟨key, value⟩, he, rfl⟩
    exact ⟨value, hlists.mem_iff.1 he⟩
  · rintro ⟨value, hvalue⟩
    exact ⟨_, hlists.mem_iff.2 hvalue, rfl⟩

theorem Starts.chained (h : s.Starts store) (hacyclic : Links.Acyclic store.link)
    (hpast : ∀ cid, past.successors cid = (s.link cid).toList ∨ s.Lost cid) :
    Chained past s := by
  refine ⟨hacyclic.mono fun a b hab => h.links a ▸ hab, hpast, fun store' hstore a b hl => ?_,
    fun key hkey => ?_⟩
  · rw [h.decisions, Option.some_inj] at hstore
    rw [h.links, hstore]
    exact hl
  · rw [h.snapshots] at hkey
    cases hkey

/-- A carriage that starts on a new store has no past. -/
theorem Starts.chained_new (h : s.Starts ∅) : Chained .new s := by
  refine h.chained (Links.acyclic_of_none fun _ => rfl) fun cid => .inl ?_
  rw [h.links]
  rfl

/-- What a store links is of the successors of the past. -/
theorem Starts.successors_eq (h : s'.Starts store) (hchained : Chained past s)
    (hstore : s.decisions = some store) {cid : ByteArr 8} (hlink : (s'.link cid).isSome = true) :
    past.successors cid = (s'.link cid).toList := by
  obtain ⟨b, hb⟩ := Option.isSome_iff_exists.1 hlink
  rw [h.links] at hb
  have hold := hchained.stored store hstore cid b hb
  rcases hchained.successors cid with heq | hlost
  · rw [heq, h.links, hb, hold]
  · rw [hlost.unlinked] at hold
    cases hold

/-- Under a driver that knows the channels of the past, a carriage goes on with it. -/
theorem Starts.chained_past (h : s'.Starts store) (hchained : Chained past s)
    (hstore : s.decisions = some store)
    (hclosed : ∀ cid, past.successors cid ≠ [] → cid ∈ s'.driver.tombstones) :
    Chained past s' := by
  refine h.chained (hchained.acyclic.mono (hchained.stored store hstore)) fun cid => ?_
  cases hl : s'.link cid with
  | none =>
    by_cases hcid : past.successors cid = []
    · rw [hcid]
      exact .inl rfl
    · refine .inr ⟨hl, ?_, hclosed cid hcid⟩
      rw [h.retained]
      rfl
  | some b =>
    rw [← hl]
    exact .inl (h.successors_eq hchained hstore (by rw [hl]; rfl))

/-- Under another driver, it goes on with what the store links. -/
theorem Starts.chained_links (h : s'.Starts store) (hchained : Chained past s)
    (hstore : s.decisions = some store) :
    Chained ⟨false, fun cid => if (s'.link cid).isSome then past.successors cid else []⟩ s' := by
  refine h.chained (hchained.acyclic.mono (hchained.stored store hstore)) fun cid => .inl ?_
  dsimp only
  split_ifs with hlink
  · exact h.successors_eq hchained hstore hlink
  · rw [Option.not_isSome_iff_eq_none.1 hlink]
    rfl

/-- A driver that has tombstones of the channels its store accepted knows no others. -/
theorem Starts.guarded (h : s.Starts store)
    (htomb : s.driver.durable = true →
      ∀ cid, cid ∈ s.driver.tombstones ↔ chopenKey cid ∈ store.keys)
    (hclosed : ∀ cid, past.successors cid ≠ [] → cid ∈ s.driver.tombstones) : Guarded past s := by
  refine ⟨fun cid hcid => .inr (hclosed cid hcid), fun hdur => ⟨store, h.decisions, ?_⟩⟩
  rintro cid (hret | hcid)
  · rw [h.retained] at hret
    cases hret
  · exact (htomb hdur cid).1 hcid

/-- A restart that knows the channels of the past goes on with it, another one with the links. -/
theorem restarted_chained (h : s'.Starts store) (hchained : Chained past s)
    (hguard : past.guarded = true → Guarded past s) (hstore : s.decisions = some store)
    {known : Bool} (hknown : known = true → s.driver.durable = true ∧
      ∀ cid, cid ∈ s'.driver.tombstones ↔ chopenKey cid ∈ store.keys) :
    Chained (past.restarted known s') s' ∧
      ((past.restarted known s').guarded = true → Guarded (past.restarted known s') s') := by
  unfold Past.restarted
  split_ifs with hkept
  · rw [Bool.and_eq_true] at hkept
    obtain ⟨hdur, htomb⟩ := hknown hkept.2
    have hguarded := hguard hkept.1
    obtain ⟨store', hstore', hdecided⟩ := hguarded.decided hdur
    rw [hstore, Option.some_inj] at hstore'
    subst hstore'
    have hclosed : ∀ cid, past.successors cid ≠ [] → cid ∈ s'.driver.tombstones :=
      fun cid hcid => (htomb cid).2 (hdecided cid (hguarded.closed cid hcid))
    exact ⟨h.chained_past hchained hstore hclosed, fun _ => h.guarded (fun _ => htomb) hclosed⟩
  · exact ⟨h.chained_links hchained hstore, nofun⟩

end start

/-- In every history the links have no cycle and are of the successors of the past, and a driver
that is to know the channels of the past does. -/
theorem History.chained {past : Past} (h : History env (Fresh env) past s) :
    Chained past s ∧ (past.guarded = true → Guarded past s) := by
  induction h with
  | @demo signingKey encSeed settlePtr rail entries s hnew h =>
    cases entries with
    | none =>
      cases h
      refine ⟨⟨Links.acyclic_of_none fun _ => rfl, fun _ => .inl rfl, nofun, nofun⟩, fun _ => ?_⟩
      exact ⟨fun _ hcid => absurd rfl hcid, nofun⟩
    | some entries =>
      obtain rfl : entries = [] := by simpa using hnew
      obtain ⟨hstarts, hdur⟩ := starts_demo DecisionStore.lists_nil h
      refine ⟨hstarts.chained_new, fun _ => hstarts.guarded (fun hd => ?_) ?_⟩
      · rw [hdur] at hd
        cases hd
      · exact fun _ hcid => absurd rfl hcid
  | proof h =>
    obtain ⟨hstarts, htomb⟩ := starts_proof DecisionStore.lists_nil h
    exact ⟨hstarts.chained_new,
      fun _ => hstarts.guarded (fun _ => htomb) fun _ hcid => absurd rfl hcid⟩
  | step h e hok ih =>
    exact ⟨ih.1.step ih.2 hok, fun hg => (ih.2 hg).step ih.1⟩
  | restart h hstore hentries h' ih =>
    obtain ⟨hstarts, htomb⟩ := starts_proof hentries h'
    exact restarted_chained hstarts ih.1 ih.2 hstore fun hdur => ⟨hdur, htomb⟩
  | restartDemo h hstore hentries h' ih =>
    exact restarted_chained (starts_demo hentries h').1 ih.1 ih.2 hstore nofun

/-! ## The tip -/

theorem followChain_eq (s : Carriage ρ) : ∀ (fuel : ℕ) (cid : ByteArr 8),
    s.followChain fuel cid = Links.follow s.link fuel cid
  | 0, _ => rfl
  | fuel + 1, cid => by
    rw [followChain, Links.follow, link]
    rcases s.chainState.lookup cid with _ | _ | successor | draw
    · rfl
    · rfl
    · exact followChain_eq s fuel successor
    · rfl

theorem Chained.tip_end {past : Past} (h : Chained past s) (cid : ByteArr 8) :
    s.link (s.resolveChainTip cid) = none := by
  have hdom : ∀ a, (s.link a).isSome → a ∈ s.chainState.keys := by
    intro a ha
    rw [Finmap.mem_keys, ← Finmap.lookup_isSome]
    rw [link] at ha
    cases hc : s.chainState.lookup a with
    | none =>
      rw [hc] at ha
      cases ha
    | some d => rfl
  rw [resolveChainTip, followChain_eq]
  exact h.acyclic.follow_card hdom (Nat.le_succ _) cid

theorem tip_reached (s : Carriage ρ) (cid : ByteArr 8) :
    Relation.ReflTransGen (Links.Link s.link) cid (s.resolveChainTip cid) := by
  rw [resolveChainTip, followChain_eq]
  exact Links.follow_reaches _ _

/-- A funding's target is the tip of the channel it names. -/
theorem fundingCredit_target {fp : FundingProof} {c : FundingCredit}
    (h : s.fundingCredit env fp = .ok c) : c.target = s.resolveChainTip fp.channelId := by
  unfold fundingCredit at h
  simp only [bind_eq_ok, okOr_eq_ok, pure_eq_ok] at h
  obtain ⟨payerKey, -, authHash, -, -, -, -, -, -, -, -, -, -, -, channel, -, newFunding, -,
    rfl⟩ := h
  rcases hc : s.chainState.lookup fp.channelId with _ | _ | successor | draw <;>
    simp only [resolveChainTip, followChain, hc]

/-- A funding credits the channel `tip` and no other. -/
structure CreditsOnly (env : Env ρ) (s : Carriage ρ) (tip : ByteArr 8) (fp : FundingProof) :
    Prop where
  others : ∀ fails cid, cid ≠ tip →
    (s.onFunding env fails fp).2.channels.lookup cid = s.channels.lookup cid ∧
      (s.onFunding env fails fp).2.ledger.lookup cid = s.ledger.lookup cid
  tip : ∀ fails c, s.fundingCredit env fp = .ok c → (s.consumeRef fails c.canonicalRef).1 = .first →
    s.channels.lookup tip = some c.channel ∧
      c.newFunding = ((s.ledger.lookup tip).getD {}).fundingSum + c.credited ∧
      (s.onFunding env fails fp).2.channels.lookup tip = some (c.channel.creditFunding c.credited) ∧
      (s.onFunding env fails fp).2.ledger.lookup tip =
        some { (s.ledger.lookup tip).getD {} with fundingSum := c.newFunding }

theorem creditsOnly (s : Carriage ρ) (fp : FundingProof) :
    s.CreditsOnly env (s.resolveChainTip fp.channelId) fp := by
  refine ⟨fun fails cid hne => ?_, fun fails c hc hfirst => ?_⟩
  · unfold onFunding
    cases hc : s.fundingCredit env fp with
    | error e => exact ⟨rfl, rfl⟩
    | ok c =>
      have htarget := fundingCredit_target hc
      have hkeep := s.consumeRef_sameBooks fails c.canonicalRef
      dsimp only
      generalize s.consumeRef fails c.canonicalRef = out at hkeep ⊢
      obtain ⟨outcome, s₁⟩ := out
      replace hkeep : s.SameBooks s₁ := hkeep
      rcases outcome with _ | _ | _ <;> dsimp only
      · rw [htarget, Finmap.lookup_insert_of_ne _ hne, Finmap.lookup_insert_of_ne _ hne,
          hkeep.channels, hkeep.ledger]
        exact ⟨rfl, rfl⟩
      · rw [hkeep.channels, hkeep.ledger]
        exact ⟨rfl, rfl⟩
      · rw [hkeep.channels, hkeep.ledger]
        exact ⟨rfl, rfl⟩
  · have htarget := fundingCredit_target hc
    obtain ⟨hchannel, hnew, -⟩ := fundingCredit_ok hc
    have hkeep := s.consumeRef_sameBooks fails c.canonicalRef
    unfold onFunding
    rw [hc, ← htarget]
    dsimp only
    generalize s.consumeRef fails c.canonicalRef = out at hfirst hkeep ⊢
    obtain ⟨outcome, s₁⟩ := out
    obtain rfl : outcome = .first := hfirst
    replace hkeep : s.SameBooks s₁ := hkeep
    refine ⟨hchannel, hnew, ?_, ?_⟩
    · dsimp only
      rw [Finmap.lookup_insert]
    · dsimp only
      rw [Finmap.lookup_insert, hkeep.ledger]

/-- In every history whose steps import no snapshot left behind and chain no channel that is
committed already unless the driver knows it, the links of the committed channels are acyclic; each
committed channel has the one successor that was established of it; following the links from any
channel ends at the one channel it leads to that is not committed; and a funding of any channel
credits that tip and no other. -/
theorem chain_tip {past : Past} (h : History env (Fresh env) past s) :
    (∀ cid, ¬Relation.TransGen (Links.Link s.link) cid cid) ∧
    (∀ cid, s.stage cid = .committed → ∃ successor, s.link cid = some successor ∧
      past.successors cid = [successor]) ∧
    (∀ cid tip, tip = s.resolveChainTip cid ↔
      Relation.ReflTransGen (Links.Link s.link) cid tip ∧ s.stage tip ≠ .committed) ∧
    ∀ fp, s.CreditsOnly env (s.resolveChainTip fp.channelId) fp := by
  have hchained := h.chained.1
  refine ⟨hchained.acyclic, fun cid hcid => ?_, fun cid tip => ?_, s.creditsOnly⟩
  · obtain ⟨successor, hsucc⟩ := Option.isSome_iff_exists.1 ((s.link_isSome cid).2 hcid)
    refine ⟨successor, hsucc, ?_⟩
    rcases hchained.successors cid with heq | hlost
    · rw [heq, hsucc]
      rfl
    · rw [hlost.unlinked] at hsucc
      cases hsucc
  · have hend : ∀ t, s.stage t ≠ .committed ↔ s.link t = none := fun t => by
      rw [← Option.not_isSome_iff_eq_none, link_isSome]
    rw [hend]
    constructor
    · rintro rfl
      exact ⟨s.tip_reached cid, hchained.tip_end cid⟩
    · rintro ⟨hreach, hnone⟩
      exact Links.end_unique hreach hnone (s.tip_reached cid) (hchained.tip_end cid)

/-- A run goes on with a history, and adds the successors it establishes. -/
theorem History.exec {ok : Past → Carriage ρ → Event ρ → Prop}
    (allowed : Carriage ρ → Event ρ → Prop) {guarded : Bool}
    (hok : ∀ past s e, past.guarded = guarded → allowed s e → ok past s e) :
    ∀ (es : List (Event ρ)) {past : Past} {s : Carriage ρ}, History env ok past s →
      past.guarded = guarded → Along (Carriage.step env) allowed s es →
      ∃ past', History env ok past' (Paytp.exec (Carriage.step env) s es) ∧
        ∀ cid, past'.successors cid =
          past.successors cid ++ marks (Carriage.step env) (successorOf env cid) s es
  | [], past, s, h, _, _ => ⟨past, h, fun cid => by rw [marks, List.append_nil]⟩
  | e :: es, past, s, h, hg, hes => by
    obtain ⟨past', h', hsucc⟩ := exec allowed hok es (h.step e (hok past s e hg hes.1)) hg hes.2
    refine ⟨past', h', fun cid => ?_⟩
    rw [hsucc, marks, ← List.append_assoc]
    rfl

open Sample in
/-- A channel is chained to a second one. -/
def firstLife : List (Event VirtualRail) :=
  [sent (.channelOpen (openOn (terms (cid 1) none 1000)) 1000),
    sent (.close (closeOf (cid 1) (.replicate 32 0) true)),
    sent (.channelOpen (openOn (terms (cid 2) (some (cid 1, birthRef (cid 1) 0 1000)) 2000)) 2000)]

/-- A demo carriage on a store of these entries. -/
def demoOn (entries : List (Bytes × Bytes)) : Carriage VirtualRail :=
  (demo Sample.driver none (some entries)).getD Sample.start

/-- What a store records in the first life of a demo carriage. -/
def firstEntries : List (Bytes × Bytes) :=
  [(dispKey (Sample.cid 1), encodeDisp (.committed (Sample.cid 2)))]

open Sample in
/-- The second channel is opened anew and chained to the first one, opened anew. -/
def secondLife : List (Event VirtualRail) :=
  [sent (.channelOpen (openOn (terms (cid 2) none 4000)) 4000),
    sent (.close (closeOf (cid 2) (.replicate 32 0) true)),
    sent (.channelOpen (openOn (terms (cid 1) (some (cid 2, birthRef (cid 2) 0 4000)) 5000)) 5000)]

/-- A funding of the predecessor is credited to its successor. -/
theorem chain_tip_firstLife :
    (exec (step Sample.env) Sample.start firstLife).CreditsOnly Sample.env (Sample.cid 2)
      (Sample.fundingOf (Sample.terms (Sample.cid 1) none 1000) "virt-ref:0" 500) := by
  have hstart : History Sample.env (Fresh Sample.env) .new Sample.start :=
    .proof (Option.some_get _).symm
  obtain ⟨past, hhistory, -⟩ := History.exec (fun s e => s.importsStale Sample.env e = false)
    (fun past _ _ (hg : past.guarded = true) hstale => ⟨hstale, .inl hg⟩) firstLife hstart rfl
    (by decide +kernel)
  have htip : (exec (step Sample.env) Sample.start firstLife).resolveChainTip (Sample.cid 1) =
    Sample.cid 2 := by decide +kernel
  exact htip ▸ (chain_tip hhistory).2.2.2
    (Sample.fundingOf (Sample.terms (Sample.cid 1) none 1000) "virt-ref:0" 500)

/-- A second successor is established of a committed channel and its link is led to it; and a demo
carriage, restarted on the store of its first life without the channels of it, chains a committed
channel to its own successor. -/
theorem doubleImport_demoRestart :
    (∃ past, History Sample.env (fun _ _ _ => True) past
        (exec (step Sample.env) Sample.start doubleImport) ∧
      (exec (step Sample.env) Sample.start doubleImport).link (Sample.cid 1) =
        some (Sample.cid 2) ∧
      past.successors (Sample.cid 1) = [Sample.cid 3, Sample.cid 2]) ∧
    ∃ past s, History Sample.env (fun _ _ _ => True) past s ∧
      Relation.TransGen (Links.Link s.link) (Sample.cid 1) (Sample.cid 1) ∧
      s.stage (s.resolveChainTip (Sample.cid 1)) = .committed := by
  have hlife (past : Past) (s : Carriage VirtualRail) (es : List (Event VirtualRail))
      (h : History Sample.env (fun _ _ _ => True) past s) := History.exec
    (fun _ _ => True) (fun _ _ _ _ h => h) es h rfl
    (along_of_invariant (P := fun _ => True) (fun _ _ h => h) s es trivial)
  constructor
  · obtain ⟨past, hhistory, hsucc⟩ :=
      hlife .new Sample.start doubleImport (.proof (Option.some_get _).symm)
    refine ⟨past, hhistory, by decide +kernel, ?_⟩
    rw [hsucc]
    decide +kernel
  · have hstore : (exec (step Sample.env) (demoOn []) firstLife).decisions =
        some (Finmap.insert (dispKey (Sample.cid 1))
          (encodeDisp (.committed (Sample.cid 2))) ∅) := by
      decide +kernel
    obtain ⟨past, hfirst, -⟩ := hlife .new (demoOn []) firstLife
      (.demo (show (some ([] : List (Bytes × Bytes))).all List.isEmpty from rfl) rfl)
    obtain ⟨past', hhistory, -⟩ := hlife _ (demoOn firstEntries) secondLife
      (hfirst.restartDemo hstore (show DecisionStore.Lists _ firstEntries from rfl) rfl)
    refine ⟨past', _, hhistory, ?_, by decide +kernel⟩
    have hforth : (exec (step Sample.env) (demoOn firstEntries) secondLife).link (Sample.cid 1) =
      some (Sample.cid 2) := by decide +kernel
    have hback : (exec (step Sample.env) (demoOn firstEntries) secondLife).link (Sample.cid 2) =
      some (Sample.cid 1) := by decide +kernel
    exact .tail (.single hforth) hback

end Carriage

end Paytp
