import Paytp.Proofs.Metering
import Paytp.Proofs.Dispositions

/-!
# What is not evidenced yet

A channel's unevidenced amount is what its window sums to, and its running total is the total of
its evidence, the operative checkpoint or else the imported position, and the unevidenced amount
on top. Slices move the total and the window together; a checkpoint moves the evidence by what
it takes out of the window.
-/

namespace Paytp

namespace ChannelState

variable {crypto : Crypto} {s : ChannelState} {basis : ℕ}

/-- Accepted slices are unevidenced. -/
theorem Taken.unevidenced_eq {s' : ChannelState} {slices : List Slice} (ht : Taken s slices s')
    (h : s.WellFormed) : s'.unevidenced = s.unevidenced + amounts slices := by
  have hvals := amounts_perm (ht.window.map Prod.snd)
  rw [List.map_append, amounts_append, List.map_map] at hvals
  have hslices : slices.map (Prod.snd ∘ fun x => (x.seq, x)) = slices := List.map_id slices
  rw [hslices] at hvals
  rw [ht.wellFormed.unevidenced_eq, h.unevidenced_eq, OrdMap.values, hvals, Nat.add_comm]
  rfl

/-- The running total is `basis` and the unevidenced amount on top. -/
structure Evidenced (s : ChannelState) (basis : ℕ) : Prop where
  wellFormed : s.WellFormed
  cumTotal : s.cumTotal = satAddU128 basis s.unevidenced

namespace Evidenced

theorem taken (h : s.Evidenced basis) {slices : List Slice} {s' : ChannelState}
    (ht : Taken s slices s') : s'.Evidenced basis := by
  refine ⟨ht.wellFormed, ?_⟩
  rw [ht.cumTotal, h.cumTotal, satAddU128_assoc, ht.unevidenced_eq h.wellFormed]

theorem pause (h : s.Evidenced basis) :
    ({ s with pausedWindow := true } : ChannelState).Evidenced basis :=
  ⟨h.wellFormed.pause, h.cumTotal⟩

theorem acceptBatch (h : s.Evidenced basis) (slices : List Slice) :
    (s.acceptBatch crypto slices).2.Evidenced basis := by
  unfold ChannelState.acceptBatch
  rcases heach : s.acceptEach crypto slices with ⟨e | ⟨⟩, s'⟩
  · show (if e = .windowExceeded then { s with pausedWindow := true } else s).Evidenced basis
    split_ifs
    · exact h.pause
    · exact h
  · exact h.taken (acceptEach_taken h.wellFormed heach)

/-- A checkpoint that is taken at a cut evidences what the window holds up to it. -/
theorem checkpointUpto (h : s.Evidenced basis) {proposed : Checkpoint}
    (hrec : s.recomputes crypto proposed = true) :
    (s.checkpointUpto crypto proposed.lastSeq).Evidenced proposed.cumTotal := by
  refine ⟨h.wellFormed.checkpointUpto _, ?_⟩
  simp only [recomputes, Bool.and_eq_true, beq_iff_eq] at hrec
  have hcum : s.cumTotal - amounts (s.window.past proposed.lastSeq).values = proposed.cumTotal :=
    hrec.1.1.1.1.1.1.2
  have hsplit := amounts_split s.window proposed.lastSeq
  have hunev := h.wellFormed.unevidenced_eq
  have htotal := h.cumTotal
  have hle := h.wellFormed.cum_le
  rw [← hcum]
  show s.cumTotal = satAddU128 _ (amounts (s.window.past proposed.lastSeq).values)
  unfold satAddU128 at htotal ⊢
  omega

theorem creditFunding (h : s.Evidenced basis) (credited : ℕ) :
    (s.creditFunding credited).Evidenced basis :=
  ⟨h.wellFormed.creditFunding credited, h.cumTotal⟩

theorem applySettlementRound (h : s.Evidenced basis) (gross : ℕ) :
    (s.applySettlementRound gross).Evidenced basis := by
  refine ⟨h.wellFormed.applySettlementRound gross, ?_⟩
  unfold ChannelState.applySettlementRound
  by_cases hmode : s.mode = .postpay
  · rw [if_pos hmode]
    exact h.cumTotal
  · rw [if_neg hmode]
    exact h.cumTotal

theorem beginSettling (h : s.Evidenced basis) : s.beginSettling.Evidenced basis := by
  refine ⟨h.wellFormed.beginSettling, ?_⟩
  unfold ChannelState.beginSettling
  split_ifs
  · exact h.cumTotal
  · exact h.cumTotal

/-- A channel starts with all its total as its evidence. -/
theorem born (h : Born crypto s) (hempty : s.unevidenced = 0) : s.Evidenced s.cumTotal := by
  have hw := wellFormed_born h
  refine ⟨hw, ?_⟩
  rw [hempty, satAddU128_zero hw.cum_le]

end Evidenced

end ChannelState

namespace ChannelDriver

variable {suite : Suite} {driver : ChannelDriver}

/-- What is imported is at its birth, with nothing to evidence. -/
theorem chainedImport_born {pred : ByteArr 8 × ByteArr 32} {auth : ChannelAuth}
    {kSession seed : ByteArr 32} {mode : Mode} {i : Import}
    (hfit : Carriage.Fit driver.chainSnapshots)
    (h : driver.chainedImport suite pred auth kSession seed mode = .ok i) :
    ChannelState.Born suite.toCrypto i.state ∧ i.state.unevidenced = 0 := by
  unfold chainedImport at h
  simp only [bind_eq_ok, okOr_eq_ok, require_eq_ok] at h
  obtain ⟨snap, hsnap, -, -, -, -, -, -, accruals, -, h⟩ := h
  split at h
  · cases h
  · rename_i state hnew
    cases h
    refine ⟨.imported (hfit pred snap hsnap) hnew, ?_⟩
    unfold ChannelState.newImported at hnew
    dsimp only at hnew
    split_ifs at hnew
    cases hnew
    rfl

/-- An established channel is at its birth; one that names no predecessor starts at nothing. -/
theorem established_born {o : ChannelOpen} {authHash openHash : ByteArr 32} {acc : Accepted}
    (hfit : Carriage.Fit driver.chainSnapshots)
    (h : driver.acceptOpen suite o authHash openHash = .ok acc) :
    ChannelState.Born suite.toCrypto (established suite o.auth acc).state ∧
      (established suite o.auth acc).state.unevidenced = 0 ∧
      (o.auth.predecessor = none → (established suite o.auth acc).state.cumTotal = 0) := by
  obtain ⟨-, hnone, hsome⟩ := acceptOpen_ok h
  unfold established
  cases hp : o.auth.predecessor with
  | none =>
    rw [hnone hp]
    exact ⟨.fresh _ _ _ _ _ _, rfl, fun _ => rfl⟩
  | some pred =>
    obtain ⟨-, i, kSession, seed, himp, hi⟩ := hsome pred hp
    obtain ⟨hborn, hempty⟩ := chainedImport_born hfit hi
    rw [himp]
    exact ⟨hborn, hempty, nofun⟩

end ChannelDriver

namespace Carriage

variable {ρ : Type} {env : Env ρ} {fails : StoreFaults} {s s' : Carriage ρ}

/-- The total a channel's evidence attests: the operative checkpoint's, else what was imported,
else nothing. -/
def evidenceCum (s : Carriage ρ) (cid : ByteArr 8) : ℕ :=
  match s.operative.lookup cid, s.importedBasis.lookup cid with
  | some op, _ => op.cumTotal
  | none, some b => b.cum
  | none, none => 0

theorem evidenceCum_of_insert {cid : ByteArr 8} {op : Operative}
    (h : s'.operative = s.operative.insert cid op) : s'.evidenceCum cid = op.cumTotal := by
  rw [evidenceCum, h, Finmap.lookup_insert]

/-- Every channel is evidenced, and there is evidence of channels only. -/
structure Evidenced (s : Carriage ρ) : Prop where
  channel : ∀ cid st, s.channels.lookup cid = some st → st.Evidenced (s.evidenceCum cid)
  retained : ∀ cid, (s.channels.lookup cid).isSome → (s.driver.retained.lookup cid).isSome
  operative : ∀ cid, (s.operative.lookup cid).isSome → (s.channels.lookup cid).isSome
  imported : ∀ cid, (s.importedBasis.lookup cid).isSome → (s.channels.lookup cid).isSome
  snapshots : Fit s.driver.chainSnapshots

theorem isSome_insert {V : Type} {m : HashMap (ByteArr 8) V} {cid cid' : ByteArr 8} {v : V}
    (h : cid' ≠ cid → (m.lookup cid').isSome = true) :
    ((m.insert cid v).lookup cid').isSome = true := by
  rw [HashMap.lookup_insert_ite]
  split_ifs with he
  · rfl
  · exact h he

theorem sig_of_verifySigned {suite : Suite} {key : ByteArr 32} {label : DomainLabel}
    {content : Option (List Tlv.Field)} {sig : Option (ByteArr 64)}
    (h : suite.verifySigned key label content sig = true) : sig.isSome = true := by
  unfold Suite.verifySigned at h
  split at h
  · rfl
  · cases h

/-- A request that passes its checks is about a channel that is there, and its proposal gets a
name once it is countersigned. -/
theorem screenCheckpoint_ok {request : CheckpointRequest} {state : ChannelState}
    (h : s.screenCheckpoint env request = .ok state) :
    s.channels.lookup request.proposed.channelId = some state ∧
      ((s.driver.countersignCheckpoint env.suite request.proposed).reference env.suite).isSome =
        true := by
  unfold screenCheckpoint at h
  simp only [bind_eq_ok, okOr_eq_ok, require_eq_ok] at h
  obtain ⟨payerKey, -, -, hverify, hst⟩ := h
  refine ⟨hst, ?_⟩
  rw [CheckpointRequest.verify, Bool.and_eq_true, Checkpoint.verifyPayer] at hverify
  have hsig := sig_of_verifySigned hverify.2
  have hpayer : (s.driver.countersignCheckpoint env.suite request.proposed).sigPayer =
      request.proposed.sigPayer := rfl
  have hmerchant : (s.driver.countersignCheckpoint env.suite
      request.proposed).sigMerchant.isNone = false := rfl
  rw [Checkpoint.reference, hpayer, hmerchant, Bool.or_false, if_neg]
  · rfl
  · rw [Option.isNone_iff_eq_none]
    exact Option.isSome_iff_ne_none.mp hsig

/-- Folding a round moves the balance of its channel at most. -/
theorem foldLegs_channels (s : Carriage ρ) (fold : RoundFold) :
    (s.foldLegs fold).channels = s.channels ∨ ∃ st gross,
      s.channels.lookup fold.key.1 = some st ∧ (s.foldLegs fold).channels =
        s.channels.insert fold.key.1 (st.applySettlementRound gross) := by
  unfold foldLegs
  dsimp only
  cases hst : s.channels.lookup fold.key.1 with
  | none => exact .inl rfl
  | some st =>
    dsimp only
    split_ifs <;> first | exact .inr ⟨st, _, rfl, rfl⟩ | exact .inl rfl

namespace Evidenced

/-- The evidence is about the same channels of a driver that has forgotten none. -/
theorem ofDriver (h : s.Evidenced) (hret : ∀ cid, (s.driver.retained.lookup cid).isSome →
      (s'.driver.retained.lookup cid).isSome) (hfit : Fit s'.driver.chainSnapshots)
    (hch : s'.channels = s.channels) (hop : s'.operative = s.operative)
    (himp : s'.importedBasis = s.importedBasis) : s'.Evidenced := by
  have hcum : s'.evidenceCum = s.evidenceCum := by
    funext cid
    rw [evidenceCum, hop, himp, evidenceCum]
  constructor
  · rw [hch, hcum]
    exact h.channel
  · rw [hch]
    exact fun cid hc => hret cid (h.retained cid hc)
  · rw [hch, hop]
    exact h.operative
  · rw [hch, himp]
    exact h.imported
  · exact hfit

theorem frame (h : s.Evidenced) (hdriver : s'.driver = s.driver)
    (hch : s'.channels = s.channels) (hop : s'.operative = s.operative)
    (himp : s'.importedBasis = s.importedBasis) : s'.Evidenced :=
  h.ofDriver (by rw [hdriver]; exact fun _ hr => hr) (by rw [hdriver]; exact h.snapshots) hch hop
    himp

theorem untouched (h : s.Evidenced) (hs : s.Untouched s') : s'.Evidenced :=
  h.frame hs.driver hs.channels hs.operative hs.importedBasis

/-- One channel moves, and its evidence, maybe, with it. -/
theorem update (h : s.Evidenced) {cid : ByteArr 8} {st st' : ChannelState}
    (hst : s.channels.lookup cid = some st)
    (hch : s'.channels = s.channels.insert cid st')
    (hret : ∀ cid', (s.driver.retained.lookup cid').isSome →
      (s'.driver.retained.lookup cid').isSome)
    (hsnap : s'.driver.chainSnapshots = s.driver.chainSnapshots)
    (himp : s'.importedBasis = s.importedBasis)
    (hop : ∀ cid', cid' ≠ cid → s'.operative.lookup cid' = s.operative.lookup cid')
    (hev : st'.Evidenced (s'.evidenceCum cid)) : s'.Evidenced := by
  have hsome : (s.channels.lookup cid).isSome = true := by rw [hst]; rfl
  constructor
  · intro cid' st'' hlook
    rw [hch, HashMap.lookup_insert_ite] at hlook
    split_ifs at hlook with he
    · cases hlook
      rw [he]
      exact hev
    · have hsame : s'.evidenceCum cid' = s.evidenceCum cid' := by
        rw [evidenceCum, hop cid' he, himp, evidenceCum]
      rw [hsame]
      exact h.channel cid' st'' hlook
  · intro cid' hlook
    rw [hch, HashMap.lookup_insert_ite] at hlook
    refine hret cid' (h.retained cid' ?_)
    split_ifs at hlook with he
    · rw [he]
      exact hsome
    · exact hlook
  · intro cid' hlook
    rw [hch]
    refine isSome_insert fun he => h.operative cid' ?_
    rwa [hop cid' he] at hlook
  · intro cid' hlook
    rw [hch]
    rw [himp] at hlook
    exact isSome_insert fun _ => h.imported cid' hlook
  · rw [hsnap]
    exact h.snapshots

/-- One channel moves and the evidence does not. -/
theorem move (h : s.Evidenced) {cid : ByteArr 8} {st st' : ChannelState}
    (hst : s.channels.lookup cid = some st) (hch : s'.channels = s.channels.insert cid st')
    (hdriver : s'.driver = s.driver) (himp : s'.importedBasis = s.importedBasis)
    (hop : s'.operative = s.operative)
    (hev : st.Evidenced (s.evidenceCum cid) → st'.Evidenced (s.evidenceCum cid)) :
    s'.Evidenced := by
  refine h.update hst hch (fun cid' hr => ?_) ?_ himp (fun cid' _ => ?_) ?_
  · rwa [hdriver]
  · rw [hdriver]
  · rw [hop]
  · have hsame : s'.evidenceCum cid = s.evidenceCum cid := by
      rw [evidenceCum, hop, himp, evidenceCum]
    rw [hsame]
    exact hev (h.channel cid st hst)

/-! ## Handlers -/

theorem batch (h : s.Evidenced) (cid : ByteArr 8) (slices : List Slice) :
    (s.batch env cid slices).2.Evidenced := by
  unfold Carriage.batch
  split_ifs
  · exact h
  · split
    · exact h
    · rename_i st hst
      dsimp only
      split <;> exact h.move hst rfl rfl rfl rfl fun hev => hev.acceptBatch slices

theorem onFunding (h : s.Evidenced) (fp : FundingProof) :
    (s.onFunding env fails fp).2.Evidenced := by
  unfold Carriage.onFunding
  split
  · exact h
  · rename_i c hc
    have hch : s.channels.lookup c.target = some c.channel := by
      unfold fundingCredit at hc
      simp only [bind_eq_ok, okOr_eq_ok, pure_eq_ok] at hc
      obtain ⟨payerKey, -, authHash, -, -, -, -, -, -, -, ⟨amount, canonicalRef⟩, -, -, -, channel,
        hchannel, newFunding, -, rfl⟩ := hc
      exact hchannel
    have hkeep := consumeRef_offRail s fails c.canonicalRef
    split <;> (rename_i s₁ heq; rw [heq] at hkeep)
    · exact h.untouched hkeep.toUntouched
    · exact h.untouched hkeep.toUntouched
    · have h₁ := h.untouched hkeep.toUntouched
      rw [← hkeep.channels] at hch
      exact h₁.move hch rfl rfl rfl rfl fun hev => hev.creditFunding c.credited

theorem foldLegs (h : s.Evidenced) (fold : RoundFold) : (s.foldLegs fold).Evidenced := by
  obtain heq | ⟨st, gross, hst, heq⟩ := s.foldLegs_channels fold
  · exact h.untouched ⟨rfl, heq, rfl, rfl, rfl⟩
  · exact h.move hst heq rfl rfl rfl fun hev => hev.applySettlementRound gross

theorem onSettlementProof (h : s.Evidenced) (proof : SettlementProof) :
    (s.onSettlementProof env fails proof).2.Evidenced := by
  unfold Carriage.onSettlementProof
  split
  case h_4 fold _ =>
    have hkeep := consumeRefs_offRail fails s (if fold.foldNet then fold.netRefs else [])
    split <;> (rename_i s₁ heq; rw [heq] at hkeep)
    · exact h.untouched hkeep.toUntouched
    · exact h.untouched hkeep.toUntouched
    · exact (h.untouched hkeep.toUntouched).foldLegs fold
  case h_3 => exact h.untouched ⟨rfl, rfl, rfl, rfl, rfl⟩
  all_goals exact h

theorem finishClose (h : s.Evidenced) (cid : ByteArr 8) : (s.finishClose cid).2.Evidenced := by
  unfold Carriage.finishClose
  split
  · exact h
  · rename_i st hst
    refine h.update hst rfl ?_ ?_ rfl (fun _ _ => rfl) (h.channel cid st hst).beginSettling
    · intro cid' hr
      show ((s.driver.terminate cid).retained.lookup cid').isSome = true
      unfold ChannelDriver.terminate
      split
      · exact isSome_insert fun _ => hr
      · exact hr
    · show (s.driver.terminate cid).chainSnapshots = _
      unfold ChannelDriver.terminate
      split <;> rfl

theorem closeChained (h : s.Evidenced) (cid : ByteArr 8) : (s.closeChained cid).2.Evidenced := by
  unfold Carriage.closeChained
  dsimp only
  split_ifs
  · exact h
  · exact h
  · exact h.frame rfl rfl rfl rfl
  · exact h

theorem attemptPrepayCloseDraw (h : s.Evidenced) (cid : ByteArr 8) :
    (s.attemptPrepayCloseDraw env cid).Evidenced := by
  unfold Carriage.attemptPrepayCloseDraw
  split
  · dsimp only
    split <;> exact h.frame rfl rfl rfl rfl
  · exact h

theorem closePlain (h : s.Evidenced) (close : Close) :
    (s.closePlain env fails close).2.Evidenced := by
  unfold Carriage.closePlain
  split_ifs
  · obtain ⟨s₁, hs₁, heq, -⟩ | ⟨s₁, draw, hs₁, heq⟩ := s.reconcile_cases env fails close
    · rw [heq]
      exact h.untouched hs₁
    · rw [heq]
      have hrec : ({ s₁ with
          chainState := s₁.chainState.insert close.channelId (.reconciled draw) } :
          Carriage ρ).Evidenced := (h.untouched hs₁).frame rfl rfl rfl rfl
      exact hrec.attemptPrepayCloseDraw close.channelId
  · exact h.attemptPrepayCloseDraw close.channelId

theorem onClose (h : s.Evidenced) (close : Close) : (s.onClose env fails close).2.Evidenced := by
  unfold Carriage.onClose
  split
  · exact h
  · rename_i decision _
    have hclose : (if s.chains close.channelId decision then s.closeChained close.channelId
        else s.closePlain env fails close).2.Evidenced := by
      split_ifs
      · exact h.closeChained close.channelId
      · exact h.closePlain close
    dsimp only
    generalize (if s.chains close.channelId decision then s.closeChained close.channelId
        else s.closePlain env fails close) = r at hclose ⊢
    obtain ⟨_ | _, s₁⟩ := r
    · exact hclose
    · exact hclose.finishClose close.channelId

theorem onCheckpointRequest (h : s.Evidenced) (request : CheckpointRequest) :
    (s.onCheckpointRequest env request).2.Evidenced := by
  unfold Carriage.onCheckpointRequest
  split
  · exact h
  · rename_i state hscreen
    obtain ⟨hst, href⟩ := screenCheckpoint_ok hscreen
    dsimp only
    split_ifs with hrec
    · split
      · rename_i hnone
        rw [hnone] at href
        cases href
      · rename_i ckptRef _
        refine h.update hst rfl (fun _ hr => hr) rfl rfl (fun cid' hne => ?_) ?_
        · exact Finmap.lookup_insert_of_ne _ hne
        · rw [evidenceCum_of_insert rfl]
          exact (h.channel _ state hst).checkpointUpto hrec
    · exact h
    · exact h

theorem commitPredecessor (h : s.Evidenced) (predecessor : Option (ByteArr 8 × ByteArr 32))
    (successor : ByteArr 8) : (s.commitPredecessor fails predecessor successor).Evidenced := by
  cases predecessor with
  | none => exact h
  | some pred =>
    have hkeep := decideKey_offRail s fails (dispKey pred.1) (encodeDisp (.committed successor))
    exact h.frame hkeep.driver hkeep.channels hkeep.operative hkeep.importedBasis

/-- A new channel has no evidence but what it imports. -/
theorem evidenceCum_install (h : s.Evidenced) {est : Established}
    (hnew : s.channels.lookup est.channelId = none)
    (predecessor : Option (ByteArr 8 × ByteArr 32))
    (hzero : predecessor = none → est.state.cumTotal = 0) :
    (s.install est predecessor).evidenceCum est.channelId = est.state.cumTotal := by
  have hop : s.operative.lookup est.channelId = none := by
    by_contra hne
    have hc := h.operative _ (Option.isSome_iff_ne_none.mpr hne)
    rw [hnew] at hc
    cases hc
  have himp : s.importedBasis.lookup est.channelId = none := by
    by_contra hne
    have hc := h.imported _ (Option.isSome_iff_ne_none.mpr hne)
    rw [hnew] at hc
    cases hc
  cases predecessor with
  | none =>
    have hsame : (s.install est none).evidenceCum est.channelId = s.evidenceCum est.channelId :=
      rfl
    rw [hsame, evidenceCum, hop, himp, hzero rfl]
  | some pred =>
    unfold evidenceCum install
    dsimp only
    rw [hop, Finmap.lookup_insert]

theorem install (h : s.Evidenced) {est : Established}
    (hnew : s.channels.lookup est.channelId = none)
    (hret : (s.driver.retained.lookup est.channelId).isSome)
    (hst : est.state.Evidenced est.state.cumTotal)
    (predecessor : Option (ByteArr 8 × ByteArr 32))
    (hzero : predecessor = none → est.state.cumTotal = 0) :
    (s.install est predecessor).Evidenced := by
  have himp : ∀ cid, cid ≠ est.channelId →
      (s.install est predecessor).importedBasis.lookup cid = s.importedBasis.lookup cid := by
    intro cid hne
    cases predecessor with
    | none => rfl
    | some pred => exact Finmap.lookup_insert_of_ne _ hne
  constructor
  · intro cid st hlook
    have hlook' : (s.channels.insert est.channelId est.state).lookup cid = some st := hlook
    rw [HashMap.lookup_insert_ite] at hlook'
    split_ifs at hlook' with he
    · cases hlook'
      rw [he, h.evidenceCum_install hnew predecessor hzero]
      exact hst
    · have hsame : (s.install est predecessor).evidenceCum cid = s.evidenceCum cid := by
        rw [evidenceCum, himp cid he]
        rfl
      rw [hsame]
      exact h.channel cid st hlook'
  · intro cid hlook
    by_cases he : cid = est.channelId
    · rw [he]
      exact hret
    · refine h.retained cid ?_
      rwa [← Finmap.lookup_insert_of_ne (b := est.state) s.channels he]
  · exact fun cid hlook => isSome_insert fun _ => h.operative cid hlook
  · refine fun cid hlook => isSome_insert fun hne => h.imported cid ?_
    rwa [himp cid hne] at hlook
  · exact h.snapshots

theorem onOpen (h : s.Evidenced) (o : ChannelOpen) (now : ℕ) :
    (s.onOpen env fails o now).2.Evidenced := by
  obtain ⟨-, r, snaps, decisions, hrec, heq⟩ |
    ⟨-, snaps, authHash, openHash, acc, decisions, -, hrec, -, hnew, hacc, heq⟩ :=
    s.onOpen_cases env fails o now <;> rw [heq]
  · exact h.ofDriver (fun _ hr => hr) (hrec.fit h.snapshots) rfl rfl rfl
  · have hfit' : Fit snaps := hrec.fit h.snapshots
    obtain ⟨hborn, hempty, hzero⟩ := ChannelDriver.established_born hfit' hacc
    have hch : s.channels.lookup o.auth.channelId = none := by
      by_contra hne
      have hr := h.retained _ (Option.isSome_iff_ne_none.mpr hne)
      rw [hnew] at hr
      cases hr
    have hdriver : ({ s with
        driver := ({ s.driver with chainSnapshots := snaps } : ChannelDriver).retain o.auth acc
        decisions } : Carriage ρ).Evidenced :=
      h.ofDriver (fun cid hr => isSome_insert fun _ => hr) hfit' rfl rfl rfl
    refine (hdriver.install hch ?_ (.born hborn hempty) _ hzero).commitPredecessor _ _
    show (Finmap.lookup _ (Finmap.insert o.auth.channelId _ _)).isSome = true
    rw [ChannelDriver.established, Finmap.lookup_insert]
    rfl

theorem step (h : s.Evidenced) (e : Event ρ) : (Carriage.step env s e).1.Evidenced := by
  obtain ⟨call, fails⟩ := e
  cases call with
  | channelOpen o now => exact h.onOpen o now
  | checkpointRequest request => exact h.onCheckpointRequest request
  | fundingProof fp => exact h.onFunding fp
  | settlementPropose p => exact h.untouched (onSettlementPropose_redrawn s p).offRail.toUntouched
  | settlementProof proof => exact h.onSettlementProof proof
  | close close => exact h.onClose close
  | batch cid slices => exact h.batch cid slices
  | ackRequest req now => exact h
  | prepayInterimDraw cid => exact h.untouched (runPrepayInterimDraw_untouched s cid)
  | rail op => exact h.untouched (untouched_rail s _)

/-! ## Construction -/

/-- A carriage without channels. -/
theorem empty {driver : ChannelDriver} (hfit : Fit driver.chainSnapshots) (profile : Profile)
    (rail : Option ρ) :
    ({ (Carriage.empty driver profile : Carriage ρ) with rail } : Carriage ρ).Evidenced where
  channel := fun cid _ hlook => by
    cases (Finmap.lookup_empty cid).symm.trans hlook
  retained := fun cid hlook => by
    have hnone : (Option.none (α := ChannelState)).isSome = true :=
      (congrArg Option.isSome (Finmap.lookup_empty cid)).symm.trans hlook
    cases hnone
  operative := fun cid hlook => by
    have hnone : (Option.none (α := Operative)).isSome = true :=
      (congrArg Option.isSome (Finmap.lookup_empty cid)).symm.trans hlook
    cases hnone
  imported := fun cid hlook => by
    have hnone : (Option.none (α := ImportedBasis)).isSome = true :=
      (congrArg Option.isSome (Finmap.lookup_empty cid)).symm.trans hlook
    cases hnone
  snapshots := hfit

theorem built (h : Built env s) : s.Evidenced := by
  refine h.invariant (fun _ _ hs => hs.frame rfl rfl rfl rfl)
    (fun _ _ _ _ hs => hs.frame rfl rfl rfl rfl) (fun _ _ hs => hs.frame rfl rfl rfl rfl) ?_
  intro driver profile rail _ hsnap _
  refine empty (fun key snap hlook => ?_) profile rail
  rw [hsnap] at hlook
  cases (Finmap.lookup_empty key).symm.trans hlook

end Evidenced

theorem exec_evidenced (h : s.Evidenced) (es : List (Event ρ)) :
    (exec (step env) s es).Evidenced :=
  exec_invariant (fun _ e hs => hs.step e) s es h

end Carriage

end Paytp
