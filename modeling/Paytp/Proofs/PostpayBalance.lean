import Paytp.Proofs.Tallied

/-!
# The balance of a postpay channel

A channel that waits for its successor is settling and has all it metered evidenced, so that the
position it hands on is the one it holds. As long as no channel meters while more is paid than it
metered, the balance of a postpay channel is the position that its ledger computes.
-/

namespace Paytp

open Carriage

namespace Carriage

variable {ρ : Type} {env : Env ρ} {fails : StoreFaults} {s s' : Carriage ρ} {cid : ByteArr 8}

/-! ## Channels that wait for a successor -/

/-- No channel waits for its successor that did not before. -/
structure NoNewPending (s s' : Carriage ρ) : Prop where
  pending : ∀ cid, s'.chainState.lookup cid = some .pending →
    s.chainState.lookup cid = some .pending

theorem NoNewPending.of_eq (h : s'.chainState = s.chainState) : s.NoNewPending s' :=
  ⟨fun cid hp => by rwa [h] at hp⟩

theorem NoNewPending.trans {a b c : Carriage ρ} (hab : a.NoNewPending b)
    (hbc : b.NoNewPending c) : a.NoNewPending c :=
  ⟨fun cid hp => hab.pending cid (hbc.pending cid hp)⟩

theorem NoNewPending.insert {d : ChainState} (h : s'.chainState = s.chainState.insert cid d)
    (hd : d ≠ .pending) : s.NoNewPending s' := by
  refine ⟨fun cid' hp => ?_⟩
  rw [h, HashMap.lookup_insert_ite] at hp
  split_ifs at hp
  · exact absurd (Option.some_inj.mp hp) hd
  · exact hp

theorem attemptPrepayCloseDraw_noNewPending (s : Carriage ρ) (env : Env ρ) (cid : ByteArr 8) :
    s.NoNewPending (s.attemptPrepayCloseDraw env cid) := by
  unfold attemptPrepayCloseDraw
  split
  · dsimp only
    split
    · exact .insert rfl nofun
    · exact .insert rfl nofun
    · exact .of_eq rfl
  · exact .of_eq rfl

theorem closePlain_noNewPending (s : Carriage ρ) (env : Env ρ) (fails : StoreFaults)
    (close : Close) : s.NoNewPending (s.closePlain env fails close).2 := by
  unfold closePlain
  split_ifs
  · obtain ⟨s₁, hs₁, heq, -⟩ | ⟨s₁, draw, hs₁, heq⟩ := s.reconcile_cases env fails close
    · rw [heq]
      exact .of_eq hs₁.chainState
    · rw [heq]
      refine .trans (.trans (.of_eq hs₁.chainState) ?_)
        (attemptPrepayCloseDraw_noNewPending _ env close.channelId)
      exact .insert rfl nofun
  · exact attemptPrepayCloseDraw_noNewPending s env close.channelId

/-- A close for chaining is refused, leaves the disposition, or records that the channel waits. -/
theorem closeChained_cases (s : Carriage ρ) (cid : ByteArr 8) :
    (∃ e, s.closeChained cid = (.error e, s)) ∨ s.closeChained cid = (.ok (), s) ∨
      (∀ st, s.channels.lookup cid = some st → st.cumTotal = s.basisCum cid) ∧
        s.closeChained cid =
          (.ok (), { s with chainState := s.chainState.insert cid .pending }) := by
  unfold closeChained
  dsimp only
  split_ifs with hcum _ _
  · exact .inl ⟨_, rfl⟩
  · exact .inl ⟨_, rfl⟩
  · refine .inr (.inr ⟨fun st hst => ?_, rfl⟩)
    rw [hst] at hcum
    exact not_not.mp hcum
  · exact .inr (.inl rfl)

/-- A channel that a close makes wait has all it metered evidenced and meters no more. -/
theorem onClose_pending {close : Close}
    (h : (s.onClose env fails close).2.chainState.lookup cid = some .pending) :
    s.chainState.lookup cid = some .pending ∨
      (s.driver.retained.lookup cid).isSome ∧
        ∀ b, (s.onClose env fails close).2.books cid = some b → b.state.phase ≠ .open ∧
          ∃ st, s.channels.lookup cid = some st ∧ b.state.cumTotal = s.basisCum cid ∧
            b = { s.bookOf cid st with state := st.beginSettling } := by
  have hfinish : ∀ s₁ : Carriage ρ, (s₁.finishClose close.channelId).2.chainState =
      s₁.chainState := fun s₁ => finishClose_chainState s₁ close.channelId
  unfold Carriage.onClose at h ⊢
  cases hscreen : s.screenClose env close with
  | error e =>
    rw [hscreen] at h
    exact .inl h
  | ok decision =>
    rw [hscreen] at h
    dsimp only at h ⊢
    by_cases hchains : s.chains close.channelId decision = true
    · rw [if_pos hchains] at h ⊢
      have hretained : (s.driver.retained.lookup close.channelId).isSome := by
        unfold screenClose at hscreen
        simp only [bind_eq_ok, okOr_eq_ok] at hscreen
        obtain ⟨payerKey, hkey, -⟩ := hscreen
        obtain ⟨r, hr, -⟩ := Option.map_eq_some_iff.mp hkey
        rw [hr]
        rfl
      obtain ⟨e, heq⟩ | heq | ⟨hcum, heq⟩ := s.closeChained_cases close.channelId <;>
        rw [heq] at h ⊢
      · exact .inl h
      · left
        dsimp only at h
        rwa [hfinish] at h
      · dsimp only at h ⊢
        rw [hfinish] at h
        dsimp only at h
        rw [HashMap.lookup_insert_ite] at h
        by_cases he : cid = close.channelId
        · subst he
          refine .inr ⟨hretained, fun b hb => ?_⟩
          unfold finishClose at hb
          cases hst : s.channels.lookup close.channelId with
          | none =>
            simp only [hst, Carriage.books, Option.map_none, reduceCtorEq] at hb
          | some st =>
            simp only [hst, Carriage.books, Finmap.lookup_insert, Option.map_some,
              Option.some.injEq] at hb
            subst hb
            exact ⟨beginSettling_phase st, st, rfl,
              (beginSettling_cumTotal st).trans (hcum st hst), rfl⟩
        · rw [if_neg he] at h
          exact .inl h
    · rw [if_neg hchains] at h ⊢
      have hplain := s.closePlain_noNewPending env fails close
      left
      refine hplain.pending cid ?_
      rcases heq : s.closePlain env fails close with ⟨_ | _, s₁⟩ <;> rw [heq] at h
      · exact h
      · dsimp only at h ⊢
        rwa [hfinish] at h

/-! ## Balanced carriages -/

/-- Does the call meter a postpay channel that was paid more than it metered, or past the top of a
counter? -/
def oversteps (env : Env ρ) (s : Carriage ρ) (e : Event ρ) : Bool :=
  match e.call with
  | .batch cid slices =>
    decide ((s.batch env cid slices).1 = .ok .accepted) && (s.books cid).any fun b =>
      decide (b.state.mode = .postpay) && !decide (b.MayMeter slices)
  | _ => false

/-- The postpay channels are tallied, those that wait for their successor quiet, and the positions
that were handed on balance. -/
structure Balanced (s : Carriage ρ) : Prop where
  tallied : ∀ cid b, s.books cid = some b → b.state.mode = .postpay → b.Tallied
  retained : ∀ cid, s.chainState.lookup cid = some .pending →
    (s.driver.retained.lookup cid).isSome
  quiet : ∀ cid b, s.chainState.lookup cid = some .pending → s.books cid = some b →
    b.state.mode = .postpay → b.Quiet
  snapshots : ∀ key snap, s.driver.chainSnapshots.lookup key = some snap →
    snap.mode = .postpay → Books.Balances snap

/-- What an OPEN installs is tallied, where the positions it may import balance. -/
theorem Installed.tallied {crypto : Crypto} {b : Books}
    {snaps : HashMap (ByteArr 8 × ByteArr 32) ChainSnapshot} (h : Installed crypto snaps b)
    (hsnaps : ∀ key snap, snaps.lookup key = some snap → snap.mode = .postpay →
      Books.Balances snap) (hmode : b.state.mode = .postpay) : b.Tallied := by
  cases h with
  | fresh channelId kSession mode limitL limitE =>
    obtain rfl : mode = .postpay := hmode
    exact .fresh ..
  | imported hsnap hacc hnew =>
    have hsame := ChannelState.newImported_mode hnew
    exact (hsnaps _ _ hsnap (hsame.symm.trans hmode)).imported (hsame.symm.trans hmode) _ hnew

namespace Balanced

variable (hbooked : s.Booked env.suite.toCrypto) (h : s.Balanced)
include hbooked h

/-- The positions an OPEN may import balance. -/
theorem recorded {snaps : HashMap (ByteArr 8 × ByteArr 32) ChainSnapshot}
    (hrec : s.Recorded env snaps) (key : ByteArr 8 × ByteArr 32) (snap : ChainSnapshot)
    (hs : snaps.lookup key = some snap) (hmode : snap.mode = .postpay) : Books.Balances snap := by
  obtain hold | ⟨hpending, hnew⟩ := hrec key snap hs
  · exact h.snapshots key snap hold hmode
  · obtain ⟨st, hst, hands⟩ := computeChainSnapshot_hands hnew
    have hb := books_of hst
    rw [hands.mode] at hmode
    exact (h.tallied _ _ hb hmode).handsOn (hbooked.sound hst) hmode
      (h.quiet _ _ hpending hb hmode) hands

/-- Moves that meter nothing keep a carriage balanced, if a channel that begins to wait for its
successor is retained and quiet. -/
theorem follows {kinds : List Books.Kind} (hmeter : Books.Kind.meter ∉ kinds)
    (hs : s.Follows env.suite.toCrypto kinds s')
    (hret : ∀ cid, (s.driver.retained.lookup cid).isSome →
      (s'.driver.retained.lookup cid).isSome)
    (hsnap : s'.driver.chainSnapshots = s.driver.chainSnapshots)
    (hpending : ∀ cid, s'.chainState.lookup cid = some .pending →
      s.chainState.lookup cid = some .pending ∨ (s.driver.retained.lookup cid).isSome ∧
        ∀ b, s'.books cid = some b → b.state.mode = .postpay → b.Quiet) : s'.Balanced := by
  -- the books there are come from books there were
  have hfrom : ∀ {cid b'}, s'.books cid = some b' → b'.state.mode = .postpay →
      ∃ b, s.books cid = some b ∧ b.state.mode = .postpay ∧ b'.Tallied ∧ (b.Quiet → b'.Quiet) := by
    intro cid b' hb' hmode
    cases hst : s.channels.lookup cid with
    | none =>
      rw [(hs.vacant cid hst).books, Carriage.books, hst] at hb'
      cases hb'
    | some st =>
      have hb := books_of hst
      obtain ⟨b'', hb'', hm⟩ := hs.moves cid _ hb
      rw [hb'] at hb''
      cases hb''
      rw [Books.Moves.mode_eq hm] at hmode
      exact ⟨_, hb, hmode, (h.tallied cid _ hb hmode).moves hmeter (hbooked.reachable cid _ hb)
        hmode hm⟩
  constructor
  · intro cid b' hb' hmode
    obtain ⟨b, -, -, htally, -⟩ := hfrom hb' hmode
    exact htally
  · intro cid hp
    obtain hold | ⟨hr, -⟩ := hpending cid hp
    · exact hret cid (h.retained cid hold)
    · exact hret cid hr
  · intro cid b' hp hb' hmode
    obtain ⟨b, hb, hmode', -, hquiet⟩ := hfrom hb' hmode
    obtain hold | ⟨-, hnew⟩ := hpending cid hp
    · exact hquiet (h.quiet cid b hold hb hmode')
    · exact hnew b' hb' hmode
  · rw [hsnap]
    exact h.snapshots

theorem onOpen (o : ChannelOpen) (now : ℕ) : (s.onOpen env fails o now).2.Balanced := by
  obtain ⟨-, r, snaps, decisions, hrec, heq⟩ |
    ⟨-, snaps, authHash, openHash, acc, decisions, -, hrec, hscreen, hret, hacc, heq⟩ :=
    s.onOpen_cases env fails o now <;> rw [heq]
  · exact ⟨h.tallied, h.retained, h.quiet, h.recorded hbooked hrec⟩
  · obtain ⟨⟨b₁, hnew, hinst⟩, hother, hdriver⟩ :=
      hbooked.opened fails decisions hrec hscreen hret hacc
    have hcs := s.opened_chainState env fails snaps decisions o acc
    -- the channel that opens does not wait, and no other begins to
    have hpending : ∀ cid, (s.opened env fails snaps decisions o acc).chainState.lookup cid =
        some .pending → s.chainState.lookup cid = some .pending ∧ cid ≠ o.auth.channelId := by
      intro cid hp
      have hold : s.chainState.lookup cid = some .pending := by
        rw [hcs] at hp
        cases hpred : o.auth.predecessor with
        | none => rwa [hpred] at hp
        | some pred =>
          rw [hpred] at hp
          dsimp only at hp
          rw [HashMap.lookup_insert_ite] at hp
          split_ifs at hp
          · cases hp
          · exact hp
      refine ⟨hold, ?_⟩
      rintro rfl
      have hr := h.retained _ hold
      rw [hret] at hr
      cases hr
    constructor
    · intro cid b hb hmode
      by_cases he : cid = o.auth.channelId
      · rw [he, hnew] at hb
        cases hb
        exact hinst.tallied (h.recorded hbooked hrec) hmode
      · rw [(hother cid he).books] at hb
        exact h.tallied cid b hb hmode
    · intro cid hp
      rw [hdriver]
      exact isSome_insert fun _ => h.retained cid (hpending cid hp).1
    · intro cid b hp hb hmode
      obtain ⟨hold, he⟩ := hpending cid hp
      rw [(hother cid he).books] at hb
      exact h.quiet cid b hold hb hmode
    · rw [hdriver]
      exact h.recorded hbooked hrec

theorem onClose (close : Close) : (s.onClose env fails close).2.Balanced := by
  have hfollows : s.Follows env.suite.toCrypto _ (s.onClose env fails close).2 :=
    onClose_follows hbooked close
  refine h.follows hbooked (by simp) hfollows (fun cid hr => ?_) (onClose_chainSnapshots s close)
    fun cid hp => ?_
  · obtain heq | heq := s.onClose_driver env fails close <;> rw [heq]
    · exact hr
    · exact terminate_retained _ hr
  · obtain hold | ⟨hr, hnew⟩ := onClose_pending hp
    · exact .inl hold
    · refine .inr ⟨hr, fun b hb hmode => ?_⟩
      obtain ⟨hphase, st, hst, hcum, heq⟩ := hnew b hb
      refine ⟨hphase, ?_⟩
      have hmode' : st.mode = .postpay := by
        rw [heq] at hmode
        exact (beginSettling_mode st).symm.trans hmode
      have hb := books_of hst
      have htally := h.tallied cid _ hb hmode'
      have hle := (hbooked.sound hst).wellFormed.cum_le
      rw [hcum, basisCum_eq st (by have := htally.metered; omega), heq]
      rfl

/-- A batch that does not overstep keeps a carriage balanced. -/
theorem batch (slices : List Slice)
    (hok : s.oversteps env ⟨.batch cid slices, fails⟩ = false) :
    (s.batch env cid slices).2.Balanced := by
  obtain heq | ⟨st, st', hst, heq, hcases⟩ := s.batch_cases env cid slices
  · rw [heq]
    exact h
  · rw [heq]
    have hother : ∀ cid', cid' ≠ cid →
        SameAt cid' s { s with channels := s.channels.insert cid st' } := fun cid' hne =>
      ⟨Finmap.lookup_insert_of_ne _ hne, rfl, rfl, rfl, rfl⟩
    have hthere := Finmap.lookup_insert (a := cid) (b := st') s.channels
    obtain ⟨pausedWindow, rfl⟩ | ⟨hres, hne, heach⟩ := hcases
    · refine h.follows hbooked (show Books.Kind.meter ∉ [.idle] by simp) ?_ (fun _ => id) rfl
        fun _ => .inl
      exact .at_channel hst hthere (.single ⟨.idle, by simp, .idle pausedWindow id⟩) hother
    · have hb := books_of hst
      have hsound := hbooked.sound hst
      have htaken := ChannelState.acceptEach_taken hsound.wellFormed heach
      have hmode' : st'.mode = st.mode := by
        have hframe := congrArg ChannelState.mode htaken.frame
        exact hframe
      have hnew : ({ s with channels := s.channels.insert cid st' } : Carriage ρ).books cid =
          some { s.bookOf cid st with state := st' } := books_of hthere
      have hcovers : st.mode = .postpay → (s.bookOf cid st).MayMeter slices := by
        intro hmode
        simp only [oversteps, hres, hb, Option.any_some, decide_true, Bool.true_and,
          Bool.and_eq_false_iff, decide_eq_false_iff_not, Bool.not_eq_false', decide_eq_true_eq]
          at hok
        exact hok.resolve_left fun hne => hne hmode
      constructor
      · intro cid' b hb' hmode
        by_cases he : cid' = cid
        · rw [he, hnew] at hb'
          cases hb'
          have hpost : st.mode = .postpay := hmode'.symm.trans hmode
          exact (h.tallied cid _ hb hpost).meter hsound htaken (hcovers hpost)
            (ChannelState.acceptEach_within hne heach)
        · rw [(hother cid' he).books] at hb'
          exact h.tallied cid' b hb' hmode
      · exact h.retained
      · intro cid' b hp hb' hmode
        by_cases he : cid' = cid
        · rw [he, hnew] at hb'
          cases hb'
          have hquiet := h.quiet cid _ (he ▸ hp) hb (hmode'.symm.trans hmode)
          exact absurd (ChannelState.acceptEach_open hne heach) hquiet.settling
        · rw [(hother cid' he).books] at hb'
          exact h.quiet cid' b hp hb' hmode
      · exact h.snapshots

/-- A step that does not overstep keeps a carriage balanced. -/
theorem step (e : Event ρ) (hok : s.oversteps env e = false) :
    (Carriage.step env s e).1.Balanced := by
  obtain ⟨call, fails⟩ := e
  have hfollows : ∀ {kinds : List Books.Kind} {s' : Carriage ρ}, Books.Kind.meter ∉ kinds →
      s.Follows env.suite.toCrypto kinds s' → s'.driver = s.driver →
      s'.chainState = s.chainState → s'.Balanced := by
    intro kinds s' hmeter hs hdriver hcs
    refine h.follows hbooked hmeter hs (fun cid hr => ?_) (by rw [hdriver]) fun cid hp => ?_
    · rwa [hdriver]
    · rw [hcs] at hp
      exact .inl hp
  cases call with
  | channelOpen o now => exact h.onOpen hbooked o now
  | checkpointRequest request =>
    have hsame : s.Unmoved (s.onCheckpointRequest env request).2 :=
      onCheckpointRequest_unmoved s request
    exact hfollows (by simp) (onCheckpointRequest_follows s request) hsame.driver hsame.chainState
  | fundingProof fp =>
    have hsame : s.Unmoved (s.onFunding env fails fp).2 := onFunding_unmoved s fp
    exact hfollows (by simp) (onFunding_follows s fp) hsame.driver hsame.chainState
  | settlementPropose p =>
    have hsame : s.OffRail (s.onSettlementPropose env p).2 :=
      (onSettlementPropose_redrawn s p).offRail
    exact hfollows (by simp) (onSettlementPropose_follows hbooked p) hsame.driver hsame.chainState
  | settlementProof proof =>
    have hsame : s.Unmoved (s.onSettlementProof env fails proof).2 :=
      onSettlementProof_unmoved s proof
    exact hfollows (by simp) (onSettlementProof_follows hbooked proof) hsame.driver
      hsame.chainState
  | close close => exact h.onClose hbooked close
  | batch cid slices => exact h.batch hbooked slices hok
  | ackRequest req now => exact h
  | prepayInterimDraw cid =>
    have hsame : s.Untouched (s.runPrepayInterimDraw env cid).2 :=
      runPrepayInterimDraw_untouched s cid
    exact hfollows (by simp) (runPrepayInterimDraw_follows s cid) hsame.driver hsame.chainState
  | rail op =>
    exact hfollows (show Books.Kind.meter ∉ [] by simp) (.of_same (sameBooks_rail s _)) rfl rfl

end Balanced

/-- A carriage starts balanced. -/
theorem Balanced.built (h : Built env s) : s.Balanced := by
  refine h.invariant (fun _ _ hs => ⟨hs.tallied, hs.retained, hs.quiet, hs.snapshots⟩)
    (fun s cid d hd hs => ?_)
    (fun _ _ hs => ⟨hs.tallied, hs.retained, hs.quiet, hs.snapshots⟩) ?_
  · have hold : s.NoNewPending { s with chainState := s.chainState.insert cid d } :=
      .insert rfl hd
    exact ⟨hs.tallied, fun cid hp => hs.retained cid (hold.pending cid hp),
      fun cid b hp => hs.quiet cid b (hold.pending cid hp), hs.snapshots⟩
  · intro driver profile rail _ hsnap _
    have hpending : ∀ cid, (Carriage.empty driver profile : Carriage ρ).chainState.lookup cid ≠
        some .pending := fun cid hp => by cases (Finmap.lookup_empty cid).symm.trans hp
    refine ⟨fun cid b hb => ?_, fun cid hp => absurd hp (hpending cid),
      fun cid b hp => absurd hp (hpending cid), fun key snap hs => ?_⟩
    · obtain ⟨st, hst, -⟩ := books_eq_some.1 hb
      cases (Finmap.lookup_empty cid).symm.trans hst
    · dsimp only at hs
      rw [show (Carriage.empty driver profile : Carriage ρ).driver = driver from rfl, hsnap] at hs
      cases (Finmap.lookup_empty key).symm.trans hs

/-- A run whose batches do not overstep stays balanced. -/
theorem Balanced.exec : ∀ {s : Carriage ρ} (es : List (Event ρ)), s.Booked env.suite.toCrypto →
    s.Balanced → Along (Carriage.step env) (fun s e => s.oversteps env e = false) s es →
    (Paytp.exec (Carriage.step env) s es).Balanced
  | _, [], _, h, _ => h
  | _, e :: es, hbooked, h, ⟨hok, hrest⟩ =>
    Balanced.exec es (hbooked.step e).1 (h.step hbooked e hok) hrest

/-- In every state that a run reaches whose batches do not overstep, the balance of a postpay
channel is what is metered and not paid, and the position that an import computes. -/
theorem postpay_balance (h : Built env s) (es : List (Event ρ))
    (hok : Along (step env) (fun s e => s.oversteps env e = false) s es) {b : Books}
    (hb : (exec (step env) s es).books cid = some b) (hmode : b.state.mode = .postpay) :
    b.state.balance = max 0 ((b.state.cumTotal : ℤ) - b.ledger.fundingSum - b.ledger.netLegsSum -
        (sumOf b.ledger.settledR / 10000 : ℕ)) ∧
      b.state.balance = importedBalanceF6e .postpay b.state.cumTotal b.ledger.settledR
        b.ledger.netLegsSum b.ledger.fundingSum b.state.boundLower b.state.boundUpper := by
  have hbalanced := Balanced.exec es (.built h) (.built h) hok
  have htally := hbalanced.tallied cid b hb hmode
  refine ⟨?_, (htally.position (built_sound h es hb)).symm⟩
  rw [htally.balance, Books.paid]
  congr 1
  omega

section sample

open Sample

def thirdSlice : Slice := sliceOf (creditTerms (Sample.cid 1)) 3 500 (by decide) (by decide)

/-- While a round is paid, the payer also funds what its net leg pays, and proves the funding
before the legs. Then the channel meters on. -/
def paidTwice : List (Event VirtualRail) :=
  creditRun ++
    [sent (.rail (pay (creditTerms (Sample.cid 1)) 990)),
      sent (.fundingProof (fundingOf (creditTerms (Sample.cid 1)) "virt-ref:2" 990)),
      sent (.settlementProof
        (proofOf creditRound [⟨0x01, "virt-ref:0", "final"⟩, ⟨0x02, "virt-ref:1", "final"⟩])),
      sent (.batch (Sample.cid 1) [thirdSlice])]

theorem postpay_balance_creditRun : ∃ b,
    (exec (step Sample.env) start (creditRun ++ creditProofs)).books (Sample.cid 1) = some b ∧
      b.state.cumTotal = 1000 ∧ b.state.balance = max 0 ((b.state.cumTotal : ℤ) -
        b.ledger.fundingSum - b.ledger.netLegsSum - (sumOf b.ledger.settledR / 10000 : ℕ)) := by
  have hbooks : ((exec (step Sample.env) start (creditRun ++ creditProofs)).books
      (Sample.cid 1)).map (fun b => (b.state.cumTotal, b.state.mode)) = some (1000, .postpay) := by
    decide +kernel
  obtain ⟨b, hb, hcum⟩ := Option.map_eq_some_iff.mp hbooks
  rw [Prod.mk.injEq] at hcum
  have hbalance := postpay_balance start_built (creditRun ++ creditProofs) (by decide +kernel) hb
    hcum.2
  exact ⟨b, hb, hcum.1, hbalance.1⟩

/-- The channel then owes 500 by its balance and nothing by its ledger. -/
theorem paidTwice_disagrees : Built Sample.env start ∧ ∃ b,
    (exec (step Sample.env) start paidTwice).books (Sample.cid 1) = some b ∧
      b.state.mode = .postpay ∧ b.state.balance = 500 ∧
      max 0 ((b.state.cumTotal : ℤ) - b.ledger.fundingSum - b.ledger.netLegsSum -
        (sumOf b.ledger.settledR / 10000 : ℕ)) = 0 ∧
      importedBalanceF6e .postpay b.state.cumTotal b.ledger.settledR b.ledger.netLegsSum
        b.ledger.fundingSum b.state.boundLower b.state.boundUpper = 0 := by
  refine ⟨start_built, ?_⟩
  have hbooks : ((exec (step Sample.env) start paidTwice).books (Sample.cid 1)).map (fun b =>
      (b.state.mode, b.state.balance, max 0 ((b.state.cumTotal : ℤ) - b.ledger.fundingSum -
        b.ledger.netLegsSum - (sumOf b.ledger.settledR / 10000 : ℕ)),
        importedBalanceF6e .postpay b.state.cumTotal b.ledger.settledR b.ledger.netLegsSum
          b.ledger.fundingSum b.state.boundLower b.state.boundUpper)) =
      some (.postpay, 500, 0, 0) := by
    decide +kernel
  obtain ⟨b, hb, heq⟩ := Option.map_eq_some_iff.mp hbooks
  simp only [Prod.mk.injEq] at heq
  exact ⟨b, hb, heq⟩

end sample

end Carriage

end Paytp
