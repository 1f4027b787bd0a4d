import Paytp.Proofs.Handlers

/-!
# The carriage keeps books

A channel that is opened starts fresh or at a position that the books of another one hand on, and
every step of the carriage takes the books of a channel along the moves.
-/

namespace Paytp

open Carriage

namespace Carriage

variable {ρ : Type} {env : Env ρ} {fails : StoreFaults} {s s' : Carriage ρ} {cid : ByteArr 8}

/-- A computed position is the one that the books hand on. -/
theorem computeChainSnapshot_hands {suite : Suite} {ckptRef : ByteArr 32} {snap : ChainSnapshot}
    (h : s.computeChainSnapshot suite cid ckptRef = some snap) :
    ∃ st, s.channels.lookup cid = some st ∧ (s.bookOf cid st).HandsOn snap := by
  have hfits := computeChainSnapshot_fits h
  unfold computeChainSnapshot at h
  cases hop : s.operative.lookup cid with
  | some op =>
    simp only [hop, Option.bind_eq_bind, Option.bind_eq_some_iff, u128OfNat_eq_some] at h
    obtain ⟨ch, hch, payerKey, -, t, -, establishedAt, -, -, -, cum, ⟨-, rfl⟩, _, hpair, -, -, -, -,
      -, -, h⟩ := h
    cases hpair
    cases h
    exact ⟨ch, hch, .inl ⟨op, hop, rfl, rfl⟩, hfits, rfl, rfl, rfl, rfl, rfl⟩
  | none =>
    simp only [hop, Option.bind_eq_bind, Option.bind_eq_some_iff, Option.guard_eq_some'] at h
    obtain ⟨ch, hch, payerKey, -, t, -, establishedAt, -, -, hzero, cp, -, _, -, -, -, _, hpair, -,
      -, -, -, -, -, h⟩ := h
    cases hpair
    cases h
    exact ⟨ch, hch, .inr ⟨hop, hzero, rfl, rfl⟩, hfits, rfl, rfl, rfl, rfl, rfl⟩

end Carriage

namespace ChannelDriver

variable {suite : Suite} {driver : ChannelDriver}

theorem screenOpen_vector {o : ChannelOpen} {now : ℕ} {hashes : ByteArr 32 × ByteArr 32}
    (h : driver.screenOpen suite o now = .ok hashes) :
    o.auth.vector.map (fun v => (v.role, v.bp)) = SCHEMA_01_ROLES := by
  unfold screenOpen at h
  simp only [bind_eq_ok, require_eq_ok] at h
  obtain ⟨-, -, -, -, -, hgov, -⟩ := h
  exact ChannelAuth.validateVectorGoverned_roles hgov

/-- An import opens at a recorded position. -/
theorem chainedImport_ok {pred : ByteArr 8 × ByteArr 32} {auth : ChannelAuth}
    {kSession seed : ByteArr 32} {mode : Mode} {i : Import}
    (hvec : auth.vector.map (fun v => (v.role, v.bp)) = SCHEMA_01_ROLES)
    (h : driver.chainedImport suite pred auth kSession seed mode = .ok i) :
    ∃ snap accruals, driver.chainSnapshots.lookup pred = some snap ∧
      Books.importedAccruals snap = some accruals ∧
      ChannelState.newImported suite.toCrypto auth.channelId kSession snap.mode auth.limitL
        auth.limitE SCHEMA_01_ROLES snap.cumTotal accruals snap.importedBalance = .ok i.state ∧
      i.openings = { settledR := snap.openingSettledR, netLegs := snap.openingNetLegs
                     funding := snap.openingFunding } := by
  unfold chainedImport at h
  simp only [bind_eq_ok, okOr_eq_ok, require_eq_ok, Bool.and_eq_true, beq_iff_eq] at h
  obtain ⟨snap, hsnap, -, ⟨-, hmode⟩, -, -, -, -, accruals, hacc, h⟩ := h
  have hmapM : Books.importedAccruals snap = some accruals := by
    rw [Books.importedAccruals, ← hvec, List.mapM_map]
    exact hacc
  split at h
  · cases h
  · rename_i state hnew
    cases h
    rw [hvec, hmode] at hnew
    exact ⟨snap, accruals, hsnap, hmapM, hnew, rfl⟩

end ChannelDriver

namespace Carriage

variable {ρ : Type} {env : Env ρ} {fails : StoreFaults} {s s' : Carriage ρ} {cid : ByteArr 8}

/-- The books of a channel that was installed. -/
theorem install_books (est : Established) (predecessor : Option (ByteArr 8 × ByteArr 32))
    (hop : s.operative.lookup est.channelId = none)
    (himp : s.importedBasis.lookup est.channelId = none)
    (hled : s.ledger.lookup est.channelId = none) (hrounds : s.roundsOf est.channelId = []) :
    (s.install est predecessor).books est.channelId = some
      { state := est.state
        operative := none
        basis := predecessor.map fun pred =>
          { cum := est.state.cumTotal, ckptRef := pred.2, accruals := est.state.accrualsByRole
            openingSettledR := (est.ledgerOpenings.map LedgerOpenings.settledR).getD [] }
        ledger := match est.ledgerOpenings with
          | some op => { settledR := op.settledR, netLegsSum := op.netLegs
                         fundingSum := op.funding, version := 0 }
          | none => {}
        rounds := [] } := by
  have hch : (s.install est predecessor).channels.lookup est.channelId = some est.state :=
    Finmap.lookup_insert _
  have hrounds' : (s.install est predecessor).roundsOf est.channelId = [] := hrounds
  have hop' : (s.install est predecessor).operative.lookup est.channelId = none := hop
  rw [books_of hch, bookOf, hrounds', hop']
  congr 2
  · cases predecessor with
    | none => exact himp
    | some pred => exact Finmap.lookup_insert _
  · unfold install
    dsimp only
    cases est.ledgerOpenings with
    | none => rw [hled, Option.getD_none]
    | some op => rw [Finmap.lookup_insert, Option.getD_some]

theorem install_sameAt (s : Carriage ρ) (est : Established)
    (predecessor : Option (ByteArr 8 × ByteArr 32)) (hne : cid ≠ est.channelId) :
    SameAt cid s (s.install est predecessor) := by
  constructor
  · exact Finmap.lookup_insert_of_ne _ hne
  · rfl
  · cases predecessor with
    | none => rfl
    | some pred => exact Finmap.lookup_insert_of_ne _ hne
  · unfold install
    dsimp only
    cases est.ledgerOpenings with
    | none => rfl
    | some op => exact Finmap.lookup_insert_of_ne _ hne
  · rfl

theorem commitPredecessor_sameBooks (fails : StoreFaults) (s : Carriage ρ)
    (predecessor : Option (ByteArr 8 × ByteArr 32)) (successor : ByteArr 8) :
    s.SameBooks (s.commitPredecessor fails predecessor successor) := by
  cases predecessor with
  | none => exact .refl s
  | some pred =>
    have hkeep := s.decideKey_sameBooks fails (dispKey pred.1) (encodeDisp (.committed successor))
    exact hkeep.trans ⟨rfl, rfl, rfl, rfl, rfl, rfl⟩

theorem Booked.snapshots_recorded (h : s.Booked env.suite.toCrypto)
    {snaps : HashMap (ByteArr 8 × ByteArr 32) ChainSnapshot} (hrec : s.Recorded env snaps)
    (key : ByteArr 8 × ByteArr 32) (snap : ChainSnapshot) (hs : snaps.lookup key = some snap) :
    ∃ b, Books.Reachable env.suite.toCrypto b ∧ b.HandsOn snap := by
  obtain hold | ⟨-, hnew⟩ := hrec key snap hs
  · exact h.snapshots key snap hold
  · obtain ⟨st, hst, hands⟩ := computeChainSnapshot_hands hnew
    exact ⟨_, h.reachable _ _ (books_of hst), hands⟩

/-- Books that an OPEN may install: fresh ones, or those of a channel that imports one of the
positions. -/
inductive Installed (crypto : Crypto)
    (snaps : HashMap (ByteArr 8 × ByteArr 32) ChainSnapshot) : Books → Prop
  | fresh (channelId : ByteArr 8) (kSession : ByteArr 32) (mode : Mode) (limitL limitE : ℕ) :
    Installed crypto snaps (Books.fresh crypto channelId kSession mode limitL limitE)
  | imported {pred : ByteArr 8 × ByteArr 32} {snap : ChainSnapshot} {channelId : ByteArr 8}
    {kSession : ByteArr 32} {limitL limitE : ℕ} {accruals : List ℕ} {state : ChannelState}
    (hsnap : snaps.lookup pred = some snap) (hacc : Books.importedAccruals snap = some accruals)
    (hnew : ChannelState.newImported crypto channelId kSession snap.mode limitL limitE
      SCHEMA_01_ROLES snap.cumTotal accruals snap.importedBalance = .ok state) :
    Installed crypto snaps (Books.imported state pred.2 snap)

theorem Installed.reachable {crypto : Crypto} {b : Books}
    {snaps : HashMap (ByteArr 8 × ByteArr 32) ChainSnapshot} (h : Installed crypto snaps b)
    (hsnaps : ∀ key snap, snaps.lookup key = some snap →
      ∃ b, Books.Reachable crypto b ∧ b.HandsOn snap) : Books.Reachable crypto b := by
  cases h with
  | fresh => exact .fresh ..
  | imported hsnap hacc hnew =>
    obtain ⟨b, hb, hands⟩ := hsnaps _ _ hsnap
    exact .imported _ hb hands hacc hnew

/-- A channel that the driver does not retain is not there. -/
theorem Booked.vacant (h : s.Booked env.suite.toCrypto)
    (hret : s.driver.retained.lookup cid = none) : s.channels.lookup cid = none := by
  by_contra hne
  have hr := h.evidenced.retained _ (Option.isSome_iff_ne_none.mpr hne)
  rw [hret] at hr
  cases hr

/-- The books of an accepted channel, once it is installed. -/
theorem Booked.installed (h : s.Booked env.suite.toCrypto) {o : ChannelOpen} {now : ℕ}
    {authHash openHash : ByteArr 32} {acc : ChannelDriver.Accepted}
    (hscreen : s.driver.screenOpen env.suite o now = .ok (authHash, openHash))
    (hret : s.driver.retained.lookup o.auth.channelId = none)
    (hacc : s.driver.acceptOpen env.suite o authHash openHash = .ok acc) :
    ∃ b, (s.install (ChannelDriver.established env.suite o.auth acc) o.auth.predecessor).books
      o.auth.channelId = some b ∧
      Installed env.suite.toCrypto s.driver.chainSnapshots b := by
  have hvec := ChannelDriver.screenOpen_vector hscreen
  have hch := h.vacant hret
  have hop : s.operative.lookup o.auth.channelId = none := by
    by_contra hne
    have hc := h.evidenced.operative _ (Option.isSome_iff_ne_none.mpr hne)
    rw [hch] at hc
    cases hc
  have himp : s.importedBasis.lookup o.auth.channelId = none := by
    by_contra hne
    have hc := h.evidenced.imported _ (Option.isSome_iff_ne_none.mpr hne)
    rw [hch] at hc
    cases hc
  obtain ⟨-, hnone, hsome⟩ := ChannelDriver.acceptOpen_ok hacc
  have hbooks := install_books (ChannelDriver.established env.suite o.auth acc) o.auth.predecessor
    hop himp (h.ledger _ hch) (h.rounds _ hch)
  refine ⟨_, hbooks, ?_⟩
  cases hp : o.auth.predecessor with
  | none =>
    unfold ChannelDriver.established
    rw [hnone hp]
    dsimp only [Option.map_none]
    rw [hvec]
    exact .fresh ..
  | some pred =>
    obtain ⟨-, i, kSession, seed, himported, hi⟩ := hsome pred hp
    obtain ⟨snap, accruals, hsnap, hmapM, hnew, hopenings⟩ :=
      ChannelDriver.chainedImport_ok hvec hi
    unfold ChannelDriver.established
    rw [himported]
    dsimp only [Option.map_some]
    rw [hopenings]
    exact .imported hsnap hmapM hnew

/-- What an OPEN installs, and that nothing else moves. -/
theorem Booked.opened (h : s.Booked env.suite.toCrypto) (fails : StoreFaults) {o : ChannelOpen}
    {now : ℕ}
    {snaps : HashMap (ByteArr 8 × ByteArr 32) ChainSnapshot} {authHash openHash : ByteArr 32}
    {acc : ChannelDriver.Accepted} (decisions : Option DecisionStore)
    (hrec : s.Recorded env snaps)
    (hscreen : s.driver.screenOpen env.suite o now = .ok (authHash, openHash))
    (hret : s.driver.retained.lookup o.auth.channelId = none)
    (hacc : (s.withSnapshots snaps).driver.acceptOpen env.suite o authHash openHash = .ok acc) :
    (∃ b, (s.opened env fails snaps decisions o acc).books o.auth.channelId = some b ∧
      Installed env.suite.toCrypto snaps b) ∧
    (∀ cid, cid ≠ o.auth.channelId → SameAt cid s (s.opened env fails snaps decisions o acc)) ∧
    (s.opened env fails snaps decisions o acc).driver =
      (s.withSnapshots snaps).driver.retain o.auth acc := by
  have hwith : (s.withSnapshots snaps).Booked env.suite.toCrypto :=
    ⟨h.evidenced.ofDriver (fun _ hr => hr) (hrec.fit h.evidenced.snapshots) rfl rfl rfl,
      h.reachable, h.ledger, h.rounds, h.snapshots_recorded hrec⟩
  obtain ⟨b, hb, hinst⟩ := hwith.installed hscreen hret hacc
  have hcommit := commitPredecessor_sameBooks fails (({ s.withSnapshots snaps with
    driver := (s.withSnapshots snaps).driver.retain o.auth acc, decisions } :
    Carriage ρ).install (ChannelDriver.established env.suite o.auth acc) o.auth.predecessor)
    o.auth.predecessor o.auth.channelId
  refine ⟨⟨b, (hcommit.sameAt _).books.trans hb, hinst⟩, fun cid hne => ?_, hcommit.driver⟩
  have hother := install_sameAt ({ s.withSnapshots snaps with
    driver := (s.withSnapshots snaps).driver.retain o.auth acc, decisions } : Carriage ρ)
    (ChannelDriver.established env.suite o.auth acc) o.auth.predecessor hne
  have hkept := hcommit.sameAt cid
  exact ⟨hkept.channels.trans hother.channels, hkept.operative.trans hother.operative,
    hkept.importedBasis.trans hother.importedBasis, hkept.ledger.trans hother.ledger,
    hkept.rounds.trans hother.rounds⟩

theorem Booked.onOpen (h : s.Booked env.suite.toCrypto) (o : ChannelOpen) (now : ℕ) :
    (s.onOpen env fails o now).2.Booked env.suite.toCrypto ∧ ∀ cid b, s.books cid = some b →
      (s.onOpen env fails o now).2.books cid = some b := by
  have hev : (s.onOpen env fails o now).2.Evidenced := h.evidenced.onOpen o now
  obtain ⟨-, r, snaps, decisions, hrec, heq⟩ |
    ⟨-, snaps, authHash, openHash, acc, decisions, -, hrec, hscreen, hret, hacc, heq⟩ :=
    s.onOpen_cases env fails o now <;> rw [heq] at hev ⊢
  · exact ⟨⟨hev, h.reachable, h.ledger, h.rounds, h.snapshots_recorded hrec⟩, fun _ _ hb => hb⟩
  · obtain ⟨⟨b₁, hnew, hinst⟩, hother, hdriver⟩ :=
      h.opened fails decisions hrec hscreen hret hacc
    have hch : s.channels.lookup o.auth.channelId = none := h.vacant hret
    have hsnap := congrArg ChannelDriver.chainSnapshots hdriver
    have hhere : ∀ cid, (s.opened env fails snaps decisions o acc).channels.lookup cid = none →
        cid ≠ o.auth.channelId := by
      rintro cid hnone rfl
      obtain ⟨st, hst, -⟩ := books_eq_some.1 hnew
      rw [hst] at hnone
      cases hnone
    refine ⟨⟨hev, fun cid b hb => ?_, fun cid hnone => ?_, fun cid hnone => ?_, ?_⟩,
      fun cid b hb => ?_⟩
    · by_cases he : cid = o.auth.channelId
      · rw [he, hnew] at hb
        cases hb
        exact hinst.reachable (h.snapshots_recorded hrec)
      · rw [(hother cid he).books] at hb
        exact h.reachable cid b hb
    · have he := hhere cid hnone
      rw [(hother cid he).channels] at hnone
      rw [(hother cid he).ledger]
      exact h.ledger cid hnone
    · have he := hhere cid hnone
      rw [(hother cid he).channels] at hnone
      rw [(hother cid he).rounds]
      exact h.rounds cid hnone
    · dsimp only
      rw [hsnap]
      exact h.snapshots_recorded hrec
    · have hne : cid ≠ o.auth.channelId := by
        rintro rfl
        rw [Carriage.books, hch] at hb
        cases hb
      dsimp only
      rw [(hother cid hne).books]
      exact hb

/-! ## Steps and runs -/

/-- The kinds of moves that handling a message makes. -/
def Call.kinds : Call ρ → List Books.Kind
  | .checkpointRequest _ => [.countersign]
  | .fundingProof _ => [.fund]
  | .settlementPropose _ => [.lock, .restate]
  | .settlementProof _ => [.restate, .fold]
  | .close _ => [.draw, .drop, .idle]
  | .batch _ _ => [.meter, .idle]
  | .prepayInterimDraw _ => [.lock, .restate, .draw]
  | .channelOpen _ _ | .ackRequest _ _ | .rail _ => []

/-- A close leaves the driver alone or ends the retention of its channel. -/
theorem onClose_driver (s : Carriage ρ) (env : Env ρ) (fails : StoreFaults) (close : Close) :
    (s.onClose env fails close).2.driver = s.driver ∨
      (s.onClose env fails close).2.driver = s.driver.terminate close.channelId := by
  have hplain : (s.closePlain env fails close).2.driver = s.driver := by
    unfold closePlain
    split_ifs
    · obtain ⟨s₁, hs₁, heq, -⟩ | ⟨s₁, draw, hs₁, heq⟩ := s.reconcile_cases env fails close
      · rw [heq]
        exact hs₁.driver
      · rw [heq]
        exact (attemptPrepayCloseDraw_sameBooks _ _).driver.trans hs₁.driver
    · exact (attemptPrepayCloseDraw_sameBooks _ _).driver
  unfold Carriage.onClose
  split
  · exact .inl rfl
  · rename_i decision _
    have hclose : (if s.chains close.channelId decision then s.closeChained close.channelId
        else s.closePlain env fails close).2.driver = s.driver := by
      split_ifs
      · exact (closeChained_sameBooks s _).driver
      · exact hplain
    dsimp only
    generalize (if s.chains close.channelId decision then s.closeChained close.channelId
        else s.closePlain env fails close) = r at hclose ⊢
    obtain ⟨_ | _, s₁⟩ := r
    · exact .inl hclose
    · dsimp only at hclose ⊢
      rw [← hclose]
      unfold finishClose
      split
      · exact .inl rfl
      · exact .inr rfl

theorem terminate_chainSnapshots (driver : ChannelDriver) (cid : ByteArr 8) :
    (driver.terminate cid).chainSnapshots = driver.chainSnapshots := by
  unfold ChannelDriver.terminate
  split <;> rfl

/-- A driver retains what it did. -/
theorem terminate_retained {driver : ChannelDriver} (cid' : ByteArr 8)
    (h : (driver.retained.lookup cid).isSome) :
    ((driver.terminate cid').retained.lookup cid).isSome := by
  unfold ChannelDriver.terminate
  split
  · exact isSome_insert fun _ => h
  · exact h

theorem onClose_chainSnapshots (s : Carriage ρ) (close : Close) :
    (s.onClose env fails close).2.driver.chainSnapshots = s.driver.chainSnapshots := by
  obtain heq | heq := s.onClose_driver env fails close <;> rw [heq]
  exact terminate_chainSnapshots ..

/-- A step keeps the books, and takes those of a channel along moves of the kinds of its call. -/
theorem Booked.step (h : s.Booked env.suite.toCrypto) (e : Event ρ) :
    (Carriage.step env s e).1.Booked env.suite.toCrypto ∧ ∀ cid b, s.books cid = some b →
      ∃ b', (Carriage.step env s e).1.books cid = some b' ∧
        Books.Moves env.suite.toCrypto e.call.kinds b b' := by
  have hev : (Carriage.step env s e).1.Evidenced := h.evidenced.step e
  obtain ⟨call, fails⟩ := e
  have hfollows : ∀ {s' : Carriage ρ}, s'.Evidenced →
      s.Follows env.suite.toCrypto (Call.kinds call) s' →
      s'.driver.chainSnapshots = s.driver.chainSnapshots →
      s'.Booked env.suite.toCrypto ∧ ∀ cid b, s.books cid = some b → ∃ b',
        s'.books cid = some b' ∧ Books.Moves env.suite.toCrypto (Call.kinds call) b b' :=
    fun hev' hs hsnap => ⟨h.follows hs hev' hsnap, hs.moves⟩
  cases call with
  | channelOpen o now =>
    obtain ⟨hbooked, hsame⟩ : (s.onOpen env fails o now).2.Booked env.suite.toCrypto ∧ _ :=
      h.onOpen o now
    exact ⟨hbooked, fun cid b hb => ⟨b, hsame cid b hb, .refl⟩⟩
  | checkpointRequest request =>
    exact hfollows hev (onCheckpointRequest_follows s request)
      (congrArg ChannelDriver.chainSnapshots (onCheckpointRequest_unmoved s request).driver)
  | fundingProof fp =>
    exact hfollows hev (onFunding_follows s fp)
      (congrArg ChannelDriver.chainSnapshots (onFunding_unmoved s fp).driver)
  | settlementPropose p =>
    exact hfollows hev (onSettlementPropose_follows h p)
      (congrArg ChannelDriver.chainSnapshots (onSettlementPropose_redrawn s p).offRail.driver)
  | settlementProof proof =>
    exact hfollows hev (onSettlementProof_follows h proof)
      (congrArg ChannelDriver.chainSnapshots (onSettlementProof_unmoved s proof).driver)
  | close close =>
    exact hfollows hev (onClose_follows h close) (onClose_chainSnapshots s close)
  | batch cid slices =>
    exact hfollows hev (batch_follows h cid slices)
      (congrArg ChannelDriver.chainSnapshots (batch_unmoved s cid slices).driver)
  | ackRequest req now => exact hfollows hev (.refl s) rfl
  | prepayInterimDraw cid =>
    exact hfollows hev (runPrepayInterimDraw_follows s cid)
      (congrArg ChannelDriver.chainSnapshots (runPrepayInterimDraw_untouched s cid).driver)
  | rail op => exact hfollows hev (.of_same (sameBooks_rail s _)) rfl

theorem exec_booked (h : s.Booked env.suite.toCrypto) (es : List (Event ρ)) :
    (exec (step env) s es).Booked env.suite.toCrypto :=
  exec_invariant (fun _ e hs => (hs.step e).1) s es h

/-- Every run takes the books of a channel along the moves. -/
theorem exec_moves : ∀ {s : Carriage ρ} (es : List (Event ρ)), s.Booked env.suite.toCrypto →
    ∀ {cid b}, s.books cid = some b → ∃ b', (exec (step env) s es).books cid = some b' ∧
      Relation.ReflTransGen (fun x y => ∃ kind, Books.Move env.suite.toCrypto kind x y) b b'
  | _, [], _, _, b, hb => ⟨b, hb, .refl⟩
  | s, e :: es, h, cid, b, hb => by
    obtain ⟨hbooked, hmoves⟩ := h.step e
    obtain ⟨b₁, hb₁, hm⟩ := hmoves cid b hb
    obtain ⟨b', hb', hm'⟩ := exec_moves es hbooked hb₁
    refine ⟨b', hb', .trans (Relation.ReflTransGen.mono ?_ _ _ hm) hm'⟩
    rintro x y ⟨kind, -, hxy⟩
    exact ⟨kind, hxy⟩

/-! ## Construction -/

/-- Books that stay and come from no other snapshots are still kept. -/
theorem Booked.same {crypto : Crypto} (h : s.Booked crypto) (hs : s.SameBooks s') :
    s'.Booked crypto :=
  h.follows (.of_same hs : s.Follows crypto [] s')
    (h.evidenced.frame hs.driver hs.channels hs.operative hs.importedBasis)
    (congrArg ChannelDriver.chainSnapshots hs.driver)

/-- A carriage starts with no books. -/
theorem Booked.built (h : Built env s) : s.Booked env.suite.toCrypto := by
  refine h.invariant (fun _ _ hs => hs.same ⟨rfl, rfl, rfl, rfl, rfl, rfl⟩)
    (fun _ _ _ _ hs => hs.same ⟨rfl, rfl, rfl, rfl, rfl, rfl⟩)
    (fun _ _ hs => hs.same ⟨rfl, rfl, rfl, rfl, rfl, rfl⟩) ?_
  intro driver profile rail _ hsnap _
  have hnone : ∀ key snap, driver.chainSnapshots.lookup key ≠ some snap := by
    intro key snap hs
    rw [hsnap] at hs
    cases (Finmap.lookup_empty key).symm.trans hs
  refine ⟨.empty (fun key snap hs => absurd hs (hnone key snap)) profile rail, fun cid b hb => ?_,
    fun cid _ => Finmap.lookup_empty cid, fun cid _ => rfl,
    fun key snap hs => absurd hs (hnone key snap)⟩
  obtain ⟨st, hst, -⟩ := books_eq_some.1 hb
  cases (Finmap.lookup_empty cid).symm.trans hst

theorem Built.channels (h : Built env s) : s.channels = ∅ :=
  h.invariant (P := fun s => s.channels = ∅) (fun _ _ hs => hs) (fun _ _ _ _ hs => hs)
    (fun _ _ hs => hs) fun _ _ _ _ _ _ => rfl

theorem built_sound (h : Built env s) (es : List (Event ρ)) {b : Books}
    (hb : (exec (step env) s es).books cid = some b) : b.Sound :=
  ((exec_booked (.built h) es).reachable cid b hb).sound

end Carriage

end Paytp
