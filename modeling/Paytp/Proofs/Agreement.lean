import Paytp.Exchange
import Paytp.Proofs.Booked
import Paytp.Proofs.Exposure
import Paytp.Proofs.SingleImport
import Paytp.Proofs.Tallied
import Paytp.Proofs.Watermark
import Paytp.Sample

/-!
# One operative checkpoint

The merchant takes what it countersigned last as operative, the wallet what supersedes. Totals
only grow, so the two part exactly where a request at the operative total is countersigned under
a lesser name.
-/

namespace Paytp

/-! ## Books -/

namespace Books

variable {crypto : Crypto} {b b' : Books} {kinds : List Kind}

/-- Only a countersignature moves the operative checkpoint. -/
theorem Moves.operative_eq (hm : Moves crypto kinds b b') (hkinds : .countersign ∉ kinds) :
    b'.operative = b.operative := by
  induction hm with
  | refl => rfl
  | tail _ hm ih =>
    obtain ⟨kind, hkind, hm⟩ := hm
    cases hm with
    | countersign => exact absurd hkind hkinds
    | _ => exact ih

/-- A channel that opened with nothing countersigns ever greater totals. -/
theorem Reachable.evidenceCum_le (h : Reachable crypto b) (hbasis : b.basis = none)
    {proposed : Checkpoint} (hrec : b.state.recomputes crypto proposed = true) :
    b.evidenceCum ≤ proposed.cumTotal := by
  obtain ⟨s₀, counted, hc, hzero, -, -⟩ := h.counts hbasis
  have hamt := ChannelState.amounts_le hc.nodup hc.positive
  have hcounted := hc.cumTotal
  have htotal := h.sound.total
  have hsplit := ChannelState.amounts_split b.state.window proposed.lastSeq
  have hunev := h.sound.wellFormed.unevidenced_eq
  have hcum := ChannelState.cumTotal_of_recomputes hrec
  rw [hzero] at hcounted
  unfold satAddU128 U128_MAX at hcounted htotal
  omega

end Books

/-! ## The merchant -/

theorem ChannelDriver.terminate_keys (driver : ChannelDriver) (cid : ByteArr 8) :
    (driver.terminate cid).key = driver.key ∧
      (driver.terminate cid).signingKey = driver.signingKey := by
  unfold terminate
  split <;> exact ⟨rfl, rfl⟩

namespace Carriage

variable {ρ : Type} {env : Env ρ} {s : Carriage ρ} {cid : ByteArr 8}

/-- A merchant keeps its keys. -/
theorem step_keys (s : Carriage ρ) (env : Env ρ) (e : Event ρ) :
    (step env s e).1.driver.key = s.driver.key ∧
      (step env s e).1.driver.signingKey = s.driver.signingKey := by
  obtain ⟨call, fails⟩ := e
  have hkept : ∀ {s' : Carriage ρ}, s'.driver = s.driver →
      s'.driver.key = s.driver.key ∧ s'.driver.signingKey = s.driver.signingKey := by
    rintro s' h
    rw [h]
    exact ⟨rfl, rfl⟩
  cases call with
  | channelOpen o now =>
    obtain ⟨-, r, snaps, decisions, -, heq⟩ |
      ⟨-, snaps, authHash, openHash, acc, decisions, -, -, -, -, -, heq⟩ :=
      s.onOpen_cases env fails o now
    · show (s.onOpen env fails o now).2.driver.key = _ ∧
        (s.onOpen env fails o now).2.driver.signingKey = _
      rw [heq]
      exact ⟨rfl, rfl⟩
    · show (s.onOpen env fails o now).2.driver.key = _ ∧
        (s.onOpen env fails o now).2.driver.signingKey = _
      rw [heq]
      unfold opened
      rw [(commitPredecessor_sameBooks fails _ _ _).driver]
      exact ⟨rfl, rfl⟩
  | checkpointRequest request => exact hkept (onCheckpointRequest_unmoved s request).driver
  | fundingProof fp => exact hkept (onFunding_unmoved s fp).driver
  | settlementPropose p => exact hkept (onSettlementPropose_redrawn s p).offRail.driver
  | settlementProof proof => exact hkept (onSettlementProof_unmoved s proof).driver
  | close close =>
    obtain heq | heq := s.onClose_driver env fails close
    · exact hkept heq
    · show (s.onClose env fails close).2.driver.key = _ ∧
        (s.onClose env fails close).2.driver.signingKey = _
      rw [heq]
      exact ChannelDriver.terminate_keys ..
  | batch cid slices => exact hkept (batch_unmoved s cid slices).driver
  | ackRequest req now => exact hkept rfl
  | prepayInterimDraw cid => exact hkept (runPrepayInterimDraw_untouched s cid).driver
  | rail op => exact hkept rfl

/-- A merchant signs with the key it is known by. -/
theorem Built.keys (h : Built env s) :
    s.driver.key = env.suite.ed25519Public s.driver.signingKey :=
  h.invariant (P := fun s => s.driver.key = env.suite.ed25519Public s.driver.signingKey)
    (fun _ _ hs => hs) (fun _ _ _ _ hs => hs) (fun _ _ hs => hs) fun _ _ _ _ _ hkey => hkey

theorem Built.exec_keys (h : Built env s) (es : List (Event ρ)) :
    (exec (step env) s es).driver.key =
      env.suite.ed25519Public (exec (step env) s es).driver.signingKey := by
  refine exec_invariant (P := fun s => s.driver.key = env.suite.ed25519Public s.driver.signingKey)
    (fun s e hs => ?_) s es h.keys
  obtain ⟨hkey, hsigning⟩ := s.step_keys env e
  rw [hkey, hsigning]
  exact hs

/-- The merchant refuses a request, returns the checkpoint it countersigned and takes it as
operative, or returns the operative one again. -/
theorem onCheckpointRequest_cases (s : Carriage ρ) (env : Env ρ) (request : CheckpointRequest) :
    (∃ e, s.onCheckpointRequest env request = (.error e, s) ∧
      ∀ state, s.screenCheckpoint env request = .ok state →
        state.recomputes env.suite.toCrypto request.proposed = false) ∨
    ∃ state ckptRef cp, s.screenCheckpoint env request = .ok state ∧
      cp = s.driver.countersignCheckpoint env.suite request.proposed ∧
      cp.reference env.suite = some ckptRef ∧
      (s.onCheckpointRequest env request).1 = .ok (.message (.checkpoint cp)) ∧
      ((state.recomputes env.suite.toCrypto request.proposed = true ∧
          (s.onCheckpointRequest env request).2 =
            { s with
              channels := s.channels.insert cp.channelId
                (state.checkpointUpto env.suite.toCrypto cp.lastSeq)
              operative := s.operative.insert cp.channelId
                { ckptRef, cumTotal := cp.cumTotal, accruals := cp.accruals } }) ∨
        (state.recomputes env.suite.toCrypto request.proposed = false ∧
          (s.onCheckpointRequest env request).2 = s ∧
          ∃ op, s.operative.lookup cp.channelId = some op ∧ op.ckptRef = ckptRef)) := by
  unfold onCheckpointRequest
  cases hscreen : s.screenCheckpoint env request with
  | error e => exact .inl ⟨e, rfl, nofun⟩
  | ok state =>
    obtain ⟨ckptRef, href⟩ := Option.isSome_iff_exists.1 (screenCheckpoint_ok hscreen).2
    dsimp only
    by_cases hrec : state.recomputes env.suite.toCrypto request.proposed = true
    · rw [if_pos hrec, href]
      exact .inr ⟨state, ckptRef, _, rfl, rfl, href, rfl, .inl ⟨hrec, rfl⟩⟩
    · rw [Bool.not_eq_true] at hrec
      rw [hrec, if_neg Bool.false_ne_true, href]
      cases hop : s.operative.lookup request.proposed.channelId with
      | none =>
        refine .inl ⟨.stateMismatch, rfl, ?_⟩
        rintro _ ⟨⟩
        exact hrec
      | some op =>
        simp only [Option.any_some, beq_iff_eq, Option.some.injEq]
        by_cases heq : op.ckptRef = ckptRef
        · rw [if_pos heq.symm]
          exact .inr ⟨state, ckptRef, _, rfl, rfl, href, rfl, .inr ⟨hrec, rfl, op, hop, heq⟩⟩
        · rw [if_neg (Ne.symm heq)]
          refine .inl ⟨.stateMismatch, rfl, ?_⟩
          rintro _ ⟨⟩
          exact hrec

/-- A call that requests no checkpoint of a channel leaves the operative one. -/
theorem Booked.step_operative (h : s.Booked env.suite.toCrypto) {b : Books}
    (hb : s.books cid = some b) (e : Event ρ) (hother : Exchange.requestsOn cid e.call = false) :
    ∃ b', (Carriage.step env s e).1.books cid = some b' ∧ b'.basis = b.basis ∧
      b'.operative = b.operative := by
  obtain ⟨b', hb', hm⟩ := (h.step e).2 cid b hb
  refine ⟨b', hb', hm.basis_eq, ?_⟩
  obtain ⟨call, fails⟩ := e
  cases call with
  | checkpointRequest request =>
    have hne : cid ≠ request.proposed.channelId := fun he => by
      simp [Exchange.requestsOn, he] at hother
    obtain ⟨st, hst, rfl⟩ := books_eq_some.1 hb
    obtain ⟨st', hst', rfl⟩ := books_eq_some.1 hb'
    show (s.onCheckpointRequest env request).2.operative.lookup cid = s.operative.lookup cid
    unfold onCheckpointRequest
    split
    · rfl
    · dsimp only
      split_ifs
      · split
        · rfl
        · exact Finmap.lookup_insert_of_ne _ hne
      · rfl
      · rfl
  | _ =>
    refine hm.operative_eq ?_
    simp [Call.kinds]

end Carriage

/-! ## Positions -/

/-- At no lesser total, the first is operative unless the second has the greater name there. -/
theorem ChannelState.operative_eq_left {a b : ℕ × ByteArr 32} (hle : b.1 ≤ a.1) :
    operative a b = a.2 ↔ (b.1 = a.1 → b.2.toList ≤ a.2.toList) := by
  unfold operative
  rcases hle.lt_or_eq with hlt | heq
  · rw [Nat.compare_eq_gt.2 hlt]
    simp [hlt.ne]
  · rw [Nat.compare_eq_eq.2 heq.symm]
    dsimp only
    by_cases hname : b.2.toList ≤ a.2.toList
    · simp [hname]
    · rw [if_neg hname]
      constructor
      · intro h
        exact absurd (h ▸ List.le_refl _) hname
      · intro h
        exact absurd (h heq) hname

namespace Exchange

variable {m x : ℕ × ByteArr 32} {positions : List (ℕ × ByteArr 32)}

/-- What has no lesser total and no lesser name supersedes what was superseded. -/
theorem Supersedes.push (h : Supersedes m positions) (hle : m.1 ≤ x.1)
    (hname : x.1 = m.1 → m.2.toList ≤ x.2.toList) : Supersedes x (x :: positions) := by
  refine ⟨List.mem_cons_self .., fun y hy => ?_⟩
  rcases List.mem_cons.1 hy with rfl | hy
  · exact ⟨le_rfl, (ChannelState.operative_eq_left le_rfl).2 fun _ => List.le_refl _⟩
  · obtain ⟨hym, hop⟩ := h.2 y hy
    have hyx := hym.trans hle
    refine ⟨hyx, (ChannelState.operative_eq_left hyx).2 fun heq => ?_⟩
    have hnames := (ChannelState.operative_eq_left hym).1 hop (by omega)
    exact List.le_trans hnames (hname (by omega))

theorem supersedes_singleton (x : ℕ × ByteArr 32) : Supersedes x [x] := by
  refine ⟨List.mem_cons_self .., fun y hy => ?_⟩
  cases List.mem_singleton.1 hy
  exact ⟨le_rfl, (ChannelState.operative_eq_left le_rfl).2 fun _ => List.le_refl _⟩

end Exchange

/-! ## The wallet -/

namespace Wallet

namespace ChannelClient

variable {ρ : Type} (env : Env ρ) {c c' : ChannelClient} {cp : Checkpoint}

/-- What the wallet streamed stays streamed. -/
theorem step_cumStreamed (hc : c.cumStreamed ≤ U128_MAX) (e : Event ρ) :
    c.cumStreamed ≤ (step env c e).1.cumStreamed ∧
      (step env c e).1.cumStreamed ≤ U128_MAX := by
  obtain ⟨moved, halted, hmoves, heq⟩ := step_moves env c e
  rw [heq]
  cases hmoves with
  | mint _ nextSeq amt howed =>
    dsimp only
    unfold satAddU128
    omega
  | credit rail settled now pv folded _ _ hfold =>
    obtain ⟨_, rfl⟩ := foldCredited_eq hfold
    exact ⟨le_rfl, hc⟩
  | _ => exact ⟨le_rfl, hc⟩

/-- Only a checkpoint that is recorded moves the wallet's operative one. -/
theorem step_operative (e : Event ρ) (hother : Exchange.records e.call = false) :
    (step env c e).1.operative = c.operative := by
  obtain ⟨moved, halted, hmoves, heq⟩ := step_moves env c e
  rw [heq]
  cases hmoves with
  | supersede => cases hother
  | credit rail settled now pv folded _ _ hfold =>
    obtain ⟨_, rfl⟩ := foldCredited_eq hfold
    rfl
  | _ => rfl

/-- What the wallet would attest it attests later. -/
theorem checkpointBasisOk_mono (hterms : SameTerms c c') (hle : c.cumStreamed ≤ c'.cumStreamed)
    (h : (c.checkpointBasisOk cp).isSome) : c'.checkpointBasisOk cp = some cp.cumTotal := by
  obtain ⟨cum, h⟩ := Option.isSome_iff_exists.1 h
  unfold checkpointBasisOk at h ⊢
  rw [hterms.channelId, hterms.rolesBp]
  simp only [Option.bind_eq_bind, Option.bind_eq_some_iff, Option.guard_eq_some',
    Option.pure_def, Option.some.injEq, Carriage.u128OfNat_eq_some] at h ⊢
  obtain ⟨_, hid, _, ⟨hfit, rfl⟩, _, hcum, _, hlen, _, hall, rfl⟩ := h
  exact ⟨(), hid, _, ⟨hfit, rfl⟩, (), hcum.trans hle, (), hlen, (), hall, rfl⟩

/-- A checkpoint that both signed and that the wallet would attest is recorded unless the
operative one supersedes it. -/
theorem recordOperative_operative (now : ℕ) {cum : ℕ} {ckptRef : ByteArr 32}
    (hboth : cp.verifyBilateral env.suite (c.custody.payerKey env.suite c.scope)
      c.merchantKey = true)
    (hbasis : c.checkpointBasisOk cp = some cum) (href : cp.reference env.suite = some ckptRef) :
    (c.recordOperative env now cp).2.operative =
      if c.superseded ckptRef cum then c.operative else some { ckptRef, cumTotal := cum } := by
  unfold recordOperative
  rw [hboth, hbasis, href, if_neg (by decide)]
  dsimp only
  split_ifs
  · rfl
  · rfl

/-- What the wallet requested and the merchant countersigned, both signed. -/
theorem verifyBilateral_countersigned (hsigns : env.suite.Signs) (driver : ChannelDriver)
    (hkey : c.merchantKey = env.suite.ed25519Public driver.signingKey) (cp : Checkpoint) :
    (driver.countersignCheckpoint env.suite (cp.signPayer env.suite
        (c.custody.scopedSk env.suite c.scope))).verifyBilateral env.suite
      (c.custody.payerKey env.suite c.scope) c.merchantKey = true := by
  unfold Checkpoint.verifyBilateral
  rw [hkey]
  simp only [Bool.and_eq_true]
  refine ⟨⟨⟨rfl, rfl⟩, ?_⟩, ?_⟩
  · exact hsigns.verifySigned _ .ckpt cp.contentFields
  · exact hsigns.verifySigned _ .ckpt cp.contentFields

end ChannelClient

end Wallet

/-! ## The exchange -/

open Carriage

namespace Exchange

variable {ρ : Type} {env : Wallet.Env ρ} {p : Exchange ρ}

/-- The merchant keeps books of the wallet's channel, which opened with nothing, and the wallet
knows the merchant by its key and would attest what it requested. -/
structure Paired (env : Wallet.Env ρ) (p : Exchange ρ) : Prop where
  booked : p.merchant.Booked env.suite.toCrypto
  books : ∃ b, p.merchant.books p.wallet.channelId = some b ∧ b.basis = none
  key : p.merchant.driver.key = env.suite.ed25519Public p.merchant.driver.signingKey
  merchantKey : p.wallet.merchantKey = p.merchant.driver.key
  streamed : p.wallet.cumStreamed ≤ U128_MAX
  requests : ∀ r ∈ p.requests, ∃ cp,
    r = .sign env.suite cp (p.wallet.custody.scopedSk env.suite p.wallet.scope) ∧
      (p.wallet.checkpointBasisOk cp).isSome = true

/-- A turn of the merchant keeps the pair. -/
theorem Paired.merchant (h : Paired env p) (e : Carriage.Event ρ)
    (countersigned : List (ℕ × ByteArr 32)) :
    Paired env
      { p with merchant := (Carriage.step env.merchant p.merchant e).1, countersigned } := by
  obtain ⟨b, hb, hbasis⟩ := h.books
  have hbooks : p.merchant.Booked env.merchant.suite.toCrypto := h.booked
  obtain ⟨hbooked, hmoves⟩ := hbooks.step e
  obtain ⟨b', hb', hm⟩ := hmoves _ b hb
  obtain ⟨hkey, hsigning⟩ := p.merchant.step_keys env.merchant e
  refine ⟨hbooked, ⟨b', hb', hm.basis_eq.trans hbasis⟩, ?_, ?_, h.streamed, h.requests⟩
  · rw [hkey, hsigning]
    exact h.key
  · rw [hkey]
    exact h.merchantKey

/-- A call of the wallet keeps the pair. -/
theorem Paired.wallet (h : Paired env p) (e : Wallet.ChannelClient.Event ρ) :
    Paired env { p with wallet := (Wallet.ChannelClient.step env p.wallet e).1 } := by
  have hterms := Wallet.ChannelClient.step_sameTerms env p.wallet e
  obtain ⟨hle, hstreamed⟩ := Wallet.ChannelClient.step_cumStreamed env h.streamed e
  refine ⟨h.booked, ?_, h.key, ?_, hstreamed, fun r hr => ?_⟩
  · rw [hterms.channelId]
    exact h.books
  · rw [hterms.merchantKey]
    exact h.merchantKey
  · obtain ⟨cp, hcp, hbasis⟩ := h.requests r hr
    rw [hterms.custody, hterms.scope]
    refine ⟨cp, hcp, ?_⟩
    rw [Wallet.ChannelClient.checkpointBasisOk_mono hterms hle hbasis]
    rfl

/-- What a turn that hands on a request does. -/
theorem step_checkpoint (env : Wallet.Env ρ) (p : Exchange ρ) {request : CheckpointRequest}
    (now : ℕ) (hmem : request ∈ p.requests) :
    ((∀ cp, (p.merchant.onCheckpointRequest env.merchant request).1 ≠
        .ok (.message (.checkpoint cp))) ∧
      (step env p (.checkpoint request now)).1 =
        { p with merchant := (p.merchant.onCheckpointRequest env.merchant request).2 }) ∨
    ∃ cp, (p.merchant.onCheckpointRequest env.merchant request).1 =
        .ok (.message (.checkpoint cp)) ∧
      (step env p (.checkpoint request now)).1 =
        { p with
          merchant := (p.merchant.onCheckpointRequest env.merchant request).2
          wallet := (p.wallet.recordOperative env now cp).2
          countersigned := (cp.position env.suite).toList ++ p.countersigned } := by
  unfold step
  dsimp only
  rw [if_pos hmem]
  rcases p.merchant.onCheckpointRequest env.merchant request with ⟨e | r, merchant⟩
  · exact .inl ⟨nofun, rfl⟩
  · rcases r with reply | _
    · cases reply with
      | checkpoint cp => exact .inr ⟨cp, rfl, rfl⟩
      | _ => exact .inl ⟨nofun, rfl⟩
    · exact .inl ⟨nofun, rfl⟩

theorem Paired.step (h : Paired env p) (turn : Turn ρ) :
    Paired env (Exchange.step env p turn).1 := by
  cases turn with
  | request cp =>
    unfold Exchange.step
    dsimp only
    split
    · rename_i request hrequest
      unfold Wallet.ChannelClient.requestCheckpoint at hrequest
      split_ifs at hrequest with hbasis
      cases hrequest
      refine ⟨h.booked, h.books, h.key, h.merchantKey, h.streamed, fun r hr => ?_⟩
      rcases List.mem_cons.1 hr with rfl | hr
      · refine ⟨cp, rfl, ?_⟩
        simpa [Option.isSome_iff_ne_none] using hbasis
      · exact h.requests r hr
    · exact h
  | checkpoint request now =>
    by_cases hmem : request ∈ p.requests
    · have hmerchant := h.merchant ⟨.checkpointRequest request, fun _ => false⟩
      obtain ⟨-, heq⟩ | ⟨cp, -, heq⟩ := step_checkpoint env p now hmem
      · rw [heq]
        exact hmerchant p.countersigned
      · rw [heq]
        exact (hmerchant _).wallet ⟨.recordOperative cp, now⟩
    · unfold Exchange.step
      dsimp only
      rw [if_neg hmem]
      exact h
  | wallet e =>
    unfold Exchange.step
    dsimp only
    split_ifs
    · exact h
    · exact h.wallet e
  | merchant e =>
    unfold Exchange.step
    dsimp only
    split_ifs
    · exact h
    · exact h.merchant e p.countersigned

/-- A request of the wallet's, as the merchant countersigns it: of the channel, of the total the
wallet attests, and signed by both. -/
theorem Paired.countersigned (h : Paired env p) (hsigns : env.suite.Signs)
    {request : CheckpointRequest} (hmem : request ∈ p.requests) {cp : Checkpoint}
    (hcp : cp = p.merchant.driver.countersignCheckpoint env.suite request.proposed) (now : ℕ) :
    cp.channelId = p.wallet.channelId ∧ ∃ ckptRef, cp.reference env.suite = some ckptRef ∧
      (p.wallet.recordOperative env now cp).2.operative =
        if p.wallet.superseded ckptRef cp.cumTotal then p.wallet.operative
        else some { ckptRef, cumTotal := cp.cumTotal } := by
  obtain ⟨proposed, rfl, hbasis⟩ := h.requests request hmem
  have hboth := Wallet.ChannelClient.verifyBilateral_countersigned env (c := p.wallet) hsigns
    p.merchant.driver (h.merchantKey.trans h.key) proposed
  have hattests : p.wallet.checkpointBasisOk cp = some cp.cumTotal := by
    rw [hcp]
    exact Wallet.ChannelClient.checkpointBasisOk_mono (.refl _) le_rfl hbasis
  have hid : cp.channelId = p.wallet.channelId := by
    unfold Wallet.ChannelClient.checkpointBasisOk at hattests
    simp only [Option.bind_eq_bind, Option.bind_eq_some_iff, Option.guard_eq_some'] at hattests
    obtain ⟨-, hid, -⟩ := hattests
    exact hid
  refine ⟨hid, ?_⟩
  rw [hcp] at hattests ⊢
  exact ⟨_, rfl, Wallet.ChannelClient.recordOperative_operative env now hboth hattests rfl⟩

/-- The merchant's operative position is the one its books show. -/
theorem Paired.merchantOperative (h : Paired env p) :
    ∃ b, p.merchant.books p.wallet.channelId = some b ∧ b.basis = none ∧
      p.merchantOperative = b.operative.map fun op => (op.cumTotal, op.ckptRef) := by
  obtain ⟨b, hb, hbasis⟩ := h.books
  obtain ⟨st, -, rfl⟩ := books_eq_some.1 hb
  exact ⟨_, hb, hbasis, rfl⟩

/-- A position at no lesser total is agreed on exactly if it has no lesser name there. -/
theorem agrees_countersigned {q : Exchange ρ} {cum : ℕ} {ckptRef : ByteArr 32}
    (hagrees : p.Agrees) (hle : ∀ m, p.merchantOperative = some m → m.1 ≤ cum)
    (hmerchant : q.merchantOperative = some (cum, ckptRef))
    (hwallet : q.wallet.operative =
      if p.wallet.superseded ckptRef cum then p.wallet.operative
      else some { ckptRef, cumTotal := cum })
    (hlist : q.countersigned = (cum, ckptRef) :: p.countersigned) :
    q.Agrees ↔ ∀ m, p.merchantOperative = some m → cum = m.1 → m.2.toList ≤ ckptRef.toList := by
  obtain ⟨hsame, hempty, hmax⟩ := hagrees
  unfold Agrees
  rw [hmerchant, hsame, hlist]
  rw [hsame] at hle
  unfold walletOperative at hempty hmax hle ⊢
  rw [hwallet]
  cases hop : p.wallet.operative with
  | none =>
    rw [hop] at hempty
    simp [Wallet.ChannelClient.superseded, hop, hempty rfl, supersedes_singleton]
  | some op =>
    rw [hop] at hmax hle
    replace hmax : Supersedes (op.cumTotal, op.ckptRef) p.countersigned := hmax _ rfl
    have hcum : op.cumTotal ≤ cum := hle _ rfl
    have hsuper : p.wallet.superseded ckptRef cum = true ↔
        cum = op.cumTotal ∧ ckptRef.toList ≤ op.ckptRef.toList := by
      simp [Wallet.ChannelClient.superseded, hop, hcum.not_gt]
    rw [Option.map_some]
    by_cases hs : p.wallet.superseded ckptRef cum = true
    · rw [if_pos hs, Option.map_some]
      obtain ⟨heq, hname⟩ := hsuper.1 hs
      constructor
      · rintro ⟨hpos, -⟩ _ ⟨⟩ -
        cases hpos
        exact List.le_refl _
      · intro h
        have hrefs : ckptRef = op.ckptRef :=
          Subtype.ext (List.le_antisymm hname (h _ rfl heq))
        subst heq hrefs
        refine ⟨rfl, by rintro ⟨⟩, ?_⟩
        rintro _ ⟨⟩
        exact hmax.push le_rfl fun _ => List.le_refl _
    · rw [if_neg hs]
      constructor
      · rintro - _ ⟨⟩ heq
        by_contra hname
        exact hs (hsuper.2 ⟨heq, (List.le_total _ _).resolve_left hname⟩)
      · intro h
        refine ⟨rfl, by rintro ⟨⟩, ?_⟩
        rintro _ ⟨⟩
        exact hmax.push hcum (h _ rfl)

/-- A call of the wallet that records no checkpoint leaves what both go by. -/
theorem Agrees.wallet (hagrees : p.Agrees) (env : Wallet.Env ρ) (e : Wallet.ChannelClient.Event ρ)
    (hrecords : records e.call = false) :
    ({ p with wallet := (Wallet.ChannelClient.step env p.wallet e).1 } : Exchange ρ).Agrees := by
  have hterms := Wallet.ChannelClient.step_sameTerms env p.wallet e
  have hop := Wallet.ChannelClient.step_operative env (c := p.wallet) e hrecords
  unfold Agrees Exchange.merchantOperative walletOperative at hagrees ⊢
  rw [hop, hterms.channelId]
  exact hagrees

/-- A call of the merchant that requests no checkpoint of the channel leaves what both go by. -/
theorem Paired.merchant_agrees (h : Paired env p) (hagrees : p.Agrees) (e : Carriage.Event ρ)
    (hrequests : requestsOn p.wallet.channelId e.call = false) :
    ({ p with merchant := (Carriage.step env.merchant p.merchant e).1 } : Exchange ρ).Agrees := by
  have hbooks : p.merchant.Booked env.merchant.suite.toCrypto := h.booked
  obtain ⟨b, hb, -, hop⟩ := h.merchantOperative
  obtain ⟨b', hb', -, hop'⟩ := hbooks.step_operative hb e hrequests
  have hkept : ({ p with merchant := (Carriage.step env.merchant p.merchant e).1 } :
      Exchange ρ).merchantOperative = p.merchantOperative := by
    obtain ⟨st, -, rfl⟩ := books_eq_some.1 hb'
    rw [hop, ← hop']
    rfl
  unfold Agrees at hagrees ⊢
  rw [hkept]
  exact hagrees

section returned
variable {request : CheckpointRequest} {now : ℕ} {state : ChannelState} {ckptRef : ByteArr 32}

/-- A request that does not recompute is no exception. -/
theorem ascends_of_not_recomputes
    (h : ∀ state, p.merchant.screenCheckpoint env.merchant request = .ok state →
      state.recomputes env.suite.toCrypto request.proposed = false) :
    p.Ascends env (.checkpoint request now) := by
  intro _ state hstate hrec
  rw [h state (toOption_eq_some.1 hstate)] at hrec
  cases hrec

/-- What both go by after the merchant returned a checkpoint of the wallet's request. -/
theorem Paired.returned (h : Paired env p) (now : ℕ) (hsigns : env.suite.Signs)
    (hmem : request ∈ p.requests)
    (href : (p.merchant.driver.countersignCheckpoint env.suite request.proposed).reference
      env.suite = some ckptRef)
    (hreply : (p.merchant.onCheckpointRequest env.merchant request).1 = .ok (.message (.checkpoint
      (p.merchant.driver.countersignCheckpoint env.suite request.proposed)))) :
    (Exchange.step env p (.checkpoint request now)).1.merchantOperative =
        ((p.merchant.onCheckpointRequest env.merchant request).2.operative.lookup
          request.proposed.channelId).map (fun op => (op.cumTotal, op.ckptRef)) ∧
      (Exchange.step env p (.checkpoint request now)).1.wallet.operative =
        (if p.wallet.superseded ckptRef request.proposed.cumTotal then p.wallet.operative
        else some { ckptRef, cumTotal := request.proposed.cumTotal }) ∧
      (Exchange.step env p (.checkpoint request now)).1.countersigned =
        (request.proposed.cumTotal, ckptRef) :: p.countersigned := by
  obtain ⟨hid, ckptRef', href', hrecorded⟩ := h.countersigned hsigns hmem rfl now
  cases Option.some_inj.1 (href.symm.trans href')
  obtain ⟨hnever, -⟩ | ⟨_, hreply', hstep⟩ := step_checkpoint env p now hmem
  · exact absurd hreply (hnever _)
  rw [hreply] at hreply'
  cases hreply'
  have hchannel : (p.wallet.recordOperative env now (p.merchant.driver.countersignCheckpoint
      env.suite request.proposed)).2.channelId = p.wallet.channelId :=
    (Wallet.ChannelClient.step_sameTerms env p.wallet ⟨.recordOperative _, now⟩).channelId
  rw [hstep]
  refine ⟨?_, hrecorded, ?_⟩
  · unfold Exchange.merchantOperative
    dsimp only
    rw [hchannel, ← hid]
    rfl
  · show (Checkpoint.position _ _).toList ++ _ = _
    unfold Checkpoint.position
    rw [href]
    rfl

/-- What recomputes is of no lesser total than the operative position. -/
theorem Paired.operative_le (h : Paired env p)
    (hcid : request.proposed.channelId = p.wallet.channelId)
    (hscreen : p.merchant.screenCheckpoint env.merchant request = .ok state)
    (hrec : state.recomputes env.suite.toCrypto request.proposed = true) :
    ∀ m, p.merchantOperative = some m → m.1 ≤ request.proposed.cumTotal := by
  intro m hm
  obtain ⟨b, hb, hbasis, hbop⟩ := h.merchantOperative
  obtain ⟨st, hst, rfl⟩ := books_eq_some.1 hb
  rw [← hcid, (screenCheckpoint_ok hscreen).1] at hst
  cases hst
  have hgrows := (h.booked.reachable _ _ hb).evidenceCum_le hbasis hrec
  rw [hm] at hbop
  obtain ⟨op, hop, rfl⟩ := Option.map_eq_some_iff.1 hbop.symm
  rw [Books.evidenceCum, hop] at hgrows
  exact hgrows

/-- The merchant takes what it countersigned as operative. -/
theorem Paired.recomputed_agrees (h : Paired env p) (hagrees : p.Agrees)
    (hsigns : env.suite.Signs) (hmem : request ∈ p.requests)
    (hscreen : p.merchant.screenCheckpoint env.merchant request = .ok state)
    (hrec : state.recomputes env.suite.toCrypto request.proposed = true)
    (href : (p.merchant.driver.countersignCheckpoint env.suite request.proposed).reference
      env.suite = some ckptRef)
    (hreply : (p.merchant.onCheckpointRequest env.merchant request).1 = .ok (.message (.checkpoint
      (p.merchant.driver.countersignCheckpoint env.suite request.proposed))))
    (hmerchant : (p.merchant.onCheckpointRequest env.merchant request).2.operative =
      p.merchant.operative.insert request.proposed.channelId
        { ckptRef, cumTotal := request.proposed.cumTotal, accruals := request.proposed.accruals }) :
    (Exchange.step env p (.checkpoint request now)).1.Agrees ↔
      p.Ascends env (.checkpoint request now) := by
  obtain ⟨hoperative, hwallet, hlist⟩ := h.returned now hsigns hmem href hreply
  rw [hmerchant, Finmap.lookup_insert] at hoperative
  have hid : request.proposed.channelId = p.wallet.channelId :=
    (h.countersigned hsigns hmem rfl now).1
  have hposition : p.positionOf env request = some (request.proposed.cumTotal, ckptRef) := by
    unfold positionOf Checkpoint.position
    rw [href]
    rfl
  rw [agrees_countersigned hagrees (h.operative_le hid hscreen hrec) hoperative hwallet hlist]
  constructor
  · rintro hnames - _ - - m hm position hpos heq
    rw [hposition] at hpos
    cases hpos
    exact hnames m hm heq
  · intro hascends m hm heq
    exact hascends hmem state (toOption_eq_some.2 hscreen) hrec m hm _ hposition heq

/-- The merchant returns its operative checkpoint again. -/
theorem Paired.repeated_agrees (h : Paired env p) (hagrees : p.Agrees)
    (hsigns : env.suite.Signs) (hmem : request ∈ p.requests)
    (hfree : p.NoCollision env (.checkpoint request now))
    (href : (p.merchant.driver.countersignCheckpoint env.suite request.proposed).reference
      env.suite = some ckptRef)
    (hreply : (p.merchant.onCheckpointRequest env.merchant request).1 = .ok (.message (.checkpoint
      (p.merchant.driver.countersignCheckpoint env.suite request.proposed))))
    (hmerchant : (p.merchant.onCheckpointRequest env.merchant request).2 = p.merchant)
    {op : Paytp.Operative} (hop : p.merchant.operative.lookup request.proposed.channelId = some op)
    (hname : op.ckptRef = ckptRef) : (Exchange.step env p (.checkpoint request now)).1.Agrees := by
  obtain ⟨hoperative, hwallet, hlist⟩ := h.returned now hsigns hmem href hreply
  have hid : request.proposed.channelId = p.wallet.channelId :=
    (h.countersigned hsigns hmem rfl now).1
  have hsame : p.merchantOperative = some (op.cumTotal, ckptRef) := by
    unfold Exchange.merchantOperative
    rw [← hid, hop, ← hname]
    rfl
  have hcum : request.proposed.cumTotal = op.cumTotal := by
    refine hfree _ hsame (request.proposed.cumTotal, ckptRef) ?_ rfl
    show Checkpoint.position _ _ = _
    unfold Checkpoint.position
    rw [href]
    rfl
  rw [hmerchant, hop, Option.map_some, hname, ← hcum] at hoperative
  rw [← hcum] at hsame
  rw [agrees_countersigned hagrees ?_ hoperative hwallet hlist]
  · intro m hm _
    rw [hsame] at hm
    cases hm
    exact List.le_refl _
  · intro m hm
    rw [hsame] at hm
    cases hm
    exact le_rfl

theorem Paired.checkpoint_agrees (h : Paired env p) (hagrees : p.Agrees)
    (hsigns : env.suite.Signs) (hmem : request ∈ p.requests)
    (hfree : p.NoCollision env (.checkpoint request now)) :
    (Exchange.step env p (.checkpoint request now)).1.Agrees ↔
      p.Ascends env (.checkpoint request now) := by
  obtain ⟨e, heq, hrec⟩ | ⟨state, ckptRef, cp, hscreen, rfl, href, hreply, hcases⟩ :=
    p.merchant.onCheckpointRequest_cases env.merchant request
  · refine iff_of_true ?_ (ascends_of_not_recomputes hrec)
    obtain ⟨-, hstep⟩ | ⟨cp, hreply, -⟩ := step_checkpoint env p now hmem
    · rw [hstep, heq]
      exact hagrees
    · rw [heq] at hreply
      cases hreply
  · obtain ⟨hrec, hmerchant⟩ | ⟨hrec, hmerchant, op, hop, hname⟩ := hcases
    · exact h.recomputed_agrees hagrees hsigns hmem hscreen hrec href hreply
        (by rw [hmerchant]; rfl)
    · refine iff_of_true (h.repeated_agrees hagrees hsigns hmem hfree href hreply hmerchant hop
        hname) (ascends_of_not_recomputes fun state' hstate => ?_)
      rw [hscreen] at hstate
      cases hstate
      exact hrec

end returned

/-- Where both agree, a turn leaves them so exactly if what is countersigned at the operative
total has no lesser name. -/
theorem Paired.agrees_iff (h : Paired env p) (hagrees : p.Agrees) (hsigns : env.suite.Signs)
    (turn : Turn ρ) (hfree : p.NoCollision env turn) :
    (Exchange.step env p turn).1.Agrees ↔ p.Ascends env turn := by
  cases turn with
  | request cp =>
    refine iff_of_true ?_ trivial
    unfold Exchange.step
    dsimp only
    split <;> exact hagrees
  | wallet e =>
    refine iff_of_true ?_ trivial
    unfold Exchange.step
    dsimp only
    split_ifs with hrecords
    · exact hagrees
    · exact hagrees.wallet env e (by simpa using hrecords)
  | merchant e =>
    refine iff_of_true ?_ trivial
    unfold Exchange.step
    dsimp only
    split_ifs with hrequests
    · exact hagrees
    · exact h.merchant_agrees hagrees e (by simpa using hrequests)
  | checkpoint request now =>
    by_cases hmem : request ∈ p.requests
    · exact h.checkpoint_agrees hagrees hsigns hmem hfree
    · refine iff_of_true ?_ fun hmem' => absurd hmem' hmem
      unfold Exchange.step
      dsimp only
      rw [if_neg hmem]
      exact hagrees

/-! ## From the opening -/

/-- An opening is of a first channel with the merchant, and nothing is streamed yet. -/
theorem openInner_first {trust : Wallet.PayerChannelTrust} {opened : ℕ}
    {approved : Wallet.Decision} {params : Wallet.ChannelOpenParams} {secret : ByteArr 32}
    {o : ChannelOpen} {c : Wallet.ChannelClient}
    (h : Wallet.openInner env trust opened approved params secret = .ok (o, c)) :
    c.channelId = o.auth.channelId ∧ c.merchantKey = o.auth.merchantKey ∧
      o.auth.predecessor = none ∧ c.operative = none ∧ c.cumStreamed = 0 := by
  unfold Wallet.openInner at h
  cases approved with
  | deny why => cases h
  | approve =>
    simp only [bind_eq_ok, okOr_eq_ok, require_eq_ok, pure_eq_ok, Prod.mk.injEq] at h
    obtain ⟨scope, -, -, -, -, -, seed, -, signed, hsigned, aad, -, sealed, -, rfl, rfl⟩ := h
    unfold ChannelAuth.sign at hsigned
    obtain ⟨fields, -, rfl⟩ := Option.map_eq_some_iff.1 hsigned
    exact ⟨rfl, rfl, rfl, rfl, rfl⟩

/-- A first channel opens without a position and without a checkpoint. -/
theorem opened_first {env : Paytp.Env ρ} {s : Carriage ρ} (h : s.Booked env.suite.toCrypto)
    (fails : StoreFaults) (snaps : HashMap (ByteArr 8 × ByteArr 32) ChainSnapshot)
    (decisions : Option DecisionStore) {o : ChannelOpen} (acc : ChannelDriver.Accepted)
    (hret : s.driver.retained.lookup o.auth.channelId = none) (hpred : o.auth.predecessor = none) :
    (s.opened env fails snaps decisions o acc).importedBasis.lookup o.auth.channelId = none ∧
      (s.opened env fails snaps decisions o acc).operative.lookup o.auth.channelId = none := by
  have hch := h.vacant hret
  unfold opened
  rw [hpred]
  constructor
  · by_contra hne
    have hc := h.evidenced.imported _ (Option.isSome_iff_ne_none.mpr hne)
    rw [hch] at hc
    cases hc
  · by_contra hne
    have hc := h.evidenced.operative _ (Option.isSome_iff_ne_none.mpr hne)
    rw [hch] at hc
    cases hc

/-- A wallet and the merchant that established its channel are paired and agree. -/
theorem paired_opened {s₀ : Carriage ρ} (hbuilt : Built env.merchant s₀)
    (es : List (Carriage.Event ρ)) {trust : Wallet.PayerChannelTrust} {opened : ℕ}
    {approved : Wallet.Decision} {params : Wallet.ChannelOpenParams} {secret : ByteArr 32}
    {o : ChannelOpen} {c : Wallet.ChannelClient}
    (hopen : Wallet.openInner env trust opened approved params secret = .ok (o, c))
    {now : ℕ} {fails : StoreFaults}
    (hest : (exec (Carriage.step env.merchant) s₀ es).establishes env.merchant
      ⟨.channelOpen o now, fails⟩ = some o.auth) :
    let p : Exchange ρ :=
      { merchant := exec (Carriage.step env.merchant) s₀ (es ++ [⟨.channelOpen o now, fails⟩])
        wallet := c
        requests := []
        countersigned := [] }
    Paired env p ∧ p.Agrees := by
  intro p
  obtain ⟨hcid, hkey, hpred, hop, hcum⟩ := openInner_first hopen
  have hbooked : (exec (Carriage.step env.merchant) s₀ es).Booked env.merchant.suite.toCrypto :=
    exec_booked (.built hbuilt) es
  have hafter : p.merchant.Booked env.merchant.suite.toCrypto :=
    exec_booked (.built hbuilt) _
  have hkeys : p.merchant.driver.key = env.suite.ed25519Public p.merchant.driver.signingKey :=
    hbuilt.exec_keys _
  have hmerchant : p.merchant =
      ((exec (Carriage.step env.merchant) s₀ es).onOpen env.merchant fails o now).2 :=
    exec_concat ..
  generalize exec (Carriage.step env.merchant) s₀ es = s at hest hbooked hmerchant
  obtain ⟨hnone, -⟩ | ⟨-, snaps, authHash, openHash, acc, decisions, -, hrec, hscreen, hret, hacc,
    heq⟩ := s.onOpen_cases env.merchant fails o now
  · rw [hnone] at hest
    cases hest
  replace hmerchant : p.merchant = s.opened env.merchant fails snaps decisions o acc := by
    rw [hmerchant, heq]
  obtain ⟨⟨b, hb, -⟩, -, hdriver⟩ := hbooked.opened fails decisions hrec hscreen hret hacc
  obtain ⟨hbasis, hoperative⟩ := opened_first hbooked fails snaps decisions acc hret hpred
  rw [← hmerchant] at hb hbasis hoperative hdriver
  obtain ⟨st, -, rfl⟩ := books_eq_some.1 hb
  refine ⟨⟨hafter, ⟨p.merchant.bookOf o.auth.channelId st, ?_, hbasis⟩, hkeys, ?_, ?_,
    by rintro _ ⟨⟩⟩, ?_⟩
  · rw [hcid]
    exact hb
  · rw [hkey, hdriver]
    unfold ChannelDriver.screenOpen at hscreen
    simp only [bind_eq_ok, require_eq_ok, beq_iff_eq] at hscreen
    obtain ⟨-, hmine, -⟩ := hscreen
    exact hmine
  · rw [hcum]
    exact Nat.zero_le _
  · unfold Agrees Exchange.merchantOperative walletOperative
    rw [hcid, hoperative, hop]
    exact ⟨rfl, fun _ => rfl, by rintro _ ⟨⟩⟩

/-- On a channel that a merchant established for a wallet, both go by the same operative checkpoint
after every turn, the one that supersedes all that was countersigned, exactly if no turn
countersigns at the operative total under a lesser name. -/
theorem agrees_along_iff (hsigns : env.suite.Signs) {s₀ : Carriage ρ}
    (hbuilt : Built env.merchant s₀) (es : List (Carriage.Event ρ))
    {trust : Wallet.PayerChannelTrust} {opened : ℕ} {approved : Wallet.Decision}
    {params : Wallet.ChannelOpenParams} {secret : ByteArr 32} {o : ChannelOpen}
    {c : Wallet.ChannelClient}
    (hopen : Wallet.openInner env trust opened approved params secret = .ok (o, c))
    {now : ℕ} {fails : StoreFaults}
    (hest : (exec (Carriage.step env.merchant) s₀ es).establishes env.merchant
      ⟨.channelOpen o now, fails⟩ = some o.auth) (turns : List (Turn ρ)) :
    let p : Exchange ρ :=
      { merchant := exec (Carriage.step env.merchant) s₀ (es ++ [⟨.channelOpen o now, fails⟩])
        wallet := c
        requests := []
        countersigned := [] }
    Along (step env) (NoCollision env) p turns →
      (Along (step env) (fun q turn => (step env q turn).1.Agrees) p turns ↔
        Along (step env) (Ascends env) p turns) := by
  intro p hfree
  obtain ⟨hpaired, hagrees⟩ := paired_opened hbuilt es hopen hest
  exact along_after_iff (fun _ turn hq => hq.step turn)
    (fun _ turn hq ha hf => hq.agrees_iff ha hsigns turn hf) p turns hpaired hagrees hfree

/-! ## A proposal that arrives late -/

section lateProposal

open Sample

/-- A wallet on credit opens at 1000. -/
def creditParams : Wallet.ChannelOpenParams :=
  { openParams (cid 1) 0 0 (by decide) with prepay := false, refundPtr := none }

def creditOpening : Option (ChannelOpen × Wallet.ChannelClient) :=
  (Wallet.openInner walletEnv walletTrust 1000 .approve creditParams secret).toOption

theorem creditOpening_isSome : creditOpening.isSome = true := by decide +kernel

def creditOpened : ChannelOpen × Wallet.ChannelClient := creditOpening.get creditOpening_isSome

theorem creditOpened_ok : Wallet.openInner walletEnv walletTrust 1000 .approve creditParams secret =
    .ok (creditOpened.1, creditOpened.2) :=
  toOption_eq_some.1 (Option.some_get creditOpening_isSome).symm

def creditSlice : Slice :=
  .sealWith keyedSuite.toCrypto creditOpened.2.kSession 1 1000 one_le_seqMax thousand_micro

/-- What the merchant metered and then countersigned first. -/
def creditMetered : ChannelState :=
  ((ChannelState.new keyedSuite.toCrypto (cid 1) creditOpened.2.kSession .postpay 1000000 1000
    SCHEMA_01_ROLES).acceptEach keyedSuite.toCrypto [creditSlice]).2

/-- The first proposal, and two proposals at its total. -/
def firstProposal : Checkpoint :=
  creditMetered.buildCheckpoint keyedSuite.toCrypto 1200 (.replicate 32 0) []

def proposalAgain (timestamp : ℕ) : Checkpoint :=
  (creditMetered.checkpointUpto keyedSuite.toCrypto 1).buildCheckpoint keyedSuite.toCrypto timestamp
    (.replicate 32 0) []

def handOn (cp : Checkpoint) (now : ℕ) : Turn VirtualRail :=
  .checkpoint (.sign keyedSuite cp
    (creditOpened.2.custody.scopedSk keyedSuite creditOpened.2.scope)) now

/-- The wallet streams a slice and requests three checkpoints there. The last two of them reach
the merchant in the order given. -/
def creditTurns (timestamp timestamp' : ℕ) : List (Turn VirtualRail) :=
  [.wallet ⟨.nextSlice .approve 1000, 1100⟩, .merchant (sent (.batch (cid 1) [creditSlice])),
    .request firstProposal, handOn firstProposal 1200, .request (proposalAgain 1300),
    .request (proposalAgain 1400), handOn (proposalAgain timestamp) 1500,
    handOn (proposalAgain timestamp') 1500]

/-- The pair once the merchant established the wallet's channel. -/
def creditPair : Exchange VirtualRail where
  merchant := exec (Carriage.step walletEnv.merchant) start
    ([] ++ [sent (.channelOpen creditOpened.1 1000)])
  wallet := creditOpened.2
  requests := []
  countersigned := []

/-- Both agree while the two proposals arrive in the order of their names. -/
theorem agrees_along_iff_inOrder :
    Along (step walletEnv) (fun q turn => (step walletEnv q turn).1.Agrees) creditPair
      (creditTurns 1300 1400) :=
  have hsigns : walletEnv.suite.Signs := keyedSuite_signs
  have hbuilt : Built walletEnv.merchant start := start_built
  (agrees_along_iff hsigns hbuilt [] creditOpened_ok (by decide +kernel) (creditTurns 1300 1400)
    (by decide +kernel)).2 (by decide +kernel)

/-- The merchant takes the one that arrives late, of the lesser name, and the wallet does not. -/
theorem lateProposal_disagrees :
    ¬Along (step walletEnv) (fun q turn => (step walletEnv q turn).1.Agrees) creditPair
      (creditTurns 1400 1300) := by
  decide +kernel

end lateProposal

end Exchange

end Paytp
