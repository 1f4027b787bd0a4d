import Paytp.Proofs.Evidence
import Paytp.Proofs.Historical
import Paytp.Signing

/-!
# Messages that go through

The inversions of the handlers say what an accepted message has found. Here are the other
directions: slices that a channel accepts, the checkpoint it countersigns, and what each handler
of the carriage makes of a message that meets its checks.
-/

namespace Paytp

namespace ChannelState

variable {crypto : Crypto}

/-! ## Metering that is accepted -/

/-- Slices that a channel accepts one after the other. -/
structure Acceptable (crypto : Crypto) (s : ChannelState) (k : ByteArr 32)
    (slices : List Slice) : Prop where
  key : s.kSession = some k
  phase : s.phase = .open
  pause : s.pausedWindow = false
  verify : ∀ x ∈ slices, x.verify crypto k = true
  ascending : slices.Pairwise fun a b => a.seq < b.seq
  fresh : ∀ x ∈ slices, s.floor < x.seq ∧ x.seq ∉ s.accounted.keys
  balance_ge : I128_MIN ≤ s.balance
  balance_le : s.balance + amounts slices ≤ s.boundUpper
  bound_le : s.boundUpper ≤ I128_MAX
  evidence : s.unevidenced + amounts slices ≤ s.limitE

theorem Acceptable.head {s : ChannelState} {k : ByteArr 32} {slice : Slice}
    {slices : List Slice} (h : Acceptable crypto s k (slice :: slices)) :
    s.acceptSlice crypto slice = (.ok (), s.moved slice) := by
  have hamounts : amounts (slice :: slices) = slice.amtMicro + amounts slices := by
    simp [amounts]
  have hverify := h.verify slice List.mem_cons_self
  obtain ⟨hfloor, hnew⟩ := h.fresh slice List.mem_cons_self
  have hbal : satAddI128 s.balance slice.amtMicro ≤ s.boundUpper := by
    have hge := h.balance_ge
    have hle := h.balance_le
    have hub := h.bound_le
    rw [satAddI128_of_mem] <;> omega
  have hev := h.evidence
  have hseq : ¬(slice.seq ≤ s.floor ∨ slice.seq ∈ s.accounted.keys) := by
    rintro (hle | hmem)
    · omega
    · exact hnew hmem
  unfold acceptSlice
  simp only [h.key, Option.getD_some, hverify, h.phase, h.pause]
  rw [if_neg (by simp), if_neg (by simp), if_neg hseq, if_neg (by simp), if_neg (by omega),
    if_neg (by omega)]

theorem Acceptable.tail {s : ChannelState} {k : ByteArr 32} {slice : Slice}
    {slices : List Slice} (h : Acceptable crypto s k (slice :: slices)) :
    Acceptable crypto (s.moved slice) k slices := by
  have hamounts : amounts (slice :: slices) = slice.amtMicro + amounts slices := by
    simp [amounts]
  have hge := h.balance_ge
  have hle := h.balance_le
  have hub := h.bound_le
  have hbal : satAddI128 s.balance slice.amtMicro = s.balance + slice.amtMicro := by
    rw [satAddI128_of_mem] <;> omega
  obtain ⟨hlt, hasc⟩ := List.pairwise_cons.mp h.ascending
  refine ⟨h.key, h.phase, h.pause, fun x hx => h.verify x (List.mem_cons_of_mem _ hx), hasc,
    fun x hx => ?_, ?_, ?_, hub, ?_⟩
  · obtain ⟨hfloor, hnew⟩ := h.fresh x (List.mem_cons_of_mem _ hx)
    refine ⟨hfloor, fun hmem => ?_⟩
    rcases OrdMap.mem_keys_insert.1 hmem with heq | hmem
    · have := hlt x hx
      omega
    · exact hnew hmem
  · show I128_MIN ≤ satAddI128 s.balance slice.amtMicro
    omega
  · show satAddI128 s.balance slice.amtMicro + amounts slices ≤ s.boundUpper
    omega
  · have hev := h.evidence
    show s.unevidenced + slice.amtMicro + amounts slices ≤ s.limitE
    omega

theorem Acceptable.acceptEach : ∀ {slices : List Slice} {s : ChannelState} {k : ByteArr 32},
    Acceptable crypto s k slices → ∃ s', s.acceptEach crypto slices = (.ok (), s')
  | [], s, _, _ => ⟨s, rfl⟩
  | slice :: slices, s, k, h => by
    obtain ⟨s', hs'⟩ := h.tail.acceptEach
    exact ⟨s', by rw [ChannelState.acceptEach, h.head]; exact hs'⟩

/-- The numbers up to `m`, each on a slice of `amt`. -/
theorem exists_slices (crypto : Crypto) (k : ByteArr 32) {amt : ℕ} (hamt : amt < 2 ^ 48) :
    ∀ m, m ≤ SEQ_MAX → ∃ slices : List Slice, (∀ x ∈ slices, x.verify crypto k = true) ∧
      (slices.Pairwise fun a b => a.seq < b.seq) ∧ (∀ x ∈ slices, 0 < x.seq ∧ x.seq ≤ m) ∧
      amounts slices = m * amt
  | 0, _ => ⟨[], nofun, .nil, nofun, (Nat.zero_mul amt).symm⟩
  | m + 1, hm => by
    obtain ⟨slices, hverify, hasc, hseq, hsum⟩ :=
      exists_slices crypto k hamt m (by omega)
    let last := Slice.sealWith crypto k (m + 1) amt hm hamt
    have hlast : last.seq = m + 1 := rfl
    refine ⟨slices ++ [last], ?_, ?_, ?_, ?_⟩
    · intro x hx
      rcases List.mem_append.1 hx with hx | hx
      · exact hverify x hx
      · rw [List.mem_singleton.1 hx]
        exact Slice.verify_sealWith crypto k hm hamt
    · refine List.pairwise_append.2 ⟨hasc, List.pairwise_singleton _ _, fun a ha b hb => ?_⟩
      rw [List.mem_singleton.1 hb, hlast]
      exact Nat.lt_succ_of_le (hseq a ha).2
    · intro x hx
      rcases List.mem_append.1 hx with hx | hx
      · have := hseq x hx
        omega
      · rw [List.mem_singleton.1 hx, hlast]
        omega
    · have hone : amounts [last] = amt := by simp [amounts, last, Slice.sealWith]
      rw [amounts_append, hsum, hone, Nat.succ_mul]

/-- The full checkpoint of a state recomputes, whoever signed it, and takes all of the window. -/
theorem recomputes_buildCheckpoint {s : ChannelState} (h : s.WellFormed) (timestamp : ℕ)
    (prevRef : ByteArr 32) (events : List CkptEvent) (sigPayer : Option (ByteArr 64)) :
    s.recomputes crypto { s.buildCheckpoint crypto timestamp prevRef events with sigPayer } =
        true ∧
      (s.checkpointUpto crypto s.lastSeq).unevidenced = 0 := by
  have hcum : s.cumTotal + amounts [] ≤ U128_MAX := h.cum_le
  have hbal : s.balance + amounts [] ≤ I128_MAX := by simpa [amounts] using h.balance_mem.2
  obtain ⟨hrec, -, hunev, -⟩ := countersign_wellFormed h rfl timestamp prevRef events
    (fun _ hx => absurd hx List.not_mem_nil) hcum hbal
  exact ⟨hrec, hunev⟩

end ChannelState

namespace Carriage

variable {ρ : Type} {env : Env ρ} {fails : StoreFaults} {s : Carriage ρ} {st : ChannelState}

/-! ## Messages that go through -/

theorem batch_accepted {cid : ByteArr 8} {slices : List Slice} {st' : ChannelState}
    (hne : slices ≠ []) (hst : s.channels.lookup cid = some st)
    (hacc : st.acceptEach env.suite.toCrypto slices = (.ok (), st')) :
    s.batch env cid slices = (.ok .accepted, { s with channels := s.channels.insert cid st' }) := by
  unfold batch ChannelState.acceptBatch
  rw [if_neg (by simpa using hne), hst]
  dsimp only
  rw [hacc]

theorem onCheckpointRequest_countersigned {request : CheckpointRequest} {payerKey : ByteArr 32}
    {ckptRef : ByteArr 32} (hkey : s.driver.payerKey request.proposed.channelId = some payerKey)
    (hv : request.verify env.suite payerKey = true)
    (hst : s.channels.lookup request.proposed.channelId = some st)
    (hrec : st.recomputes env.suite.toCrypto request.proposed = true)
    (href : (s.driver.countersignCheckpoint env.suite request.proposed).reference env.suite =
      some ckptRef) :
    (s.onCheckpointRequest env request).2 =
      { s with
        channels := s.channels.insert request.proposed.channelId
          (st.checkpointUpto env.suite.toCrypto request.proposed.lastSeq)
        operative := s.operative.insert request.proposed.channelId
          { ckptRef, cumTotal := request.proposed.cumTotal
            accruals := request.proposed.accruals } } := by
  have hscreen : s.screenCheckpoint env request = .ok st := by
    simp only [screenCheckpoint, bind_eq_ok, okOr_eq_ok, require_eq_ok]
    exact ⟨payerKey, hkey, ⟨⟩, hv, hst⟩
  unfold onCheckpointRequest
  rw [hscreen]
  dsimp only
  rw [if_pos hrec, href]
  rfl

/-- Without a rail and a store a demo carriage credits what the payer says it paid. -/
theorem onFunding_demo {fp : FundingProof} {payerKey : ByteArr 32} (hprofile : s.profile = .demo)
    (hrail : s.rail = none) (hstore : s.decisions = none) (hnew : fp.txRef ∉ s.consumedFunding)
    (hstate : s.chainState.lookup fp.channelId = none)
    (hkey : s.driver.payerKey fp.channelId = some payerKey)
    (hauth : s.driver.authHash fp.channelId = some fp.authHash)
    (hv : fp.verify env.suite payerKey = true)
    (hst : s.channels.lookup fp.channelId = some st)
    (hadm : s.fundingAdmissible fp.channelId = true)
    {led : Ledger} (hled : (s.ledger.lookup fp.channelId).getD {} = led)
    (hsum : led.fundingSum + creditedFunding st led fp.amount ≤ U128_MAX) :
    (s.onFunding env fails fp).2 =
      { s with
        consumedFunding := insert fp.txRef s.consumedFunding
        channels := s.channels.insert fp.channelId
          (st.creditFunding (creditedFunding st led fp.amount))
        ledger := s.ledger.insert fp.channelId
          { led with fundingSum := led.fundingSum + creditedFunding st led fp.amount } } := by
  have htransfer : s.fundingTransfer env fp fp.authHash = .ok (fp.amount, fp.txRef) := by
    unfold fundingTransfer
    rw [hrail, hprofile]
    rfl
  have hcredit : s.fundingCredit env fp = .ok
      { target := fp.channelId, channel := st, canonicalRef := fp.txRef
        credited := creditedFunding st led fp.amount
        newFunding := led.fundingSum + creditedFunding st led fp.amount } := by
    unfold fundingCredit
    rw [hstate]
    dsimp only
    rw [hled]
    simp only [bind_eq_ok, okOr_eq_ok, require_eq_ok]
    refine ⟨payerKey, hkey, fp.authHash, hauth, ⟨⟩, hv, ⟨⟩, beq_self_eq_true _, ⟨⟩, hadm,
      (fp.amount, fp.txRef), htransfer, ⟨⟩, decide_eq_true hnew, st, hst, _,
      u128OfNat_eq_some.mpr ⟨hsum, rfl⟩, rfl⟩
  have hconsume : s.consumeRef fails fp.txRef =
      (.first, { s with consumedFunding := insert fp.txRef s.consumedFunding }) := by
    unfold consumeRef
    rw [hstore]
    dsimp only
    rw [if_neg hnew]
  unfold onFunding
  rw [hcredit]
  dsimp only
  rw [hconsume]
  dsimp only
  rw [hled]

/-- A close for chaining of a channel whose metering is all in its operative checkpoint. -/
theorem onClose_chained {close : Close} {payerKey : ByteArr 32} {op : Operative}
    {t : SettlementTerms} (hrounds : s.rounds = ∅) (hstore : s.decisions = none)
    (hkey : s.driver.payerKey close.channelId = some payerKey)
    (haccept : close.accept env.suite close.channelId payerKey s.driver.key =
      some { byPayer := true, chainIntent := true })
    (hstate : s.chainState.lookup close.channelId = none)
    (hop : s.operative.lookup close.channelId = some op) (href : close.ckptRef = op.ckptRef)
    (hterms : s.driver.settlementTerms close.channelId = some t)
    (hconv : t.conversionRequired = false)
    (hst : s.channels.lookup close.channelId = some st) (hcum : st.cumTotal = op.cumTotal)
    (hle : op.cumTotal ≤ U128_MAX) :
    (s.onClose env fails close).2 =
      { s with
        chainState := s.chainState.insert close.channelId .pending
        channels := s.channels.insert close.channelId st.beginSettling
        driver := s.driver.terminate close.channelId } := by
  have hno : s.roundsOf close.channelId = [] := by
    unfold roundsOf
    rw [hrounds]
    rfl
  have hscreen : s.screenClose env close = .ok { byPayer := true, chainIntent := true } := by
    unfold screenClose
    simp only [hno, hop, href, bind_eq_ok, okOr_eq_ok, require_eq_ok, pure_eq_ok]
    exact ⟨payerKey, hkey, _, haccept, ⟨⟩, by simp, ⟨⟩, by simp, rfl⟩
  have hchains : s.chains close.channelId { byPayer := true, chainIntent := true } = true := by
    unfold chains
    rw [hterms]
    simp [hconv]
  have hbasis : s.basisCum close.channelId = op.cumTotal := by
    unfold basisCum
    rw [hop]
    dsimp only
    rw [u128OfNat_eq_some.mpr ⟨hle, rfl⟩]
    rfl
  have hprior : s.priorDisposition close.channelId = none := by
    unfold priorDisposition
    rw [hstate, hstore]
    rfl
  have hclosed : s.closeChained close.channelId =
      (.ok (), { s with chainState := s.chainState.insert close.channelId .pending }) := by
    unfold closeChained
    rw [hst, hbasis, hprior, hop]
    simp [hcum]
  unfold onClose
  rw [hscreen]
  dsimp only
  rw [if_pos hchains, hclosed]
  dsimp only
  unfold finishClose
  dsimp only
  rw [hst]

theorem onOpen_accepted {o : ChannelOpen} {now : ℕ} {s₁ : Carriage ρ}
    {authHash openHash : ByteArr 32} {acc : ChannelDriver.Accepted}
    (hs : s.screenOpen env o.auth = .ok s₁)
    (hscreen : s₁.driver.screenOpen env.suite o now = .ok (authHash, openHash))
    (hret : s₁.driver.retained.lookup o.auth.channelId = none)
    (hacc : s₁.driver.acceptOpen env.suite o authHash openHash = .ok acc)
    (hdurable : s₁.driver.durable = false) :
    (s.onOpen env fails o now).2 =
      (({ s₁ with driver := s₁.driver.retain o.auth acc } : Carriage ρ).install
        (ChannelDriver.established env.suite o.auth acc) o.auth.predecessor).commitPredecessor
          fails o.auth.predecessor o.auth.channelId := by
  have hdecide : s₁.driver.decideOpen fails s₁.decisions o.auth.channelId =
      (.fresh, s₁.decisions) := by
    unfold ChannelDriver.decideOpen
    rw [hdurable]
  have hopen : s₁.driver.openChannel env.suite fails s₁.decisions o now =
      (.ok (.established (ChannelDriver.established env.suite o.auth acc)),
        s₁.driver.retain o.auth acc, s₁.decisions) := by
    unfold ChannelDriver.openChannel
    dsimp only
    rw [hscreen]
    dsimp only
    rw [hret]
    dsimp only
    rw [hacc]
    dsimp only
    rw [hdecide]
  have hack := (ChannelDriver.acceptOpen_ok hacc).1
  unfold onOpen
  rw [hs]
  dsimp only
  rw [hopen]
  dsimp only
  rw [if_neg]
  · rfl
  · rw [ChannelDriver.established, Option.isNone_iff_eq_none]
    exact Option.isSome_iff_ne_none.mp hack

/-- Without a store a predecessor is committed in memory only. -/
theorem commitPredecessor_memory {pred : ByteArr 8 × ByteArr 32} {successor : ByteArr 8}
    (hstore : s.decisions = none) :
    s.commitPredecessor fails (some pred) successor =
      { s with chainState := s.chainState.insert pred.1 (.committed successor) } := by
  have hrecord : (s.recordDisposition fails pred.1 (.committed successor)).2 = s := by
    unfold recordDisposition decideKey
    rw [hstore]
  unfold commitPredecessor
  dsimp only
  rw [hrecord]

end Carriage

end Paytp
