import Paytp.Proofs.Progress
import Paytp.Sample

/-!
# A relay of channels

A payer who meters, checkpoints, funds, closes for chaining and opens the next channel carries
its position on, channel after channel. Nothing bounds the number of channels but their names, so
the running total reaches the top of its type, where it stops being the sum of the evidence and
what is not evidenced.
-/

namespace Paytp

namespace Relay

open Sample

/-! ## The terms of the channels -/

/-- The postpay terms of the channel `n`; the channels differ in their names and predecessors. -/
def terms (n : ℕ) (predecessor : Option (ByteArr 8 × ByteArr 32)) : ChannelAuth :=
  { Sample.terms (cid (n + 1)) predecessor 1000 with
    mode := MODE_POSTPAY
    limitL := 2 ^ 127
    limitE := 2 ^ 112
    refundPtr := none }

def sessionKey (n : ℕ) : ByteArr 32 := ChannelDriver.deriveKey keyedSuite (terms n none) secret

def seed : ByteArr 32 :=
  ((ChannelDriver.addressInputs (terms 0 none)).seedInstance keyedSuite).get (by decide +kernel)

/-- What the merchant retains of the terms. -/
def settlementTerms : SettlementTerms where
  denom := "usd"
  baselineAsset := "usd"
  baselineNet := "net"
  boundDests := ["layer", "os", "wallet", "dev", "merchant"]
  conversionRequired := false
  settlePtr := "merchant"
  finDenom := "final"
  finMeed := "final"
  seedInstance := seed
  refundPtr := none
  thValue := 0
  thTime := 0

theorem cid_injective {n m : ℕ} (hn : n < 2 ^ 64) (hm : m < 2 ^ 64) (h : cid n = cid m) :
    n = m := by
  have hbe : toBE 8 n = toBE 8 m := congrArg List.Vector.toList h
  rw [← ofBE_toBE (show n < 256 ^ 8 by omega), hbe, ofBE_toBE (show m < 256 ^ 8 by omega)]

theorem cid_succ_ne {n : ℕ} (hn : n + 1 < 2 ^ 64) : cid (n + 1) ≠ .replicate 8 0 := by
  intro h
  have hzero : cid 0 = .replicate 8 0 := by decide
  have := cid_injective hn (by norm_num) (h.trans hzero.symm)
  omega

theorem contentFields_isSome {n : ℕ} (hn : n + 1 < 2 ^ 64)
    (predecessor : Option (ByteArr 8 × ByteArr 32)) :
    ((terms n predecessor).contentFields keyedSuite).isSome = true := by
  have hgrammar : (terms n predecessor).validateGrammar keyedSuite = true := rfl
  have hpresence : (terms n predecessor).checkPresence = true := by
    have hcid : (cid (n + 1) != .replicate 8 0) = true := bne_iff_ne.mpr (cid_succ_ne hn)
    show (cid (n + 1) != .replicate 8 0 && true && true && true) = true
    rw [hcid]
    rfl
  unfold ChannelAuth.contentFields
  rw [hgrammar, hpresence]
  rfl

/-- The terms as the payer sends them. -/
def sent (n : ℕ) (predecessor : Option (ByteArr 8 × ByteArr 32)) : ChannelAuth :=
  (openOn (terms n predecessor)).auth

theorem sent_eq {n : ℕ} (hn : n + 1 < 2 ^ 64)
    (predecessor : Option (ByteArr 8 × ByteArr 32)) :
    ∃ sig, sent n predecessor = { terms n predecessor with sig } := by
  obtain ⟨fields, hfields⟩ := Option.isSome_iff_exists.mp (contentFields_isSome hn predecessor)
  refine ⟨some (keyedSuite.ed25519Sign payerSk (covered .chanAuth (Tlv.encode fields))), ?_⟩
  show ((terms n predecessor).sign keyedSuite payerSk).getD _ = _
  rw [ChannelAuth.sign, hfields]
  rfl

/-! ## Accepting the terms -/

/-- A driver of the merchant, whatever it has seen. -/
structure Ours (d : ChannelDriver) : Prop where
  key : d.key = merchantSk
  encSecret : d.encSecret = merchantSk
  settlePtr : d.settlePtr = "merchant"
  durable : d.durable = false
  tombstones : d.tombstones = ∅

theorem screenOpen_sent {d : ChannelDriver} (hd : Ours d) {n : ℕ} (hn : n + 1 < 2 ^ 64)
    (predecessor : Option (ByteArr 8 × ByteArr 32)) :
    ∃ authHash openHash,
      d.screenOpen keyedSuite (openOn (terms n predecessor)) 1000 = .ok (authHash, openHash) := by
  obtain ⟨sig, hsig⟩ := sent_eq hn predecessor
  obtain ⟨fields, hfields⟩ := Option.isSome_iff_exists.mp (contentFields_isSome hn predecessor)
  have hauth : (openOn (terms n predecessor)).auth = { terms n predecessor with sig } := hsig
  have hverify : (openOn (terms n predecessor)).auth.verify keyedSuite = true :=
    openOn_verify rfl (contentFields_isSome hn predecessor)
  have hcontent : (openOn (terms n predecessor)).auth.contentFields keyedSuite = some fields := by
    rw [hauth]
    exact hfields
  simp only [ChannelDriver.screenOpen, ChannelOpen.encode, ChannelAuth.encode, ChannelAuth.authHash,
    ChannelAuth.canonicalContent, hcontent, bind_eq_ok, require_eq_ok, okOr_eq_ok, pure_eq_ok,
    Option.map_some]
  refine ⟨_, _, ⟨⟩, ?_, ⟨⟩, hverify, ⟨⟩, ?_, ⟨⟩, ?_, ⟨⟩, ?_, _, rfl, _, rfl, ⟨⟩, ?_, rfl⟩
  · rw [hauth, hd.key]
    rfl
  · rw [hauth]
    rfl
  · rw [hauth]
    rfl
  · rw [hauth]
    exact decide_eq_true ((Nat.dist_self 1000).le.trans (Nat.zero_le _))
  · rw [hd.tombstones]
    rfl

/-- What the merchant accepts of the terms. -/
theorem acceptOpen_sent {d : ChannelDriver} (hd : Ours d) {n : ℕ} (hn : n + 1 < 2 ^ 64)
    (predecessor : Option (ByteArr 8 × ByteArr 32)) (imported : Option Import)
    (himp : match predecessor with
      | some pred => ∃ i, imported = some i ∧
        d.chainedImport keyedSuite pred (sent n predecessor) (sessionKey n) seed .postpay = .ok i
      | none => imported = none)
    (hnew : ∀ pred, predecessor = some pred → pred ∉ d.consumedChainRefs)
    (authHash openHash : ByteArr 32) :
    ∃ ack, d.acceptOpen keyedSuite (openOn (terms n predecessor)) authHash openHash =
      .ok { authHash, openHash, kSession := sessionKey n, ack, terms := settlementTerms
            imported } := by
  obtain ⟨sig, hsig⟩ := sent_eq hn predecessor
  have hauth : (openOn (terms n predecessor)).auth = { terms n predecessor with sig } := hsig
  have hunseal : d.unsealSecret keyedSuite (openOn (terms n predecessor)) = .ok secret := by
    obtain ⟨fields, hfields⟩ := Option.isSome_iff_exists.mp (contentFields_isSome hn predecessor)
    have hcontent : (openOn (terms n predecessor)).auth.canonicalContent keyedSuite =
        some (Tlv.encode fields) := by
      rw [hauth, ChannelAuth.canonicalContent]
      show Option.map _ ((terms n predecessor).contentFields keyedSuite) = _
      rw [hfields]
      rfl
    have hsealed : (openOn (terms n predecessor)).sealed =
        keyedSeal merchantSk secret (Tlv.encode fields) := by
      show keyedSeal merchantSk secret
        (((openOn (terms n predecessor)).auth.canonicalContent keyedSuite).getD []) = _
      rw [hcontent]
      rfl
    simp only [ChannelDriver.unsealSecret, hcontent, hsealed, bind_eq_ok, okOr_eq_ok, hd.encSecret]
    exact ⟨_, rfl, keyedSuite_opens _ _ _⟩
  have hseed : (ChannelDriver.addressInputs (openOn (terms n predecessor)).auth).seedInstance
      keyedSuite = some seed := by
    rw [hauth]
    exact (Option.some_get _).symm
  have hack : ∃ ack, ({ authHash, settlePtr := d.settlePtr, sig := none } : ChannelAck).sign
      keyedSuite d.signingKey = some ack := by
    rw [hd.settlePtr]
    exact ⟨_, rfl⟩
  obtain ⟨ack, hack⟩ := hack
  refine ⟨ack, ?_⟩
  unfold ChannelDriver.acceptOpen
  have hpred : (openOn (terms n predecessor)).auth.predecessor = predecessor := by
    rw [hauth]
    rfl
  have hcommit : (keyedSuite.hCommit secret == (openOn (terms n predecessor)).auth.hs) = true := by
    rw [hauth]
    exact beq_self_eq_true _
  have hkey : ChannelDriver.deriveKey keyedSuite (openOn (terms n predecessor)).auth secret =
      sessionKey n := by
    rw [hauth]
    rfl
  have hmode : modeOf (openOn (terms n predecessor)).auth.mode = .postpay := by
    rw [hauth]
    rfl
  cases predecessor with
  | none =>
    subst himp
    simp only [hpred, bind_eq_ok, require_eq_ok, okOr_eq_ok, pure_eq_ok]
    refine ⟨⟨⟩, rfl, secret, hunseal, ⟨⟩, hcommit, seed, hseed, none, rfl, ack, hack, ?_⟩
    rw [hkey, hauth, hd.settlePtr]
    rfl
  | some pred =>
    obtain ⟨i, rfl, hi⟩ := himp
    simp only [hpred, bind_eq_ok, require_eq_ok, okOr_eq_ok, pure_eq_ok]
    refine ⟨⟨⟩, ?_, secret, hunseal, ⟨⟩, hcommit, seed, hseed, some i, ?_, ack, hack, ?_⟩
    · simpa using hnew pred rfl
    · rw [hkey, hmode]
      show some <$> d.chainedImport keyedSuite pred (sent n (some pred)) _ _ _ = _
      rw [hi]
      rfl
    · rw [hkey, hauth, hd.settlePtr]
      rfl

/-! ## Positions -/

/-- The accruals of a total `C` on the schema's shares. -/
def accruals (C : ℕ) : List (UInt8 × ℕ) :=
  SCHEMA_01_ROLES.map fun r => (r.1, C * r.2.toNat)

/-- The channel `n` where it starts at the total `C`. -/
def position (n C : ℕ) : ChannelState :=
  { ChannelState.new keyedSuite.toCrypto (cid (n + 1)) (sessionKey n) .postpay (2 ^ 127) (2 ^ 112)
      SCHEMA_01_ROLES with
    cumTotal := C
    accruals := (accruals C).map Prod.snd
    balance := (C / 100 : ℕ) }

/-- What the merchant holds of a channel with the total `C` that is all paid but the carve. -/
def funded (C : ℕ) : Ledger := { fundingSum := C - C / 100 }

/-- The position with the total `C` as a successor imports it. -/
def snapshot (C establishedAt : ℕ) : ChainSnapshot where
  cumTotal := C
  accruals := accruals C
  openingSettledR := []
  openingNetLegs := 0
  openingFunding := C - C / 100
  importedBalance := (C / 100 : ℕ)
  payerKey := payerSk
  mode := .postpay
  termsFingerprint := chainTermsFingerprint keyedSuite .postpay seed "usd" "net" "final" "final" 0 0
  establishedAt

theorem div_le_I128_MAX {C : ℕ} (hC : C ≤ U128_MAX) : ((C / 100 : ℕ) : ℤ) ≤ I128_MAX := by
  unfold U128_MAX at hC
  unfold I128_MAX
  omega

theorem chainedImport_sent {d : ChannelDriver} {pred : ByteArr 8 × ByteArr 32} {n C e : ℕ}
    (hn : n + 1 < 2 ^ 64) (hC : C ≤ U128_MAX)
    (hsnap : d.chainSnapshots.lookup pred = some (snapshot C e)) :
    d.chainedImport keyedSuite pred (sent n (some pred)) (sessionKey n) seed .postpay =
      .ok { state := position n C
            openings := { settledR := [], netLegs := 0, funding := C - C / 100 }
            establishedAt := e } := by
  obtain ⟨sig, hsig⟩ := sent_eq hn (some pred)
  have hnew : ChannelState.newImported keyedSuite.toCrypto (cid (n + 1)) (sessionKey n) .postpay
      (2 ^ 127) (2 ^ 112) SCHEMA_01_ROLES C ((accruals C).map Prod.snd) (C / 100 : ℕ) =
      .ok (position n C) := by
    unfold ChannelState.newImported
    rw [if_neg (by simp [accruals]), if_neg]
    · rfl
    · have hle := div_le_I128_MAX hC
      have hupper : (ChannelState.new keyedSuite.toCrypto (cid (n + 1)) (sessionKey n) .postpay
          (2 ^ 127) (2 ^ 112) SCHEMA_01_ROLES).boundUpper = I128_MAX := rfl
      have hlower : (ChannelState.new keyedSuite.toCrypto (cid (n + 1)) (sessionKey n) .postpay
          (2 ^ 127) (2 ^ 112) SCHEMA_01_ROLES).boundLower = 0 := rfl
      rw [hupper, hlower]
      omega
  rw [hsig]
  unfold ChannelDriver.chainedImport
  simp only [bind_eq_ok, require_eq_ok, okOr_eq_ok]
  refine ⟨_, hsnap, ⟨⟩, rfl, ⟨⟩, rfl, ⟨⟩, beq_self_eq_true _, (accruals C).map Prod.snd, rfl, ?_⟩
  split
  · rename_i e he
    cases hnew.symm.trans he
  · rename_i state hstate
    cases hnew.symm.trans hstate
    rfl

/-- A channel of the relay with the total `C`. -/
structure Metered (C : ℕ) (ch : ChannelState) : Prop where
  mode : ch.mode = .postpay
  lower : ch.boundLower = 0
  upper : ch.boundUpper = I128_MAX
  cumTotal : ch.cumTotal = C
  accrued : ch.accrualsByRole = accruals C
  phase : ch.phase ≠ .closed

/-- What the merchant retains of a channel of the relay. -/
def Known (s : Carriage VirtualRail) (n : ℕ) : Prop :=
  ∃ r, s.driver.retained.lookup (cid (n + 1)) = some r ∧ r.payerKey = payerSk ∧
    r.terms = settlementTerms

theorem Known.payerKey {s : Carriage VirtualRail} {n : ℕ} (h : Known s n) :
    s.driver.payerKey (cid (n + 1)) = some payerSk := by
  obtain ⟨r, hr, hkey, -⟩ := h
  rw [ChannelDriver.payerKey, hr, Option.map_some, hkey]

theorem Known.settlementTerms {s : Carriage VirtualRail} {n : ℕ} (h : Known s n) :
    s.driver.settlementTerms (cid (n + 1)) = some settlementTerms := by
  obtain ⟨r, hr, -, hterms⟩ := h
  rw [ChannelDriver.settlementTerms, hr, Option.map_some, hterms]

theorem importedBalance_funded {C : ℕ} (hC : C ≤ U128_MAX) :
    importedBalanceF6e .postpay C [] 0 (C - C / 100) 0 I128_MAX = (C / 100 : ℕ) := by
  have hle := div_le_I128_MAX hC
  have hpaid : satAddU128 (satAddU128 (C - C / 100) 0)
      ((u128OfNat (sumOf [] / 10000)).getD U128_MAX) = C - C / 100 := by
    have hnone : (u128OfNat (sumOf [] / 10000)).getD U128_MAX = 0 := rfl
    have hin : C - C / 100 ≤ U128_MAX := (Nat.sub_le _ _).trans hC
    rw [hnone, satAddU128_zero hin, satAddU128_zero hin]
  have hrest : C - (C - C / 100) = C / 100 := by omega
  have hclamp : i128OfU128 (C / 100) = (C / 100 : ℕ) := min_eq_right hle
  unfold importedBalanceF6e
  dsimp only
  rw [hpaid, if_pos (Nat.sub_le _ _), hrest, hclamp, if_neg (by omega), if_neg (by omega)]

theorem computeChainSnapshot_metered {s : Carriage VirtualRail} {n C e : ℕ} {ch : ChannelState}
    {ref : ByteArr 32} (hch : s.channels.lookup (cid (n + 1)) = some ch) (hm : Metered C ch)
    (hC : C ≤ U128_MAX) (hknown : Known s n)
    (hest : s.channelEstablishedAt.lookup (cid (n + 1)) = some e)
    (hled : (s.ledger.lookup (cid (n + 1))).getD {} = funded C)
    (hop : s.operative.lookup (cid (n + 1)) =
      some { ckptRef := ref, cumTotal := C, accruals := accruals C }) :
    s.computeChainSnapshot keyedSuite (cid (n + 1)) ref = some (snapshot C e) := by
  have hfit : ∀ k ≤ 50, Fee.u256FromBiguint (C * k) = .ok (C * k) := by
    intro k hk
    have hprod : C * k ≤ U128_MAX * 50 := Nat.mul_le_mul hC hk
    exact if_pos (hprod.trans (by decide))
  have haccrued : (accruals C).mapM (fun e => Fee.u256FromBiguint e.2) =
      .ok [C * 50, C * 10, C * 30, C * 10] := by
    show [((0x10 : UInt8), C * 50), (0x11, C * 10), (0x12, C * 30), (0x13, C * 10)].mapM _ = _
    simp [List.mapM_cons, hfit]
  have hsettled : (accruals C).mapM (fun e => Fee.u256FromBiguint (ofRole [] e.1)) =
      .ok [0, 0, 0, 0] := rfl
  have houtstanding : Fee.Reconcile.outstandingMeedPerRole [C * 50, C * 10, C * 30, C * 10]
      [0, 0, 0, 0] = .ok [C * 50, C * 10, C * 30, C * 10] := by
    simp [Fee.Reconcile.outstandingMeedPerRole, List.mapM_cons]
  unfold Carriage.computeChainSnapshot
  rw [hop]
  simp only [Option.bind_eq_bind, Option.bind_eq_some_iff]
  refine ⟨ch, hch, payerSk, hknown.payerKey, settlementTerms, hknown.settlementTerms, e, hest,
    ⟨⟩, by simp, C, Carriage.u128OfNat_eq_some.mpr ⟨hC, rfl⟩, _, rfl,
    [C * 50, C * 10, C * 30, C * 10], ?_, [0, 0, 0, 0], ?_, [C * 50, C * 10, C * 30, C * 10], ?_,
    ?_⟩
  · exact congrArg Except.toOption haccrued
  · rw [hled]
    exact congrArg Except.toOption hsettled
  · exact congrArg Except.toOption houtstanding
  · rw [hled, hm.mode, hm.lower, hm.upper]
    show some { snapshot C e with
      importedBalance := importedBalanceF6e .postpay C [] 0 (C - C / 100) 0 I128_MAX } = _
    rw [importedBalance_funded hC]
    rfl

/-! ## Metering and evidence -/

/-- What the slices of one channel sum to at most. -/
def full : ℕ := SEQ_MAX * (2 ^ 48 - 1)

theorem position_wellFormed {n C : ℕ} (hC : C ≤ U128_MAX) : (position n C).WellFormed := by
  have hnew := ChannelState.wellFormed_new keyedSuite.toCrypto (cid (n + 1)) (sessionKey n)
    .postpay (2 ^ 127) (2 ^ 112) SCHEMA_01_ROLES
  have hle := div_le_I128_MAX hC
  refine { hnew with aligned := rfl, cum_le := hC, balance_mem := ⟨?_, hle⟩ }
  show I128_MIN ≤ ((C / 100 : ℕ) : ℤ)
  unfold I128_MIN
  omega

/-- A channel can be metered in full. -/
theorem meter {s : Carriage VirtualRail} {n C : ℕ} (hC : C ≤ U128_MAX)
    (hch : s.channels.lookup (cid (n + 1)) = some (position n C)) :
    ∃ e slices st, (Carriage.step env s e).1 =
        { s with channels := s.channels.insert (cid (n + 1)) st } ∧
      ChannelState.Taken (position n C) slices st ∧ ChannelState.amounts slices = full := by
  obtain ⟨slices, hverify, hasc, hseq, hsum⟩ :=
    ChannelState.exists_slices keyedSuite.toCrypto (sessionKey n)
      (show 2 ^ 48 - 1 < 2 ^ 48 by norm_num) SEQ_MAX le_rfl
  have hle := div_le_I128_MAX hC
  have hfull : full < 2 ^ 111 := by decide
  have hupper : (position n C).boundUpper = I128_MAX := rfl
  have hacc : ChannelState.Acceptable keyedSuite.toCrypto (position n C) (sessionKey n) slices := by
    refine ⟨rfl, rfl, rfl, hverify, hasc, fun x hx => ⟨(hseq x hx).1, List.not_mem_nil⟩, ?_, ?_,
      ?_, ?_⟩
    · show I128_MIN ≤ ((C / 100 : ℕ) : ℤ)
      unfold I128_MIN
      omega
    · rw [hupper, hsum]
      show ((C / 100 : ℕ) : ℤ) + (full : ℕ) ≤ I128_MAX
      unfold U128_MAX at hC
      unfold I128_MAX
      omega
    · rw [hupper]
    · rw [hsum]
      show 0 + full ≤ 2 ^ 112
      omega
  obtain ⟨st, hst⟩ := hacc.acceptEach
  refine ⟨Sample.sent (.batch (cid (n + 1)) slices), slices, st, ?_,
    ChannelState.acceptEach_taken (position_wellFormed hC) hst, hsum⟩
  have hne : slices ≠ [] := by
    rintro rfl
    exact absurd hsum (by decide)
  show (s.batch env (cid (n + 1)) slices).2 = _
  rw [Carriage.batch_accepted hne hch hst]

/-- What is metered in full, if the total does not reach the top of its type. -/
theorem metered_taken {n C : ℕ} {slices : List Slice} {st : ChannelState}
    (ht : ChannelState.Taken (position n C) slices st)
    (hsum : ChannelState.amounts slices = full) (hC : C + full ≤ U128_MAX) :
    Metered (C + full) st ∧ st.channelId = cid (n + 1) := by
  have hvector : st.vector = SCHEMA_01_ROLES := ht.vector_eq
  have haccruals : st.accruals = (accruals (C + full)).map Prod.snd := by
    rw [ht.accruals, hsum]
    show ChannelState.accrue full [C * 50, C * 10, C * 30, C * 10] SCHEMA_01_ROLES = _
    simp only [ChannelState.accrue, accruals, SCHEMA_01_ROLES, List.map_cons, List.map_nil,
      Nat.add_mul]
    rfl
  refine ⟨⟨?_, ?_, ?_, ?_, ?_, ?_⟩, ?_⟩
  · rw [ht.frame]
    rfl
  · rw [ht.frame]
    rfl
  · rw [ht.frame]
    rfl
  · rw [ht.cumTotal, hsum]
    exact satAddU128_of_le hC
  · rw [ChannelState.accrualsByRole, hvector, haccruals]
    rfl
  · rw [ht.frame]
    rintro ⟨⟩
  · rw [ht.frame]
    rfl

/-- The payer has the whole of a metered channel evidenced. -/
theorem evidence {s : Carriage VirtualRail} {n C : ℕ} {st : ChannelState} (hknown : Known s n)
    (hst : s.channels.lookup (cid (n + 1)) = some st) (hwf : st.WellFormed)
    (hid : st.channelId = cid (n + 1)) (hm : Metered C st) :
    ∃ e ref st', (Carriage.step env s e).1 =
        { s with
          channels := s.channels.insert (cid (n + 1)) st'
          operative := s.operative.insert (cid (n + 1))
            { ckptRef := ref, cumTotal := C, accruals := accruals C } } ∧
      Metered C st' := by
  let cp := st.buildCheckpoint keyedSuite.toCrypto 1000 (.replicate 32 0) []
  let request := CheckpointRequest.sign keyedSuite cp payerSk
  have hcid : request.proposed.channelId = cid (n + 1) := hid
  have hpast : ChannelState.amounts (st.window.past U64_MAX).values = 0 := by
    rw [(ChannelState.upto_max hwf).2.2]
    rfl
  have hcum : request.proposed.cumTotal = C := by
    show st.cumTotal - ChannelState.amounts (st.window.past U64_MAX).values = C
    rw [hpast, hm.cumTotal, Nat.sub_zero]
  have haccruals : request.proposed.accruals = accruals C := by
    show (st.vector.zip st.accruals).map (fun p => (p.1.1,
      p.2 - ChannelState.amounts (st.window.past U64_MAX).values * p.1.2.toNat)) = accruals C
    rw [hpast, ← hm.accrued, ChannelState.accrualsByRole, List.zip_map_left]
    simp [Prod.map]
  have hrec : st.recomputes keyedSuite.toCrypto request.proposed = true :=
    (ChannelState.recomputes_buildCheckpoint hwf 1000 (.replicate 32 0) [] _).1
  have hverify : request.verify keyedSuite payerSk = true :=
    CheckpointRequest.verify_sign keyedSuite_signs cp rfl
  let countersigned := s.driver.countersignCheckpoint keyedSuite request.proposed
  have href : countersigned.reference keyedSuite =
      some (keyedSuite.sha256 countersigned.encode) := rfl
  have hkey : s.driver.payerKey request.proposed.channelId = some payerSk := by
    rw [hcid]
    exact hknown.payerKey
  have hst' : s.channels.lookup request.proposed.channelId = some st := by
    rw [hcid]
    exact hst
  have hstep : (s.onCheckpointRequest env request).2 = _ :=
    Carriage.onCheckpointRequest_countersigned hkey hverify hst' hrec href
  refine ⟨Sample.sent (.checkpointRequest request), keyedSuite.sha256 countersigned.encode,
    st.checkpointUpto keyedSuite.toCrypto request.proposed.lastSeq, ?_, ?_⟩
  · show (s.onCheckpointRequest env request).2 = _
    rw [hstep, hcid, hcum, haccruals]
    rfl
  · exact ⟨hm.mode, hm.lower, hm.upper, hm.cumTotal, hm.accrued, hm.phase⟩

/-! ## Funding, closing and opening -/

/-- The reference of the payment for the channel `n`. -/
def txRef (n : ℕ) : String := String.ofList (List.replicate (n + 1) 'a')

theorem txRef_injective {n m : ℕ} (h : txRef n = txRef m) : n = m := by
  have hlist := congrArg (fun s => s.toList.length) h
  simpa [txRef] using hlist

theorem txRef_ne_empty (n : ℕ) : txRef n ≠ "" := by
  intro h
  have hlist := congrArg (fun s => s.toList.length) h
  simp [txRef] at hlist

/-- What every message of the relay finds, before the channel `n + 1` is opened. -/
structure Course (n : ℕ) (s : Carriage VirtualRail) : Prop where
  profile : s.profile = .demo
  rail : s.rail = none
  store : s.decisions = none
  rounds : s.rounds = ∅
  ours : Ours s.driver
  known : Known s n
  later : ∀ m, n < m → m + 1 < 2 ^ 64 → s.driver.retained.lookup (cid (m + 1)) = none
  consumed : ∀ m ref, n ≤ m → m + 1 < 2 ^ 64 → (cid (m + 1), ref) ∉ s.driver.consumedChainRefs
  stage : ∀ m, n < m → m + 1 < 2 ^ 64 → s.chainState.lookup (cid (m + 1)) = none
  established : ∃ e, s.channelEstablishedAt.lookup (cid (n + 1)) = some e
  txRefs : ∀ m, n < m → txRef m ∉ s.consumedFunding

theorem Course.txRefs_succ {n : ℕ} {s : Carriage VirtualRail} (h : Course n s) :
    ∀ m, n + 1 < m → txRef m ∉ s.consumedFunding :=
  fun m hm => h.txRefs m (n.lt_succ_self.trans hm)

/-- The payer pays what is owed but the carve. -/
theorem fund {s : Carriage VirtualRail} {n B C : ℕ} {st : ChannelState} (h : Course n s)
    (hstage : s.chainState.lookup (cid (n + 1)) = none) (hnew : txRef n ∉ s.consumedFunding)
    (hst : s.channels.lookup (cid (n + 1)) = some st) (hm : Metered C st)
    (hled : (s.ledger.lookup (cid (n + 1))).getD {} = funded B) (hB : B ≤ C)
    (hC : C ≤ U128_MAX) :
    ∃ e st', (Carriage.step env s e).1 =
        { s with
          consumedFunding := insert (txRef n) s.consumedFunding
          channels := s.channels.insert (cid (n + 1)) st'
          ledger := s.ledger.insert (cid (n + 1)) (funded C) } ∧
      Metered C st' := by
  obtain ⟨r, hr, hpayer, -⟩ := h.known
  let unsigned : FundingProof :=
    { channelId := cid (n + 1), authHash := r.authHash, rail := "virtual", txRef := txRef n
      amount := U128_MAX, sig := none }
  have hcontent : (unsigned.contentFields keyedSuite).isSome = true := by
    have htext : keyedSuite.validateText (txRef n) = true := bne_iff_ne.mpr (txRef_ne_empty n)
    have hchecks : (keyedSuite.validateText unsigned.rail &&
        keyedSuite.validateText unsigned.txRef && keyedSuite.isRailId unsigned.rail) = true := by
      rw [htext]
      rfl
    rw [FundingProof.contentFields, if_pos hchecks]
    rfl
  obtain ⟨fields, hfields⟩ := Option.isSome_iff_exists.mp hcontent
  obtain ⟨fp, hfp⟩ : ∃ fp, unsigned.sign keyedSuite payerSk = some fp := by
    rw [FundingProof.sign, hfields]
    exact ⟨_, rfl⟩
  have hverify := FundingProof.verify_sign keyedSuite_signs hfp
  obtain ⟨sig, rfl⟩ : ∃ sig, fp = { unsigned with sig } := by
    obtain ⟨fields, -, rfl⟩ := Option.map_eq_some_iff.mp hfp
    exact ⟨_, rfl⟩
  have hcarve : (u128OfNat (sumOf st.accrualsByRole / 10000)).getD U128_MAX = C / 100 := by
    have hsum : sumOf st.accrualsByRole / 10000 = C / 100 := by
      rw [hm.accrued]
      show (C * 50 + (C * 10 + (C * 30 + (C * 10 + 0)))) / 10000 = C / 100
      omega
    rw [hsum, Carriage.u128OfNat_eq_some.mpr ⟨(Nat.div_le_self C 100).trans hC, rfl⟩]
    rfl
  have hcredit : Carriage.creditedFunding st (funded B) U128_MAX =
      (C - C / 100) - (B - B / 100) := by
    unfold Carriage.creditedFunding
    rw [hm.mode]
    dsimp only
    rw [hcarve, hm.cumTotal]
    show min U128_MAX (C - C / 100 - 0 - (B - B / 100)) = _
    omega
  have hsum : (funded B).fundingSum + Carriage.creditedFunding st (funded B) U128_MAX =
      C - C / 100 := by
    rw [hcredit]
    show B - B / 100 + _ = _
    omega
  have hadm : s.fundingAdmissible (cid (n + 1)) = true := by
    have hstatus : st.status ≠ .closed := by
      have hphase := hm.phase
      unfold ChannelState.status
      cases hp : st.phase with
      | closed => exact absurd hp hphase
      | settling => rintro ⟨⟩
      | «open» =>
        dsimp only
        split_ifs <;> rintro ⟨⟩
    unfold Carriage.fundingAdmissible
    rw [hst, hstage]
    dsimp only
    rw [if_neg hstatus, hm.mode]
  have hauth : s.driver.authHash (cid (n + 1)) = some r.authHash := by
    rw [ChannelDriver.authHash, hr]
    rfl
  have hstep : (s.onFunding env (fun _ => false) { unsigned with sig }).2 = _ :=
    Carriage.onFunding_demo h.profile h.rail h.store hnew hstage h.known.payerKey hauth hverify hst
      hadm hled (by rw [hsum]; exact (Nat.sub_le _ _).trans hC)
  refine ⟨Sample.sent (.fundingProof { unsigned with sig }), st.creditFunding
    (Carriage.creditedFunding st (funded B) U128_MAX), ?_, ?_⟩
  · show (s.onFunding env (fun _ => false) { unsigned with sig }).2 = _
    rw [hstep, hsum]
    rfl
  · exact ⟨hm.mode, hm.lower, hm.upper, hm.cumTotal, hm.accrued, hm.phase⟩

/-- The payer closes for chaining what is all evidenced. -/
theorem close {s : Carriage VirtualRail} {n C : ℕ} {st : ChannelState} {ref : ByteArr 32}
    (h : Course n s) (hstage : s.chainState.lookup (cid (n + 1)) = none)
    (hst : s.channels.lookup (cid (n + 1)) = some st) (hm : Metered C st) (hC : C ≤ U128_MAX)
    (hop : s.operative.lookup (cid (n + 1)) =
      some { ckptRef := ref, cumTotal := C, accruals := accruals C }) :
    ∃ e st', (Carriage.step env s e).1 =
        { s with
          chainState := s.chainState.insert (cid (n + 1)) .pending
          channels := s.channels.insert (cid (n + 1)) st'
          driver := s.driver.terminate (cid (n + 1)) } ∧
      Metered C st' := by
  have haccept := closeOf_accept (cid (n + 1)) ref true
  have hkey : driver.key = s.driver.key := h.ours.key.symm
  rw [hkey] at haccept
  have hstep : (s.onClose env (fun _ => false) (closeOf (cid (n + 1)) ref true)).2 = _ :=
    Carriage.onClose_chained h.rounds h.store h.known.payerKey haccept hstage hop rfl
      h.known.settlementTerms rfl hst hm.cumTotal hC
  refine ⟨Sample.sent (.close (closeOf (cid (n + 1)) ref true)), st.beginSettling, hstep, ?_⟩
  unfold ChannelState.beginSettling
  rw [if_pos hm.phase]
  exact ⟨hm.mode, hm.lower, hm.upper, hm.cumTotal, hm.accrued, nofun⟩

theorem lookup_terminate {d : ChannelDriver} {c c' : ByteArr 8} (h : c' ≠ c) :
    (d.terminate c).retained.lookup c' = d.retained.lookup c' := by
  unfold ChannelDriver.terminate
  cases d.retained.lookup c with
  | none => rfl
  | some r => exact Finmap.lookup_insert_of_ne _ h

/-- The course goes on after the close. -/
theorem Course.closed {s : Carriage VirtualRail} {n : ℕ} (h : Course n s) (hn : n + 1 < 2 ^ 64)
    (channels : HashMap (ByteArr 8) ChannelState) :
    Course n { s with
      chainState := s.chainState.insert (cid (n + 1)) .pending
      channels
      driver := s.driver.terminate (cid (n + 1)) } := by
  obtain ⟨r, hr, hpayer, hterms⟩ := h.known
  have hdriver : s.driver.terminate (cid (n + 1)) =
      { s.driver with retained := s.driver.retained.insert (cid (n + 1))
                        { r with terminated := true } } := by
    rw [ChannelDriver.terminate, hr]
  have hne : ∀ m, n < m → m + 1 < 2 ^ 64 → cid (m + 1) ≠ cid (n + 1) := by
    intro m hnm hm heq
    have := cid_injective hm hn heq
    omega
  refine { h with ours := ?_, known := ?_, later := ?_, consumed := ?_, stage := ?_ }
  · rw [hdriver]
    exact { h.ours with }
  · rw [Known, hdriver]
    exact ⟨_, Finmap.lookup_insert _, hpayer, hterms⟩
  · intro m hnm hm
    exact (lookup_terminate (hne m hnm hm)).trans (h.later m hnm hm)
  · rw [hdriver]
    exact h.consumed
  · intro m hnm hm
    exact (Finmap.lookup_insert_of_ne _ (hne m hnm hm)).trans (h.stage m hnm hm)

/-- Before the channel `n` is metered, at the total `C`. -/
structure AtHop (n C : ℕ) (s : Carriage VirtualRail) : Prop where
  course : Course n s
  stage : s.chainState.lookup (cid (n + 1)) = none
  unpaid : txRef n ∉ s.consumedFunding
  ledger : (s.ledger.lookup (cid (n + 1))).getD {} = funded C
  channel : s.channels.lookup (cid (n + 1)) = some (position n C)

theorem step_channelOpen (s : Carriage VirtualRail) (o : ChannelOpen) (now : ℕ) :
    (Carriage.step env s (Sample.sent (.channelOpen o now))).1 =
      (s.onOpen env (fun _ => false) o now).2 := rfl

/-- What an OPEN imports of a channel that is pending. -/
theorem prepareImport_pending {s : Carriage VirtualRail} {pred : ByteArr 8 × ByteArr 32}
    {snap : ChainSnapshot} (hstage : s.chainState.lookup pred.1 = some .pending)
    (hsnap : Carriage.computeChainSnapshot { s with driver := s.driver.removeChainSnapshot pred }
      env.suite pred.1 pred.2 = some snap) :
    s.prepareImport env pred = .ok { s with
      driver := (s.driver.removeChainSnapshot pred).recordChainSnapshot pred snap } := by
  unfold Carriage.prepareImport
  simp only [hstage, hsnap]

/-- The payer opens the next channel at the position of the closed one. -/
theorem openNext {s : Carriage VirtualRail} {n C : ℕ} {st : ChannelState} {ref : ByteArr 32}
    (h : Course n s) (hn : n + 2 < 2 ^ 64)
    (hstage : s.chainState.lookup (cid (n + 1)) = some .pending)
    (hst : s.channels.lookup (cid (n + 1)) = some st) (hm : Metered C st) (hC : C ≤ U128_MAX)
    (hled : (s.ledger.lookup (cid (n + 1))).getD {} = funded C)
    (hop : s.operative.lookup (cid (n + 1)) =
      some { ckptRef := ref, cumTotal := C, accruals := accruals C }) :
    ∃ e, AtHop (n + 1) C (Carriage.step env s e).1 := by
  obtain ⟨established, hest⟩ := h.established
  let pred := (cid (n + 1), ref)
  let o := openOn (terms (n + 1) (some pred))
  obtain ⟨sig, hsig⟩ := sent_eq hn (some pred)
  have hauth : o.auth = { terms (n + 1) (some pred) with sig } := hsig
  have hsnap := computeChainSnapshot_metered hst hm hC h.known hest hled hop
  let d := (s.driver.removeChainSnapshot pred).recordChainSnapshot pred (snapshot C established)
  have hours : Ours d := { h.ours with }
  have hpred : o.auth.predecessor = some pred := by
    rw [hauth]
    rfl
  have hprepare : s.prepareImport env pred = .ok { s with driver := d } :=
    prepareImport_pending hstage hsnap
  have hscreen : s.screenOpen env o.auth = .ok { s with driver := d } := by
    unfold Carriage.screenOpen
    simp only [bind_eq_ok, require_eq_ok]
    refine ⟨⟨⟩, ?_, ?_⟩
    · unfold Carriage.finalityIsIrreversible
      rw [h.rail]
    · rw [hpred]
      exact hprepare
  obtain ⟨authHash, openHash, hopen⟩ := screenOpen_sent hours hn (some pred)
  have himport := chainedImport_sent (d := d) hn hC (Finmap.lookup_insert _)
  obtain ⟨ack, hacc⟩ := acceptOpen_sent hours hn (some pred) _ ⟨_, rfl, himport⟩
    (fun p hp => by cases hp; exact h.consumed n ref le_rfl (by omega)) authHash openHash
  have hret : d.retained.lookup o.auth.channelId = none := by
    rw [hauth]
    exact h.later (n + 1) n.lt_succ_self hn
  have hstep : (s.onOpen env (fun _ => false) o 1000).2 = _ :=
    Carriage.onOpen_accepted hscreen hopen hret hacc hours.durable
  have hcid : o.auth.channelId = cid (n + 2) := by
    rw [hauth]
    rfl
  have hpayer : o.auth.payerKey = payerSk := by
    rw [hauth]
    rfl
  refine ⟨Sample.sent (.channelOpen o 1000), ?_⟩
  rw [step_channelOpen]
  have hne : ∀ m, n + 1 ≤ m → m + 1 < 2 ^ 64 → cid (m + 1) ≠ cid (n + 1) := by
    intro m hnm hm heq
    have := cid_injective hm (by omega) heq
    omega
  have hne' : ∀ m, n + 1 < m → m + 1 < 2 ^ 64 → cid (m + 1) ≠ o.auth.channelId := by
    intro m hnm hm heq
    have := cid_injective hm hn (heq.trans hcid)
    omega
  rw [hstep, hpred, Carriage.commitPredecessor_memory (by exact h.store)]
  refine ⟨⟨h.profile, h.rail, h.store, h.rounds, { hours with }, ?_, ?_, ?_, ?_, ?_, h.txRefs_succ⟩,
    ?_, h.txRefs (n + 1) n.lt_succ_self, ?_, ?_⟩
  · unfold Known
    rw [← hcid]
    exact ⟨_, Finmap.lookup_insert _, hpayer, rfl⟩
  · intro m hnm hm
    exact (Finmap.lookup_insert_of_ne _ (hne' m hnm hm)).trans (h.later m (by omega) hm)
  · intro m ref' hnm hm hmem
    have hmem' : (cid (m + 1), ref') ∈
        s.driver.consumedChainRefs ∪ o.auth.predecessor.toFinset := hmem
    rw [hpred] at hmem'
    rcases Finset.mem_union.1 hmem' with hold | hpred
    · exact h.consumed m ref' (by omega) hm hold
    · have heq : pred = (cid (m + 1), ref') := Option.some.inj (Option.mem_toFinset.1 hpred)
      exact hne m hnm hm (congrArg Prod.fst heq).symm
  · intro m hnm hm
    exact (Finmap.lookup_insert_of_ne _ (hne m (by omega) hm)).trans (h.stage m (by omega) hm)
  · refine ⟨established, ?_⟩
    rw [← hcid]
    exact Finmap.lookup_insert _
  · exact (Finmap.lookup_insert_of_ne _ (hne (n + 1) le_rfl hn)).trans
      (h.stage (n + 1) n.lt_succ_self hn)
  · rw [← hcid]
    have hnext : (s.ledger.insert o.auth.channelId (funded C)).lookup o.auth.channelId =
        some (funded C) := Finmap.lookup_insert _
    show ((s.ledger.insert o.auth.channelId (funded C)).lookup o.auth.channelId).getD {} = _
    rw [hnext]
    rfl
  · rw [← hcid]
    exact Finmap.lookup_insert _

/-! ## The relay -/

/-- One channel of the relay: meter, evidence, pay, close and open the next. -/
theorem AtHop.hop {s : Carriage VirtualRail} {n C : ℕ} (h : AtHop n C s) (hn : n + 2 < 2 ^ 64)
    (hC : C + full ≤ U128_MAX) :
    ∃ es, AtHop (n + 1) (C + full) (exec (Carriage.step env) s es) := by
  obtain ⟨e₁, slices, st₁, h₁, htaken, hsum⟩ := meter ((Nat.le_add_right C full).trans hC) h.channel
  obtain ⟨hm₁, hid⟩ := metered_taken htaken hsum hC
  generalize hs₁ : (Carriage.step env s e₁).1 = s₁ at h₁
  have hst₁ : s₁.channels.lookup (cid (n + 1)) = some st₁ := by
    rw [h₁]
    exact Finmap.lookup_insert _
  have hknown₁ : Known s₁ n := by
    rw [h₁]
    exact h.course.known
  obtain ⟨e₂, ref, st₂, h₂, hm₂⟩ := evidence hknown₁ hst₁ htaken.wellFormed hid hm₁
  generalize hs₂ : (Carriage.step env s₁ e₂).1 = s₂ at h₂
  have hcourse₂ : Course n s₂ := by
    rw [h₂, h₁]
    exact { h.course with }
  have hst₂ : s₂.channels.lookup (cid (n + 1)) = some st₂ := by
    rw [h₂]
    exact Finmap.lookup_insert _
  obtain ⟨e₃, st₃, h₃, hm₃⟩ := fund hcourse₂ (by rw [h₂, h₁]; exact h.stage)
    (by rw [h₂, h₁]; exact h.unpaid) hst₂ hm₂ (by rw [h₂, h₁]; exact h.ledger)
    (Nat.le_add_right C full) hC
  generalize hs₃ : (Carriage.step env s₂ e₃).1 = s₃ at h₃
  have hcourse₃ : Course n s₃ := by
    rw [h₃]
    refine { hcourse₂ with txRefs := fun m hm hmem => ?_ }
    rcases Finset.mem_insert.1 hmem with heq | hold
    · exact absurd (txRef_injective heq) hm.ne'
    · exact hcourse₂.txRefs m hm hold
  have hop₃ : s₃.operative.lookup (cid (n + 1)) =
      some { ckptRef := ref, cumTotal := C + full, accruals := accruals (C + full) } := by
    rw [h₃, h₂]
    exact Finmap.lookup_insert _
  have hst₃ : s₃.channels.lookup (cid (n + 1)) = some st₃ := by
    rw [h₃]
    exact Finmap.lookup_insert _
  obtain ⟨e₄, st₄, h₄, hm₄⟩ := close hcourse₃ (by rw [h₃, h₂, h₁]; exact h.stage) hst₃ hm₃ hC hop₃
  generalize hs₄ : (Carriage.step env s₃ e₄).1 = s₄ at h₄
  have hled₄ : (s₄.ledger.lookup (cid (n + 1))).getD {} = funded (C + full) := by
    have hled : s₄.ledger.lookup (cid (n + 1)) = some (funded (C + full)) := by
      rw [h₄, h₃]
      exact Finmap.lookup_insert _
    rw [hled]
    rfl
  obtain ⟨e₅, h₅⟩ := openNext (by rw [h₄]; exact hcourse₃.closed (by omega) _) hn
    (by rw [h₄]; exact Finmap.lookup_insert _) (by rw [h₄]; exact Finmap.lookup_insert _) hm₄ hC
    hled₄ (by rw [h₄]; exact hop₃)
  refine ⟨[e₁, e₂, e₃, e₄, e₅], ?_⟩
  rwa [exec_cons, hs₁, exec_cons, hs₂, exec_cons, hs₃, exec_cons, hs₄, exec_cons, exec_nil]

/-- The merchant's carriage in memory, without a rail. -/
def start : Carriage VirtualRail := (Carriage.demo driver none none).get rfl

theorem start_built : Carriage.Built env start := .demo (Option.some_get _).symm

/-- The payer opens the first channel. -/
theorem openFirst : ∃ e, AtHop 0 0 (Carriage.step env start e).1 := by
  have hours : Ours start.driver := ⟨rfl, rfl, rfl, rfl, rfl⟩
  let o := openOn (terms 0 none)
  obtain ⟨sig, hsig⟩ := sent_eq (n := 0) (by norm_num) none
  have hauth : o.auth = { terms 0 none with sig } := hsig
  have hpred : o.auth.predecessor = none := by
    rw [hauth]
    rfl
  have hscreen : start.screenOpen env o.auth = .ok start := by
    unfold Carriage.screenOpen
    simp only [bind_eq_ok, require_eq_ok]
    refine ⟨⟨⟩, rfl, ?_⟩
    rw [hpred]
    rfl
  obtain ⟨authHash, openHash, hopen⟩ := screenOpen_sent hours (n := 0) (by norm_num) none
  obtain ⟨ack, hacc⟩ := acceptOpen_sent hours (n := 0) (by norm_num) none none rfl
    (by rintro _ ⟨⟩) authHash openHash
  have hret : start.driver.retained.lookup o.auth.channelId = none := rfl
  have hstep : (start.onOpen env (fun _ => false) o 1000).2 = _ :=
    Carriage.onOpen_accepted hscreen hopen hret hacc hours.durable
  have hcid : o.auth.channelId = cid 1 := by
    rw [hauth]
    rfl
  have hpayer : o.auth.payerKey = payerSk := by
    rw [hauth]
    rfl
  refine ⟨Sample.sent (.channelOpen o 1000), ?_⟩
  rw [step_channelOpen, hstep, hpred]
  have hne : ∀ m, 0 < m → m + 1 < 2 ^ 64 → cid (m + 1) ≠ o.auth.channelId := by
    intro m hm hlt heq
    have := cid_injective hlt (by norm_num) (heq.trans hcid)
    omega
  have hstate : (ChannelDriver.established keyedSuite o.auth
      { authHash, openHash, kSession := sessionKey 0, ack, terms := settlementTerms
        imported := none }).state = position 0 0 := by
    rw [hauth]
    rfl
  refine ⟨⟨rfl, rfl, rfl, rfl, { hours with }, ?_, ?_, ?_, ?_, ?_, ?_⟩, rfl, ?_, rfl, ?_⟩
  · unfold Known
    rw [← hcid]
    exact ⟨_, Finmap.lookup_insert _, hpayer, rfl⟩
  · intro m hnm hm
    exact Finmap.lookup_insert_of_ne _ (hne m hnm hm)
  · exact fun m ref _ _ => Finset.notMem_empty _
  · exact fun m _ _ => rfl
  · refine ⟨o.auth.timestamp, ?_⟩
    rw [← hcid]
    exact Finmap.lookup_insert _
  · exact fun m _ => Finset.notMem_empty _
  · exact Finset.notMem_empty _
  · rw [← hcid, ← hstate]
    exact Finmap.lookup_insert _

/-- The relay reaches every channel while the total is in its type. -/
theorem reach (n : ℕ) (hC : n * full ≤ U128_MAX) (hn : n + 1 < 2 ^ 64) :
    ∃ es, AtHop n (n * full) (exec (Carriage.step env) start es) := by
  induction n with
  | zero =>
    obtain ⟨e, he⟩ := openFirst
    refine ⟨[e], ?_⟩
    rw [Nat.zero_mul]
    exact he
  | succ n ih =>
    rw [Nat.succ_mul] at hC ⊢
    obtain ⟨es, hes⟩ := ih ((Nat.le_add_right _ _).trans hC) (by omega)
    obtain ⟨fs, hfs⟩ := hes.hop hn hC
    refine ⟨es ++ fs, ?_⟩
    rwa [exec_append]

end Relay

end Paytp
