import Paytp.Proofs.Conservation
import Paytp.SampleQuotes

/-!
# Charges on a consumed nonce

The settlement of a presented payment comes before its nonce is looked up. On a consumed nonce a
payment that the rail has not settled yet is therefore settled, and refused after that.
-/

namespace Paytp

open MerchantStore

namespace VirtualRail

/-- The rail takes the transfer under a settle id that it has not seen. -/
def SettlesAnew (rail : VirtualRail) (transfer : Transfer) (settleId : ByteArr 32) : Prop :=
  rail.settleIds.lookup settleId = none ∧ rail.outage = false ∧ rail.Takes transfer

/-- A settlement that is answered is a new one, or was made before and changes nothing. -/
theorem settle_ok_cases {rail after : VirtualRail} {transfer : Transfer} {settleId : ByteArr 32}
    {id : String} (h : rail.settle transfer settleId = (.ok id, after)) :
    rail.SettlesAnew transfer settleId ∨
      rail.settleIds.lookup settleId = some id ∧ after = rail := by
  unfold settle at h
  rcases hid : rail.settleIds.lookup settleId with _ | existing
  · rw [hid] at h
    rcases hout : rail.outage with _ | _
    · refine .inl ⟨hid, hout, (recordPayment_isOk_iff rail transfer).1 ?_⟩
      rw [hout] at h
      rcases hpay : rail.recordPayment transfer with ⟨_ | id', paid⟩
      · rw [hpay] at h
        cases h
      · exact ⟨id', rfl⟩
    · rw [hout] at h
      cases h
  · rw [hid] at h
    cases h
    exact .inr ⟨rfl, rfl⟩

/-- A settlement changes the rail just when it is a new one. -/
theorem settle_unmoved_iff (rail : VirtualRail) (transfer : Transfer) (settleId : ByteArr 32) :
    (rail.settle transfer settleId).2 = rail ↔ ¬ rail.SettlesAnew transfer settleId := by
  unfold SettlesAnew
  constructor
  · rintro hunmoved ⟨hfresh, hout, htakes⟩
    obtain ⟨id, hid⟩ := (recordPayment_isOk_iff rail transfer).2 htakes
    unfold settle at hunmoved
    rw [hfresh, hout] at hunmoved
    rcases hpay : rail.recordPayment transfer with ⟨answer, after⟩
    rw [hpay] at hid hunmoved
    subst hid
    have := congrArg (fun r : VirtualRail => r.settleIds.lookup settleId) hunmoved
    simp [hfresh] at this
  · intro hnot
    rcases hsettle : rail.settle transfer settleId with ⟨e | id, after⟩
    · have hrefused := @settle_refused rail transfer settleId e (by rw [hsettle])
      rwa [hsettle] at hrefused
    · rcases settle_ok_cases hsettle with hanew | ⟨-, rfl⟩
      · exact absurd hanew hnot
      · rfl

end VirtualRail

namespace Merchant

variable {codec : TextCodec} {suite : Suite} {m : Merchant}
  {presentedJson expectedResource : String} {transfer : Transfer} {settleId : ByteArr 32}
  {rail : VirtualRail}

/-- The presented payment is settled anew: it pays what the quote asks, and the rail takes it. -/
def Charged (codec : TextCodec) (suite : Suite) (m : Merchant)
    (presentedJson expectedResource : String) (transfer : Transfer) (settleId : ByteArr 32)
    (rail : VirtualRail) : Prop :=
  ∃ t, m.baselineTerms codec suite presentedJson expectedResource = .ok t ∧
    t.paidBy transfer = true ∧ rail.SettlesAnew transfer settleId

/-- The presented payment is the settlement that the nonce was consumed for. -/
def ExactRetry (codec : TextCodec) (suite : Suite) (m : Merchant)
    (presentedJson expectedResource : String) (transfer : Transfer) (settleId : ByteArr 32)
    (now : ℕ) (rail : VirtualRail) (stored : NonceRecord) : Prop :=
  ∃ t paymentRef canonical, m.baselineTerms codec suite presentedJson expectedResource = .ok t ∧
    t.paidBy transfer = true ∧ rail.settleIds.lookup settleId = some paymentRef ∧
    confirmBaseline t rail paymentRef now = .ok canonical ∧ stored = t.record canonical

/-- A store with the nonce consumed answers with what it holds, and stays as it is. -/
theorem consumeNonce_consumed {wal : Wal ReceiptRest} {nonce : ByteArr 32}
    {stored : NonceRecord} {receipt : Receipt}
    (h : wal.byNonce.lookup nonce = some (stored, receipt)) (record : NonceRecord)
    (build : Unit → Receipt × Unit) (io : AppendIo) :
    wal.consumeNonce (Receipt.form codec suite) nonce record build () io =
      (if wal.poisoned then .error .unavailable
        else if stored = record then .ok receipt else .error .replayed, (), wal) := by
  unfold Wal.consumeNonce
  rw [h]
  dsimp only
  split_ifs <;> rfl

section call
variable (now : ℕ) (io : AppendIo) (wal : Wal ReceiptRest)

/-- The rail after a call is the one after the settlement, whatever the store holds. -/
theorem redeemTerms_unmoved_iff (t : BaselineTerms) :
    (m.redeemTerms codec suite t transfer settleId now io rail wal).2.1 = rail ↔
      ¬(t.paidBy transfer = true ∧ rail.SettlesAnew transfer settleId) := by
  unfold redeemTerms
  rcases hpaid : t.paidBy transfer with _ | _
  · simp
  · have hsettle := VirtualRail.settle_unmoved_iff rail transfer settleId
    rcases hres : rail.settle transfer settleId with ⟨e | paymentRef, after⟩
    · simpa [hres] using hsettle
    · rw [hres] at hsettle
      rcases hconfirm : confirmBaseline t after paymentRef now with e | canonical
      · simpa [hconfirm] using hsettle
      · simpa [hconfirm] using hsettle

theorem redeemBaseline_unmoved_iff :
    (m.redeemBaseline codec suite presentedJson expectedResource transfer settleId now io rail
      wal).2.1 = rail ↔
      ¬ Charged codec suite m presentedJson expectedResource transfer settleId rail := by
  unfold Charged
  rcases hterms : m.baselineTerms codec suite presentedJson expectedResource with e | t
  · rw [redeemBaseline_refused now io wal hterms]
    simp
  · rw [redeemBaseline_of_terms now io wal hterms, redeemTerms_unmoved_iff]
    simp

variable {wal} {q : Quote} {stored : NonceRecord} {receipt : Receipt}

/-- On a consumed nonce a call that settles nothing anew and answers with a receipt is an exact
retry. -/
theorem exactRetry_of_redeemed
    (hquote : Quote.parseVerify codec suite presentedJson m.key = some q)
    (hconsumed : wal.byNonce.lookup q.nonce = some (stored, receipt))
    (hunmoved : ¬ Charged codec suite m presentedJson expectedResource transfer settleId rail)
    {r : Receipt} (h : (m.redeemBaseline codec suite presentedJson expectedResource transfer
      settleId now io rail wal).1 = .ok r) :
    ExactRetry codec suite m presentedJson expectedResource transfer settleId now rail stored := by
  rcases hterms : m.baselineTerms codec suite presentedJson expectedResource with e | t
  · rw [redeemBaseline_refused now io wal hterms] at h
    cases h
  · rw [redeemBaseline_of_terms now io wal hterms] at h
    have hq := (baselineTerms_eq_ok.1 hterms).1
    rw [hquote] at hq
    obtain rfl := Option.some.inj hq
    unfold redeemTerms at h
    rcases hpaid : t.paidBy transfer with _ | _
    · simp [hpaid] at h
    · simp only [hpaid, Bool.not_true, Bool.false_eq_true, if_false] at h
      rcases hsettle : rail.settle transfer settleId with ⟨e | paymentRef, after⟩
      · simp [hsettle] at h
      · rcases VirtualRail.settle_ok_cases hsettle with hanew | ⟨hid, rfl⟩
        · exact absurd ⟨t, hterms, hpaid, hanew⟩ hunmoved
        · rcases hconfirm : confirmBaseline t after paymentRef now with e | canonical
          · simp [hsettle, hconfirm] at h
          · simp only [hsettle, hconfirm, consumeNonce_consumed hconsumed] at h
            split_ifs at h with hpoisoned hsame
            · cases h
            · exact ⟨t, paymentRef, canonical, hterms, hpaid, hid, hconfirm, hsame⟩
            · cases h

/-- An exact retry gets the stored receipt, and nothing from a store that is poisoned. -/
theorem redeemBaseline_retry
    (hretry : ExactRetry codec suite m presentedJson expectedResource transfer settleId now rail
      stored)
    (hquote : Quote.parseVerify codec suite presentedJson m.key = some q)
    (hconsumed : wal.byNonce.lookup q.nonce = some (stored, receipt)) :
    (m.redeemBaseline codec suite presentedJson expectedResource transfer settleId now io rail
      wal).1 = if wal.poisoned then .error .storeUnavailable else .ok receipt := by
  obtain ⟨t, paymentRef, canonical, hterms, hpaid, hid, hconfirm, rfl⟩ := hretry
  obtain rfl : q = t.quote := by
    have := (baselineTerms_eq_ok.1 hterms).1
    rw [hquote] at this
    exact Option.some.inj this
  have hsettle : rail.settle transfer settleId = (.ok paymentRef, rail) := by
    unfold VirtualRail.settle
    rw [hid]
  rw [redeemBaseline_of_terms now io wal hterms]
  unfold redeemTerms
  simp only [hpaid, Bool.not_true, Bool.false_eq_true, if_false, hsettle, hconfirm,
    consumeNonce_consumed hconsumed]
  rcases wal.poisoned with _ | _ <;> rfl

end call

/-- On a consumed nonce a call leaves the rail as it is, answers an exact retry with the stored
receipt and refuses all else, just when the presented payment is not settled anew and no exact retry
meets a poisoned store. -/
theorem consumed_unmoved_iff (codec : TextCodec) (suite : Suite) (m : Merchant)
    (presentedJson expectedResource : String) (transfer : Transfer)
    (settleId : ByteArr 32) (now : ℕ) (io : AppendIo) (rail : VirtualRail) (wal : Wal ReceiptRest)
    (q : Quote) (stored : NonceRecord) (receipt : Receipt)
    (hquote : Quote.parseVerify codec suite presentedJson m.key = some q)
    (hconsumed : wal.byNonce.lookup q.nonce = some (stored, receipt)) :
    let called := m.redeemBaseline codec suite presentedJson expectedResource transfer settleId now
      io rail wal
    let retry :=
      ExactRetry codec suite m presentedJson expectedResource transfer settleId now rail stored
    called.2.1 = rail ∧ (retry → called.1 = .ok receipt) ∧ (¬ retry → ∃ e, called.1 = .error e) ↔
      ¬ Charged codec suite m presentedJson expectedResource transfer settleId rail ∧
        (retry → wal.poisoned = false) := by
  intro called retry
  rw [← redeemBaseline_unmoved_iff now io wal]
  constructor
  · rintro ⟨hunmoved, hanswer, -⟩
    refine ⟨hunmoved, fun hretry => ?_⟩
    have hres := hanswer hretry
    rw [show called.1 = _ from redeemBaseline_retry now io hretry hquote hconsumed] at hres
    rcases hpoisoned : wal.poisoned with _ | _
    · rfl
    · rw [hpoisoned] at hres
      cases hres
  · rintro ⟨hunmoved, hopen⟩
    refine ⟨hunmoved, fun hretry => ?_, fun hother => ?_⟩
    · rw [show called.1 = _ from redeemBaseline_retry now io hretry hquote hconsumed, hopen hretry]
      rfl
    · rcases hres : called.1 with e | r
      · exact ⟨e, rfl⟩
      · exact absurd (exactRetry_of_redeemed now io hquote hconsumed
          ((redeemBaseline_unmoved_iff now io wal).1 hunmoved) hres) hother

end Merchant

namespace Shop

open Merchant

theorem quote_reads :
    Quote.parseVerify (readerOf quote) keyedSuite (textOf quote) merchant.key = some quote :=
  signed_reads (quoteOf_typed (by decide))

theorem quote_terms : merchant.baselineTerms (readerOf quote) keyedSuite (textOf quote)
    "https://shop.example/song" = .ok terms := by
  refine Merchant.baselineTerms_eq_ok.2 ⟨quote_reads, by decide +kernel, rfl, rfl, rfl, rfl,
    by decide +kernel, rfl,
    ((quote.addressInputs merchant.key "usd" (some merchant.payout)).seedSplit keyedSuite).getD
      (.replicate 32 0), by decide +kernel, by decide +kernel⟩

/-- Redeem the quote with its payment under a settle id. -/
def redeem (settleId : ℕ) (rail : VirtualRail) (wal : MerchantStore.Wal ReceiptRest) :
    Except RedeemError Receipt × VirtualRail × MerchantStore.Wal ReceiptRest :=
  merchant.redeemBaseline (readerOf quote) keyedSuite (textOf quote) "https://shop.example/song"
    transfer (.ofNat 32 settleId) 1000 .good rail wal

/-- Why a call was refused. -/
def refusal {α : Type} : Except RedeemError α → Option RedeemError
  | .ok _ => none
  | .error e => some e

theorem redeem_eq (settleId : ℕ) (rail : VirtualRail) (wal : MerchantStore.Wal ReceiptRest) :
    redeem settleId rail wal = merchant.redeemTerms (readerOf quote) keyedSuite terms transfer
      (.ofNat 32 settleId) 1000 .good rail wal :=
  Merchant.redeemBaseline_of_terms _ _ _ quote_terms

/-- The quote redeemed once. -/
def redeemed : Except RedeemError Receipt × VirtualRail × Wal ReceiptRest :=
  redeem 1 start emptyWal

theorem redeemed_eq : redeemed =
    merchant.redeemTerms (readerOf quote) keyedSuite terms transfer (.ofNat 32 1) 1000 .good start
      emptyWal := redeem_eq 1 start emptyWal

theorem redeemed_settled : redeemed.2.1.settleIds.lookup (.ofNat 32 1) = some "virt-ref:0" := by
  rw [redeemed_eq]
  decide +kernel

theorem redeemed_consumed : (redeemed.2.2.byNonce.lookup quote.nonce).isSome = true := by
  rw [redeemed_eq]
  decide +kernel

theorem redeemed_open : redeemed.2.2.poisoned = false := by
  rw [redeemed_eq]
  decide +kernel

/-- The same payment presented again moves nothing, and gets the stored receipt or none. -/
theorem consumed_unmoved_iff_retry :
    ∃ stored receipt, redeemed.2.2.byNonce.lookup quote.nonce = some (stored, receipt) ∧
      (redeem 1 redeemed.2.1 redeemed.2.2).2.1 = redeemed.2.1 ∧
      ∀ r, (redeem 1 redeemed.2.1 redeemed.2.2).1 = .ok r → r = receipt := by
  obtain ⟨⟨stored, receipt⟩, hconsumed⟩ := Option.isSome_iff_exists.1 redeemed_consumed
  have hsettled : ¬ Charged (readerOf quote) keyedSuite merchant (textOf quote)
      "https://shop.example/song" transfer (.ofNat 32 1) redeemed.2.1 := by
    rintro ⟨t, -, -, hfresh, -⟩
    rw [redeemed_settled] at hfresh
    cases hfresh
  obtain ⟨hrail, hretry, hother⟩ := (consumed_unmoved_iff (readerOf quote) keyedSuite merchant
    (textOf quote) "https://shop.example/song" transfer (.ofNat 32 1) 1000 .good redeemed.2.1
    redeemed.2.2 quote stored receipt quote_reads hconsumed).2 ⟨hsettled, fun _ => redeemed_open⟩
  unfold redeem
  refine ⟨stored, receipt, hconsumed, hrail, fun r hr => ?_⟩
  by_cases hexact : ExactRetry (readerOf quote) keyedSuite merchant (textOf quote)
      "https://shop.example/song" transfer (.ofNat 32 1) 1000 redeemed.2.1 stored
  · rw [hretry hexact] at hr
    exact (Except.ok.inj hr).symm
  · obtain ⟨e, he⟩ := hother hexact
    rw [he] at hr
    cases hr

/-- The quote redeemed again with a payment of its own settle id is charged again, and refused. -/
theorem charged_again :
    redeemed.2.1.balance "merchant" = 99 ∧ (redeemed.2.2.byNonce.lookup quote.nonce).isSome = true ∧
      (redeem 2 redeemed.2.1 redeemed.2.2).2.1.balance "merchant" = 198 ∧
      refusal (redeem 2 redeemed.2.1 redeemed.2.2).1 = some .replayed := by
  rw [redeem_eq, redeemed_eq]
  decide +kernel

end Shop

end Paytp
