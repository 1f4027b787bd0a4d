import Paytp.Proofs.Redemptions
import Paytp.Proofs.RedemptionLogs
import Paytp.Wallet.Execute

/-!
# Payer and merchant execute the same offer

A wallet pays the one offer that mirrors the approved one, and a merchant judges a payment by the
first offer of its kind. Where these are the same offer of the quote, the merchant accepts the
quote that the wallet accepted and reads the same terms off it.
-/

namespace Paytp

open Kit

variable {codec : TextCodec} {suite : Suite} {idna : Host.Idna} {w : Wallet} {m : Merchant}
  {binding : Wallet.AcceptedBinding} {quoteJson resource : String} {q : Quote}

theorem addU64_eq_some {a b n : ℕ} : addU64 a b = some n ↔ a + b ≤ U64_MAX ∧ n = a + b := by
  unfold addU64
  split_ifs with h <;> simp [h, eq_comm]

/-- A party with the registry of the suite. -/
theorem Suite.under_self (suite : Suite) : suite.under suite.toRegistry = suite := rfl

namespace Wallet

theorem openQuote_ok (h : openQuote codec suite idna quoteJson binding resource = .ok q) :
    Quote.parseVerify codec suite quoteJson binding.merchantKey = some q ∧
      q.resource = resource := by
  unfold openQuote at h
  simp only [bind_eq_ok, okOr_eq_ok, require_eq_ok, pure_eq_ok, beq_iff_eq] at h
  obtain ⟨-, -, q', hq, -, hresource, rfl⟩ := h
  exact ⟨hq, hresource⟩

/-- What the payment of a split was made of. -/
structure Authorized (codec : TextCodec) (suite : Suite) (w : Wallet) (rail : EntryRail)
    (quoteJson : String) (accept : PaymentRequirements) (merchantKey : ByteArr 32)
    (resource : String) (q : Quote) (offer : Offer) (seed : ByteArr 32)
    (payment : BaselinePayment) : Prop where
  quote : Quote.parseVerify codec suite quoteJson merchantKey = some q
  resource_eq : q.resource = resource
  tier0 : q.validateTier0 (suite.under w.registry) = true
  mirrored : mirroredBaseline q.offers accept = some offer
  asset : offer.accept.memberStr "asset" = some payment.transfer.asset
  amount : baselineAmount offer.accept = some payment.transfer.amount
  feasible : baselineFeasible q offer rail = .ok ()
  approved : approved (w.policy.approveQuote q payment.transfer.amount payment.transfer.asset) =
    .ok ()
  seedSplit : (q.addressInputs merchantKey payment.transfer.asset offer.merchantNet).seedSplit
    suite = some seed
  payTo : offer.accept.memberStr "payTo" = some payment.transfer.dest
  dest : payment.transfer.dest = VirtualRail.deriveAddress seed
  memo : payment.transfer.memo = none

theorem payBaseline_ok {rail : EntryRail} {accept : PaymentRequirements} {settleId : ByteArr 32}
    {payment : BaselinePayment}
    (h : w.payBaseline codec suite idna rail quoteJson accept binding resource settleId =
      .ok payment) :
    payment.settleId = settleId ∧ ∃ q offer seed, Authorized codec suite w rail quoteJson accept
      binding.merchantKey resource q offer seed payment := by
  unfold payBaseline at h
  simp only [bind_eq_ok, okOr_eq_ok, require_eq_ok, pure_eq_ok, beq_iff_eq] at h
  obtain ⟨q, hq, -, htier0, -, -, offer, hoffer, asset, hasset, amount, hamount, ⟨⟩, hfeasible,
    ⟨⟩, happroved, net, hnet, seed, hseed, payTo, hpayTo, -, haddr, rfl⟩ := h
  obtain ⟨hparse, hresource⟩ := openQuote_ok hq
  refine ⟨rfl, q, offer, seed, hparse, hresource, htier0, hoffer, hasset, hamount, hfeasible,
    happroved, ?_, ?_, rfl, rfl⟩
  · rw [hnet]
    exact hseed
  · rw [hpayTo, haddr]

/-- The entry of the envelope that a mirror is one of has an amount in the shipped member. -/
theorem amount_of_mirrors {offer : Offer} {accept : PaymentRequirements} {n : ℕ}
    (hmirrors : offer.mirrors accept = true) (h : baselineAmount offer.accept = some n) :
    (offer.accept.memberStr "maxAmountRequired").bind (Jcs.parseUnsigned U128_MAX) = some n := by
  obtain ⟨r, hr, -⟩ := (Option.any_eq_true _ _).1 hmirrors
  unfold PaymentRequirements.fromStrict at hr
  simp only [Option.bind_eq_bind, Option.bind_eq_some_iff] at hr
  obtain ⟨-, -, -, -, amount, hamount, -⟩ := hr
  have hmember : (offer.accept.member "maxAmountRequired").isSome = true := by
    obtain ⟨v, hv, -⟩ := Option.bind_eq_some_iff.1 hamount
    rw [hv]
    rfl
  unfold baselineAmount at h
  rwa [if_pos hmember] at h

theorem mirroredBaseline_some {offers : List Offer} {accept : PaymentRequirements} {offer : Offer}
    (h : mirroredBaseline offers accept = some offer) :
    offer ∈ offers ∧ offer.twoLeg = none ∧ offer.mirrors accept = true := by
  unfold mirroredBaseline at h
  rcases hfilter : offers.filter fun o => o.twoLeg.isNone && o.mirrors accept
    with _ | ⟨o, _ | _⟩ <;>
    rw [hfilter] at h <;> cases h
  have hmem : offer ∈ offers.filter fun o => o.twoLeg.isNone && o.mirrors accept := by
    rw [hfilter]
    exact List.mem_singleton_self _
  simpa using hmem

/-- The merchant judges by the terms that were authorized, if they are those of the first offer. -/
theorem Authorized.terms {rail : EntryRail} {accept : PaymentRequirements} {offer : Offer}
    {seed : ByteArr 32} {payment : BaselinePayment}
    (h : Authorized codec suite w rail quoteJson accept m.key resource q offer seed payment)
    (hregistry : w.registry = suite.toRegistry)
    (hfirst : (q.offers.find? fun o => o.twoLeg.isNone) = some offer) :
    ∃ t, m.baselineTerms codec suite quoteJson resource = .ok t ∧ t.quote = q ∧ t.offer = offer ∧
      payment.transfer = ⟨t.payTo, t.asset, t.amount, none⟩ := by
  obtain ⟨-, -, hmirrors⟩ := mirroredBaseline_some h.mirrored
  have hvector : q.validateVectorGoverned suite = true := by
    have htier0 := h.tier0
    rw [hregistry, suite.under_self] at htier0
    simp only [Quote.validateTier0, Bool.and_eq_true] at htier0
    exact htier0.1.1
  obtain ⟨fin, hfin⟩ : ∃ fin, offer.finality = some fin := by
    have hfeasible := h.feasible
    unfold baselineFeasible at hfeasible
    simp only [bind_eq_ok, okOr_eq_ok] at hfeasible
    obtain ⟨fin, hfin, -⟩ := hfeasible
    exact ⟨fin, hfin⟩
  refine ⟨⟨q, offer, payment.transfer.dest, payment.transfer.asset, payment.transfer.amount, fin⟩,
    ?_, rfl, rfl, ?_⟩
  · exact Merchant.baselineTerms_eq_ok.2 ⟨h.quote, hvector, h.resource_eq, hfirst, h.payTo, h.asset,
      amount_of_mirrors hmirrors h.amount, hfin, seed, h.seedSplit, h.dest.symm⟩
  · rw [← h.memo]

/-- What a plan was made of. -/
structure Planned (codec : TextCodec) (suite : Suite) (w : Wallet) (rail : EntryRail)
    (quoteJson : String) (approvedOffer : Offer) (merchantKey : ByteArr 32) (resource : String)
    (q : Quote) (offer : Offer) (t : OfferTerms) (seed : ByteArr 32) (plan : TwoLegPlan) :
    Prop where
  quote : Quote.parseVerify codec suite quoteJson merchantKey = some q
  resource_eq : q.resource = resource
  vector : q.validateVectorGoverned (suite.under w.registry) = true
  merchantNet : q.validateBaselineMerchantNet suite = true
  mirrored : mirroredOffer q.offers approvedOffer = some offer
  terms : offerTerms offer = some t
  feasible : twoLegFeasible q t rail = .ok plan.tOpen
  approved : w.approveLegs q t = .ok ()
  seedInstance : (q.addressInputs merchantKey t.baselineAsset none).seedInstance suite = some seed
  tLapse : plan.tOpen + t.reclaim ≤ U64_MAX ∧ plan.tLapse = plan.tOpen + t.reclaim
  instanceAddress : plan.instanceAddress = VirtualRail.deriveAddress seed
  entryId : plan.entryId = suite.entryIdOf seed plan.entry
  nonce : plan.nonce = q.nonce
  meed : plan.baselineAsset = t.baselineAsset ∧ plan.meedAmount = t.meedAmount ∧
    plan.contest = t.contest
  net : plan.netTo = t.netTo ∧ plan.netAsset = t.netAsset ∧ plan.netAmount = t.netAmount
  finality : plan.finMeed = t.finMeed ∧ plan.finNet = t.finNet

theorem planTwoLeg_ok {rail : EntryRail} {approvedOffer : Offer} {refundPtr : String}
    {expectedIl : Option String} {plan : TwoLegPlan}
    (h : w.planTwoLeg codec suite idna rail quoteJson approvedOffer binding resource refundPtr
      expectedIl = .ok plan) :
    ∃ q offer t seed, Planned codec suite w rail quoteJson approvedOffer binding.merchantKey
      resource q offer t seed plan := by
  unfold planTwoLeg at h
  simp only [bind_eq_ok, okOr_eq_ok, require_eq_ok, pure_eq_ok] at h
  obtain ⟨q, hq, -, hvector, -, -, -, hnet, -, -, offer, hoffer, t, ht, tOpen, hfeasible,
    ⟨⟩, happroved, seed, hseed, tLapse, hlapse, rfl⟩ := h
  obtain ⟨hparse, hresource⟩ := openQuote_ok hq
  exact ⟨q, offer, t, seed, hparse, hresource, hvector, hnet, hoffer, ht, hfeasible, happroved,
    hseed, addU64_eq_some.1 hlapse, rfl, rfl, rfl, ⟨rfl, rfl, rfl⟩, ⟨rfl, rfl, rfl⟩, rfl, rfl⟩

theorem twoLegFeasible_ok {t : OfferTerms} {rail : EntryRail} {tOpen : ℕ}
    (h : twoLegFeasible q t rail = .ok tOpen) :
    t.reclaim ≠ 0 ∧ t.contest ≠ 0 ∧ q.exp + q.grace ≤ U64_MAX ∧ tOpen = q.exp + q.grace ∧
      finalityHeadroom rail.caps rail.rail.clock t.finMeed t.finNet tOpen = .ok () := by
  unfold twoLegFeasible at h
  simp only [bind_eq_ok, okOr_eq_ok, require_eq_ok, pure_eq_ok, addU64_eq_some, bne_iff_ne] at h
  obtain ⟨-, hreclaim, -, hcontest, tOpen', ⟨hfit, rfl⟩, -, -, -, -, ⟨⟩, hroom, rfl⟩ := h
  exact ⟨hreclaim, hcontest, hfit, rfl, hroom⟩

/-- An amount that the wallet reads, the merchant reads. -/
theorem netAmountOf_of_baselineAmount {accept : StrictValue} {n : ℕ}
    (h : baselineAmount accept = some n) : Merchant.netAmountOf accept = some n := by
  unfold baselineAmount at h
  unfold Merchant.netAmountOf
  split_ifs at h with hshipped
  · obtain ⟨s, hs, hn⟩ := Option.bind_eq_some_iff.1 h
    rw [hs]
    exact hn
  · have hnone : accept.memberStr "maxAmountRequired" = none := by
      rw [StrictValue.memberStr, Option.not_isSome_iff_eq_none.1 hshipped, Option.bind_none]
    rw [hnone]
    exact h

end Wallet

namespace Merchant

/-- The terms that a merchant judges by are those that a wallet planned. -/
structure TwoLegTerms.Matches (suite : Suite) (t : TwoLegTerms) (plan : TwoLegPlan) : Prop where
  instanceAddr : t.instanceAddr = plan.instanceAddress
  entry : t.entry = plan.entry
  entryId : t.entryId suite = plan.entryId
  nonce : t.quote.nonce = plan.nonce
  baselineAsset : t.baselineAsset = plan.baselineAsset
  net : t.netPayTo = plan.netTo ∧ t.netAsset = plan.netAsset ∧ t.netAmount = plan.netAmount
  finality : t.finMeed = plan.finMeed ∧ t.finNet = plan.finNet
  honorDeadline : t.quote.honorDeadline = plan.tOpen

/-- The terms are of the first offer in two legs. -/
theorem twoLegTerms_first {t : TwoLegTerms} (h : m.twoLegTerms suite q = .ok t) :
    (q.offers.find? fun o => o.twoLeg.isSome) = some t.offer := by
  unfold twoLegTerms at h
  simp only [bind_eq_ok, okOr_eq_ok, require_eq_ok, pure_eq_ok] at h
  obtain ⟨offer, hoffer, tl, -, payTo, -, asset, -, amount, -, basset, -, meed, -, reclaim, -,
    contest, -, fin, -, finMeed, -, finNet, -, seed, -, -, -, -, -, rfl⟩ := h
  exact hoffer

end Merchant

namespace Wallet

variable {rail : EntryRail} {approvedOffer offer : Offer} {t : OfferTerms} {seed : ByteArr 32}
  {plan : TwoLegPlan}

/-- The merchant is no stricter than the wallet about the quote. -/
theorem Planned.accepted (h : Planned codec suite w rail quoteJson approvedOffer m.key resource q
    offer t seed plan) (hregistry : w.registry = suite.toRegistry) :
    m.acceptTwoLeg codec suite quoteJson resource = .ok q := by
  have hvector := h.vector
  rw [hregistry, suite.under_self] at hvector
  unfold Merchant.acceptTwoLeg
  simp only [bind_eq_ok, okOr_eq_ok, require_eq_ok, pure_eq_ok, beq_iff_eq]
  exact ⟨q, h.quote, ⟨⟩, hvector, ⟨⟩, h.merchantNet, ⟨⟩, h.resource_eq, rfl⟩

/-- The merchant judges by the terms that were planned, if they are those of the first offer. -/
theorem Planned.terms_matched (h : Planned codec suite w rail quoteJson approvedOffer m.key resource
    q offer t seed plan) (hfirst : (q.offers.find? fun o => o.twoLeg.isSome) = some offer) :
    ∃ t', m.twoLegTerms suite q = .ok t' ∧ t'.quote = q ∧ t'.Matches suite plan := by
  obtain ⟨-, -, hfit, hopen, -⟩ := twoLegFeasible_ok h.feasible
  have hterms := h.terms
  unfold offerTerms at hterms
  simp only [Option.bind_eq_bind, Option.bind_eq_some_iff, Option.pure_def, Option.some.injEq]
    at hterms
  obtain ⟨tl, htl, netTo, hnetTo, netAsset, hnetAsset, netAmount, hnetAmount, baselineAsset,
    hbaseline, meedAmount, hmeed, reclaim, hreclaim, contest, hcontest, fin, hfin, finMeed,
    hfinMeed, finNet, hfinNet, rfl⟩ := hterms
  obtain ⟨hlapsefit, hlapse⟩ := h.tLapse
  obtain ⟨hasset, hamount, hcont⟩ := h.meed
  dsimp only at hlapsefit hlapse hasset hamount hcont
  rw [hopen] at hlapsefit
  refine ⟨{ quote := q, offer, netPayTo := netTo, netAsset, netAmount, baselineAsset
            entry := q.entryTerms meedAmount reclaim contest, finMeed, finNet, seed }, ?_, rfl, ?_⟩
  · unfold Merchant.twoLegTerms
    simp only [bind_eq_ok, okOr_eq_ok, require_eq_ok, pure_eq_ok, decide_eq_true_eq]
    exact ⟨offer, hfirst, tl, htl, netTo, hnetTo, netAsset, hnetAsset, netAmount,
      netAmountOf_of_baselineAmount hnetAmount, baselineAsset, hbaseline, meedAmount,
      Option.bind_eq_some_iff.2 hmeed, reclaim, Option.bind_eq_some_iff.2 hreclaim, contest,
      Option.bind_eq_some_iff.2 hcontest, fin, hfin, finMeed, hfinMeed, finNet, hfinNet, seed,
      h.seedInstance, ⟨⟩, hfit, ⟨⟩, hlapsefit, rfl⟩
  · have hentry : q.entryTerms meedAmount reclaim contest = plan.entry := by
      unfold Quote.entryTerms TwoLegPlan.entry
      rw [h.nonce, hamount, hcont, hlapse, hopen]
    refine ⟨h.instanceAddress.symm, hentry, ?_, h.nonce.symm, hasset.symm, ?_, ?_, ?_⟩
    · rw [h.entryId, ← hentry]
      rfl
    · exact ⟨h.net.1.symm, h.net.2.1.symm, h.net.2.2.symm⟩
    · exact ⟨h.finality.1.symm, h.finality.2.symm⟩
    · rw [hopen]
      exact min_eq_right hfit

/-- A wallet and a merchant with one registry execute the same offer of a quote, if the one that
the payer approved is the first of its kind: what the wallet authorizes pays the terms that the
merchant reads off the quote, and what it plans in two legs has the terms that the merchant judges
by. -/
theorem same_offer (hregistry : w.registry = suite.toRegistry)
    (hkey : binding.merchantKey = m.key)
    (hq : Quote.parseVerify codec suite quoteJson m.key = some q) :
    (∀ rail accept settleId payment,
      w.payBaseline codec suite idna rail quoteJson accept binding resource settleId = .ok payment →
      (q.offers.find? fun o => o.twoLeg.isNone) = mirroredBaseline q.offers accept →
      ∃ t, m.baselineTerms codec suite quoteJson resource = .ok t ∧ t.quote = q ∧
        mirroredBaseline q.offers accept = some t.offer ∧
        payment.transfer = ⟨t.payTo, t.asset, t.amount, none⟩ ∧ t.paidBy payment.transfer = true) ∧
    (∀ rail approvedOffer refundPtr expectedIl plan,
      w.planTwoLeg codec suite idna rail quoteJson approvedOffer binding resource refundPtr
        expectedIl = .ok plan →
      (q.offers.find? fun o => o.twoLeg.isSome) = mirroredOffer q.offers approvedOffer →
      m.acceptTwoLeg codec suite quoteJson resource = .ok q ∧
      ∃ t, m.twoLegTerms suite q = .ok t ∧ t.quote = q ∧
        mirroredOffer q.offers approvedOffer = some t.offer ∧ t.Matches suite plan) := by
  constructor
  · intro rail accept settleId payment hpay hfirst
    obtain ⟨-, q', offer, seed, hauth⟩ := payBaseline_ok hpay
    rw [hkey] at hauth
    obtain rfl : q' = q := Option.some.inj (hauth.quote.symm.trans hq)
    obtain ⟨t, ht, hquote, rfl, htransfer⟩ :=
      hauth.terms hregistry (hfirst.trans hauth.mirrored)
    refine ⟨t, ht, hquote, hauth.mirrored, htransfer, ?_⟩
    rw [htransfer]
    simp [Merchant.BaselineTerms.paidBy]
  · intro rail approvedOffer refundPtr expectedIl plan hplan hfirst
    obtain ⟨q', offer, t, seed, hplanned⟩ := planTwoLeg_ok hplan
    rw [hkey] at hplanned
    obtain rfl : q' = q := Option.some.inj (hplanned.quote.symm.trans hq)
    have hoffer := hfirst.trans hplanned.mirrored
    obtain ⟨t', ht', hquote, hmatches⟩ := hplanned.terms_matched hoffer
    refine ⟨hplanned.accepted hregistry, t', ht', hquote, ?_, hmatches⟩
    exact hfirst.symm.trans (Merchant.twoLegTerms_first ht')

end Wallet

namespace Shop

/-- A converter of names that are ASCII already. -/
def asciiIdna : Host.Idna where
  domainToAscii := some
  domainToAsciiStrict := some

/-- The origin of the shop. -/
def origin : Wallet.AcceptedBinding where
  merchantKey := merchant.key
  host := "shop.example"
  encKey := .ofNat 32 5

/-- A wallet with a budget that asserts no destination of its own. -/
def purse : Wallet where
  policy := (Wallet.StaticPolicy.new "usd" 1000).policy
  registry := keyedSuite.toRegistry
  meedDest := none

/-- The entry of the envelope that the quote's offer mirrors. -/
def entryReqs : PaymentRequirements where
  scheme := "exact"
  network := "base"
  maxAmountRequired := "100"
  asset := "usd"
  payTo := splitAddress
  resource := "https://shop.example/song"
  description := ""
  mimeType := "application/json"
  maxTimeoutSeconds := 60
  extra := none

/-- A rail whose transfers are final after two minutes. -/
def newRail : EntryRail := .new 120 ["usd"] 5

/-- The inputs of a quote in two legs. -/
def twoLegParams : TwoLegParams where
  resource := "https://shop.example/song"
  nonce := .ofNat 32 2
  exp := 1000000300
  idem := [8]
  registryVersion := 1
  netNetwork := "base"
  netAsset := "usd"
  netAmount := 500
  baselineNetwork := "eip155:8453"
  baselineAsset := "usd"
  meedAmount := 5
  rate := "1"
  rateSource := "fixed"
  reclaim := 600
  contest := 60
  grace := 300
  retry := 600
  finMeed := "final"
  finNet := "final"
  vector

/-- A quote that prices the resource in two legs. -/
def twoLegQuote : Quote := signed (merchant.twoLegQuote twoLegParams)

theorem host_matches :
    Wallet.requireBindingHostMatchesResource asciiIdna origin "https://shop.example/song" =
    .ok () := by
  decide +kernel

/-- The wallet opens what it reads of the shop. -/
theorem opens {codec : TextCodec} {text : String} {q : Quote}
    (h : Quote.parseVerify codec keyedSuite text merchant.key = some q)
    (hresource : q.resource = "https://shop.example/song") :
    Wallet.openQuote codec keyedSuite asciiIdna text origin "https://shop.example/song" =
    .ok q := by
  unfold Wallet.openQuote
  simp only [bind_eq_ok, okOr_eq_ok, require_eq_ok, pure_eq_ok, beq_iff_eq]
  exact ⟨⟨⟩, host_matches, q, h, ⟨⟩, hresource, rfl⟩

/-- The wallet pays the quote. -/
theorem quote_paid : purse.payBaseline (readerOf quote) keyedSuite asciiIdna newRail (textOf quote)
    entryReqs origin "https://shop.example/song" (.ofNat 32 1) = .ok ⟨transfer, .ofNat 32 1⟩ := by
  unfold Wallet.payBaseline
  simp only [bind_eq_ok, okOr_eq_ok, require_eq_ok, pure_eq_ok, beq_iff_eq]
  exact ⟨quote, opens quote_reads rfl, ⟨⟩, by decide +kernel, ⟨⟩, by decide +kernel, offerOf 100,
    Wallet.mirroredBaseline_singleton rfl (by decide +kernel), "usd", by decide +kernel, 100,
    by decide +kernel, ⟨⟩, by decide +kernel, ⟨⟩, by decide +kernel, merchant.payout, rfl,
    ((quote.addressInputs merchant.key "usd" (some merchant.payout)).seedSplit keyedSuite).getD
      (.replicate 32 0), by decide +kernel, splitAddress, by decide +kernel, ⟨⟩, by decide +kernel,
    by decide +kernel⟩

theorem twoLegQuote_reads :
    Quote.parseVerify (readerOf twoLegQuote) keyedSuite (textOf twoLegQuote) merchant.key =
      some twoLegQuote := by
  refine signed_reads ⟨rfl, ?_, ?_, ?_, ?_, ?_, ?_, ?_, ?_⟩ <;> decide

/-- The seed of the instance that the quote derives. -/
def instanceSeed : ByteArr 32 :=
  ((twoLegQuote.addressInputs merchant.key "usd" none).seedInstance keyedSuite).getD
    (.replicate 32 0)

/-- What the payer plans. -/
def plan : TwoLegPlan where
  instanceAddress := VirtualRail.deriveAddress instanceSeed
  entryId := keyedSuite.entryIdPurchase instanceSeed (.ofNat 32 2) 5 1000000600 1000001200 60
  nonce := .ofNat 32 2
  tOpen := 1000000600
  tLapse := 1000001200
  baselineAsset := "usd"
  meedAmount := 5
  contest := 60
  refundPtr := "payer"
  netTo := merchant.payout
  netAsset := "usd"
  netAmount := 500
  finMeed := "final"
  finNet := "final"

/-- The wallet plans the two legs. -/
theorem twoLegQuote_planned : purse.planTwoLeg (readerOf twoLegQuote) keyedSuite asciiIdna newRail
    (textOf twoLegQuote) (twoLegOffer twoLegParams merchant.payout) origin
    "https://shop.example/song" "payer" none = .ok plan := by
  unfold Wallet.planTwoLeg
  simp only [bind_eq_ok, okOr_eq_ok, require_eq_ok, pure_eq_ok]
  exact ⟨twoLegQuote, opens twoLegQuote_reads rfl, ⟨⟩, by decide +kernel, ⟨⟩, by decide +kernel, ⟨⟩,
    by decide +kernel, ⟨⟩, by decide +kernel, twoLegOffer twoLegParams merchant.payout,
    Wallet.mirroredOffer_singleton rfl,
    ⟨merchant.payout, "usd", 500, "usd", 5, 600, 60, "final", "final"⟩, by decide +kernel,
    1000000600, by decide +kernel, ⟨⟩, by decide +kernel, instanceSeed, by decide +kernel,
    1000001200, by decide +kernel, by decide +kernel⟩

/-- The shop judges both payments by what the purse was shown. -/
theorem same_offer_shop :
    (∃ t, merchant.baselineTerms (readerOf quote) keyedSuite (textOf quote)
      "https://shop.example/song" = .ok t ∧ t.paidBy transfer = true) ∧
    ∃ t, merchant.twoLegTerms keyedSuite twoLegQuote = .ok t ∧ t.Matches keyedSuite plan := by
  obtain ⟨hpaid, -⟩ := @Wallet.same_offer (readerOf quote) keyedSuite asciiIdna purse merchant
    origin (textOf quote) "https://shop.example/song" quote rfl rfl quote_reads
  obtain ⟨-, hplanned⟩ := @Wallet.same_offer (readerOf twoLegQuote) keyedSuite asciiIdna purse
    merchant origin (textOf twoLegQuote) "https://shop.example/song" twoLegQuote rfl rfl
    twoLegQuote_reads
  have hbaseline : Wallet.mirroredBaseline quote.offers entryReqs = some (offerOf 100) :=
    Wallet.mirroredBaseline_singleton rfl (by decide +kernel)
  have htwoLeg : Wallet.mirroredOffer twoLegQuote.offers
      (twoLegOffer twoLegParams merchant.payout) =
      some (twoLegOffer twoLegParams merchant.payout) := Wallet.mirroredOffer_singleton rfl
  obtain ⟨t, ht, -, -, -, hpays⟩ := hpaid _ _ _ _ quote_paid hbaseline.symm
  obtain ⟨-, t', ht', -, -, hmatches⟩ := hplanned _ _ _ _ _ twoLegQuote_planned htwoLeg.symm
  exact ⟨⟨t, ht, hpays⟩, t', ht', hmatches⟩

end Shop

end Paytp
