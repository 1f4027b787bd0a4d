import Paytp.Baseline
import Paytp.Proofs.SameOffer
import Paytp.TwoLeg

/-!
# Quotes that a merchant builds

A quote that is built is accepted by the payer's checks and read back by the merchant: it mirrors
the envelope's entry that was built with it, and its terms are the parameters that it was built
from.
-/

namespace Paytp

open MerchantStore

/-- A chain is read back from the name that it has in envelopes. -/
theorem x402ToCaip2_of_caip2ToX402 {caip2 name : String} (h : caip2ToX402 caip2 = some name) :
    x402ToCaip2 name = some caip2 := by
  unfold caip2ToX402 at h
  obtain ⟨⟨name', caip2'⟩, hfind, rfl⟩ := Option.map_eq_some_iff.1 h
  have heq : caip2' = caip2 := by simpa using List.find?_some hfind
  have htable : ∀ p ∈ X402_NETWORKS, x402ToCaip2 p.1 = some p.2 := by decide
  rw [htable _ (List.mem_of_find?_eq_some hfind), heq]

namespace PaymentRequirements

/-- An entry is read back from its mirror. -/
theorem fromStrict_toStrict {r : PaymentRequirements} (h : r.maxTimeoutSeconds ≤ U64_MAX) :
    fromStrict r.toStrict = some r := by
  obtain ⟨scheme, network, amount, asset, payTo, resource, description, mimeType, timeout, extra⟩ :=
    r
  have htimeout : Jcs.parseCanonical U64_MAX timeout.repr = some timeout :=
    Jcs.parseCanonical_repr h
  cases extra <;>
    simp [fromStrict, toStrict, extraOf, timeoutOf, StrictValue.memberStr, StrictValue.member,
      StrictValue.asStr, htimeout]

theorem same_self (r : PaymentRequirements) : r.same r = true := by
  simp [same]

/-- An offer made of an entry's mirror mirrors that entry. -/
theorem mirrors_of_accept {r : PaymentRequirements} {o : Offer} (haccept : o.accept = r.toStrict)
    (h : r.maxTimeoutSeconds ≤ U64_MAX) : o.mirrors r = true := by
  unfold Offer.mirrors
  rw [haccept, fromStrict_toStrict h]
  exact r.same_self

end PaymentRequirements

theorem Jcs.parseUnsigned_repr {max n : ℕ} (h : n ≤ max) :
    Jcs.parseUnsigned max n.repr = some n := by
  have hcanonical := Jcs.parseCanonical_repr h
  unfold Jcs.parseCanonical at hcanonical
  rwa [Jcs.validateUintString_repr, if_pos rfl] at hcanonical

theorem Wallet.mirroredOffer_mem {offers : List Offer} {approved offer : Offer}
    (h : mirroredOffer offers approved = some offer) : offer ∈ offers := by
  unfold mirroredOffer at h
  rcases hfilter : offers.filter fun o => o.twoLeg.isSome && offerMirrors o approved
    with _ | ⟨o, _ | _⟩ <;>
    rw [hfilter] at h <;> cases h
  exact List.mem_of_mem_filter (hfilter ▸ List.mem_singleton_self offer)

/-- The numbers of a quote in two legs are in their domains. -/
structure TwoLegParams.Typed (p : TwoLegParams) : Prop where
  net_le : p.netAmount ≤ U128_MAX
  meed_le : p.meedAmount ≤ U128_MAX
  reclaim_le : p.reclaim ≤ MAX_TIME
  contest_le : p.contest ≤ MAX_TIME

namespace Merchant

variable {codec : TextCodec} {suite : Suite} {m : Merchant}

/-! ## Baseline quotes -/

section Baseline

variable {rail : HostedRail} {p : BaselineParams} {built : BaselineQuote × HostedRail}

/-- What a baseline quote was made of. -/
structure BuiltBaseline (codec : TextCodec) (suite : Suite) (m : Merchant) (p : BaselineParams)
    (built : BaselineQuote × HostedRail) (seed : ByteArr 32) (network : String) : Prop where
  seedSplit : ((baselineQuote p []).addressInputs m.key p.asset (some m.payout)).seedSplit suite =
    some seed
  deployed : (built.2.rail.splits.lookup built.1.splitAddress).isSome = true
  splitAddress : built.1.splitAddress = VirtualRail.deriveAddress seed
  named : caip2ToX402 p.baselineNetwork = some network
  acceptReqs : built.1.acceptReqs = baselineRequirements p network built.1.splitAddress
  quote : built.1.quote = (baselineQuote p [baselineOffer p m.payout built.1.acceptReqs]).sign codec
    suite m.signingKey

theorem buildBaselineQuote_some (h : m.buildBaselineQuote codec suite rail p = some built) :
    ∃ seed network, BuiltBaseline codec suite m p built seed network := by
  unfold buildBaselineQuote at h
  simp only [Option.bind_eq_bind, Option.bind_eq_some_iff, Option.pure_def, Option.some.injEq] at h
  obtain ⟨seed, hseed, ⟨addr, rail'⟩, hdeploy, network, hnetwork, rfl⟩ := h
  have hdeploy := toOption_eq_some.1 hdeploy
  unfold HostedRail.deploySplit at hdeploy
  simp only [bind_eq_ok, okOr_eq_ok, require_eq_ok, pure_eq_ok, Prod.mk.injEq] at hdeploy
  obtain ⟨-, -, -, -, recipients, -, rfl, rfl⟩ := hdeploy
  refine ⟨seed, network, hseed, ?_, rfl, hnetwork, rfl, rfl⟩
  unfold VirtualRail.deploySplit
  rw [HashMap.lookup_orInsert, if_pos rfl]
  rfl

/-- The offer of a baseline quote reads as its parameters. -/
theorem baselineOffer_reads (network addr : String) (hamount : p.amount ≤ U128_MAX) :
    let accept := (baselineRequirements p network addr).toStrict
    accept.memberStr "payTo" = some addr ∧ accept.memberStr "asset" = some p.asset ∧
      accept.memberStr "resource" = some p.resource ∧
      accept.memberStr "network" = some network ∧
      (accept.memberStr "maxAmountRequired").bind (Jcs.parseUnsigned U128_MAX) = some p.amount := by
  have hread : Jcs.parseUnsigned U128_MAX p.amount.repr = some p.amount :=
    Jcs.parseUnsigned_repr hamount
  simp [PaymentRequirements.toStrict, baselineRequirements, StrictValue.memberStr,
    StrictValue.member, StrictValue.asStr, hread]

/-- The entry that is built with a quote is the one that its offer mirrors. -/
theorem built_mirrors (h : m.buildBaselineQuote codec suite rail p = some built)
    (htimeout : p.maxTimeoutSeconds ≤ U64_MAX) :
    (baselineOffer p m.payout built.1.acceptReqs).mirrors built.1.acceptReqs = true := by
  obtain ⟨seed, network, hbuilt⟩ := buildBaselineQuote_some h
  refine PaymentRequirements.mirrors_of_accept rfl ?_
  rw [hbuilt.acceptReqs]
  exact htimeout

/-- The client of a quote that is built may execute its entry, wherever that is in the envelope. -/
theorem built_executable (h : m.buildBaselineQuote codec suite rail p = some built)
    (htimeout : p.maxTimeoutSeconds ≤ U64_MAX) {accepts : List PaymentRequirements} {i : ℕ}
    (hi : accepts[i]? = some built.1.acceptReqs) :
    (i, baselineOffer p m.payout built.1.acceptReqs) ∈
      paytpMirroredAccepts accepts built.1.quote := by
  obtain ⟨seed, network, hbuilt⟩ := buildBaselineQuote_some h
  have hoffers : built.1.quote.offers = [baselineOffer p m.payout built.1.acceptReqs] := by
    rw [hbuilt.quote]
    rfl
  unfold paytpMirroredAccepts
  rw [List.mem_filterMap]
  refine ⟨(built.1.acceptReqs, i), List.mem_zipIdx_iff_getElem?.2 hi, ?_⟩
  rw [hoffers]
  simp only [List.find?_cons, built_mirrors h htimeout, Option.map_some]

/-- A quote that is built passes the payer's checks, if its vector and the merchant's payout do. -/
theorem built_validateTier0 (h : m.buildBaselineQuote codec suite rail p = some built)
    (hamount : p.amount ≤ U128_MAX) :
    built.1.quote.validateTier0 suite = true ↔
      (baselineQuote p []).validateVectorGoverned suite = true ∧
        suite.validateText m.payout = true := by
  obtain ⟨seed, network, hbuilt⟩ := buildBaselineQuote_some h
  obtain ⟨-, -, hresource, hnetwork, -⟩ :=
    baselineOffer_reads network built.1.splitAddress hamount
  rw [hbuilt.quote, hbuilt.acceptReqs]
  simp [Quote.validateTier0, Quote.validateVectorGoverned, Quote.validateOfferNetworks,
    Quote.validateBaselineMerchantNet, Quote.sign, baselineQuote, baselineOffer, hresource,
    hnetwork, x402ToCaip2_of_caip2ToX402 hbuilt.named, and_assoc]

section Read

variable {json : String} (hb64 : ∀ bytes, codec.b64Decode (codec.b64 bytes) = some bytes)
  (hsigns : suite.Signs) (hkey : suite.ed25519Public m.signingKey = m.key)
  (htyped : (baselineQuote p []).Typed)
include hb64 hsigns hkey htyped

/-- A quote that is built reads back as itself under the merchant's key. -/
theorem built_parseVerify (h : m.buildBaselineQuote codec suite rail p = some built)
    (hread : codec.parseStrict json = some (Quote.toValue codec built.1.quote true)) :
    Quote.parseVerify codec suite json m.key = some built.1.quote := by
  obtain ⟨seed, network, hbuilt⟩ := buildBaselineQuote_some h
  have htyped' : (baselineQuote p [baselineOffer p m.payout built.1.acceptReqs]).Typed :=
    ⟨htyped.version, htyped.exp_le, htyped.grace_le, htyped.retry_le, htyped.schema_le,
      htyped.contract_le, htyped.registry_le, htyped.idem_ne, htyped.idem_short⟩
  rw [hbuilt.quote] at hread ⊢
  rw [← hkey]
  exact Quote.parseVerify_sign hb64 hsigns htyped' m.signingKey hread

/-- The merchant judges payments of a quote that it built by the parameters of the quote. -/
theorem built_baselineTerms (h : m.buildBaselineQuote codec suite rail p = some built)
    (hread : codec.parseStrict json = some (Quote.toValue codec built.1.quote true))
    (hamount : p.amount ≤ U128_MAX)
    (hvector : (baselineQuote p []).validateVectorGoverned suite = true) :
    m.baselineTerms codec suite json p.resource =
      .ok { quote := built.1.quote
            offer := baselineOffer p m.payout built.1.acceptReqs
            payTo := built.1.splitAddress
            asset := p.asset
            amount := p.amount
            requiredFinality := p.finality } := by
  have hparse := built_parseVerify hb64 hsigns hkey htyped h hread
  obtain ⟨seed, network, hbuilt⟩ := buildBaselineQuote_some h
  obtain ⟨hpayTo, hasset, -, -, hprice⟩ :=
    baselineOffer_reads network built.1.splitAddress hamount
  have hquote := hbuilt.quote
  refine baselineTerms_eq_ok.2 ⟨hparse, ?_, ?_, ?_, ?_, ?_, ?_, rfl, seed, ?_, ?_⟩
  · rw [hquote]
    exact hvector
  · rw [hquote]
    rfl
  · rw [hquote]
    rfl
  · rw [hbuilt.acceptReqs]
    exact hpayTo
  · rw [hbuilt.acceptReqs]
    exact hasset
  · rw [hbuilt.acceptReqs]
    exact hprice
  · rw [hquote]
    exact hbuilt.seedSplit
  · exact hbuilt.splitAddress.symm

/-- What a wallet pays for a quote that is built is what the merchant asked for it, to a split that
was deployed with it. -/
theorem built_paid (h : m.buildBaselineQuote codec suite rail p = some built)
    (hread : codec.parseStrict json = some (Quote.toValue codec built.1.quote true))
    (hamount : p.amount ≤ U128_MAX) {idna : Host.Idna} {w : Wallet} {payerRail : EntryRail}
    {accept : PaymentRequirements} {binding : Wallet.AcceptedBinding} {resource : String}
    {settleId : ByteArr 32} {payment : BaselinePayment} (hbinding : binding.merchantKey = m.key)
    (hpay : w.payBaseline codec suite idna payerRail json accept binding resource settleId =
      .ok payment) :
    payment.transfer =
        { dest := built.1.splitAddress, asset := p.asset, amount := p.amount, memo := none } ∧
      (built.2.rail.splits.lookup payment.transfer.dest).isSome = true := by
  have hparse := built_parseVerify hb64 hsigns hkey htyped h hread
  obtain ⟨seed, network, hbuilt⟩ := buildBaselineQuote_some h
  obtain ⟨-, q, offer, seed', hauth⟩ := Wallet.payBaseline_ok hpay
  obtain ⟨hpayTo, hasset, -, -, hprice⟩ :=
    baselineOffer_reads network built.1.splitAddress hamount
  have hq : q = built.1.quote := by
    have hparse' := hauth.quote
    rw [hbinding, hparse] at hparse'
    exact (Option.some.inj hparse').symm
  obtain ⟨hmem, -, hmirrors⟩ := Wallet.mirroredBaseline_some hauth.mirrored
  have hoffer : offer = baselineOffer p m.payout built.1.acceptReqs := by
    rw [hq, hbuilt.quote] at hmem
    exact List.mem_singleton.1 hmem
  have hpaid := Wallet.amount_of_mirrors hmirrors hauth.amount
  have hdest := hauth.payTo
  have hpaidIn := hauth.asset
  subst hoffer
  unfold baselineOffer at hpaid hdest hpaidIn
  rw [hbuilt.acceptReqs] at hpaid hdest hpaidIn
  rw [hpayTo] at hdest
  rw [hasset] at hpaidIn
  rw [hprice] at hpaid
  have hmemo := hauth.memo
  obtain ⟨⟨dest, asset, amount, memo⟩, settleId⟩ := payment
  cases hdest
  cases hpaidIn
  cases hpaid
  cases hmemo
  exact ⟨rfl, hbuilt.deployed⟩

end Read

end Baseline

/-! ## Quotes in two legs -/

section TwoLeg

variable {rail : EntryRail} {p : TwoLegParams} {built : TwoLegQuote × EntryRail}

/-- What a quote in two legs was made of. -/
structure BuiltTwoLeg (codec : TextCodec) (suite : Suite) (m : Merchant) (p : TwoLegParams)
    (built : TwoLegQuote) (seed : ByteArr 32) : Prop where
  quote : built.quote = (m.twoLegQuote p).sign codec suite m.signingKey
  offer : built.offer = twoLegOffer p m.payout
  seedInstance : ((m.twoLegQuote p).addressInputs m.key p.baselineAsset none).seedInstance suite =
    some seed
  instanceAddress : built.instanceAddress = VirtualRail.deriveAddress seed
  tOpen : built.tOpen = min U64_MAX (p.exp + p.grace)
  tLapse : built.tLapse = min U64_MAX (built.tOpen + p.reclaim)
  entryId : built.entryId =
    suite.entryIdOf seed ⟨p.nonce, p.meedAmount, built.tOpen, built.tLapse, p.contest⟩

theorem buildTwoLegQuote_some (h : m.buildTwoLegQuote codec suite rail p = some built) :
    ∃ seed, BuiltTwoLeg codec suite m p built.1 seed := by
  unfold buildTwoLegQuote at h
  simp only [Option.bind_eq_bind, Option.bind_eq_some_iff, Option.pure_def, Option.some.injEq] at h
  obtain ⟨seed, hseed, ⟨addr, hosted⟩, hdeploy, rfl⟩ := h
  have hdeploy := toOption_eq_some.1 hdeploy
  refine ⟨seed, rfl, rfl, hseed, ?_, rfl, rfl, rfl⟩
  unfold HostedRail.deployInstance at hdeploy
  simp only [bind_eq_ok, okOr_eq_ok, require_eq_ok, pure_eq_ok, Prod.mk.injEq] at hdeploy
  obtain ⟨-, -, -, -, rfl, -⟩ := hdeploy
  rfl

/-- The offer in two legs reads as its parameters. -/
theorem offerTerms_twoLegOffer (h : p.Typed) (payout : String) :
    Wallet.offerTerms (twoLegOffer p payout) = some
      { netTo := payout, netAsset := p.netAsset, netAmount := p.netAmount
        baselineAsset := p.baselineAsset, meedAmount := p.meedAmount, reclaim := p.reclaim
        contest := p.contest, finMeed := p.finMeed, finNet := p.finNet } := by
  simp [Wallet.offerTerms, twoLegOffer, baselineAmount, StrictValue.memberStr,
    StrictValue.member, StrictValue.asStr, Jcs.parseUnsigned_repr h.net_le,
    Jcs.parseCanonical_repr h.meed_le, Jcs.parseCanonical_repr h.reclaim_le,
    Jcs.parseCanonical_repr h.contest_le]

/-- The merchant judges a quote in two legs that it built by the entry and the instance that were
derived with it. -/
theorem built_twoLegTerms (h : m.buildTwoLegQuote codec suite rail p = some built)
    (hquote : (m.twoLegQuote p).Typed) (hterms : p.Typed) :
    ∃ t, m.twoLegTerms suite built.1.quote = .ok t ∧ t.offer = built.1.offer ∧
      t.instanceAddr = built.1.instanceAddress ∧ t.entryId suite = built.1.entryId ∧
      t.entry = ⟨p.nonce, p.meedAmount, built.1.tOpen, built.1.tLapse, p.contest⟩ ∧
      t.netPayTo = m.payout ∧ t.netAsset = p.netAsset ∧ t.netAmount = p.netAmount ∧
      t.finMeed = p.finMeed ∧ t.finNet = p.finNet := by
  obtain ⟨seed, hbuilt⟩ := buildTwoLegQuote_some h
  have hbounds : p.exp + p.grace + p.reclaim ≤ U64_MAX := by
    have hexp : p.exp ≤ MAX_TIME := hquote.exp_le
    have hgrace : p.grace ≤ MAX_TIME := hquote.grace_le
    have hreclaim := hterms.reclaim_le
    unfold MAX_TIME at hexp hgrace hreclaim
    unfold U64_MAX
    omega
  have hopen : p.exp + p.grace = built.1.tOpen := by
    rw [hbuilt.tOpen]
    omega
  have hlapse : p.exp + p.grace + p.reclaim = built.1.tLapse := by
    rw [hbuilt.tLapse, ← hopen]
    omega
  have hentry : (m.twoLegQuote p).entryTerms p.meedAmount p.reclaim p.contest =
      ⟨p.nonce, p.meedAmount, built.1.tOpen, built.1.tLapse, p.contest⟩ := by
    rw [← hopen, ← hlapse]
    rfl
  have hoffer := offerTerms_twoLegOffer hterms m.payout
  unfold Wallet.offerTerms at hoffer
  simp only [Option.bind_eq_bind, Option.bind_eq_some_iff, Option.pure_def, Option.some.injEq,
    Wallet.OfferTerms.mk.injEq] at hoffer
  obtain ⟨tl, htl, netTo, hnetTo, netAsset, hnetAsset, netAmount, hnetAmount, baselineAsset,
    hbaseline, meedAmount, hmeed, reclaim, hreclaim, contest, hcontest, fin, hfin, finMeed,
    hfinMeed, finNet, hfinNet, rfl, rfl, rfl, rfl, rfl, rfl, rfl, rfl, rfl⟩ := hoffer
  refine ⟨{ quote := built.1.quote, offer := twoLegOffer p m.payout, netPayTo := m.payout
            netAsset := p.netAsset, netAmount := p.netAmount, baselineAsset := p.baselineAsset
            entry := (m.twoLegQuote p).entryTerms p.meedAmount p.reclaim p.contest
            finMeed := p.finMeed, finNet := p.finNet, seed }, ?_, hbuilt.offer.symm,
    hbuilt.instanceAddress.symm, ?_, hentry, rfl, rfl, rfl, rfl, rfl⟩
  · rw [hbuilt.quote]
    unfold Merchant.twoLegTerms
    simp only [bind_eq_ok, okOr_eq_ok, require_eq_ok, pure_eq_ok, decide_eq_true_eq]
    exact ⟨_, rfl, tl, htl, _, hnetTo, _, hnetAsset, _,
      Wallet.netAmountOf_of_baselineAmount hnetAmount, _, hbaseline, _,
      Option.bind_eq_some_iff.2 hmeed, _, Option.bind_eq_some_iff.2 hreclaim, _,
      Option.bind_eq_some_iff.2 hcontest, fin, hfin, _, hfinMeed, _, hfinNet, seed,
      hbuilt.seedInstance, ⟨⟩, (Nat.le_add_right _ _).trans hbounds, ⟨⟩, hbounds, rfl⟩
  · rw [hbuilt.entryId, ← hentry]
    rfl

section Read

variable {json : String} (hb64 : ∀ bytes, codec.b64Decode (codec.b64 bytes) = some bytes)
  (hsigns : suite.Signs) (hkey : suite.ed25519Public m.signingKey = m.key)
  (hquote : (m.twoLegQuote p).Typed) (hterms : p.Typed)
include hb64 hsigns hkey hquote hterms

/-- A wallet that plans the legs of a quote that is built funds the entry that was derived with it,
in the instance that was deployed, and pays the merchant the net amount. -/
theorem built_planned (h : m.buildTwoLegQuote codec suite rail p = some built)
    (hread : codec.parseStrict json = some (Quote.toValue codec built.1.quote true))
    {idna : Host.Idna} {w : Wallet} {payerRail : EntryRail} {approvedOffer : Offer}
    {binding : Wallet.AcceptedBinding} {resource refundPtr : String} {expectedIl : Option String}
    {plan : TwoLegPlan} (hbinding : binding.merchantKey = m.key)
    (hplan : w.planTwoLeg codec suite idna payerRail json approvedOffer binding resource refundPtr
      expectedIl = .ok plan) :
    plan.instanceAddress = built.1.instanceAddress ∧ plan.entryId = built.1.entryId ∧
      plan.entry = ⟨p.nonce, p.meedAmount, built.1.tOpen, built.1.tLapse, p.contest⟩ ∧
      plan.netTransfer = ⟨m.payout, p.netAsset, p.netAmount, some p.nonce⟩ := by
  obtain ⟨seed, hbuilt⟩ := buildTwoLegQuote_some h
  obtain ⟨q, offer, t, seed', hplanned⟩ := Wallet.planTwoLeg_ok hplan
  have hq : q = (m.twoLegQuote p).sign codec suite m.signingKey := by
    have hparse := hplanned.quote
    rw [hbuilt.quote] at hread
    rw [hbinding, ← hkey, Quote.parseVerify_sign hb64 hsigns hquote m.signingKey hread] at hparse
    exact (Option.some.inj hparse).symm
  subst hq
  have hoffer : offer = twoLegOffer p m.payout :=
    List.mem_singleton.1 (Wallet.mirroredOffer_mem hplanned.mirrored)
  subst hoffer
  obtain rfl := Option.some.inj ((offerTerms_twoLegOffer hterms m.payout).symm.trans hplanned.terms)
  obtain rfl := Option.some.inj (hbuilt.seedInstance.symm.trans (hbinding ▸ hplanned.seedInstance))
  obtain ⟨-, -, hfit, hopen, -⟩ := Wallet.twoLegFeasible_ok hplanned.feasible
  obtain ⟨hlapsefit, hlapse⟩ := hplanned.tLapse
  have hopen' : plan.tOpen = built.1.tOpen := by
    rw [hopen, hbuilt.tOpen]
    exact (min_eq_right hfit).symm
  have hlapse' : plan.tLapse = built.1.tLapse := by
    rw [hlapse, hbuilt.tLapse, ← hopen']
    exact (min_eq_right hlapsefit).symm
  have hentry : plan.entry =
      ⟨p.nonce, p.meedAmount, built.1.tOpen, built.1.tLapse, p.contest⟩ := by
    unfold TwoLegPlan.entry
    rw [hplanned.nonce, hplanned.meed.2.1, hplanned.meed.2.2, hopen', hlapse']
    rfl
  refine ⟨hplanned.instanceAddress.trans hbuilt.instanceAddress.symm, ?_, hentry, ?_⟩
  · rw [hplanned.entryId, hentry, hbuilt.entryId]
  · unfold TwoLegPlan.netTransfer
    rw [hplanned.net.1, hplanned.net.2.1, hplanned.net.2.2, hplanned.nonce]
    rfl

end Read

end TwoLeg

end Merchant

end Paytp
