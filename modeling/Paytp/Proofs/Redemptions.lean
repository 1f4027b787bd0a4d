import Paytp.Redemption

/-!
# What a baseline redemption asks for

The terms that a presented quote is redeemed on, and a call on terms that are known.
-/

namespace Paytp

open MerchantStore

namespace Merchant

variable {codec : TextCodec} {suite : Suite} {m : Merchant}
  {presentedJson expectedResource : String} {transfer : Transfer} {settleId : ByteArr 32}
  {rail : VirtualRail}

/-- The terms are those of the first baseline offer of the presented quote. -/
theorem baselineTerms_eq_ok {t : BaselineTerms} :
    m.baselineTerms codec suite presentedJson expectedResource = .ok t ↔
      Quote.parseVerify codec suite presentedJson m.key = some t.quote ∧
        t.quote.validateVectorGoverned suite = true ∧ t.quote.resource = expectedResource ∧
        (t.quote.offers.find? fun o => o.twoLeg.isNone) = some t.offer ∧
        t.offer.accept.memberStr "payTo" = some t.payTo ∧
        t.offer.accept.memberStr "asset" = some t.asset ∧
        (t.offer.accept.memberStr "maxAmountRequired").bind (Jcs.parseUnsigned U128_MAX) =
          some t.amount ∧
        t.offer.finality = some t.requiredFinality ∧
        ∃ seed, (t.quote.addressInputs m.key t.asset t.offer.merchantNet).seedSplit suite =
          some seed ∧ VirtualRail.deriveAddress seed = t.payTo := by
  unfold baselineTerms
  simp only [bind_eq_ok, okOr_eq_ok, require_eq_ok, pure_eq_ok, beq_iff_eq]
  constructor
  · rintro ⟨q, hq, -, hvector, -, hresource, offer, hoffer, payTo, hpayTo, asset, hasset, amount,
      hamount, fin, hfin, seed, hseed, -, haddr, rfl⟩
    exact ⟨hq, hvector, hresource, hoffer, hpayTo, hasset, hamount, hfin, seed, hseed, haddr⟩
  · rintro ⟨hq, hvector, hresource, hoffer, hpayTo, hasset, hamount, hfin, seed, hseed, haddr⟩
    exact ⟨_, hq, ⟨⟩, hvector, ⟨⟩, hresource, _, hoffer, _, hpayTo, _, hasset, _, hamount, _, hfin,
      seed, hseed, ⟨⟩, haddr, rfl⟩

variable (now : ℕ) (io : AppendIo) (wal : Wal ReceiptRest)

theorem redeemBaseline_of_terms {t : BaselineTerms}
    (h : m.baselineTerms codec suite presentedJson expectedResource = .ok t) :
    m.redeemBaseline codec suite presentedJson expectedResource transfer settleId now io rail wal =
      m.redeemTerms codec suite t transfer settleId now io rail wal := by
  unfold redeemBaseline
  rw [h]

theorem redeemBaseline_refused {e : RedeemError}
    (h : m.baselineTerms codec suite presentedJson expectedResource = .error e) :
    m.redeemBaseline codec suite presentedJson expectedResource transfer settleId now io rail wal =
      (.error e, rail, wal) := by
  unfold redeemBaseline
  rw [h]

end Merchant

end Paytp
