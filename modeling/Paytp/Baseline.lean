import Paytp.HostedRail
import Paytp.Redemption
import Paytp.Requirements

/-!
# Baseline quotes

The merchant prices a resource in one offer, which asks the split that the quote derives to be
paid. The split is deployed before the quote is signed.
-/

namespace Paytp

open MerchantStore

/-- The inputs of a baseline quote. -/
structure BaselineParams where
  resource : String
  nonce : ByteArr 32
  exp : ℕ
  idem : Bytes
  registryVersion : ℕ
  baselineNetwork : String
  asset : String
  amount : ℕ
  finality : String
  grace : ℕ
  retry : ℕ
  maxTimeoutSeconds : ℕ
  extra : Option (List (String × StrictValue))
  vector : List VectorEntry

structure BaselineQuote where
  quote : Quote
  splitAddress : String
  /-- The entry of the envelope that the quote's offer mirrors. -/
  acceptReqs : PaymentRequirements

/-- The entry of the envelope. -/
def baselineRequirements (p : BaselineParams) (network splitAddress : String) :
    PaymentRequirements where
  scheme := "exact"
  network
  maxAmountRequired := toString p.amount
  asset := p.asset
  payTo := splitAddress
  resource := p.resource
  description := ""
  mimeType := "application/json"
  maxTimeoutSeconds := p.maxTimeoutSeconds
  extra := p.extra

def baselineOffer (p : BaselineParams) (merchantNetPayout : String)
    (acceptReqs : PaymentRequirements) : Offer where
  accept := acceptReqs.toStrict
  finality := some p.finality
  merchantNet := some merchantNetPayout
  twoLeg := none

namespace Merchant

variable (codec : TextCodec) (suite : Suite) (m : Merchant)

/-- A quote of some offers, not signed yet. -/
def baselineQuote (p : BaselineParams) (offers : List Offer) : Quote where
  v := "1"
  resource := p.resource
  nonce := p.nonce
  exp := p.exp
  idem := p.idem
  schema := SCHEMA_V0_1
  contract := 1
  registry := p.registryVersion
  baseline := p.baselineNetwork
  grace := p.grace
  retry := p.retry
  vector := p.vector
  offers
  signature := none

/-- Deploy the split that the quote derives, and sign the quote. The vector is validated by those
who act on the quote. -/
def buildBaselineQuote (rail : HostedRail) (p : BaselineParams) :
    Option (BaselineQuote × HostedRail) := do
  let inputs := (baselineQuote p []).addressInputs m.key p.asset (some m.payout)
  let seed ← inputs.seedSplit suite
  let (splitAddress, rail) ← (rail.deploySplit suite seed inputs).toOption
  let network ← caip2ToX402 p.baselineNetwork
  let acceptReqs := baselineRequirements p network splitAddress
  let quote := baselineQuote p [baselineOffer p m.payout acceptReqs]
  return ({ quote := quote.sign codec suite m.signingKey, splitAddress, acceptReqs }, rail)

end Merchant

end Paytp
