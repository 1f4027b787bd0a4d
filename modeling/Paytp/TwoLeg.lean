import Paytp.EntryRail
import Paytp.Redemption

/-!
# Purchases in two legs

A purchase in two legs funds an entry of the meed instance and pays the merchant the net amount.
The merchant builds the quote, and redeems it against both legs: it confirms them, attests the
entry, and consumes the nonce before it answers with the receipt.
-/

namespace Paytp

open Attest Kit MerchantStore

/-- The inputs of a quote in two legs. -/
structure TwoLegParams where
  resource : String
  nonce : ByteArr 32
  exp : ℕ
  idem : Bytes
  registryVersion : ℕ
  netNetwork : String
  netAsset : String
  netAmount : ℕ
  baselineNetwork : String
  baselineAsset : String
  meedAmount : ℕ
  rate : String
  rateSource : String
  reclaim : ℕ
  contest : ℕ
  grace : ℕ
  retry : ℕ
  finMeed : String
  finNet : String
  vector : List VectorEntry

structure TwoLegQuote where
  quote : Quote
  instanceAddress : String
  entryId : ByteArr 32
  tOpen : ℕ
  tLapse : ℕ
  /-- The offer that the operator approves. -/
  offer : Offer

namespace Quote

/-- The entry of a purchase that the quote prices, in the instance of a seed. -/
def entryTerms (q : Quote) (meedAmount reclaim contest : ℕ) : EntryTerms where
  nonce := q.nonce
  amount := meedAmount
  tOpen := q.exp + q.grace
  tLapse := q.exp + q.grace + reclaim
  contest

end Quote

def Suite.entryIdOf (suite : Suite) (seedInstance : ByteArr 32) (t : EntryTerms) : ByteArr 32 :=
  suite.entryIdPurchase seedInstance t.nonce t.amount t.tOpen t.tLapse t.contest

def twoLegOffer (p : TwoLegParams) (merchantNetPayout : String) : Offer where
  accept := .object [("scheme", .string "exact"), ("network", .string p.netNetwork),
    ("asset", .string p.netAsset), ("maxAmountRequired", .string (toString p.netAmount)),
    ("payTo", .string merchantNetPayout)]
  finality := none
  merchantNet := none
  twoLeg := some (.object [("asset", .string p.baselineAsset),
    ("meed", .string (toString p.meedAmount)), ("rate", .string p.rate),
    ("rateSource", .string p.rateSource), ("reclaim", .string (toString p.reclaim)),
    ("contest", .string (toString p.contest)),
    ("finality", .object [("meed", .string p.finMeed), ("net", .string p.finNet)])])

namespace Merchant

variable (codec : TextCodec) (suite : Suite) (m : Merchant)

def twoLegQuote (p : TwoLegParams) : Quote where
  v := "1"
  resource := p.resource
  nonce := p.nonce
  exp := p.exp
  idem := p.idem
  schema := SCHEMA_V0_1
  contract := 1
  registry := p.registryVersion
  baseline := p.baselineNetwork
  grace := p.grace
  retry := p.retry
  vector := p.vector
  offers := [twoLegOffer p m.payout]
  signature := none

/-- Sign a quote in two legs and deploy its meed instance. The vector is validated by those who act
on the quote. -/
def buildTwoLegQuote (rail : EntryRail) (p : TwoLegParams) : Option (TwoLegQuote × EntryRail) := do
  let q := m.twoLegQuote p
  let inputs := q.addressInputs m.key p.baselineAsset none
  let seed ← inputs.seedInstance suite
  let (instanceAddress, hosted) ← (rail.toHostedRail.deployInstance suite seed inputs).toOption
  let tOpen := min U64_MAX (p.exp + p.grace)
  let tLapse := min U64_MAX (tOpen + p.reclaim)
  return (
    { quote := q.sign codec suite m.signingKey
      instanceAddress
      entryId := suite.entryIdPurchase seed p.nonce p.meedAmount tOpen tLapse p.contest
      tOpen
      tLapse
      offer := twoLegOffer p m.payout },
    { rail with toHostedRail := hosted })

/-- What a presented quote in two legs asks for. -/
structure TwoLegTerms where
  quote : Quote
  offer : Offer
  netPayTo : String
  netAsset : String
  netAmount : ℕ
  baselineAsset : String
  entry : EntryTerms
  finMeed : String
  finNet : String
  seed : ByteArr 32

namespace TwoLegTerms

variable (t : TwoLegTerms)

def instanceAddr : String := VirtualRail.deriveAddress t.seed

def entryId : ByteArr 32 := suite.entryIdOf t.seed t.entry

end TwoLegTerms

/-- The amount of an envelope's entry: the shipped member, and the older one if that is missing. -/
def netAmountOf (accept : StrictValue) : Option ℕ :=
  ((accept.memberStr "maxAmountRequired").orElse fun _ => accept.memberStr "amount").bind
    (Jcs.parseUnsigned U128_MAX)

/-- A quote that the merchant signed for the resource, and that keeps to the rules of its offers. -/
def acceptTwoLeg (presentedJson expectedResource : String) : Except RedeemError Quote := do
  let q ← okOr (Quote.parseVerify codec suite presentedJson m.key) .quoteInvalid
  require (q.validateVectorGoverned suite) .quoteInvalid
  require (q.validateBaselineMerchantNet suite) .quoteInvalid
  require (q.resource == expectedResource) .quoteInvalid
  return q

/-- The terms of the first offer in two legs. -/
def twoLegTerms (q : Quote) : Except RedeemError TwoLegTerms := do
  let offer ← okOr (q.offers.find? fun o => o.twoLeg.isSome) .quoteInvalid
  let tl ← okOr offer.twoLeg .quoteInvalid
  let netPayTo ← okOr (offer.accept.memberStr "payTo") .quoteInvalid
  let netAsset ← okOr (offer.accept.memberStr "asset") .quoteInvalid
  let netAmount ← okOr (netAmountOf offer.accept) .quoteInvalid
  let baselineAsset ← okOr (tl.memberStr "asset") .quoteInvalid
  let meedAmount ← okOr ((tl.memberStr "meed").bind (Jcs.parseCanonical U128_MAX)) .quoteInvalid
  let reclaim ← okOr ((tl.memberStr "reclaim").bind (Jcs.parseCanonical MAX_TIME)) .quoteInvalid
  let contest ← okOr ((tl.memberStr "contest").bind (Jcs.parseCanonical MAX_TIME)) .quoteInvalid
  let fin ← okOr (tl.member "finality") .quoteInvalid
  let finMeed ← okOr (fin.memberStr "meed") .quoteInvalid
  let finNet ← okOr (fin.memberStr "net") .quoteInvalid
  let seed ← okOr ((q.addressInputs m.key baselineAsset none).seedInstance suite) .quoteInvalid
  require (decide (q.exp + q.grace ≤ U64_MAX)) .quoteInvalid
  require (decide (q.exp + q.grace + reclaim ≤ U64_MAX)) .quoteInvalid
  return { quote := q, offer, netPayTo, netAsset, netAmount, baselineAsset
           entry := q.entryTerms meedAmount reclaim contest, finMeed, finNet, seed }

/-- A leg reached the quoted finality in time. -/
def confirmLeg (rail : EntryRail) (r required : String) (honorDeadline now : ℕ) :
    Except RedeemError Unit := do
  let fin ← okOr (rail.finality r) .paymentUnverified
  legFinal fin required honorDeadline now

/-- The entry stands for the payment: funded, attested before, or with a reclaim open that leaves
the attestation twice the rail's latency. -/
def entryStands (t : TwoLegTerms) (rail : EntryRail) (now : ℕ) : Bool :=
  match rail.entryStatus t.instanceAddr (t.entryId suite) with
  | some .funded => true
  | some .attested => true
  | some .reclaimOpen =>
    (rail.reclaimExecTime t.instanceAddr (t.entryId suite)).any fun tExec =>
      !decide (min U64_MAX (now + min U64_MAX (rail.inclusionLatency * 2)) ≥ tExec)
  | _ => false

/-- What the rail shows of both legs is what the terms ask for. -/
def confirmTwoLeg (t : TwoLegTerms) (rail : EntryRail) (meedRef netRef : String) (now : ℕ) :
    Except RedeemError Unit := do
  let ri ← okOr (rail.refTarget meedRef) .paymentUnverified
  require (!(rail.fundsEntry.lookup meedRef != some (t.entryId suite) ||
    ri.asset != t.baselineAsset || ri.memo != some t.quote.nonce)) .paymentUnverified
  confirmLeg rail meedRef t.finMeed t.quote.honorDeadline now
  require (entryStands suite t rail now) .paymentUnverified
  confirmLeg rail netRef t.finNet t.quote.honorDeadline now
  let ni ← okOr (rail.refTarget netRef) .paymentUnverified
  require (!(ni.dest != t.netPayTo || ni.asset != t.netAsset || decide (ni.amount < t.netAmount) ||
    ni.memo != some t.quote.nonce)) .paymentUnverified

/-- Attest the terms' entry, unless it is attested already. -/
def attest (t : TwoLegTerms) (rail : EntryRail) : Except RedeemError EntryRail :=
  let signed := Signed.create suite .attestation t.quote.nonce (t.entryId suite) m.signingKey
  match rail.attestEntry suite t.instanceAddr (t.entryId suite) signed with
  | .ok rail => .ok rail
  | .error _ =>
    if rail.entryStatus t.instanceAddr (t.entryId suite) = some .attested then .ok rail
    else .error .paymentUnverified

/-- The decision that the nonce is bound to: both references together. -/
def twoLegRecord (q : Quote) (meedRef netRef : String) : NonceRecord where
  paymentRef := meedRef ++ String.singleton paymentRefDelimiter ++ netRef
  idem := q.idem
  resource := q.resource
  quoteSig := q.signature.getD (.replicate 64 0)

def twoLegReceipt (t : TwoLegTerms) (meedRef netRef : String) (now : ℕ) : Receipt :=
  Receipt.sign codec
    { nonce := t.quote.nonce
      idem := t.quote.idem
      resource := t.quote.resource
      rest :=
        { accept := t.offer.accept
          paid := [{ leg := "meed", network := t.quote.baseline, reference := meedRef },
            { leg := "net", network := (t.offer.accept.memberStr "network").getD ""
              reference := netRef }]
          entry := some (t.entryId suite)
          ts := now
          signature := none } }
    suite m.signingKey

/-- What comes before the receipt of a quote that is accepted: the terms, both legs confirmed, and
the attestation on the rail. -/
def settleTwoLeg (q : Quote) (meedRef netRef : String) (now : ℕ) (rail : EntryRail) :
    Except RedeemError (TwoLegTerms × EntryRail) := do
  let t ← m.twoLegTerms suite q
  confirmTwoLeg suite t rail meedRef netRef now
  let rail ← m.attest suite t rail
  return (t, rail)

/-- Redeem a quote in two legs against the references of both. What is done on the rail stays done,
whatever the answer. -/
def redeemTwoLeg (presentedJson expectedResource meedRef netRef : String) (now : ℕ) (io : AppendIo)
    (rail : EntryRail) (wal : Wal ReceiptRest) :
    Except RedeemError Receipt × EntryRail × Wal ReceiptRest :=
  match m.acceptTwoLeg codec suite presentedJson expectedResource with
  | .error e => (.error e, rail, wal)
  | .ok q =>
    if hasReservedRefDelimiter meedRef || hasReservedRefDelimiter netRef then
      (.error .paymentUnverified, rail, wal)
    else
      let record := twoLegRecord q meedRef netRef
      match wal.peek q.nonce record with
      | .stored receipt => (.ok receipt, rail, wal)
      | .replayed => (.error .replayed, rail, wal)
      | .fresh =>
        match m.settleTwoLeg suite q meedRef netRef now rail with
        | .error e => (.error e, rail, wal)
        | .ok (t, rail) =>
          let build (u : Unit) := (m.twoLegReceipt codec suite t meedRef netRef now, u)
          let (result, _, wal) := wal.consumeNonce (Receipt.form codec suite) q.nonce record build
            () io
          (result.mapError storeError, rail, wal)

end Merchant

end Paytp
