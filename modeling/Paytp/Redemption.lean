import Paytp.Lib.Checks
import Paytp.MerchantStore
import Paytp.Quote
import Paytp.Rail

/-!
# Redemption of baseline quotes

A merchant settles the payment that is presented with its own quote, confirms that it is final in
time, and consumes the quote's nonce before it answers with the receipt.
-/

namespace Paytp

inductive RedeemError
  | quoteInvalid
  | expired
  | paymentUnverified
  | replayed
  | storeUnavailable
  deriving DecidableEq, Repr

/-- A leg that was settled: `split`, or `meed` and `net`. -/
structure PaidLeg where
  leg : String
  network : String
  reference : String
  deriving DecidableEq

/-- What a receipt says beside its nonce, its idempotency key and its resource. -/
structure ReceiptRest where
  accept : StrictValue
  paid : List PaidLeg
  entry : Option (ByteArr 32)
  ts : ℕ
  signature : Option (ByteArr 64)

abbrev Receipt := MerchantStore.Receipt ReceiptRest

open MerchantStore

namespace Receipt

variable (codec : TextCodec) (r : Receipt)

def legValue (p : PaidLeg) : StrictValue :=
  .object [("leg", .string p.leg), ("network", .string p.network), ("ref", .string p.reference)]

def toValue (includeSig : Bool) : StrictValue :=
  .object (
    [("v", .string "1"), ("nonce", .string (codec.b64 r.nonce.toList)),
      ("idem", .string (codec.b64 r.idem)), ("resource", .string r.resource),
      ("accept", r.rest.accept), ("paid", .array (r.rest.paid.map legValue))] ++
    (r.rest.entry.map fun e => ("entry", .string (codec.b64 e.toList))).toList ++
    [("ts", .string (toString r.rest.ts))] ++
    (if includeSig then
      (r.rest.signature.map fun s => ("signature", .string (codec.b64 s.toList))).toList
    else []))

def toJson : Bytes := Jcs.toJcs (toValue codec r true)

/-- The paid legs are one split, or the meed and then the net. -/
def validatePaid (paid : List PaidLeg) : Bool :=
  let legs := paid.map PaidLeg.leg
  legs == ["split"] || legs == ["meed", "net"]

def paidLegOf (item : StrictValue) : Option PaidLeg := do
  let leg ← item.memberStr "leg"
  let network ← item.memberStr "network"
  let reference ← item.memberStr "ref"
  return { leg, network, reference }

/-- Read a receipt whose signature verifies over the members that arrived but for the signature.
Just the receipts of two legs name an entry. -/
def parseVerify (suite : Suite) (json : String) (merchantPk : ByteArr 32) : Option Receipt := do
  let value ← codec.parseStrict json
  let (unsigned, sig) ← Quote.signedMembers codec value
  if !suite.ed25519VerifyStrict merchantPk (covered .receipt (Jcs.toJcs unsigned)) sig then none
  let v ← value.memberStr "v"
  if v != "1" then none
  let nonce ← ((value.memberStr "nonce").bind codec.b64Decode).bind (ByteArr.ofBytes? 32)
  let paid ← ((value.member "paid").bind Quote.arrayOf).bind (·.mapM paidLegOf)
  if !validatePaid paid then none
  let entry ← match value.member "entry" with
    | some w => ((w.asStr.bind codec.b64Decode).bind (ByteArr.ofBytes? 32)).map some
    | none => some none
  if entry.isSome != (paid.map PaidLeg.leg == ["meed", "net"]) then none
  let ts ← (value.memberStr "ts").bind (Jcs.parseCanonical U64_MAX)
  let idem ← (value.memberStr "idem").bind codec.b64Decode
  let resource ← value.memberStr "resource"
  let accept ← value.member "accept"
  return { nonce, idem, resource, rest := { accept, paid, entry, ts, signature := some sig } }

/-- How a merchant's store writes its receipts and reads them back. -/
def form (suite : Suite) : ReceiptForm ReceiptRest where
  toJson := toJson codec
  parseVerify := parseVerify codec suite

def sign (suite : Suite) (merchantSk : ByteArr 32) : Receipt :=
  { r with rest := { r.rest with
      signature := some (suite.ed25519Sign merchantSk
        (covered .receipt (Jcs.toJcs (toValue codec r false)))) } }

/-- The receipt of a split, not signed yet. -/
def baseline (q : Quote) (accept : StrictValue) (network splitRef : String) (ts : ℕ) : Receipt where
  nonce := q.nonce
  idem := q.idem
  resource := q.resource
  rest :=
    { accept, paid := [{ leg := "split", network, reference := splitRef }], entry := none, ts
      signature := none }

end Receipt

structure Merchant where
  signingKey : ByteArr 32
  key : ByteArr 32
  payout : String

namespace Merchant

variable (codec : TextCodec) (suite : Suite) (m : Merchant)

/-- What a presented quote asks to be paid: the offer, to whom, in what, how much and how final. -/
structure BaselineTerms where
  quote : Quote
  offer : Offer
  payTo : String
  asset : String
  amount : ℕ
  requiredFinality : String

/-- The terms of a quote that the merchant signed for the resource: those of its first baseline
offer, if it pays to the split that the quote derives. -/
def baselineTerms (presentedJson expectedResource : String) : Except RedeemError BaselineTerms := do
  let q ← okOr (Quote.parseVerify codec suite presentedJson m.key) .quoteInvalid
  require (q.validateVectorGoverned suite) .quoteInvalid
  require (q.resource == expectedResource) .quoteInvalid
  let offer ← okOr (q.offers.find? fun o => o.twoLeg.isNone) .quoteInvalid
  let payTo ← okOr (offer.accept.memberStr "payTo") .quoteInvalid
  let asset ← okOr (offer.accept.memberStr "asset") .quoteInvalid
  let amount ← okOr ((offer.accept.memberStr "maxAmountRequired").bind
    (Jcs.parseUnsigned U128_MAX)) .quoteInvalid
  let requiredFinality ← okOr offer.finality .quoteInvalid
  let seed ← okOr ((q.addressInputs m.key asset offer.merchantNet).seedSplit suite) .quoteInvalid
  require (VirtualRail.deriveAddress seed == payTo) .quoteInvalid
  return { quote := q, offer, payTo, asset, amount, requiredFinality }

/-- Does the transfer pay the terms? -/
def BaselineTerms.paidBy (t : BaselineTerms) (transfer : Transfer) : Bool :=
  !(transfer.dest != t.payTo || transfer.asset != t.asset || decide (transfer.amount < t.amount))

/-- A leg's finality is the quoted one or a stronger one, and was reached in time. -/
def legFinal (fin : Finality) (required : String) (honorDeadline now : ℕ) :
    Except RedeemError Unit := do
  let idx (level : String) := VirtualRail.finalityLevels.idxOf? level
  let reachedOk := match idx fin.level, idx required with
    | some reached, some needed => decide (needed ≤ reached)
    | _, _ => false
  require reachedOk (if now > honorDeadline then .expired else .paymentUnverified)
  require (!decide (fin.time > honorDeadline)) .expired

def hasReservedRefDelimiter (reference : String) : Bool :=
  reference.toList.any (· == paymentRefDelimiter)

/-- What the rail shows of the settlement: its canonical reference, if it pays the terms for good
and in time. -/
def confirmBaseline (t : BaselineTerms) (rail : VirtualRail) (paymentRef : String) (now : ℕ) :
    Except RedeemError String := do
  let fin ← okOr (rail.finality paymentRef) .paymentUnverified
  legFinal fin t.requiredFinality t.quote.honorDeadline now
  let info ← okOr (rail.refTarget paymentRef) .paymentUnverified
  require (!(info.dest != t.payTo || info.asset != t.asset || decide (info.amount < t.amount)))
    .paymentUnverified
  require (!hasReservedRefDelimiter info.canonical) .paymentUnverified
  return info.canonical

/-- The decision that the nonce is bound to. -/
def BaselineTerms.record (t : BaselineTerms) (canonical : String) : NonceRecord where
  paymentRef := canonical
  idem := t.quote.idem
  resource := t.quote.resource
  quoteSig := t.quote.signature.getD (.replicate 64 0)

def baselineReceipt (t : BaselineTerms) (paymentRef : String) (now : ℕ) : Receipt :=
  Receipt.sign codec (Receipt.baseline t.quote t.offer.accept t.quote.baseline paymentRef now)
    suite m.signingKey

def storeError : StoreError → RedeemError
  | .replayed => .replayed
  | .unavailable => .storeUnavailable

/-- Settle the payment that is presented for the terms, confirm it, consume the nonce. -/
def redeemTerms (t : BaselineTerms) (transfer : Transfer) (settleId : ByteArr 32) (now : ℕ)
    (io : AppendIo) (rail : VirtualRail) (wal : Wal ReceiptRest) :
    Except RedeemError Receipt × VirtualRail × Wal ReceiptRest :=
  if !t.paidBy transfer then (.error .paymentUnverified, rail, wal)
  else
    match rail.settle transfer settleId with
    | (.error _, rail) => (.error .paymentUnverified, rail, wal)
    | (.ok paymentRef, rail) =>
      match confirmBaseline t rail paymentRef now with
      | .error e => (.error e, rail, wal)
      | .ok canonical =>
        let build (u : Unit) := (m.baselineReceipt codec suite t paymentRef now, u)
        let (result, _, wal) := wal.consumeNonce (Receipt.form codec suite) t.quote.nonce
          (t.record canonical) build () io
        (result.mapError storeError, rail, wal)

/-- Redeem a baseline quote against the payment that is presented. What is done on the rail stays
done, whatever the answer. -/
def redeemBaseline (presentedJson expectedResource : String) (transfer : Transfer)
    (settleId : ByteArr 32) (now : ℕ) (io : AppendIo) (rail : VirtualRail)
    (wal : Wal ReceiptRest) : Except RedeemError Receipt × VirtualRail × Wal ReceiptRest :=
  match m.baselineTerms codec suite presentedJson expectedResource with
  | .error e => (.error e, rail, wal)
  | .ok t => m.redeemTerms codec suite t transfer settleId now io rail wal

end Merchant

end Paytp
