import Paytp.EstablishWire
import Paytp.Host
import Paytp.Requirements
import Paytp.TwoLeg
import Paytp.Wallet.Offers
import Paytp.Wallet.Policy

/-!
# The wallet pays

A wallet pays a signed quote over the origin that it authenticated: a split, with an authorization
that the merchant settles, or two legs, of which the meed comes first. What is paid, to whom and
how much is read off the signed quote or derived from it, and every amount passes the policy.
-/

namespace Paytp

open Kit

/-! ## The origin -/

inductive BindingError
  | missingSig
  | grammar
  | badSignature
  | notCurrent
  | wrongConnection
  deriving DecidableEq, Repr

namespace BindingArtifact

variable (suite : Suite) (validateNormalizedHost : String → Bool) (artifact : BindingArtifact)

def accept (merchantKey connCertHash : ByteArr 32) (connHost : String) (now : ℕ) :
    Except BindingError Wallet.AcceptedBinding := do
  let sig ← okOr artifact.sig .missingSig
  let fields ← okOr (artifact.contentFields suite validateNormalizedHost) .grammar
  require (suite.ed25519VerifyStrict merchantKey (covered .artifact (Tlv.encode fields)) sig)
    .badSignature
  require (!(decide (min U64_MAX (now + SKEW_SECS) < artifact.notBefore) ||
    decide (now > min U64_MAX (artifact.notAfter + SKEW_SECS)))) .notCurrent
  require (artifact.certHash == connCertHash) .wrongConnection
  require (artifact.host == connHost) .wrongConnection
  return { merchantKey, host := artifact.host, encKey := artifact.encKey }

end BindingArtifact

/-- What follows the scheme. -/
def afterScheme : List Char → Option (List Char)
  | ':' :: '/' :: '/' :: rest => some rest
  | _ :: cs => afterScheme cs
  | [] => none

/-- The host of a URL, without the user and the port; an address in brackets is none. -/
def resourceUrlHost (resource : String) : Option String := do
  let rest ← afterScheme resource.toList
  let authority := rest.takeWhile fun c => !(c == '/' || c == '?' || c == '#')
  let hostPort := authority.rtakeWhile (· != '@')
  if hostPort.isEmpty || hostPort.head? == some '[' then none
  match MerchantStore.rsplitOnce (String.ofList hostPort) ':' with
  | some (host, port) =>
    if host == "" || host.toList.contains ':' || port == "" || !port.toList.all Char.isDigit then
      none
    else some host
  | none => some (String.ofList hostPort)

/-! ## The capabilities of a rail -/

structure RailCaps where
  /-- Weakest first. -/
  finalityLevels : List String
  /-- How long the strongest finality may take. -/
  finalityDelay : ℕ
  assets : List String
  inclusionLatency : ℕ
  deriving DecidableEq

def EntryRail.caps (s : EntryRail) : RailCaps where
  finalityLevels := VirtualRail.finalityLevels
  finalityDelay := s.rail.finalityDelay
  assets := s.assets
  inclusionLatency := s.inclusionLatency

def EntryRail.submit (s : EntryRail) (transfer : Transfer) :
    Except RailError String × EntryRail :=
  let (answer, rail) := s.rail.submit transfer
  (answer, { s with rail })

/-! ## Reading offers -/

inductive WalletError
  | policyDenied (why : String)
  | quoteInvalid
  | derivation
  | rail (e : RailError)
  | meedNotFinal
  | entryIdMismatch
  | resourceMismatch
  | mirrorMismatch
  | originResourceMismatch
  | originBindingInvalid
  | quoteInfeasible (why : String)
  deriving DecidableEq, Repr

/-- The amount of an envelope's entry. The older member is read only if the shipped one is
missing, not if it is malformed. -/
def baselineAmount (accept : StrictValue) : Option ℕ :=
  if (accept.member "maxAmountRequired").isSome then
    (accept.memberStr "maxAmountRequired").bind (Jcs.parseUnsigned U128_MAX)
  else (accept.memberStr "amount").bind (Jcs.parseUnsigned U128_MAX)

def MEED_CAP_BP : ℕ := 100

/-- The part of a net amount that the meed may take. -/
def meedCarveCap (net : ℕ) : ℕ := net / 10000 * MEED_CAP_BP + net % 10000 * MEED_CAP_BP / 10000

/-- May the payment of a split still be honoured? A level below the strongest one is honoured if
it is redeemed before it rises. -/
def baselineHeadroomOk (caps : RailCaps) (now : ℕ) (isStrongest : Bool) (tOpen : ℕ) :
    Except WalletError Bool := do
  let reach ← if isStrongest then okOr (addU64 now caps.finalityDelay) .quoteInvalid else .ok now
  return decide (reach ≤ tOpen)

/-- Both legs can be final in time, the net leg after the meed. -/
def finalityHeadroom (caps : RailCaps) (now : ℕ) (finMeed finNet : String) (tOpen : ℕ) :
    Except WalletError Unit := do
  require (caps.finalityLevels.contains finMeed)
    (.quoteInfeasible "meed finality level not on this rail")
  require (caps.finalityLevels.contains finNet)
    (.quoteInfeasible "net finality level not on this rail")
  let meedFin ← okOr (addU64 now caps.finalityDelay) .quoteInvalid
  let netFin ← okOr (addU64 meedFin caps.finalityDelay) .quoteInvalid
  require (!decide (meedFin > tOpen))
    (.quoteInfeasible "meed finality unreachable within exp+grace")
  require (!decide (netFin > tOpen)) (.quoteInfeasible "net finality unreachable within exp+grace")

/-! ## The wallet -/

/-- The suite of a party that has its own registry. -/
def Suite.under (suite : Suite) (registry : Registry) : Suite :=
  { suite with toRegistry := registry }

structure Wallet where
  policy : Wallet.WalletPolicy
  registry : Registry
  /-- Where the wallet's own share goes, if it asserts one. -/
  meedDest : Option String

/-- What a payer authorizes the merchant to settle. -/
structure BaselinePayment where
  transfer : Transfer
  settleId : ByteArr 32
  deriving DecidableEq

/-- What was read off the quote for two legs, and where the payer wants a refund. -/
structure TwoLegPlan where
  instanceAddress : String
  entryId : ByteArr 32
  nonce : ByteArr 32
  tOpen : ℕ
  tLapse : ℕ
  baselineAsset : String
  meedAmount : ℕ
  contest : ℕ
  refundPtr : String
  netTo : String
  netAsset : String
  netAmount : ℕ
  finMeed : String
  finNet : String
  deriving DecidableEq

namespace TwoLegPlan

/-- The terms of the entry that is funded. -/
def entry (p : TwoLegPlan) : EntryTerms where
  nonce := p.nonce
  amount := p.meedAmount
  tOpen := p.tOpen
  tLapse := p.tLapse
  contest := p.contest

def netTransfer (p : TwoLegPlan) : Transfer where
  dest := p.netTo
  asset := p.netAsset
  amount := p.netAmount
  memo := some p.nonce

end TwoLegPlan

namespace Wallet

/-- One path with what the signed quote says of it. -/
structure OfferPath where
  id : ℕ
  price : ℕ
  meedShareBp : ℕ
  deriving DecidableEq

def acceptOrigin (suite : Suite) (validateNormalizedHost : String → Bool)
    (candidateMerchantKey : ByteArr 32) (artifactBytes : Bytes) (connCertHash : ByteArr 32)
    (connHost : String) (now : ℕ) : Except WalletError AcceptedBinding := do
  let artifact ← (BindingArtifact.parse suite validateNormalizedHost artifactBytes).mapError
    fun _ => .originBindingInvalid
  (artifact.accept suite validateNormalizedHost candidateMerchantKey connCertHash connHost
    now).mapError fun _ => .originBindingInvalid

/-- The origin is the host of the resource that is asked for. -/
def requireBindingHostMatchesResource (idna : Host.Idna) (binding : AcceptedBinding)
    (requestedResource : String) : Except WalletError Unit := do
  let host ← okOr (resourceUrlHost requestedResource) .originResourceMismatch
  (Host.validateNormalizedHost idna host).mapError fun _ => .originResourceMismatch
  require (binding.host == host) .originResourceMismatch

def approved : Decision → Except WalletError Unit
  | .approve => .ok ()
  | .deny why => .error (.policyDenied why)

variable (codec : TextCodec) (suite : Suite) (idna : Host.Idna) (w : Wallet)

def walletMeedExpectation : ExpectedDest :=
  match w.meedDest with
  | some dest => .asserted dest
  | none => .unasserted

/-- Select a path by the signed prices and the costs that the wallet's own source adds. -/
def selectPath (paths : List OfferPath) (pathCost : ℕ → ℕ) : Option PathSelection :=
  w.policy.selectPath <| paths.map fun p =>
    { id := p.id, cost := satAddU128 p.price (pathCost p.id), meedShareBp := p.meedShareBp }

/-- The quote, if it is signed by the merchant of the origin for the resource that is asked for. -/
def openQuote (quoteJson : String) (binding : AcceptedBinding) (requestedResource : String) :
    Except WalletError Quote := do
  requireBindingHostMatchesResource idna binding requestedResource
  let quote ← okOr (Quote.parseVerify codec suite quoteJson binding.merchantKey) .quoteInvalid
  require (quote.resource == requestedResource) .resourceMismatch
  return quote

/-! ### Paying a split -/

/-- The one baseline offer that mirrors the entry that was approved. -/
def mirroredBaseline (offers : List Offer) (accept : PaymentRequirements) : Option Offer :=
  match offers.filter fun o => o.twoLeg.isNone && o.mirrors accept with
  | [offer] => some offer
  | _ => none

theorem mirroredBaseline_singleton {o : Offer} {accept : PaymentRequirements}
    (h : o.twoLeg.isNone = true) (hmirrors : o.mirrors accept = true) :
    mirroredBaseline [o] accept = some o := by
  unfold mirroredBaseline
  rw [List.filter_cons, h, hmirrors]
  rfl

/-- Can the rail finalize the payment of an offer in time? -/
def baselineFeasible (quote : Quote) (offer : Offer) (rail : EntryRail) :
    Except WalletError Unit := do
  let requiredFinality ← okOr offer.finality .quoteInvalid
  require (rail.caps.finalityLevels.contains requiredFinality)
    (.quoteInfeasible "baseline finality level not on this rail")
  let tOpen ← okOr (addU64 quote.exp quote.grace) .quoteInvalid
  let isStrongest := rail.caps.finalityLevels.getLast? == some requiredFinality
  let ok ← baselineHeadroomOk rail.caps rail.rail.clock isStrongest tOpen
  require ok (.quoteInfeasible "baseline finality unreachable within exp+grace")

/-- Authorize the payment of a baseline quote under a fresh settle id. -/
def payBaseline (rail : EntryRail) (quoteJson : String) (accept : PaymentRequirements)
    (binding : AcceptedBinding) (requestedResource : String) (settleId : ByteArr 32) :
    Except WalletError BaselinePayment := do
  let quote ← openQuote codec suite idna quoteJson binding requestedResource
  require (quote.validateTier0 (suite.under w.registry)) .quoteInvalid
  require (validatePayerSideDestinations (suite.under w.registry) quote.vector .unchecked
    w.walletMeedExpectation) .quoteInvalid
  let offer ← okOr (mirroredBaseline quote.offers accept) .mirrorMismatch
  let asset ← okOr (offer.accept.memberStr "asset") .quoteInvalid
  let amount ← okOr (baselineAmount offer.accept) .quoteInvalid
  baselineFeasible quote offer rail
  approved (w.policy.approveQuote quote amount asset)
  let merchantNet ← okOr offer.merchantNet .quoteInvalid
  let seed ← okOr ((quote.addressInputs binding.merchantKey asset (some merchantNet)).seedSplit
    suite) .derivation
  let payTo ← okOr (offer.accept.memberStr "payTo") .quoteInvalid
  require (VirtualRail.deriveAddress seed == payTo) .quoteInvalid
  return { transfer := { dest := VirtualRail.deriveAddress seed, asset, amount, memo := none }
           settleId }

/-! ### Paying two legs -/

/-- What the terms of an offer in two legs say. -/
structure OfferTerms where
  netTo : String
  netAsset : String
  netAmount : ℕ
  baselineAsset : String
  meedAmount : ℕ
  reclaim : ℕ
  contest : ℕ
  finMeed : String
  finNet : String
  deriving DecidableEq

def offerTerms (offer : Offer) : Option OfferTerms := do
  let tl ← offer.twoLeg
  let netTo ← offer.accept.memberStr "payTo"
  let netAsset ← offer.accept.memberStr "asset"
  let netAmount ← baselineAmount offer.accept
  let baselineAsset ← tl.memberStr "asset"
  let meedAmount ← (tl.memberStr "meed").bind (Jcs.parseCanonical U128_MAX)
  let reclaim ← (tl.memberStr "reclaim").bind (Jcs.parseCanonical MAX_TIME)
  let contest ← (tl.memberStr "contest").bind (Jcs.parseCanonical MAX_TIME)
  let fin ← tl.member "finality"
  let finMeed ← fin.memberStr "meed"
  let finNet ← fin.memberStr "net"
  return { netTo, netAsset, netAmount, baselineAsset, meedAmount, reclaim, contest, finMeed
           finNet }

/-- Two legs can be completed in the window of the quote. -/
def twoLegFeasible (quote : Quote) (t : OfferTerms) (rail : EntryRail) :
    Except WalletError ℕ := do
  require (t.reclaim != 0) (.quoteInfeasible "reclaim must be positive")
  require (t.contest != 0) (.quoteInfeasible "contest must be positive")
  let tOpen ← okOr (addU64 quote.exp quote.grace) .quoteInvalid
  require (rail.caps.assets.contains t.netAsset)
    (.quoteInfeasible "net asset not routable on this rail")
  require (rail.caps.assets.contains t.baselineAsset)
    (.quoteInfeasible "meed asset not routable on this rail")
  finalityHeadroom rail.caps rail.rail.clock t.finMeed t.finNet tOpen
  return tOpen

/-- The policy approves both legs: their sum if they are of one asset, with the meed a bounded
carve of the net. -/
def approveLegs (quote : Quote) (t : OfferTerms) : Except WalletError Unit :=
  if t.baselineAsset = t.netAsset then do
    let total ← okOr (addU128 t.netAmount t.meedAmount) .quoteInvalid
    approved (w.policy.approveQuote quote total t.netAsset)
    require (!decide (t.meedAmount > meedCarveCap t.netAmount))
      (.policyDenied "meed over the bounded carve")
  else do
    approved (w.policy.approveQuote quote t.netAmount t.netAsset)
    approved (w.policy.approveQuote quote t.meedAmount t.baselineAsset)

/-- Plan the two legs of the offer that was approved. -/
def planTwoLeg (rail : EntryRail) (quoteJson : String) (approvedOffer : Offer)
    (binding : AcceptedBinding) (requestedResource refundPtr : String)
    (expectedIl : Option String) : Except WalletError TwoLegPlan := do
  let quote ← openQuote codec suite idna quoteJson binding requestedResource
  require (quote.validateVectorGoverned (suite.under w.registry)) .quoteInvalid
  let il : ExpectedDest := match expectedIl with
    | some il => .asserted il
    | none => .unchecked
  require (validatePayerSideDestinations (suite.under w.registry) quote.vector il
    w.walletMeedExpectation) .quoteInvalid
  require (quote.validateBaselineMerchantNet suite) .quoteInvalid
  require (quote.offers.any fun o => o.twoLeg.isSome) .quoteInvalid
  let offer ← okOr (mirroredOffer quote.offers approvedOffer) .mirrorMismatch
  let t ← okOr (offerTerms offer) .quoteInvalid
  let tOpen ← twoLegFeasible quote t rail
  w.approveLegs quote t
  let seed ← okOr ((quote.addressInputs binding.merchantKey t.baselineAsset none).seedInstance
    suite) .derivation
  let tLapse ← okOr (addU64 tOpen t.reclaim) .quoteInvalid
  return {
    instanceAddress := VirtualRail.deriveAddress seed
    entryId := suite.entryIdPurchase seed quote.nonce t.meedAmount tOpen tLapse t.contest
    nonce := quote.nonce
    tOpen
    tLapse
    baselineAsset := t.baselineAsset
    meedAmount := t.meedAmount
    contest := t.contest
    refundPtr
    netTo := t.netTo
    netAsset := t.netAsset
    netAmount := t.netAmount
    finMeed := t.finMeed
    finNet := t.finNet }

/-- Fund the meed leg, if both legs can still be completed. What is funded stays funded, also under
another name than the plan's. -/
def fundMeedLeg (rail : EntryRail) (plan : TwoLegPlan) : Except WalletError String × EntryRail :=
  match finalityHeadroom rail.caps rail.rail.clock plan.finMeed plan.finNet plan.tOpen with
  | .error e => (.error e, rail)
  | .ok () =>
    match rail.fundEntry suite plan.instanceAddress plan.entry plan.refundPtr
      plan.baselineAsset with
    | .error e => (.error (.rail e), rail)
    | .ok ((meedRef, fundedId), rail) =>
      if fundedId != plan.entryId then (.error .entryIdMismatch, rail) else (.ok meedRef, rail)

/-- When the meed became final, if it has the quoted finality. -/
def meedFinalityTime (rail : EntryRail) (meedRef quoted : String) : Option ℕ :=
  (rail.finality meedRef).bind fun f =>
    match rail.caps.finalityLevels.idxOf? f.level, rail.caps.finalityLevels.idxOf? quoted with
    | some reached, some want => if reached ≥ want then some f.time else none
    | _, _ => none

/-- What is checked before the net leg is paid: the reference funded the plan's entry for good, and
the net leg can be final in time. -/
def netLegReady (rail : EntryRail) (plan : TwoLegPlan) (meedRef : String) :
    Except WalletError Unit := do
  let ri ← okOr (rail.refTarget meedRef) .entryIdMismatch
  require (!(rail.fundsEntry.lookup meedRef != some plan.entryId ||
    ri.asset != plan.baselineAsset || ri.memo != some plan.nonce)) .entryIdMismatch
  let meedTime ← okOr (meedFinalityTime rail meedRef plan.finMeed) .meedNotFinal
  let netFin ← okOr (addU64 rail.rail.clock rail.caps.finalityDelay) .quoteInvalid
  require (!decide (meedTime > plan.tOpen))
    (.quoteInfeasible "meed finality elapsed past the honor window")
  require (!decide (netFin > plan.tOpen))
    (.quoteInfeasible "net finality unreachable within exp+grace")

def submitNetLeg (rail : EntryRail) (plan : TwoLegPlan) (meedRef : String) :
    Except WalletError String × EntryRail :=
  match netLegReady rail plan meedRef with
  | .error e => (.error e, rail)
  | .ok () =>
    let (answer, rail) := rail.submit plan.netTransfer
    (answer.mapError .rail, rail)

end Wallet

end Paytp
