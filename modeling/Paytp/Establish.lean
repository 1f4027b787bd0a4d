import Paytp.Suite

/-!
# Establishment objects

The signed objects that open, fund and close a channel, as they are parsed: the fields each
signature covers, what a signer checks before it emits them, and how they are verified. Times
are numbers of seconds.
-/

namespace Paytp

def SCHEMA_V0_1 : ℕ := 0x01

def ROLE_INTERACTION_LAYER : UInt8 := 0x10
def ROLE_OS : UInt8 := 0x11
def ROLE_WALLET : UInt8 := 0x12
def ROLE_DEV_FUND : UInt8 := 0x13

/-- The base shares, by ascending role. -/
def SCHEMA_01_ROLES : List (UInt8 × UInt16) :=
  [(ROLE_INTERACTION_LAYER, 50), (ROLE_OS, 10), (ROLE_WALLET, 30), (ROLE_DEV_FUND, 10)]

def SKEW_SECS : ℕ := 300
def LATENCY_SECS : ℕ := 300

def MODE_PREPAY : UInt8 := 0x00
def MODE_POSTPAY : UInt8 := 0x01

/-- Does the vector have the roles and points of the schema and baseline-payable destinations? -/
def validateShapeSchema01 (suite : Suite) (schema : ℕ) (vector : List VectorEntry) : Bool :=
  schema == SCHEMA_V0_1 && vector.map (fun e => (e.role, e.bp)) == SCHEMA_01_ROLES &&
    vector.all fun e => suite.parsePointer e.dest == some true

/-- Are the destinations of the governed roles the ones the registry and the release pin? -/
def validateGovernedDestinations (suite : Suite) (namedVersion : ℕ)
    (vector : List VectorEntry) : Bool :=
  suite.governanceReady && vector.all fun e =>
    if e.role = ROLE_OS then suite.osDestinationAccepted namedVersion e.dest
    else if e.role = ROLE_DEV_FUND then e.dest == suite.devFundDest
    else true

structure ChannelAuth where
  payerKey : ByteArr 32
  channelId : ByteArr 8
  merchantKey : ByteArr 32
  denom : String
  mode : UInt8
  limitL : ℕ
  limitE : ℕ
  thValue : ℕ
  thTime : ℕ
  refundPtr : Option String
  baselineNet : String
  rateSource : Option String
  rateDev : Option ℕ
  schema : ℕ
  vector : List VectorEntry
  registryV : ℕ
  hs : ByteArr 32
  /-- The channel and the checkpoint whose position is imported. -/
  predecessor : Option (ByteArr 8 × ByteArr 32)
  timestamp : ℕ
  baselineAsset : String
  contract : ℕ
  finMeed : String
  finDenom : String
  sig : Option (ByteArr 64)
  deriving DecidableEq

namespace ChannelAuth

variable (suite : Suite) (auth : ChannelAuth)

def checkPresence : Bool :=
  auth.channelId != .replicate 8 0 &&
    (if auth.mode = MODE_PREPAY then auth.refundPtr.isSome
      else if auth.mode = MODE_POSTPAY then auth.refundPtr.isNone
      else false) &&
    auth.rateSource.isSome == (auth.denom != auth.baselineAsset) &&
    auth.rateDev.isSome == (auth.denom != auth.baselineAsset)

def validateGrammar : Bool :=
  suite.isAssetId auth.denom true && suite.isAssetId auth.baselineAsset false &&
    suite.isCaip2 auth.baselineNet &&
    auth.refundPtr.all fun rp => (suite.parsePointer rp).isSome

def contentFields : Option (List Tlv.Field) :=
  if !auth.checkPresence || !auth.validateGrammar suite then none
  else some (
    [.array 0x00 auth.payerKey, .array 0x01 auth.channelId, .array 0x02 auth.merchantKey,
      .text 0x03 auth.denom, ⟨0x04, false, [auth.mode]⟩, .uint 0x05 auth.limitL,
      .uint 0x06 auth.limitE, .uint 0x07 auth.thValue, .uint 0x08 auth.thTime] ++
    Tlv.Field.optional (.text 0x09) auth.refundPtr ++ [.text 0x0A auth.baselineNet] ++
    Tlv.Field.optional (.text 0x0B) auth.rateSource ++
    Tlv.Field.optional (.uint 0x0C) auth.rateDev ++
    [.uint 0x0D auth.schema,
      ⟨0x0E, false, Tlv.buildCountPrefixed (auth.vector.map VectorEntry.encodeItem)⟩,
      .uint 0x0F auth.registryV, .array 0x10 auth.hs] ++
    Tlv.Field.optional (fun pred : ByteArr 8 × ByteArr 32 =>
      ⟨0x12, false, pred.1.toList ++ pred.2.toList⟩) auth.predecessor ++
    [.uint 0x13 auth.timestamp, .text 0x14 auth.baselineAsset, .uint 0x15 auth.contract,
      .text 0x16 auth.finMeed, .text 0x17 auth.finDenom])

def canonicalContent : Option Bytes := (auth.contentFields suite).map Tlv.encode

def verify : Bool :=
  suite.verifySigned auth.payerKey .chanAuth (auth.contentFields suite) auth.sig

def authHash : Option (ByteArr 32) :=
  (auth.canonicalContent suite).map fun content => suite.sha256 (covered .chanAuth content)

def encode : Option Bytes :=
  (auth.contentFields suite).map fun fields =>
    Tlv.encode (fields ++ Tlv.Field.optional (.array 0x70) auth.sig)

def validateVectorGoverned : Bool :=
  validateShapeSchema01 suite auth.schema auth.vector &&
    validateGovernedDestinations suite auth.registryV auth.vector

end ChannelAuth

/-- An opening: the signed terms and the session secret sealed to the merchant. -/
structure ChannelOpen where
  auth : ChannelAuth
  sealed : Bytes
  deriving DecidableEq

def ChannelOpen.encode (suite : Suite) (o : ChannelOpen) : Option Bytes :=
  (o.auth.encode suite).map fun auth => Tlv.encode [⟨0x00, false, auth⟩, ⟨0x01, false, o.sealed⟩]

structure ChannelAck where
  authHash : ByteArr 32
  settlePtr : String
  sig : Option (ByteArr 64)
  deriving DecidableEq

namespace ChannelAck

variable (suite : Suite) (ack : ChannelAck)

def contentFields : Option (List Tlv.Field) :=
  if suite.validateText ack.settlePtr && (suite.parsePointer ack.settlePtr).isSome then
    some [.array 0x00 ack.authHash, .text 0x01 ack.settlePtr]
  else none

def sign (merchantSk : ByteArr 32) : Option ChannelAck :=
  (ack.contentFields suite).map fun fields =>
    { ack with sig := some (suite.ed25519Sign merchantSk (covered .chanAck (Tlv.encode fields))) }

def encode : Option Bytes :=
  (ack.contentFields suite).map fun fields =>
    Tlv.encode (fields ++ Tlv.Field.optional (.array 0x70) ack.sig)

end ChannelAck

structure AckRequest where
  channelId : ByteArr 8
  timestamp : ℕ
  sig : Option (ByteArr 64)
  deriving DecidableEq

namespace AckRequest

def contentFields (req : AckRequest) : List Tlv.Field :=
  [.array 0x00 req.channelId, .uint 0x01 req.timestamp]

def verify (suite : Suite) (req : AckRequest) (payerKey : ByteArr 32) : Bool :=
  suite.verifySigned payerKey .ackReq req.contentFields req.sig

end AckRequest

structure FundingProof where
  channelId : ByteArr 8
  authHash : ByteArr 32
  rail : String
  txRef : String
  amount : ℕ
  sig : Option (ByteArr 64)
  deriving DecidableEq

namespace FundingProof

variable (suite : Suite) (fp : FundingProof)

def contentFields : Option (List Tlv.Field) :=
  if suite.validateText fp.rail && suite.validateText fp.txRef && suite.isRailId fp.rail then
    some [.array 0x00 fp.channelId, .array 0x01 fp.authHash, .text 0x02 fp.rail,
      .text 0x03 fp.txRef, .uint 0x04 fp.amount]
  else none

def verify (payerKey : ByteArr 32) : Bool :=
  suite.verifySigned payerKey .funding (fp.contentFields suite) fp.sig

end FundingProof

structure Close where
  channelId : ByteArr 8
  ckptRef : ByteArr 32
  chainIntent : Bool
  sig : Option (ByteArr 64)
  deriving DecidableEq

structure CloseDecision where
  byPayer : Bool
  chainIntent : Bool
  deriving DecidableEq

namespace Close

variable (suite : Suite) (close : Close)

def contentFields : List Tlv.Field :=
  [.array 0x00 close.channelId, .array 0x01 close.ckptRef,
    ⟨0x02, false, [if close.chainIntent then 1 else 0]⟩]

/-- Accept a close signed by either party; only the payer's choice to chain counts. -/
def accept (expectedChannelId : ByteArr 8) (payerKey merchantKey : ByteArr 32) :
    Option CloseDecision :=
  if close.channelId ≠ expectedChannelId then none
  else
    let byPayer := suite.verifySigned payerKey .close close.contentFields close.sig
    let byMerchant := suite.verifySigned merchantKey .close close.contentFields close.sig
    if !byPayer && !byMerchant then none
    else some { byPayer, chainIntent := byPayer && close.chainIntent }

end Close

end Paytp
