import Paytp.Establish
import Paytp.Signing
import Paytp.Tlv

/-!
# Establishment objects on the wire

How the objects that open, fund and close a channel are parsed, and the artifact that binds the
merchant's key to its host. The check of a host's normal form is given from outside.
-/

namespace Paytp

/-! ## The binding artifact -/

structure BindingArtifact where
  host : String
  certHash : ByteArr 32
  encKey : ByteArr 32
  notBefore : ℕ
  notAfter : ℕ
  sig : Option (ByteArr 64)
  deriving DecidableEq

namespace BindingArtifact

variable (suite : Suite) (validateNormalizedHost : String → Bool) (artifact : BindingArtifact)

def contentFields : Option (List Tlv.Field) :=
  if suite.validateText artifact.host && validateNormalizedHost artifact.host then
    some [.text 0x00 artifact.host, .array 0x01 artifact.certHash, .array 0x02 artifact.encKey,
      .uint 0x03 artifact.notBefore, .uint 0x04 artifact.notAfter]
  else none

def sign (merchantSk : ByteArr 32) : Option BindingArtifact :=
  (artifact.contentFields suite validateNormalizedHost).map fun fields =>
    { artifact with
      sig := some (suite.ed25519Sign merchantSk (covered .artifact (Tlv.encode fields))) }

def encode : Option Bytes :=
  (artifact.contentFields suite validateNormalizedHost).map fun fields =>
    Tlv.encode (fields ++ Tlv.Field.optional (.array 0x70) artifact.sig)

def parse (buf : Bytes) : Except WireError BindingArtifact := do
  let obj ← Tlv.Object.parse buf
  obj.validate (.closed [0x00, 0x01, 0x02, 0x03, 0x04, 0x70])
  let host ← obj.required 0x00 (Tlv.decodeText suite.validateText)
  require (validateNormalizedHost host) .fieldDomain
  let certHash ← obj.required 0x01 (Tlv.fixed 32)
  let encKey ← obj.required 0x02 (Tlv.fixed 32)
  let notBefore ← obj.required 0x03 Tlv.decodeUintTime
  let notAfter ← obj.required 0x04 Tlv.decodeUintTime
  let sig ← obj.optional 0x70 (Tlv.fixed 64)
  return { host, certHash, encKey, notBefore, notAfter, sig }

end BindingArtifact

/-! ## Opening -/

/-- An entry of a meed vector off the front. -/
def VectorEntry.parseItem (suite : Suite) : Bytes → Except WireError (VectorEntry × ℕ) :=
  mapItem (fun (role, bp, dest) => { role, bp := UInt16.ofNat bp, dest })
    (both Tlv.readByte (both (Tlv.readBE 2) (Tlv.readLpText suite.validateText)))

namespace ChannelAuth

def decodeMode : Bytes → Except WireError UInt8
  | [mode] => .ok mode
  | _ => .error .wrongWidth

def decodePredecessor (value : Bytes) : Except WireError (ByteArr 8 × ByteArr 32) := do
  require (value.length = 40) .wrongWidth
  return (← Tlv.fixed 8 (value.take 8), ← Tlv.fixed 32 (value.drop 8))

def parse (suite : Suite) (buf : Bytes) : Except WireError ChannelAuth := do
  let obj ← Tlv.Object.parse buf
  obj.validate (.closed [0x00, 0x01, 0x02, 0x03, 0x04, 0x05, 0x06, 0x07, 0x08, 0x09, 0x0A, 0x0B,
    0x0C, 0x0D, 0x0E, 0x0F, 0x10, 0x12, 0x13, 0x14, 0x15, 0x16, 0x17, 0x70])
  let text := Tlv.decodeText suite.validateText
  let mode ← obj.required 0x04 decodeMode
  let vector ← obj.required 0x0E fun value =>
    Tlv.parseCountPrefixed value (VectorEntry.parseItem suite)
  require ((vector.map VectorEntry.role).Pairwise (· < ·)) .typeOrder
  let predecessor ← obj.optional 0x12 decodePredecessor
  let channelId ← obj.required 0x01 (Tlv.fixed 8)
  let payerKey ← obj.required 0x00 (Tlv.fixed 32)
  let merchantKey ← obj.required 0x02 (Tlv.fixed 32)
  let denom ← obj.required 0x03 text
  let limitL ← obj.required 0x05 Tlv.decodeUintU128
  let limitE ← obj.required 0x06 Tlv.decodeUintU128
  let thValue ← obj.required 0x07 Tlv.decodeUintU128
  let thTime ← obj.required 0x08 Tlv.decodeUintTime
  let refundPtr ← obj.optional 0x09 text
  let baselineNet ← obj.required 0x0A text
  let rateSource ← obj.optional 0x0B text
  let rateDev ← obj.optional 0x0C Tlv.decodeUintU128
  let schema ← obj.required 0x0D Tlv.decodeUintU32
  let registryV ← obj.required 0x0F Tlv.decodeUintU32
  let hs ← obj.required 0x10 (Tlv.fixed 32)
  let timestamp ← obj.required 0x13 Tlv.decodeUintTime
  let baselineAsset ← obj.required 0x14 text
  let contract ← obj.required 0x15 Tlv.decodeUintU32
  let finMeed ← obj.required 0x16 text
  let finDenom ← obj.required 0x17 text
  let sig ← obj.optional 0x70 (Tlv.fixed 64)
  let auth : ChannelAuth :=
    { payerKey, channelId, merchantKey, denom, mode, limitL, limitE, thValue, thTime, refundPtr
      baselineNet, rateSource, rateDev, schema, vector, registryV, hs, predecessor, timestamp
      baselineAsset, contract, finMeed, finDenom, sig }
  require auth.checkPresence
    (if auth.channelId ≠ .replicate 8 0 ∧ auth.mode = MODE_PREPAY ∧ auth.refundPtr.isNone then
      .missingField
    else .fieldDomain)
  require (auth.validateGrammar suite) .grammar
  return auth

end ChannelAuth

def ChannelOpen.parse (suite : Suite) (buf : Bytes) : Except WireError ChannelOpen := do
  let obj ← Tlv.Object.parse buf
  obj.validate (.closed [0x00, 0x01])
  let auth ← obj.required 0x00 (ChannelAuth.parse suite)
  let sealed ← obj.required 0x01 pure
  require (sealed.length = 80) .wrongWidth
  return { auth, sealed }

def ChannelAck.parse (suite : Suite) (buf : Bytes) : Except WireError ChannelAck := do
  let obj ← Tlv.Object.parse buf
  obj.validate (.closed [0x00, 0x01, 0x70])
  let settlePtr ← obj.required 0x01 (Tlv.decodeText suite.validateText)
  require (suite.parsePointer settlePtr).isSome .grammar
  let authHash ← obj.required 0x00 (Tlv.fixed 32)
  let sig ← obj.optional 0x70 (Tlv.fixed 64)
  return { authHash, settlePtr, sig }

namespace AckRequest

def encode (req : AckRequest) : Bytes :=
  Tlv.encode (req.contentFields ++ Tlv.Field.optional (.array 0x70) req.sig)

def parse (buf : Bytes) : Except WireError AckRequest := do
  let obj ← Tlv.Object.parse buf
  obj.validate (.closed [0x00, 0x01, 0x70])
  let channelId ← obj.required 0x00 (Tlv.fixed 8)
  let timestamp ← obj.required 0x01 Tlv.decodeUintTime
  let sig ← obj.optional 0x70 (Tlv.fixed 64)
  return { channelId, timestamp, sig }

end AckRequest

/-! ## Funding and closing -/

namespace FundingProof

variable (suite : Suite)

def encode (fp : FundingProof) : Option Bytes :=
  (fp.contentFields suite).map fun fields =>
    Tlv.encode (fields ++ Tlv.Field.optional (.array 0x70) fp.sig)

def parse (buf : Bytes) : Except WireError FundingProof := do
  let obj ← Tlv.Object.parse buf
  obj.validate (.closed [0x00, 0x01, 0x02, 0x03, 0x04, 0x70])
  let rail ← obj.required 0x02 (Tlv.decodeText suite.validateText)
  require (suite.isRailId rail) .fieldDomain
  let channelId ← obj.required 0x00 (Tlv.fixed 8)
  let authHash ← obj.required 0x01 (Tlv.fixed 32)
  let txRef ← obj.required 0x03 (Tlv.decodeText suite.validateText)
  let amount ← obj.required 0x04 Tlv.decodeUintU128
  let sig ← obj.optional 0x70 (Tlv.fixed 64)
  return { channelId, authHash, rail, txRef, amount, sig }

end FundingProof

namespace Close

def encode (close : Close) : Bytes :=
  Tlv.encode (close.contentFields ++ Tlv.Field.optional (.array 0x70) close.sig)

/-- One byte, zero or one. -/
def decodeIntent : Bytes → Except WireError Bool
  | [0x00] => .ok false
  | [0x01] => .ok true
  | _ => .error .fieldDomain

def parse (buf : Bytes) : Except WireError Close := do
  let obj ← Tlv.Object.parse buf
  obj.validate (.closed [0x00, 0x01, 0x02, 0x70])
  let chainIntent ← obj.required 0x02 decodeIntent
  let channelId ← obj.required 0x00 (Tlv.fixed 8)
  let ckptRef ← obj.required 0x01 (Tlv.fixed 32)
  let sig ← obj.optional 0x70 (Tlv.fixed 64)
  return { channelId, ckptRef, chainIntent, sig }

end Close

end Paytp
