import Paytp.Settle
import Paytp.Tlv

/-!
# Settlement messages on the wire

How the messages of a settlement round and the notice of an interim draw are parsed, and what is
encoded of those that only an endpoint's own slot signs. An error is that of the first check that
fails.
-/

namespace Paytp

/-- A role and its number off the front. -/
def parseRoleItem : Bytes → Except WireError ((UInt8 × ℕ) × ℕ) := both Tlv.readByte Tlv.readLpUint

/-! ## Proposals -/

namespace Output

variable (suite : Suite)

def parseItem : Bytes → Except WireError (Output × ℕ) :=
  mapItem (fun (amount, asset, dest) => { amount, asset, dest })
    (both Tlv.readLpUint
      (both (Tlv.readLpText suite.validateText) (Tlv.readLpText suite.validateText)))

/-- Why `checkOutputs` fails. -/
def outputsError (outputs : List Output) : WireError :=
  if outputs.all fun o => o.amount != 0 && decide (o.amount ≤ VALUE_MAX) then .typeOrder
  else .fieldDomain

end Output

namespace CreditedLeg

def encodeItem (c : CreditedLeg) : Bytes :=
  c.kind :: (Tlv.pushLp (Bytes.ofString c.rail) ++ Tlv.pushLp (Bytes.ofString c.reference) ++
    Tlv.pushLp (Bytes.ofString c.finality))

def parseItem (suite : Suite) : Bytes → Except WireError (CreditedLeg × ℕ) :=
  mapItem (fun (kind, rail, reference, finality) => { kind, rail, reference, finality })
    (both Tlv.readByte (both (Tlv.readLpText suite.validateText)
      (both (Tlv.readLpText suite.validateText) (Tlv.readLpText suite.validateText))))

end CreditedLeg

namespace InstanceLeg

/-- Why `validate` fails. -/
def validateError (leg : InstanceLeg) : WireError :=
  if leg.amount == 0 || leg.extinguished.isEmpty ||
      leg.extinguished.any (fun e => decide (VALUE_MAX < e.2)) ||
      (leg.extinguished.map Prod.snd).sum == 0 then .fieldDomain
  else if !rolesAscending leg.extinguished then .typeOrder
  else if leg.credited.any fun c => c.kind != 0x01 && c.kind != 0x02 then .fieldDomain
  else .typeOrder

def parse (suite : Suite) (buf : Bytes) : Except WireError InstanceLeg := do
  let obj ← Tlv.Object.parse buf
  obj.validate (.closed [0x00, 0x01, 0x02])
  let amount ← obj.required 0x00 Tlv.decodeUintU128
  let credited ← obj.required 0x01 fun value =>
    Tlv.parseCountPrefixed value (CreditedLeg.parseItem suite)
  let extinguished ← obj.required 0x02 fun value => Tlv.parseCountPrefixed value parseRoleItem
  let leg : InstanceLeg := { amount, credited, extinguished }
  require leg.validate leg.validateError
  return leg

end InstanceLeg

def Conversion.parse (suite : Suite) (buf : Bytes) : Except WireError Conversion := do
  let obj ← Tlv.Object.parse buf
  obj.validate (.closed [0x00, 0x01, 0x02, 0x03])
  let rate ← obj.required 0x00 Tlv.decodeUtf8
  require (validateRate suite rate) (if suite.validateText rate then .fieldDomain else .textInvalid)
  let rateTime ← obj.required 0x01 Tlv.decodeUintU64
  let rateExp ← obj.required 0x02 Tlv.decodeUintU64
  let rateGrace ← obj.required 0x03 Tlv.decodeUintU64
  return { rate, rateTime, rateExp, rateGrace }

def SettlementPropose.parse (suite : Suite) (buf : Bytes) : Except WireError SettlementPropose := do
  let obj ← Tlv.Object.parse buf
  obj.validate (.closed [0x00, 0x01, 0x02, 0x03, 0x04, 0x70, 0x71])
  let outputs ← obj.required 0x02 fun value => Tlv.parseCountPrefixed value (Output.parseItem suite)
  require (Output.checkOutputs outputs) (Output.outputsError outputs)
  let channelId ← obj.required 0x00 (Tlv.fixed 8)
  let ckptRef ← obj.required 0x01 (Tlv.fixed 32)
  let instanceLeg ← obj.optional 0x03 (InstanceLeg.parse suite)
  let conversion ← obj.optional 0x04 (Conversion.parse suite)
  let sigPayer ← obj.optional 0x70 (Tlv.fixed 64)
  let sigMerchant ← obj.optional 0x71 (Tlv.fixed 64)
  return { channelId, ckptRef, outputs, instanceLeg, conversion, sigPayer, sigMerchant }

/-! ## Proofs and confirmations -/

namespace TxRef

def encodeItem (t : TxRef) : Bytes :=
  t.leg :: (Tlv.pushLp (Bytes.ofString t.reference) ++ Tlv.pushLp (Bytes.ofString t.finality))

def parseItem (suite : Suite) : Bytes → Except WireError (TxRef × ℕ) :=
  mapItem (fun (leg, reference, finality) => { leg, reference, finality })
    (both (onlyItem (fun leg => leg == 0x01 || leg == 0x02) .fieldDomain Tlv.readByte)
      (both (Tlv.readLpText suite.validateText) (Tlv.readLpText suite.validateText)))

end TxRef

namespace SettlementProof

/-- Exactly one slot is signed. -/
def encode (proof : SettlementProof) : Option Bytes :=
  if proof.sigPayer.isSome == proof.sigMerchant.isSome then none
  else proof.contentFields.map fun fields =>
    Tlv.encode (fields ++ Tlv.Field.optional (.array 0x70) proof.sigPayer ++
      Tlv.Field.optional (.array 0x71) proof.sigMerchant)

def parse (suite : Suite) (buf : Bytes) : Except WireError SettlementProof := do
  let obj ← Tlv.Object.parse buf
  obj.validate (.closed [0x00, 0x01, 0x02, 0x70, 0x71])
  require ((obj.get 0x70).isSome != (obj.get 0x71).isSome) .missingField
  let txRefs ← obj.required 0x02 fun value => Tlv.parseCountPrefixed value (TxRef.parseItem suite)
  require (txRefs.Pairwise fun a b => a.leg < b.leg ∨ a.leg = b.leg ∧ a.reference < b.reference)
    .typeOrder
  let channelId ← obj.required 0x00 (Tlv.fixed 8)
  let proposalHash ← obj.required 0x01 (Tlv.fixed 32)
  let sigPayer ← obj.optional 0x70 (Tlv.fixed 64)
  let sigMerchant ← obj.optional 0x71 (Tlv.fixed 64)
  return { channelId, proposalHash, txRefs, sigPayer, sigMerchant }

end SettlementProof

namespace SettlementConfirmed

/-- Exactly one slot is signed. -/
def encode (c : SettlementConfirmed) : Option Bytes :=
  if c.sigPayer.isSome == c.sigMerchant.isSome then none
  else some (Tlv.encode (c.contentFields ++ Tlv.Field.optional (.array 0x70) c.sigPayer ++
    Tlv.Field.optional (.array 0x71) c.sigMerchant))

def parse (buf : Bytes) : Except WireError SettlementConfirmed := do
  let obj ← Tlv.Object.parse buf
  obj.validate (.closed [0x00, 0x01, 0x70, 0x71])
  require ((obj.get 0x70).isSome != (obj.get 0x71).isSome) .missingField
  let channelId ← obj.required 0x00 (Tlv.fixed 8)
  let proposalHash ← obj.required 0x01 (Tlv.fixed 32)
  let sigPayer ← obj.optional 0x70 (Tlv.fixed 64)
  let sigMerchant ← obj.optional 0x71 (Tlv.fixed 64)
  return { channelId, proposalHash, sigPayer, sigMerchant }

end SettlementConfirmed

/-! ## Notices of a draw -/

namespace PrepayDrawCompleted

variable (suite : Suite) (m : PrepayDrawCompleted)

def validateAmounts : Bool :=
  m.amount != 0 && decide (m.amount ≤ VALUE_MAX) && !m.extinguished.isEmpty &&
    m.extinguished.all (fun e => decide (e.2 ≤ VALUE_MAX)) &&
    (m.extinguished.map Prod.snd).sum != 0

def validateRailFacts : Bool := m.rail != "" && m.txRef != "" && m.finality != ""

def validate : Bool :=
  m.validateAmounts && rolesAscending m.extinguished && m.validateRailFacts &&
    suite.validateText m.rail && suite.validateText m.txRef && suite.validateText m.finality

/-- Why `validate` fails. -/
def validateError : WireError :=
  if !m.validateAmounts then .fieldDomain
  else if !rolesAscending m.extinguished then .typeOrder
  else if !m.validateRailFacts then .fieldDomain
  else .textInvalid

/-- The slot of the merchant has to be signed. -/
def encode : Option Bytes :=
  if !m.validate suite then none
  else m.sigMerchant.map fun sig => Tlv.encode (m.contentFields ++ [.array 0x70 sig])

def parse (buf : Bytes) : Except WireError PrepayDrawCompleted := do
  let obj ← Tlv.Object.parse buf
  obj.validate (.closed [0x00, 0x01, 0x02, 0x03, 0x04, 0x05, 0x06, 0x07, 0x70])
  let amount ← obj.required 0x02 Tlv.decodeUintBiguint
  let extinguished ← obj.required 0x03 fun value => Tlv.parseCountPrefixed value parseRoleItem
  let channelId ← obj.required 0x00 (Tlv.fixed 8)
  let ckptRef ← obj.required 0x01 (Tlv.fixed 32)
  let claimRecord ← obj.required 0x04 (Tlv.fixed 32)
  let rail ← obj.required 0x05 Tlv.decodeUtf8
  let txRef ← obj.required 0x06 Tlv.decodeUtf8
  let finality ← obj.required 0x07 Tlv.decodeUtf8
  let sigMerchant ← obj.optional 0x70 (Tlv.fixed 64)
  let m : PrepayDrawCompleted :=
    { channelId, ckptRef, amount, extinguished, claimRecord, rail, txRef, finality, sigMerchant }
  require (m.validate suite) m.validateError
  return m

end PrepayDrawCompleted

end Paytp
