import Paytp.ChannelState
import Paytp.Suite

/-!
# Checkpoint and settlement objects

The checkpoint as it is signed and named, the request that proposes one, the synthetic checkpoint
of a channel that never signed one, and the messages of a settlement round. A reference is the
hash of the complete bytes, signatures included.
-/

namespace Paytp

/-- The highest µ-unit value. -/
def VALUE_MAX : ℕ := 2 ^ 128 - 1

def roleItem (entry : UInt8 × ℕ) : Bytes := entry.1 :: Tlv.pushLp (Tlv.encodeUint entry.2)

/-- Roles strictly ascending, so that none is there twice. -/
def rolesAscending (entries : List (UInt8 × ℕ)) : Bool :=
  decide ((entries.map Prod.fst).Pairwise (· < ·))

namespace Checkpoint

variable (suite : Suite) (cp : Checkpoint)

def contentFields : List Tlv.Field :=
  let balance : ℤ := if cp.balanceNegative then -cp.balance else cp.balance
  [.array 0x00 cp.channelId, ⟨0x01, false, Tlv.encodeSint balance⟩, .uint 0x02 cp.cumTotal,
    ⟨0x03, false, Tlv.buildCountPrefixed (cp.accruals.map roleItem)⟩,
    ⟨0x04, false, toBE 8 cp.lastSeq⟩,
    ⟨0x05, false, Tlv.buildCountPrefixed (cp.ranges.map fun r => toBE 8 r.lo ++ toBE 8 r.hi)⟩,
    .array 0x06 cp.transcript,
    ⟨0x07, false,
      Tlv.buildCountPrefixed (cp.events.map fun e => e.kind :: Tlv.pushLp e.reference)⟩,
    .uint 0x08 cp.timestamp, .array 0x09 cp.prevRef]

def coveredBytes : Bytes := covered .ckpt (Tlv.encode cp.contentFields)

def signMerchant (merchantSk : ByteArr 32) : Checkpoint :=
  { cp with sigMerchant := some (suite.ed25519Sign merchantSk cp.coveredBytes) }

def verifyPayer (payerPk : ByteArr 32) : Bool :=
  suite.verifySigned payerPk .ckpt cp.contentFields cp.sigPayer

def encode : Bytes :=
  Tlv.encode (cp.contentFields ++ Tlv.Field.optional (.array 0x70) cp.sigPayer ++
    Tlv.Field.optional (.array 0x71) cp.sigMerchant)

/-- The name of a countersigned checkpoint. -/
def reference : Option (ByteArr 32) :=
  if cp.sigPayer.isNone || cp.sigMerchant.isNone then none else some (suite.sha256 cp.encode)

/-- The name of a checkpoint nobody signed. -/
def syntheticReference : Option (ByteArr 32) :=
  if cp.sigPayer.isSome || cp.sigMerchant.isSome then none else some (suite.sha256 cp.encode)

end Checkpoint

structure CheckpointRequest where
  proposed : Checkpoint
  sig : Option (ByteArr 64)
  deriving DecidableEq

namespace CheckpointRequest

def contentFields (request : CheckpointRequest) : List Tlv.Field :=
  [⟨0x00, false, request.proposed.encode⟩]

/-- Both signatures are the payer's, and the merchant's slot is still empty. -/
def verify (suite : Suite) (request : CheckpointRequest) (payerPk : ByteArr 32) : Bool :=
  request.proposed.sigMerchant.isNone &&
    suite.verifySigned payerPk .ckptReq request.contentFields request.sig &&
    request.proposed.verifyPayer suite payerPk

end CheckpointRequest

/-- The position of a channel that has no checkpoint of its own. -/
structure StillbornState where
  channelId : ByteArr 8
  prepay : Bool
  cumTotal : ℕ
  accruals : List (UInt8 × ℕ)
  settledSum : ℕ
  netLegsSum : ℕ
  fundingSum : ℕ
  timestamp : ℕ
  prevRef : ByteArr 32

namespace StillbornState

variable (suite : Suite) (st : StillbornState)

/-- The magnitude of the balance and whether it is negative. -/
def syntheticBalance : Option (ℕ × Bool) :=
  if st.prepay then
    if st.cumTotal > st.fundingSum then none
    else
      let mag := st.fundingSum - st.cumTotal
      some (mag, mag != 0)
  else
    let balance : ℤ :=
      st.cumTotal - st.fundingSum - st.netLegsSum - ((st.settledSum / 10000 : ℕ) : ℤ)
    some (balance.natAbs, decide (balance < 0))

def syntheticCheckpoint : Option Checkpoint :=
  st.syntheticBalance.map fun (balance, balanceNegative) =>
    { channelId := st.channelId
      balance
      balanceNegative
      cumTotal := st.cumTotal
      accruals := st.accruals
      lastSeq := 0
      ranges := []
      transcript := Transcript.head0 suite.toCrypto st.channelId
      events := if st.prevRef = .replicate 32 0 then [] else [⟨0x03, st.prevRef.toList⟩]
      timestamp := st.timestamp
      prevRef := st.prevRef
      sigPayer := none
      sigMerchant := none }

end StillbornState

/-! ## Settlement rounds -/

structure Output where
  amount : ℕ
  asset : String
  dest : String
  deriving DecidableEq

namespace Output

def encodeItem (o : Output) : Bytes :=
  Tlv.pushLp (Tlv.encodeUint o.amount) ++ Tlv.pushLp (Bytes.ofString o.asset) ++
    Tlv.pushLp (Bytes.ofString o.dest)

/-- Amounts in their domain, strictly ascending by destination and then by asset. -/
def checkOutputs (outputs : List Output) : Bool :=
  outputs.all (fun o => o.amount != 0 && decide (o.amount ≤ VALUE_MAX)) &&
    decide (outputs.Pairwise fun a b => a.dest < b.dest ∨ a.dest = b.dest ∧ a.asset < b.asset)

end Output

/-- A leg already paid that a retry names. -/
structure CreditedLeg where
  kind : UInt8
  rail : String
  reference : String
  finality : String
  deriving DecidableEq

structure InstanceLeg where
  amount : ℕ
  credited : List CreditedLeg
  extinguished : List (UInt8 × ℕ)
  deriving DecidableEq

namespace InstanceLeg

variable (leg : InstanceLeg)

def validate : Bool :=
  leg.amount != 0 && decide (leg.amount ≤ VALUE_MAX) && !leg.extinguished.isEmpty &&
    leg.extinguished.all (fun e => decide (e.2 ≤ VALUE_MAX)) &&
    (leg.extinguished.map Prod.snd).sum != 0 && rolesAscending leg.extinguished &&
    leg.credited.all (fun c => c.kind == 0x01 || c.kind == 0x02) &&
    decide (leg.credited.Pairwise fun a b =>
      a.kind < b.kind ∨ a.kind = b.kind ∧ a.reference < b.reference)

def encode : Option Bytes :=
  if !leg.validate then none
  else some (Tlv.encode [.uint 0x00 leg.amount,
    ⟨0x01, false, Tlv.buildCountPrefixed (leg.credited.map fun c =>
      c.kind :: (Tlv.pushLp (Bytes.ofString c.rail) ++ Tlv.pushLp (Bytes.ofString c.reference) ++
        Tlv.pushLp (Bytes.ofString c.finality)))⟩,
    ⟨0x02, false, Tlv.buildCountPrefixed (leg.extinguished.map roleItem)⟩])

end InstanceLeg

/-- A positive decimal without leading or trailing zeros. -/
def validateRate (suite : Suite) (s : String) : Bool :=
  suite.validateText s &&
    (match s.toList.splitOn '.' with
      | [int] => intPart int
      | [int, frac] => intPart int && allDigits frac && frac.getLast? != some '0'
      | _ => false) &&
    s.toList.any fun c => c.isDigit && c != '0'
where
  allDigits (x : List Char) : Bool := !x.isEmpty && x.all Char.isDigit
  intPart (x : List Char) : Bool :=
    allDigits x && !(decide (1 < x.length) && x.head? == some '0')

structure Conversion where
  rate : String
  rateTime : ℕ
  rateExp : ℕ
  rateGrace : ℕ
  deriving DecidableEq

def Conversion.encode (suite : Suite) (c : Conversion) : Option Bytes :=
  if !validateRate suite c.rate then none
  else some (Tlv.encode
    [.text 0x00 c.rate, .uint 0x01 c.rateTime, .uint 0x02 c.rateExp, .uint 0x03 c.rateGrace])

structure SettlementPropose where
  channelId : ByteArr 8
  ckptRef : ByteArr 32
  outputs : List Output
  instanceLeg : Option InstanceLeg
  conversion : Option Conversion
  sigPayer : Option (ByteArr 64)
  sigMerchant : Option (ByteArr 64)
  deriving DecidableEq

namespace SettlementPropose

variable (suite : Suite) (p : SettlementPropose)

def contentFields : Option (List Tlv.Field) :=
  if !Output.checkOutputs p.outputs then none
  else do
    let leg ← p.instanceLeg.mapM InstanceLeg.encode
    let conversion ← p.conversion.mapM (Conversion.encode suite)
    return [.array 0x00 p.channelId, .array 0x01 p.ckptRef,
        ⟨0x02, false, Tlv.buildCountPrefixed (p.outputs.map Output.encodeItem)⟩] ++
      Tlv.Field.optional (fun leg => ⟨0x03, false, leg⟩) leg ++
      Tlv.Field.optional (fun conversion => ⟨0x04, false, conversion⟩) conversion

def verifyPayer (payerKey : ByteArr 32) : Bool :=
  suite.verifySigned payerKey .settlePropose (p.contentFields suite) p.sigPayer

def encode : Option Bytes :=
  (p.contentFields suite).map fun fields =>
    Tlv.encode (fields ++ Tlv.Field.optional (.array 0x70) p.sigPayer ++
      Tlv.Field.optional (.array 0x71) p.sigMerchant)

def proposalHash : Option (ByteArr 32) := (p.encode suite).map suite.sha256

end SettlementPropose

/-- A rail reference a proof names, and the leg it is for. -/
structure TxRef where
  leg : UInt8
  reference : String
  finality : String
  deriving DecidableEq

structure SettlementProof where
  channelId : ByteArr 8
  proposalHash : ByteArr 32
  txRefs : List TxRef
  sigPayer : Option (ByteArr 64)
  sigMerchant : Option (ByteArr 64)
  deriving DecidableEq

namespace SettlementProof

def contentFields (proof : SettlementProof) : Option (List Tlv.Field) :=
  if proof.txRefs.all (fun t => t.leg == 0x01 || t.leg == 0x02) &&
      decide (proof.txRefs.Pairwise fun a b =>
        a.leg < b.leg ∨ a.leg = b.leg ∧ a.reference < b.reference) then
    some [.array 0x00 proof.channelId, .array 0x01 proof.proposalHash,
      ⟨0x02, false, Tlv.buildCountPrefixed (proof.txRefs.map fun t =>
        t.leg :: (Tlv.pushLp (Bytes.ofString t.reference) ++
          Tlv.pushLp (Bytes.ofString t.finality)))⟩]
  else none

def verifyPayer (suite : Suite) (proof : SettlementProof) (key : ByteArr 32) : Bool :=
  suite.verifySigned key .settleProof proof.contentFields proof.sigPayer

end SettlementProof

structure SettlementConfirmed where
  channelId : ByteArr 8
  proposalHash : ByteArr 32
  sigPayer : Option (ByteArr 64)
  sigMerchant : Option (ByteArr 64)
  deriving DecidableEq

namespace SettlementConfirmed

def contentFields (c : SettlementConfirmed) : List Tlv.Field :=
  [.array 0x00 c.channelId, .array 0x01 c.proposalHash]

def signMerchant (suite : Suite) (c : SettlementConfirmed) (sk : ByteArr 32) :
    SettlementConfirmed :=
  let sig := suite.ed25519Sign sk (covered .settleConfirm (Tlv.encode c.contentFields))
  { c with sigMerchant := some sig }

end SettlementConfirmed

/-- The notice of a completed interim draw. -/
structure PrepayDrawCompleted where
  channelId : ByteArr 8
  ckptRef : ByteArr 32
  amount : ℕ
  extinguished : List (UInt8 × ℕ)
  claimRecord : ByteArr 32
  rail : String
  txRef : String
  finality : String
  sigMerchant : Option (ByteArr 64)
  deriving DecidableEq

namespace PrepayDrawCompleted

def contentFields (m : PrepayDrawCompleted) : List Tlv.Field :=
  [.array 0x00 m.channelId, .array 0x01 m.ckptRef, .uint 0x02 m.amount,
    ⟨0x03, false, Tlv.buildCountPrefixed (m.extinguished.map roleItem)⟩,
    .array 0x04 m.claimRecord, .text 0x05 m.rail, .text 0x06 m.txRef, .text 0x07 m.finality]

def signMerchant (suite : Suite) (m : PrepayDrawCompleted) (sk : ByteArr 32) :
    PrepayDrawCompleted :=
  let sig := suite.ed25519Sign sk (covered .prepayDraw (Tlv.encode m.contentFields))
  { m with sigMerchant := some sig }

end PrepayDrawCompleted

end Paytp
