import Paytp.SettleWire

/-!
# Checkpoints on the wire

How a checkpoint and the request that proposes one are parsed.
-/

namespace Paytp

namespace Checkpoint

/-- The magnitude of a balance and whether it is below zero. -/
def decodeBalance (value : Bytes) : Except WireError (ℕ × Bool) := do
  let bal ← Tlv.decodeSint value
  require (bal.natAbs ≤ VALUE_MAX) .fieldDomain
  return (bal.natAbs, decide (bal < 0))

/-- Eight bytes that no sender's number passes. -/
def decodeLastSeq (value : Bytes) : Except WireError ℕ := do
  let seq ← Tlv.fixed 8 value
  require (ofBE seq.toList ≤ SEQ_MAX) .fieldDomain
  return ofBE seq.toList

def parseRange : Bytes → Except WireError (Range × ℕ) :=
  onlyItem (fun r => decide (r.lo ≤ r.hi) && decide (r.hi ≤ SEQ_MAX)) .fieldDomain
    (mapItem (fun (lo, hi) => { lo, hi }) (both (Tlv.readBE 8) (Tlv.readBE 8)))

/-- `0x01` to `0x03`. -/
def isEventKind (kind : UInt8) : Bool := 0x01 ≤ kind && kind ≤ 0x03

def parseEvent : Bytes → Except WireError (CkptEvent × ℕ) :=
  mapItem (fun (kind, reference) => { kind, reference })
    (both (onlyItem isEventKind .fieldDomain Tlv.readByte) Tlv.readLp)

/-- Neither overlapping nor adjacent. -/
def rangesApart (ranges : List Range) : Bool := decide (ranges.IsChain fun a b => a.hi + 1 < b.lo)

/-- Ascending by kind, then by reference. -/
def eventsAscending (events : List CkptEvent) : Bool :=
  decide (events.Pairwise fun a b =>
    a.kind < b.kind ∨ a.kind = b.kind ∧ a.reference < b.reference)

def parse (buf : Bytes) : Except WireError Checkpoint := do
  let obj ← Tlv.Object.parse buf
  obj.validate
    (.closed [0x00, 0x01, 0x02, 0x03, 0x04, 0x05, 0x06, 0x07, 0x08, 0x09, 0x70, 0x71])
  let channelId ← obj.required 0x00 (Tlv.fixed 8)
  let bal ← obj.required 0x01 decodeBalance
  let cumTotal ← obj.required 0x02 Tlv.decodeUintU128
  let accruals ← obj.required 0x03 fun value => Tlv.parseCountPrefixed value parseRoleItem
  require (rolesAscending accruals) .typeOrder
  let lastSeq ← obj.required 0x04 decodeLastSeq
  let ranges ← obj.required 0x05 fun value => Tlv.parseCountPrefixed value parseRange
  require (rangesApart ranges) .typeOrder
  let transcript ← obj.required 0x06 (Tlv.fixed 32)
  let events ← obj.required 0x07 fun value => Tlv.parseCountPrefixed value parseEvent
  require (eventsAscending events) .typeOrder
  let timestamp ← obj.required 0x08 Tlv.decodeUintTime
  let prevRef ← obj.required 0x09 (Tlv.fixed 32)
  let sigPayer ← obj.optional 0x70 (Tlv.fixed 64)
  let sigMerchant ← obj.optional 0x71 (Tlv.fixed 64)
  return { channelId, balance := bal.1, balanceNegative := bal.2, cumTotal, accruals, lastSeq
           ranges, transcript, events, timestamp, prevRef, sigPayer, sigMerchant }

end Checkpoint

namespace CheckpointRequest

def encode (request : CheckpointRequest) : Bytes :=
  Tlv.encode (request.contentFields ++ Tlv.Field.optional (.array 0x70) request.sig)

def parse (buf : Bytes) : Except WireError CheckpointRequest := do
  let obj ← Tlv.Object.parse buf
  obj.validate (.closed [0x00, 0x70])
  let proposed ← obj.required 0x00 Checkpoint.parse
  let sig ← obj.optional 0x70 (Tlv.fixed 64)
  return { proposed, sig }

end CheckpointRequest

end Paytp
