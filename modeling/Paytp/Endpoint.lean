import Paytp.Carriage

/-!
# The merchant carriage: endpoints

What arrives at the three resources of a merchant. A body at `/channel` and at `/ack` is a type
octet and an object; a body at `/batch` names a channel and carries its slices. How an object is
parsed depends on its bytes alone and is given from outside.
-/

namespace Paytp

/-- The parsers of the objects that arrive. -/
structure Codec where
  channelOpen : Bytes → Option ChannelOpen
  checkpointRequest : Bytes → Option CheckpointRequest
  fundingProof : Bytes → Option FundingProof
  settlementPropose : Bytes → Option SettlementPropose
  settlementProof : Bytes → Option SettlementProof
  close : Bytes → Option Close
  ackRequest : Bytes → Option AckRequest
  /-- The framed head and slices of a batch. -/
  batch : Bytes → Option (ByteArr 8 × List Slice)

namespace Endpoint

/-! The type octets of the control objects. -/

def T_CHANNEL_OPEN : UInt8 := 0x01
def T_CHANNEL_ACK : UInt8 := 0x02
def T_CHECKPOINT_REQUEST : UInt8 := 0x03
def T_CHECKPOINT : UInt8 := 0x04
def T_FUNDING_PROOF : UInt8 := 0x05
def T_SETTLEMENT_PROPOSE : UInt8 := 0x06
def T_SETTLEMENT_PROOF : UInt8 := 0x07
def T_SETTLEMENT_CONFIRMED : UInt8 := 0x08
def T_CLOSE : UInt8 := 0x09
def T_ACK_REQUEST : UInt8 := 0x0A

/-- Why a body is refused: for its type octet, or by the handler of its object. -/
inductive Refusal
  | unknownType
  | misrouted
  | unsupported
  | refused (e : CarriageError)
  deriving DecidableEq, Repr

variable {ρ : Type} (codec : Codec) (env : Env ρ) (fails : StoreFaults) (s : Carriage ρ)

/-- Parse an object and hand it to its handler. -/
def handled {α : Type} (object : Option α)
    (handler : α → Except CarriageError Response × Carriage ρ) :
    Except Refusal Response × Carriage ρ :=
  match object with
  | none => (.error (.refused .malformed), s)
  | some o => ((handler o).1.mapError .refused, (handler o).2)

def channel (body : Bytes) (now : ℕ) : Except Refusal Response × Carriage ρ :=
  match body with
  | [] => (.error .unknownType, s)
  | octet :: obj =>
    if octet = T_CHANNEL_OPEN then
      handled s (codec.channelOpen obj) fun o => s.onOpen env fails o now
    else if octet = T_CHECKPOINT_REQUEST then
      handled s (codec.checkpointRequest obj) (s.onCheckpointRequest env)
    else if octet = T_FUNDING_PROOF then
      handled s (codec.fundingProof obj) (s.onFunding env fails)
    else if octet = T_SETTLEMENT_PROPOSE then
      handled s (codec.settlementPropose obj) (s.onSettlementPropose env)
    else if octet = T_SETTLEMENT_PROOF then
      handled s (codec.settlementProof obj) (s.onSettlementProof env fails)
    else if octet = T_CLOSE then handled s (codec.close obj) (s.onClose env fails)
    else if octet = T_CHECKPOINT ∨ octet = T_SETTLEMENT_CONFIRMED then (.error .unsupported, s)
    else if octet = T_ACK_REQUEST ∨ octet = T_CHANNEL_ACK then (.error .misrouted, s)
    else (.error .unknownType, s)

def ack (body : Bytes) (now : ℕ) : Except Refusal Response × Carriage ρ :=
  match body with
  | [] => (.error .unknownType, s)
  | octet :: obj =>
    if octet = T_ACK_REQUEST then
      handled s (codec.ackRequest obj) fun req => (s.ack env req now, s)
    else (.error .misrouted, s)

def batch (body : Bytes) : Except Refusal Response × Carriage ρ :=
  handled s (codec.batch body) fun (cid, slices) => s.batch env cid slices

/-- A body at one of the resources. -/
inductive Post
  | channel (body : Bytes)
  | ack (body : Bytes)
  | batch (body : Bytes)

def post (now : ℕ) : Post → Except Refusal Response × Carriage ρ
  | .channel body => channel codec env fails s body now
  | .ack body => ack codec env s body now
  | .batch body => batch codec env s body

/-! ## Authentication -/

/-- Does a body at `/channel` open a channel? -/
def Post.opens : Post → Bool
  | .channel body => body.head? == some T_CHANNEL_OPEN
  | .ack _ | .batch _ => false

/-- Does an object verify under the key of the payer whose channel it names? -/
def signedBy {α : Type} (object : Option α) (cid : α → ByteArr 8)
    (verifies : α → ByteArr 32 → Bool) : Bool :=
  object.any fun o => (s.driver.payerKey (cid o)).any (verifies o)

/-- Does a body carry what its handler authenticates: the signatures under the key of the channel
it names, or the tag of its first slice? The merchant may sign a close as well. -/
def authentic : Post → Bool
  | .channel [] | .ack [] => false
  | .channel (octet :: obj) =>
    if octet = T_CHECKPOINT_REQUEST then
      signedBy s (codec.checkpointRequest obj) (fun request => request.proposed.channelId)
        (CheckpointRequest.verify env.suite)
    else if octet = T_FUNDING_PROOF then
      signedBy s (codec.fundingProof obj) FundingProof.channelId fun fp => fp.verify env.suite
    else if octet = T_SETTLEMENT_PROPOSE then
      signedBy s (codec.settlementPropose obj) SettlementPropose.channelId fun p =>
        p.verifyPayer env.suite
    else if octet = T_SETTLEMENT_PROOF then
      signedBy s (codec.settlementProof obj) SettlementProof.channelId
        (SettlementProof.verifyPayer env.suite)
    else if octet = T_CLOSE then
      signedBy s (codec.close obj) Close.channelId fun close payerKey =>
        (close.accept env.suite close.channelId payerKey s.driver.key).isSome
    else false
  | .ack (octet :: obj) =>
    if octet = T_ACK_REQUEST then
      signedBy s (codec.ackRequest obj) AckRequest.channelId (AckRequest.verify env.suite)
    else false
  | .batch body =>
    (codec.batch body).any fun (cid, slices) =>
      (s.channels.lookup cid).any fun state =>
        slices.head?.any fun slice =>
          state.kSession.any (slice.verify env.suite.toCrypto)

end Endpoint

end Paytp
