import Paytp.Kit.Entry
import Paytp.Rail
import Paytp.Suite

/-!
# Purchase entries on the virtual rail

The entry machine of a meed instance as the rail hosts it: the merchant signs what attests and
what cancels an entry, and what an operation divides or refunds is paid out at once.
-/

namespace Paytp

/-! ## Attestations and cancellations -/

namespace Attest

inductive Kind
  | attestation
  | cancellation
  deriving DecidableEq, Repr

def Kind.label : Kind → DomainLabel
  | attestation => .attest
  | cancellation => .cancel

structure Signed where
  kind : Kind
  nonce : ByteArr 32
  entryId : ByteArr 32
  sig : ByteArr 64
  deriving DecidableEq

def contentFields (nonce entryId : ByteArr 32) : List Tlv.Field :=
  [.array 0x00 nonce, .array 0x01 entryId]

def coveredBytes (kind : Kind) (nonce entryId : ByteArr 32) : Bytes :=
  covered kind.label (Tlv.encode (contentFields nonce entryId))

def Signed.create (suite : Suite) (kind : Kind) (nonce entryId merchantSk : ByteArr 32) : Signed :=
  { kind, nonce, entryId, sig := suite.ed25519Sign merchantSk (coveredBytes kind nonce entryId) }

/-- An attestation is not signed as a cancellation is. -/
def Signed.verify (suite : Suite) (signed : Signed) (merchantPk : ByteArr 32) : Bool :=
  suite.ed25519VerifyStrict merchantPk (coveredBytes signed.kind signed.nonce signed.entryId)
    signed.sig

end Attest

open Attest Kit

inductive EntryStatus
  | funded
  | attested
  | cancelled
  | reclaimOpen
  | reclaimed
  | lapsed
  deriving DecidableEq, Repr

inductive EntryError
  | duplicate
  | lapsed
  | zeroAmount
  | notFound
  | terminal
  | badSignature
  | window
  deriving DecidableEq, Repr

/-- A purchase entry's identifier. -/
def Suite.entryIdPurchase (suite : Suite) (seedInstance nonce : ByteArr 32)
    (amt tOpen tLapse contest : ℕ) : ByteArr 32 :=
  suite.labelledHash "PayTPv1-entry" (seedInstance.toList ++ nonce.toList ++ toBE 16 amt ++
    toBE 8 tOpen ++ toBE 8 tLapse ++ toBE 8 contest)

namespace PurchaseInstance

inductive State
  | funded
  | attested
  | cancelled
  | reclaimOpen (openedAt : ℕ)
  | reclaimed
  | lapsed
  deriving DecidableEq, Repr

structure Entry extends EntryTerms where
  refundPtr : String
  state : State
  deriving DecidableEq

def State.status : State → EntryStatus
  | funded => .funded
  | attested => .attested
  | cancelled => .cancelled
  | reclaimOpen _ => .reclaimOpen
  | reclaimed => .reclaimed
  | lapsed => .lapsed

/-- An entry may be attested and cancelled while it is funded or a reclaim of it is open. -/
def State.active : State → Bool
  | funded | reclaimOpen _ => true
  | attested | cancelled | reclaimed | lapsed => false

end PurchaseInstance

/-- What a meed instance keeps of its purchase entries. -/
structure PurchaseInstance where
  merchantKey : ByteArr 32
  seedInstance : ByteArr 32
  /-- One share a destination. -/
  meed : List MeedShare
  entries : HashMap (ByteArr 32) PurchaseInstance.Entry
  vReceived : ℕ
  paid : List ℕ
  deriving DecidableEq

namespace PurchaseInstance

def new (merchantKey : ByteArr 32) (meed : List MeedShare) (seedInstance : ByteArr 32) :
    PurchaseInstance :=
  let meed := meed.foldl MeedInstance.addShare []
  { merchantKey, seedInstance, meed, entries := ∅, vReceived := 0, paid := meed.map fun _ => 0 }

variable (suite : Suite) (inst : PurchaseInstance)

def bpTotal : ℕ := (inst.meed.map MeedShare.bp).sum

def status (entryId : ByteArr 32) : Option EntryStatus :=
  (inst.entries.lookup entryId).map fun e => e.state.status

/-- Divide an amount among the destinations, by what the instance received so far. -/
def distribute (amount : ℕ) : List Payout × PurchaseInstance :=
  if inst.bpTotal = 0 then ([], inst)
  else
    let vReceived := satAddU128 inst.vReceived amount
    let (out, paid) := MeedInstance.entitle vReceived inst.bpTotal inst.meed inst.paid
    (out, { inst with vReceived, paid })

def fundEntry (t : EntryTerms) (refundPtr : String) (now : ℕ) :
    Except EntryError (ByteArr 32 × PurchaseInstance) := do
  require (t.amount != 0) .zeroAmount
  require (!decide (t.tLapse < now)) .lapsed
  require (!decide (t.tOpen > t.tLapse)) .window
  let entryId := suite.entryIdPurchase inst.seedInstance t.nonce t.amount t.tOpen t.tLapse
    t.contest
  require (!decide (entryId ∈ inst.entries.keys)) .duplicate
  return (entryId,
    { inst with entries := inst.entries.insert entryId { t with refundPtr, state := .funded } })

def entry (entryId : ByteArr 32) : Except EntryError Entry :=
  okOr (inst.entries.lookup entryId) .notFound

/-- Bring an entry that is there to a state. -/
def setState (entryId : ByteArr 32) (e : Entry) (state : State) : PurchaseInstance :=
  { inst with entries := inst.entries.insert entryId { e with state } }

/-- The whole amount goes to the pointer recorded at funding. -/
def refundOf (e : Entry) : List Payout := [⟨e.refundPtr, e.amount⟩]

def checkSig (e : Entry) (entryId : ByteArr 32) (signed : Signed) (kind : Kind) :
    Except EntryError Unit :=
  require (signed.kind == kind && signed.entryId == entryId && signed.nonce == e.nonce &&
    signed.verify suite inst.merchantKey) .badSignature

def attest (entryId : ByteArr 32) (signed : Signed) :
    Except EntryError (List Payout × PurchaseInstance) := do
  let e ← inst.entry entryId
  require e.state.active .terminal
  inst.checkSig suite e entryId signed .attestation
  return (inst.setState entryId e .attested).distribute e.amount

def cancel (entryId : ByteArr 32) (signed : Signed) :
    Except EntryError (List Payout × PurchaseInstance) := do
  let e ← inst.entry entryId
  require e.state.active .terminal
  inst.checkSig suite e entryId signed .cancellation
  return (refundOf e, inst.setState entryId e .cancelled)

def openReclaim (entryId : ByteArr 32) (now : ℕ) : Except EntryError PurchaseInstance := do
  let e ← inst.entry entryId
  require (e.state == .funded) .terminal
  require (!(decide (now < e.tOpen) || decide (now > e.tLapse))) .window
  return inst.setState entryId e (.reclaimOpen now)

/-- When an open reclaim of an entry may be executed after. -/
def reclaimExecTime (entryId : ByteArr 32) : Option ℕ :=
  (inst.entries.lookup entryId).bind fun e =>
    match e.state with
    | .reclaimOpen openedAt => some (min U64_MAX (openedAt + e.contest))
    | _ => none

def executeReclaim (entryId : ByteArr 32) (now : ℕ) :
    Except EntryError (List Payout × PurchaseInstance) := do
  let e ← inst.entry entryId
  let openedAt ← match e.state with
    | .reclaimOpen openedAt => .ok openedAt
    | .funded => .error .window
    | _ => .error .terminal
  require (!decide (now ≤ min U64_MAX (openedAt + e.contest))) .window
  return (refundOf e, inst.setState entryId e .reclaimed)

def claimLapsed (entryId : ByteArr 32) (now : ℕ) :
    Except EntryError (List Payout × PurchaseInstance) := do
  let e ← inst.entry entryId
  require (e.state == .funded) .terminal
  require (!decide (now ≤ e.tLapse)) .window
  return (inst.setState entryId e .lapsed).distribute e.amount

/-! ## The machine -/

/-- What is done on the instance, with the terms of what is funded and the name of any other
entry. -/
inductive Op
  | fundEntry (t : EntryTerms) (refundPtr : String)
  | attest (entryId : ByteArr 32) (signed : Signed)
  | cancel (entryId : ByteArr 32) (signed : Signed)
  | openReclaim (entryId : ByteArr 32)
  | executeReclaim (entryId : ByteArr 32)
  | claimLapsed (entryId : ByteArr 32)

def run (now : ℕ) : Op → Except EntryError (List Payout × PurchaseInstance)
  | .fundEntry t refundPtr => (fun r => ([], r.2)) <$> inst.fundEntry suite t refundPtr now
  | .attest entryId signed => inst.attest suite entryId signed
  | .cancel entryId signed => inst.cancel suite entryId signed
  | .openReclaim entryId => (fun inst => ([], inst)) <$> inst.openReclaim entryId now
  | .executeReclaim entryId => inst.executeReclaim entryId now
  | .claimLapsed entryId => inst.claimLapsed entryId now

/-- An operation at some clock; what is refused changes nothing. -/
def step (inst : PurchaseInstance) (x : ℕ × Op) :
    PurchaseInstance × Except EntryError (List Payout) :=
  match inst.run suite x.1 x.2 with
  | .ok (out, inst) => (inst, .ok out)
  | .error e => (inst, .error e)

end PurchaseInstance

end Paytp
