import Paytp.Crediting
import Paytp.Instance
import Paytp.Lib.Run

/-!
# The virtual rail with what its instances host

Every operation on the virtual rail: payments, releases and advances, and the purchase entries and
claim records of its meed instances, which share one running total an instance.
-/

namespace Paytp

open Attest Kit

/-- What an instance hosts beside its channels. -/
structure Hosted where
  purchases : PurchaseInstance
  claimRecords : Finset (ByteArr 32)
  deriving DecidableEq

structure HostedRail where
  rail : VirtualRail
  hosted : HashMap String Hosted
  deriving DecidableEq

def EntryError.toRail : EntryError → RailError
  | duplicate => .alreadyFunded
  | lapsed => .rejected "T_lapse already past"
  | zeroAmount => .rejected "zero amount"
  | notFound => .rejected "no such entry"
  | terminal => .rejected "entry is terminal"
  | badSignature => .rejected "bad attestation/cancellation"
  | window => .rejected "window guard"

namespace VirtualRail

/-- The meed destinations, put together, and the merchant at the rest of the denominator; none if
there is no rest. -/
def splitRecipients (meed : List (String × ℕ)) (merchantPayout : String) :
    Option (List (String × ℕ)) :=
  let total := (meed.map Prod.snd).sum
  if total > 10000 then none
  else
    let agg := (meed.map fun (dest, bp) => MeedShare.mk dest bp).foldl MeedInstance.addShare []
    some (agg.map (fun r => (r.dest, r.bp)) ++ [(merchantPayout, 10000 - total)])

end VirtualRail

namespace HostedRail

def new (finalityDelay : ℕ) : HostedRail where
  rail := .new finalityDelay
  hosted := ∅

variable (suite : Suite) (s : HostedRail)

def deploySplit (seed : ByteArr 32) (inputs : AddressInputs) :
    Except RailError (String × HostedRail) := do
  let expected ← okOr (inputs.seedSplit suite)
    (.rejected "invalid split ADDRESS_INPUTS (missing merchant-net / malformed)")
  require (seed == expected)
    (.rejected "split seed does not recompute from ADDRESS_INPUTS (unbound recipients)")
  let meed := inputs.vector.map fun e => (e.dest, e.bp.toNat)
  let recipients ← okOr (VirtualRail.splitRecipients meed (inputs.merchantNet.getD ""))
    (.rejected "meed vector exceeds BP_DENOM")
  return (VirtualRail.deriveAddress seed, { s with rail := s.rail.deploySplit seed recipients })

/-- What is deployed first at an address stays. -/
def deployInstance (seed : ByteArr 32) (inputs : AddressInputs) :
    Except RailError (String × HostedRail) := do
  let expected ← okOr (inputs.seedInstance suite)
    (.rejected "invalid instance ADDRESS_INPUTS (unexpected merchant-net / malformed)")
  require (seed == expected)
    (.rejected "instance seed does not recompute from ADDRESS_INPUTS (unbound recipients)")
  let meed := inputs.vector.map fun e => MeedShare.mk e.dest e.bp.toNat
  let addr := VirtualRail.deriveAddress seed
  return (addr,
    { rail := s.rail.deployInstance seed meed
      hosted := s.hosted.orInsert addr
        { purchases := .new inputs.merchantKey meed seed, claimRecords := ∅ } })

def instanceAt (addr : String) : Except RailError Hosted :=
  okOr (s.hosted.lookup addr) .noSuchAccount

/-- Run an operation on the entries of an instance, and pay what it pays out. -/
def onEntries (addr : String) (op : PurchaseInstance.Op) : Except RailError HostedRail := do
  let h ← s.instanceAt addr
  let (payouts, purchases) ← (h.purchases.run suite s.rail.clock op).mapError EntryError.toRail
  return { rail := s.rail.applyPayouts payouts
           hosted := s.hosted.insert addr { h with purchases } }

/-- The name of the entry that is funded, with the reference of its funding. -/
def fundEntry (addr : String) (t : EntryTerms) (refundPtr asset : String) :
    Except RailError ((String × ByteArr 32) × HostedRail) := do
  require (!s.rail.outage) .outage
  let h ← s.instanceAt addr
  let (entryId, purchases) ←
    (h.purchases.fundEntry suite t refundPtr s.rail.clock).mapError EntryError.toRail
  let (id, rail) := s.rail.recordRef
    { dest := addr, asset, amount := t.amount, memo := some t.nonce, advancedChannelMeed := none
      canonical := "" }
  return ((id, entryId), { rail, hosted := s.hosted.insert addr { h with purchases } })

def attestEntry (addr : String) (entryId : ByteArr 32) (signed : Signed) :
    Except RailError HostedRail := s.onEntries suite addr (.attest entryId signed)

def cancelEntry (addr : String) (entryId : ByteArr 32) (signed : Signed) :
    Except RailError HostedRail := s.onEntries suite addr (.cancel entryId signed)

def openReclaim (addr : String) (entryId : ByteArr 32) : Except RailError HostedRail :=
  s.onEntries suite addr (.openReclaim entryId)

def executeReclaim (addr : String) (entryId : ByteArr 32) : Except RailError HostedRail :=
  s.onEntries suite addr (.executeReclaim entryId)

def claimLapsed (addr : String) (entryId : ByteArr 32) : Except RailError HostedRail :=
  s.onEntries suite addr (.claimLapsed entryId)

/-- Fund a claim record of a channel, once for its key: from outside, or out of a deposit. -/
def fundClaimRecord (source : Option String) (addr : String) (channelId : ByteArr 8)
    (ckptRef : ByteArr 32) (amount : ℕ) (asset : String) :
    Except RailError ((String × ByteArr 32) × HostedRail) := do
  require (!s.rail.outage) .outage
  let key (h : Hosted) := suite.claimRecordId h.purchases.seedInstance channelId ckptRef amount
  require (!((s.hosted.lookup addr).any fun h => decide (key h ∈ h.claimRecords))) .alreadyFunded
  require (!(source.any fun src => decide (amount = 0 ∨ amount > s.rail.balance src)))
    (.rejected "insufficient escrow balance for meed draw")
  let h ← s.instanceAt addr
  require (amount != 0) EntryError.zeroAmount.toRail
  let (payouts, purchases) := h.purchases.distribute amount
  let rail := match source with
    | some src => s.rail.debit src amount
    | none => s.rail
  let (id, rail) := (rail.applyPayouts payouts).recordRef
    { dest := addr, asset, amount, memo := some (key h), advancedChannelMeed := none
      canonical := "" }
  return ((id, key h),
    { rail
      hosted := s.hosted.insert addr { purchases, claimRecords := insert (key h) h.claimRecords } })

/-! ## The machine -/

inductive Op
  | advanceClock (secs : ℕ)
  | setOutage (on : Bool)
  | deploySplit (seed : ByteArr 32) (inputs : AddressInputs)
  | deployInstance (seed : ByteArr 32) (inputs : AddressInputs)
  | submit (transfer : Transfer)
  | settle (transfer : Transfer) (settleId : ByteArr 32)
  | release (source dest asset : String) (amount : ℕ)
  | releaseKeyed (channelId : ByteArr 8) (ckptRef : ByteArr 32) (source dest asset : String)
    (amount : ℕ)
  | advanceChannelMeed (source : Option String) (addr : String) (channelId : ByteArr 8)
    (targetP : ℕ) (asset : String)
  | fundEntry (addr : String) (t : EntryTerms) (refundPtr asset : String)
  | attestEntry (addr : String) (entryId : ByteArr 32) (signed : Signed)
  | cancelEntry (addr : String) (entryId : ByteArr 32) (signed : Signed)
  | openReclaim (addr : String) (entryId : ByteArr 32)
  | executeReclaim (addr : String) (entryId : ByteArr 32)
  | claimLapsed (addr : String) (entryId : ByteArr 32)
  | fundClaimRecord (source : Option String) (addr : String) (channelId : ByteArr 8)
    (ckptRef : ByteArr 32) (amount : ℕ) (asset : String)

/-- What the rail does apart from what is hosted, and whether it accepts it. -/
def onRail {α : Type} (x : Except RailError α × VirtualRail) :
    HostedRail × Except RailError Unit :=
  ({ s with rail := x.2 }, x.1.map fun _ => ())

/-- What an operation on what is hosted leaves, which is nothing if it is refused. -/
def onHosted {α : Type} (x : Except RailError α) (next : α → HostedRail) :
    HostedRail × Except RailError Unit :=
  match x with
  | .ok a => (next a, .ok ())
  | .error e => (s, .error e)

def step (s : HostedRail) : Op → HostedRail × Except RailError Unit
  | .advanceClock secs => ({ s with rail := s.rail.advanceClock secs }, .ok ())
  | .setOutage on => ({ s with rail := s.rail.setOutage on }, .ok ())
  | .deploySplit seed inputs => s.onHosted (s.deploySplit suite seed inputs) Prod.snd
  | .deployInstance seed inputs => s.onHosted (s.deployInstance suite seed inputs) Prod.snd
  | .submit transfer => s.onRail (s.rail.submit transfer)
  | .settle transfer settleId => s.onRail (s.rail.settle transfer settleId)
  | .release source dest asset amount => s.onRail (s.rail.releaseLocked source dest asset amount)
  | .releaseKeyed channelId ckptRef source dest asset amount =>
    s.onRail (s.rail.releaseKeyed channelId ckptRef source dest asset amount)
  | .advanceChannelMeed source addr channelId targetP asset =>
    s.onRail (s.rail.advanceChannelMeed source addr channelId targetP asset)
  | .fundEntry addr t refundPtr asset =>
    s.onHosted (s.fundEntry suite addr t refundPtr asset) Prod.snd
  | .attestEntry addr entryId signed => s.onHosted (s.attestEntry suite addr entryId signed) id
  | .cancelEntry addr entryId signed => s.onHosted (s.cancelEntry suite addr entryId signed) id
  | .openReclaim addr entryId => s.onHosted (s.openReclaim suite addr entryId) id
  | .executeReclaim addr entryId => s.onHosted (s.executeReclaim suite addr entryId) id
  | .claimLapsed addr entryId => s.onHosted (s.claimLapsed suite addr entryId) id
  | .fundClaimRecord source addr channelId ckptRef amount asset =>
    s.onHosted (s.fundClaimRecord suite source addr channelId ckptRef amount asset) Prod.snd

end HostedRail

end Paytp
