import Paytp.Lib.Bytes
import Paytp.Lib.HashMap
import Paytp.Lib.MachineInt

/-!
# Rails

The adapter a carriage moves value through, and the virtual rail: a clock, balances, splits that
divide what they receive, meed instances with one watermark a channel, and releases that are
done once for their key. What a payment credits is added with a check, and the code stops where
a balance would overflow; what is credited after a debit saturates. Times and the count of
references are not bounded.
-/

namespace Paytp

/-- A channel's meed brought up to a cumulative position. -/
structure AdvancedFact where
  channelId : ByteArr 8
  seedInstance : ByteArr 32
  fundedP : ℕ
  delta : ℕ
  asset : String
  deriving DecidableEq

structure RefInfo where
  dest : String
  asset : String
  amount : ℕ
  memo : Option (ByteArr 32)
  advancedChannelMeed : Option AdvancedFact
  canonical : String
  deriving DecidableEq

structure Finality where
  level : String
  time : ℕ
  deriving DecidableEq

inductive RailError
  | noSuchAccount
  | rejected (reason : String)
  | alreadyFunded
  | outage
  /-- No answer of the code, which stops at an overflow with its lock held: its run ends there. -/
  | stopped
  deriving DecidableEq, Repr

/-- What a carriage uses of a rail in state `ρ`. A reference is its name. -/
structure RailAdapter (ρ : Type) where
  /-- The declared finality levels, weakest first. -/
  finalityLevels : ρ → List String
  deriveAddress : ρ → ByteArr 32 → String
  /-- Channel, basis, source, destination, asset, amount. -/
  releaseKeyed : ρ → ByteArr 8 → ByteArr 32 → String → String → String → ℕ →
    Except RailError String × ρ
  /-- Source if the meed is drawn, instance address, channel, target, asset. -/
  advanceChannelMeed : ρ → Option String → String → ByteArr 8 → ℕ → String →
    Except RailError String × ρ
  finality : ρ → String → Option Finality
  refTarget : ρ → String → Option RefInfo

/-! ## Meed instances -/

structure MeedShare where
  dest : String
  bp : ℕ
  deriving DecidableEq

structure Payout where
  dest : String
  amount : ℕ
  deriving DecidableEq

structure ChannelWatermark where
  fundedP : ℕ
  paid : List ℕ
  residue : ℕ
  deriving DecidableEq

structure MeedInstance where
  seedInstance : ByteArr 32
  /-- One share a destination. -/
  meed : List MeedShare
  channelPaid : HashMap (ByteArr 8) ChannelWatermark
  deriving DecidableEq

namespace MeedInstance

/-- Add a share to its destination's, saturating at the 16 bits of a share. -/
def addShare (agg : List MeedShare) (r : MeedShare) : List MeedShare :=
  if agg.any fun a => a.dest == r.dest then
    agg.map fun a => if a.dest = r.dest then { a with bp := min 65535 (a.bp + r.bp) } else a
  else agg ++ [r]

def new (meed : List MeedShare) (seedInstance : ByteArr 32) : MeedInstance where
  seedInstance
  meed := meed.foldl addShare []
  channelPaid := ∅

def bpTotal (inst : MeedInstance) : ℕ := (inst.meed.map MeedShare.bp).sum

def channelFundedP (inst : MeedInstance) (channelId : ByteArr 8) : ℕ :=
  ((inst.channelPaid.lookup channelId).map ChannelWatermark.fundedP).getD 0

/-- Each destination's entitlement at `target` against what it was paid: the payouts, and what
each is paid after them. -/
def entitle (target bpTotal : ℕ) : List MeedShare → List ℕ → List Payout × List ℕ
  | r :: rs, paid :: paids =>
    let entitlement := target * r.bp / bpTotal
    let (out, rest) := entitle target bpTotal rs paids
    if entitlement > paid then (⟨r.dest, entitlement - paid⟩ :: out, entitlement :: rest)
    else (out, paid :: rest)
  | _, paids => ([], paids)

/-- Advance a channel to a cumulative target, never back: the position after it, what it moved,
and the payouts. -/
def advanceChannelMeed (inst : MeedInstance) (channelId : ByteArr 8) (targetP : ℕ) :
    (ℕ × ℕ × List Payout) × MeedInstance :=
  let (fundedP, paid) := match inst.channelPaid.lookup channelId with
    | some w => (w.fundedP, w.paid)
    | none => (0, inst.meed.map fun _ => 0)
  if targetP ≤ fundedP ∨ inst.bpTotal = 0 then ((fundedP, 0, []), inst)
  else
    let (out, paid) := entitle targetP inst.bpTotal inst.meed paid
    let residue := targetP - min U128_MAX paid.sum
    ((targetP, targetP - fundedP, out),
      { inst with channelPaid := inst.channelPaid.insert channelId
                    { fundedP := targetP, paid, residue } })

end MeedInstance

/-! ## The virtual rail -/

structure Transfer where
  dest : String
  asset : String
  amount : ℕ
  memo : Option (ByteArr 32)
  deriving DecidableEq

structure SplitState where
  /-- Each recipient and its points. -/
  recipients : List (String × ℕ)
  vReceived : ℕ
  paid : List ℕ
  deriving DecidableEq

structure VirtualRail where
  clock : ℕ
  ledger : HashMap String ℕ
  splits : HashMap String SplitState
  instances : HashMap String MeedInstance
  /-- The time of submission and the transfer of each reference. -/
  refs : HashMap String (ℕ × RefInfo)
  settleIds : HashMap (ByteArr 32) String
  releaseKeys : HashMap (ByteArr 8 × ByteArr 32) String
  finalityDelay : ℕ
  nextRef : ℕ
  outage : Bool
  deriving DecidableEq

namespace VirtualRail

def new (finalityDelay : ℕ) : VirtualRail where
  clock := 1000000000
  ledger := ∅
  splits := ∅
  instances := ∅
  refs := ∅
  settleIds := ∅
  releaseKeys := ∅
  finalityDelay
  nextRef := 0
  outage := false

variable (rail : VirtualRail)

def finalityLevels : List String := ["pending", "final"]

def balance (addr : String) : ℕ := (rail.ledger.lookup addr).getD 0

/-- Two lower-case hexadecimal digits. -/
def hexByte (b : UInt8) : List Char :=
  [Nat.digitChar (b.toNat / 16), Nat.digitChar (b.toNat % 16)]

def deriveAddress (seed : ByteArr 32) : String :=
  "virt:0x" ++ String.ofList ((seed.toList.take 16).flatMap hexByte)

/-- A credit that saturates, as those do that follow a debit. -/
def credit (dest : String) (amount : ℕ) : VirtualRail :=
  { rail with ledger := rail.ledger.insert dest (satAddU128 (rail.balance dest) amount) }

/-- A credit by a checked addition; nothing if that overflows. -/
def creditChecked (dest : String) (amount : ℕ) : Option VirtualRail :=
  if rail.balance dest + amount > U128_MAX then none
  else some { rail with ledger := rail.ledger.insert dest (rail.balance dest + amount) }

def debit (src : String) (amount : ℕ) : VirtualRail :=
  { rail with ledger := rail.ledger.insert src (rail.balance src - amount) }

def applyPayouts (payouts : List Payout) : VirtualRail :=
  payouts.foldl (fun rail p => rail.credit p.dest p.amount) rail

/-- Payouts by checked additions; nothing if one of them overflows. -/
def payChecked (payouts : List Payout) : Option VirtualRail :=
  payouts.foldlM (fun rail p => rail.creditChecked p.dest p.amount) rail

/-- Record a transfer under the next reference, which is its canonical one. -/
def recordRef (info : RefInfo) : String × VirtualRail :=
  let id := "virt-ref:" ++ toString rail.nextRef
  (id, { rail with
    nextRef := rail.nextRef + 1
    refs := rail.refs.insert id (rail.clock, { info with canonical := id }) })

def advanceClock (secs : ℕ) : VirtualRail := { rail with clock := rail.clock + secs }

def setOutage (on : Bool) : VirtualRail := { rail with outage := on }

def deployInstance (seed : ByteArr 32) (meed : List MeedShare) : VirtualRail :=
  { rail with instances := rail.instances.orInsert (deriveAddress seed) (.new meed seed) }

/-- Pay each recipient of a split up to its share of all that was received. -/
def distribute (vReceived : ℕ) : List (String × ℕ) → List ℕ → List Payout × List ℕ
  | (dest, bp) :: rs, paid :: paids =>
    let entitlement := vReceived * bp / 10000
    let (out, rest) := distribute vReceived rs paids
    if entitlement > paid then (⟨dest, entitlement - paid⟩ :: out, entitlement :: rest)
    else (out, paid :: rest)
  | _, paids => ([], paids)

def withSplit (dest : String) (split : SplitState) : VirtualRail :=
  { rail with splits := rail.splits.insert dest split }

/-- What a reference shows of a payment. -/
def paymentInfo (transfer : Transfer) : RefInfo where
  dest := transfer.dest
  asset := transfer.asset
  amount := transfer.amount
  memo := transfer.memo
  advancedChannelMeed := none
  canonical := ""

def recordPayment (transfer : Transfer) : Except RailError String × VirtualRail :=
  match rail.splits.lookup transfer.dest with
  | some split =>
    let vReceived := split.vReceived + transfer.amount
    if vReceived > U128_MAX then (.error (.rejected "split payment would overflow running V"), rail)
    else
      let (out, paid) := distribute vReceived split.recipients split.paid
      match (rail.withSplit transfer.dest { split with vReceived, paid }).payChecked out with
      | some rail =>
        let (id, rail) := rail.recordRef (paymentInfo transfer)
        (.ok id, rail)
      | none => (.error .stopped, rail)
  | none =>
    match rail.creditChecked transfer.dest transfer.amount with
    | some rail =>
      let (id, rail) := rail.recordRef (paymentInfo transfer)
      (.ok id, rail)
    | none => (.error .stopped, rail)

def submit (transfer : Transfer) : Except RailError String × VirtualRail :=
  if rail.outage then (.error .outage, rail) else rail.recordPayment transfer

/-- Submit once for each settle id. -/
def settle (transfer : Transfer) (settleId : ByteArr 32) :
    Except RailError String × VirtualRail :=
  match rail.settleIds.lookup settleId with
  | some existing => (.ok existing, rail)
  | none =>
    if rail.outage then (.error .outage, rail)
    else
      match rail.recordPayment transfer with
      | (.ok id, rail) =>
        (.ok id, { rail with settleIds := rail.settleIds.insert settleId id })
      | (.error e, rail) => (.error e, rail)

/-- Move an amount that the source covers. -/
def releaseLocked (source dest asset : String) (amount : ℕ) :
    Except RailError String × VirtualRail :=
  if rail.outage then (.error .outage, rail)
  else if amount = 0 ∨ amount > rail.balance source then
    (.error (.rejected "insufficient escrow balance for release"), rail)
  else
    let (id, rail) := ((rail.debit source amount).credit dest amount).recordRef
      { dest, asset, amount, memo := none, advancedChannelMeed := none, canonical := "" }
    (.ok id, rail)

/-- Release once for each channel and basis; a repetition answers with the same reference. -/
def releaseKeyed (channelId : ByteArr 8) (ckptRef : ByteArr 32) (source dest asset : String)
    (amount : ℕ) : Except RailError String × VirtualRail :=
  match rail.releaseKeys.lookup (channelId, ckptRef) with
  | some existing => (.ok existing, rail)
  | none =>
    match rail.releaseLocked source dest asset amount with
    | (.ok id, rail) =>
      (.ok id, { rail with releaseKeys := rail.releaseKeys.insert (channelId, ckptRef) id })
    | (.error e, rail) => (.error e, rail)

def advanceChannelMeed (source : Option String) (addr : String) (channelId : ByteArr 8)
    (targetP : ℕ) (asset : String) : Except RailError String × VirtualRail :=
  if rail.outage then (.error .outage, rail)
  else
    match rail.instances.lookup addr with
    | none => (.error .noSuchAccount, rail)
    | some inst =>
      let delta := targetP - inst.channelFundedP channelId
      if source.any fun src => decide (delta > rail.balance src) then
        (.error (.rejected "insufficient escrow balance for meed advance"), rail)
      else
        let ((fundedP, delta, payouts), inst') := inst.advanceChannelMeed channelId targetP
        let rail := { rail with instances := rail.instances.insert addr inst' }
        let rail := match source with
          | some src => if delta > 0 then rail.debit src delta else rail
          | none => rail
        let (id, rail) := (rail.applyPayouts payouts).recordRef
          { dest := addr, asset, amount := delta, memo := none, canonical := ""
            advancedChannelMeed := some
              { channelId, seedInstance := inst.seedInstance, fundedP, delta, asset } }
        (.ok id, rail)

def finality (r : String) : Option Finality :=
  (rail.refs.lookup r).map fun (submitTime, _) =>
    let reached := submitTime + rail.finalityDelay
    if rail.clock ≥ reached then { level := "final", time := reached }
    else { level := "pending", time := submitTime }

def refTarget (r : String) : Option RefInfo := (rail.refs.lookup r).map Prod.snd

def adapter : RailAdapter VirtualRail where
  finalityLevels _ := finalityLevels
  deriveAddress _ := deriveAddress
  releaseKeyed := releaseKeyed
  advanceChannelMeed := advanceChannelMeed
  finality := finality
  refTarget := refTarget

end VirtualRail

end Paytp
