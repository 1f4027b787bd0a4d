import Paytp.Rail

/-!
# The asynchronous rail

A rail that moves value when a transaction is included, not when it is submitted, and on which an
inclusion may be taken back until it is final. What an inclusion moved is recorded with it, so
that a reorganisation reverts it. Balances that only infeasible amounts could overflow are not
bounded where the code would stop at the overflow.
-/

namespace Paytp

namespace MeedInstance

variable (inst : MeedInstance) (channelId : ByteArr 8)

/-- The watermark of a channel before an advance, kept to be restored. -/
def channelWatermarkSnapshot : Option ChannelWatermark := inst.channelPaid.lookup channelId

/-- Bring a channel back to a snapshot; without one, to where it never advanced. -/
def restoreChannelWatermark (snapshot : Option ChannelWatermark) : MeedInstance :=
  { inst with
    channelPaid := match snapshot with
      | some w => inst.channelPaid.insert channelId w
      | none => inst.channelPaid.erase channelId }

end MeedInstance

namespace AsyncRail

inductive Level
  | submitted
  | confirmed
  | finalized
  | dropped
  deriving DecidableEq, Repr

def Level.token : Level → String
  | submitted => "submitted"
  | confirmed => "confirmed"
  | finalized => "finalized"
  | dropped => "dropped"

/-- The operation of a reference. -/
inductive Op
  /-- A credit without a source. -/
  | plain (dest asset : String) (amount : ℕ) (memo : Option (ByteArr 32))
  | release (source dest asset : String) (amount : ℕ)
  | advance (source : Option String) (addr : String) (channelId : ByteArr 8) (targetP : ℕ)
    (asset : String)
  deriving DecidableEq

/-- What an included operation moved. -/
inductive Applied
  | plain (dest : String) (amount : ℕ)
  | release (source dest : String) (amount : ℕ)
  /-- With the watermark before the advance, if there was one. -/
  | advance (source : Option String) (addr : String) (channelId : ByteArr 8) (delta : ℕ)
    (payouts : List Payout) (snapshot : Option ChannelWatermark)
  deriving DecidableEq

structure RefRecord where
  level : Level
  op : Op
  /-- While the value is moved. -/
  applied : Option Applied
  /-- While the value is moved. -/
  info : Option RefInfo
  deriving DecidableEq

end AsyncRail

structure AsyncRail where
  clock : ℕ
  ledger : HashMap String ℕ
  instances : HashMap String MeedInstance
  refs : HashMap String AsyncRail.RefRecord
  nextRef : ℕ
  outage : Bool
  settleIds : HashMap (ByteArr 32) String
  releaseKeys : HashMap (ByteArr 8 × ByteArr 32) String
  deriving DecidableEq

namespace AsyncRail

def new : AsyncRail where
  clock := 1000000000
  ledger := ∅
  instances := ∅
  refs := ∅
  nextRef := 0
  outage := false
  settleIds := ∅
  releaseKeys := ∅

variable (rail : AsyncRail)

def finalityLevels : List String := ["submitted", "confirmed", "finalized"]

def advanceClock (secs : ℕ) : AsyncRail := { rail with clock := rail.clock + secs }

def setOutage (on : Bool) : AsyncRail := { rail with outage := on }

def balance (addr : String) : ℕ := (rail.ledger.lookup addr).getD 0

def channelFundedP (addr : String) (channelId : ByteArr 8) : ℕ :=
  ((rail.instances.lookup addr).map fun i => i.channelFundedP channelId).getD 0

def deriveAddress (seed : ByteArr 32) : String :=
  "async:0x" ++ String.ofList ((seed.toList.take 16).flatMap VirtualRail.hexByte)

/-- The first instance at an address stays. -/
def deployInstance (seed : ByteArr 32) (meed : List MeedShare) : AsyncRail :=
  { rail with instances := rail.instances.orInsert (deriveAddress seed) (.new meed seed) }

/-! ## Applying and reverting -/

/-- Take an amount from a balance that is there; what it does not cover is not taken. -/
def debit (src : String) (amount : ℕ) : AsyncRail :=
  match rail.ledger.lookup src with
  | some b => { rail with ledger := rail.ledger.insert src (b - amount) }
  | none => rail

def credit (dest : String) (amount : ℕ) : AsyncRail :=
  { rail with ledger := rail.ledger.insert dest (rail.balance dest + amount) }

def creditSaturating (dest : String) (amount : ℕ) : AsyncRail :=
  { rail with ledger := rail.ledger.insert dest (satAddU128 (rail.balance dest) amount) }

/-- The source of an advance is debited only if there is one, and only if something moved. -/
def debitSource (source : Option String) (delta : ℕ) : AsyncRail :=
  match source with
  | some src => if delta > 0 then rail.debit src delta else rail
  | none => rail

def creditSource (source : Option String) (delta : ℕ) : AsyncRail :=
  match source with
  | some src => if delta > 0 then rail.credit src delta else rail
  | none => rail

def applyPayouts (payouts : List Payout) : AsyncRail :=
  payouts.foldl (fun rail p => rail.credit p.dest p.amount) rail

def revertPayouts (payouts : List Payout) : AsyncRail :=
  payouts.foldl (fun rail p => rail.debit p.dest p.amount) rail

def setInstance (addr : String) (inst : MeedInstance) : AsyncRail :=
  { rail with instances := rail.instances.insert addr inst }

/-- Move what an operation moves: what it moved, and what it shows of itself. Nothing answers for
an advance of an instance that is not there, which is not submitted. -/
def apply : Op → Option ((Applied × RefInfo) × AsyncRail)
  | .plain dest asset amount memo =>
    some ((.plain dest amount,
      { dest, asset, amount, memo, advancedChannelMeed := none, canonical := "" }),
      rail.credit dest amount)
  | .release source dest asset amount =>
    some ((.release source dest amount,
      { dest, asset, amount, memo := none, advancedChannelMeed := none, canonical := "" }),
      (rail.debit source amount).creditSaturating dest amount)
  | .advance source addr channelId targetP asset =>
    (rail.instances.lookup addr).map fun inst =>
      let snapshot := inst.channelWatermarkSnapshot channelId
      let ((fundedP, delta, payouts), inst') := inst.advanceChannelMeed channelId targetP
      ((.advance source addr channelId delta payouts snapshot,
        { dest := addr, asset, amount := delta, memo := none, canonical := ""
          advancedChannelMeed := some
            { channelId, seedInstance := inst.seedInstance, fundedP, delta, asset } }),
        ((rail.setInstance addr inst').debitSource source delta).applyPayouts payouts)

def restoreAt (addr : String) (channelId : ByteArr 8) (snapshot : Option ChannelWatermark) :
    AsyncRail :=
  match rail.instances.lookup addr with
  | some inst => rail.setInstance addr (inst.restoreChannelWatermark channelId snapshot)
  | none => rail

/-- Take back what was moved. -/
def revert : Applied → AsyncRail
  | .plain dest amount => rail.debit dest amount
  | .release source dest amount => (rail.debit dest amount).credit source amount
  | .advance source addr channelId delta payouts snapshot =>
    ((rail.revertPayouts payouts).restoreAt addr channelId snapshot).creditSource source delta

/-! ## References -/

/-- The name of the n-th reference. -/
def refId (n : ℕ) : String := "async-ref:" ++ toString n

def setRef (id : String) (rec : RefRecord) : AsyncRail :=
  { rail with refs := rail.refs.insert id rec }

def record (op : Op) : String × AsyncRail :=
  let id := refId rail.nextRef
  (id, { rail with nextRef := rail.nextRef + 1 }.setRef id
    { level := .submitted, op, applied := none, info := none })

/-- Does the source cover the amount as the release is submitted? -/
def releaseLocked (source dest asset : String) (amount : ℕ) : Except RailError String × AsyncRail :=
  if rail.outage then (.error .outage, rail)
  else if amount = 0 ∨ amount > rail.balance source then
    (.error (.rejected "insufficient escrow balance for release"), rail)
  else
    let (id, rail) := rail.record (.release source dest asset amount)
    (.ok id, rail)

/-- Include a submitted transaction: its value moves. -/
def confirm (r : String) : AsyncRail :=
  match rail.refs.lookup r with
  | none => rail
  | some rec =>
    if rec.level = .submitted then
      match rail.apply rec.op with
      | some ((applied, info), rail) =>
        rail.setRef r { rec with
          level := .confirmed, applied := some applied, info := some { info with canonical := r } }
      | none => rail
    else rail

/-- An inclusion that is there becomes final. -/
def settleLevel (r : String) : AsyncRail :=
  match rail.refs.lookup r with
  | some rec =>
    if rec.level = .confirmed then rail.setRef r { rec with level := .finalized } else rail
  | none => rail

/-- Include a transaction that is not included yet, and make it final. -/
def finalize (r : String) : AsyncRail :=
  match (rail.refs.lookup r).map RefRecord.level with
  | some .submitted => (rail.confirm r).settleLevel r
  | some .confirmed => rail.settleLevel r
  | _ => rail

/-- Take a transaction that is not final away, and revert it if it was included. -/
def reorg (r : String) : Bool × AsyncRail :=
  match rail.refs.lookup r with
  | none => (false, rail)
  | some rec =>
    match rec.level with
    | .finalized | .dropped => (false, rail)
    | .submitted => (true, rail.setRef r { rec with level := .dropped })
    | .confirmed =>
      let rail := match rec.applied with
        | some a => rail.revert a
        | none => rail
      (true, rail.setRef r { rec with level := .dropped, applied := none, info := none })

/-- Evict a transaction that is not included. -/
def dropTx (r : String) : AsyncRail :=
  match rail.refs.lookup r with
  | some rec =>
    if rec.level = .submitted then rail.setRef r { rec with level := .dropped } else rail
  | none => rail

/-! ## The adapter -/

def plainOf (t : Transfer) : Op := .plain t.dest t.asset t.amount t.memo

def submit (transfer : Transfer) : Except RailError String × AsyncRail :=
  if rail.outage then (.error .outage, rail)
  else
    let (id, rail) := rail.record (plainOf transfer)
    (.ok id, rail)

/-- Submit once for each settle id. -/
def settle (transfer : Transfer) (settleId : ByteArr 32) : Except RailError String × AsyncRail :=
  match rail.settleIds.lookup settleId with
  | some existing => (.ok existing, rail)
  | none =>
    if rail.outage then (.error .outage, rail)
    else
      let (id, rail) := rail.record (plainOf transfer)
      (.ok id, { rail with settleIds := rail.settleIds.insert settleId id })

/-- Release once for each channel and basis; a repetition answers with the same reference. -/
def releaseKeyed (channelId : ByteArr 8) (ckptRef : ByteArr 32) (source dest asset : String)
    (amount : ℕ) : Except RailError String × AsyncRail :=
  match rail.releaseKeys.lookup (channelId, ckptRef) with
  | some existing => (.ok existing, rail)
  | none =>
    match rail.releaseLocked source dest asset amount with
    | (.ok id, rail) =>
      (.ok id, { rail with releaseKeys := rail.releaseKeys.insert (channelId, ckptRef) id })
    | (.error e, rail) => (.error e, rail)

/-- The source covers what the advance takes as it is submitted. -/
def advanceChannelMeed (source : Option String) (addr : String) (channelId : ByteArr 8)
    (targetP : ℕ) (asset : String) : Except RailError String × AsyncRail :=
  if rail.outage then (.error .outage, rail)
  else
    match rail.instances.lookup addr with
    | none => (.error .noSuchAccount, rail)
    | some inst =>
      let delta := targetP - inst.channelFundedP channelId
      if source.any fun src => decide (delta > 0 ∧ delta > rail.balance src) then
        (.error (.rejected "insufficient escrow balance for meed advance"), rail)
      else
        let (id, rail) := rail.record (.advance source addr channelId targetP asset)
        (.ok id, rail)

/-- What was dropped has no finality. -/
def finality (r : String) : Option Finality :=
  (rail.refs.lookup r).bind fun rec =>
    if rec.level = .dropped then none else some { level := rec.level.token, time := rail.clock }

def refTarget (r : String) : Option RefInfo := (rail.refs.lookup r).bind RefRecord.info

def adapter : RailAdapter AsyncRail where
  finalityLevels _ := finalityLevels
  deriveAddress _ := deriveAddress
  releaseKeyed := releaseKeyed
  advanceChannelMeed := advanceChannelMeed
  finality := finality
  refTarget := refTarget

/-! ## The machine -/

inductive Event
  | advanceClock (secs : ℕ)
  | setOutage (on : Bool)
  | deployInstance (seed : ByteArr 32) (meed : List MeedShare)
  | submit (transfer : Transfer)
  | settle (transfer : Transfer) (settleId : ByteArr 32)
  | release (source dest asset : String) (amount : ℕ)
  | releaseKeyed (channelId : ByteArr 8) (ckptRef : ByteArr 32) (source dest asset : String)
    (amount : ℕ)
  | advanceChannelMeed (source : Option String) (addr : String) (channelId : ByteArr 8)
    (targetP : ℕ) (asset : String)
  | confirm (r : String)
  | finalize (r : String)
  | reorg (r : String)
  | dropTx (r : String)
  deriving DecidableEq

inductive Answer
  | none
  | submitted (res : Except RailError String)
  | reorged (dropped : Bool)

/-- What a submission answers, and the rail after it. -/
def onSubmit (x : Except RailError String × AsyncRail) : AsyncRail × Answer := (x.2, .submitted x.1)

def step (rail : AsyncRail) : Event → AsyncRail × Answer
  | .advanceClock secs => (rail.advanceClock secs, .none)
  | .setOutage on => (rail.setOutage on, .none)
  | .deployInstance seed meed => (rail.deployInstance seed meed, .none)
  | .submit transfer => onSubmit (rail.submit transfer)
  | .settle transfer settleId => onSubmit (rail.settle transfer settleId)
  | .release source dest asset amount => onSubmit (rail.releaseLocked source dest asset amount)
  | .releaseKeyed channelId ckptRef source dest asset amount =>
    onSubmit (rail.releaseKeyed channelId ckptRef source dest asset amount)
  | .advanceChannelMeed source addr channelId targetP asset =>
    onSubmit (rail.advanceChannelMeed source addr channelId targetP asset)
  | .confirm r => (rail.confirm r, .none)
  | .finalize r => (rail.finalize r, .none)
  | .reorg r => ((rail.reorg r).2, .reorged (rail.reorg r).1)
  | .dropTx r => (rail.dropTx r, .none)

end AsyncRail

end Paytp
