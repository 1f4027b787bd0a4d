import Paytp.Carriage.State
import Paytp.Signing

/-!
# The wallet's channel

The payer's half of a channel: it signs the opening, mints slices, co-signs checkpoints and
credits the merchant's draws from the rail. It meters what it streams itself and halts by its own
metering and its own clock, so the meed that it leaves unpaid stays bounded whatever the other
parties send.

The clock and the policy are asked at every call: what they answer is an argument.
-/

namespace Paytp

/-- The slice `seq` of `amtMicro`, if both are in their domains. -/
def Slice.seal (crypto : Crypto) (seq amtMicro : ℕ) (kSession : ByteArr 32) : Option Slice :=
  if h : seq ≤ SEQ_MAX ∧ amtMicro < 2 ^ 48 then
    some (.sealWith crypto kSession seq amtMicro h.1 h.2)
  else none

/-- Both parties signed what the checkpoint states. -/
def Checkpoint.verifyBilateral (suite : Suite) (cp : Checkpoint)
    (payerPk merchantPk : ByteArr 32) : Bool :=
  cp.sigPayer.isSome && cp.sigMerchant.isSome &&
    suite.verifySigned payerPk .ckpt cp.contentFields cp.sigPayer &&
    suite.verifySigned merchantPk .ckpt cp.contentFields cp.sigMerchant

def PrepayDrawCompleted.verifyMerchant (suite : Suite) (m : PrepayDrawCompleted)
    (key : ByteArr 32) : Bool :=
  suite.verifySigned key .prepayDraw m.contentFields m.sigMerchant

/-- What a party expects the destination of a role to be. -/
inductive ExpectedDest
  | asserted (dest : String)
  /-- No share is asserted: the role falls to the development fund. -/
  | unasserted
  | unchecked
  deriving DecidableEq

namespace ExpectedDest

def check (suite : Suite) (expected : ExpectedDest) (dest : String) : Bool :=
  match expected with
  | unchecked => true
  | asserted addr => dest == addr
  | unasserted => dest == suite.devFundDest

def requiresPresence (expected : ExpectedDest) : Bool := expected != unchecked

end ExpectedDest

/-- Each party's own share goes where it expects, and is there if it expects any. -/
def validatePayerSideDestinations (suite : Suite) (vector : List VectorEntry)
    (il wallet : ExpectedDest) : Bool :=
  (vector.all fun e =>
    if e.role = ROLE_INTERACTION_LAYER then il.check suite e.dest
    else if e.role = ROLE_WALLET then wallet.check suite e.dest
    else true) &&
    (!il.requiresPresence || vector.any fun e => e.role == ROLE_INTERACTION_LAYER) &&
    (!wallet.requiresPresence || vector.any fun e => e.role == ROLE_WALLET)

namespace Wallet

inductive ChannelClientError
  | policyDenied (why : String)
  | haltedOnOverdueMeed
  | establish
  | checkpoint (why : String)
  | windowExceeded
  deriving DecidableEq, Repr

/-- What the policy says to an expense. -/
inductive Decision
  | approve
  | deny (why : String)
  deriving DecidableEq, Repr

inductive HaltOrContinue
  | halt
  | continue
  deriving DecidableEq, Repr

/-- The primitives and the rail a wallet runs with. -/
structure Env (ρ : Type) where
  suite : Suite
  adapter : RailAdapter ρ
  /-- Seal a session secret to a key, over the terms it is bound to. -/
  sealSessionSecret : ByteArr 32 → Bytes → ByteArr 32 → Option Bytes
  /-- The registrable domain of a host in normal form. -/
  registrableDomain : String → Option String

/-! ## Custody -/

/-- Whom a payer key is for. -/
structure PayerScope where
  merchantKey : ByteArr 32
  registrableDomain : String
  deriving DecidableEq

namespace PayerScope

def resolve {ρ : Type} (env : Env ρ) (merchantKey : ByteArr 32) (merchantHost : String) :
    Option PayerScope :=
  (env.registrableDomain merchantHost).map fun registrableDomain =>
    { merchantKey, registrableDomain }

def derivationInfo (scope : PayerScope) : Bytes :=
  let domain := Bytes.ofString scope.registrableDomain
  Bytes.ofString "PayTPv1-payer-scope-v2" ++ scope.merchantKey.toList ++
    toBE 2 domain.length ++ domain

end PayerScope

/-- The secret all payer keys derive from. -/
structure Custody where
  root : ByteArr 32
  deriving DecidableEq

namespace Custody

def scopedSk (suite : Suite) (custody : Custody) (scope : PayerScope) : ByteArr 32 :=
  suite.hkdfSha256 custody.root.toList [] scope.derivationInfo

def payerKey (suite : Suite) (custody : Custody) (scope : PayerScope) : ByteArr 32 :=
  suite.ed25519Public (custody.scopedSk suite scope)

end Custody

/-! ## Opening -/

/-- The terms that are proposed to the wallet. -/
structure ChannelOpenParams where
  channelId : ByteArr 8
  denom : String
  baselineAsset : String
  baselineNet : String
  prepay : Bool
  limitL : ℕ
  limitE : ℕ
  thValue : ℕ
  thTime : ℕ
  schema : ℕ
  contract : ℕ
  registryV : ℕ
  vector : List VectorEntry
  refundPtr : Option String
  rateSource : Option String
  rateDev : Option ℕ
  finMeed : String
  finDenom : String
  timestamp : ℕ
  thValue_le : thValue ≤ U128_MAX

/-- The merchant an artifact was accepted for. -/
structure AcceptedBinding where
  merchantKey : ByteArr 32
  host : String
  encKey : ByteArr 32

/-- What an opening trusts: the wallet's own keys and pointer, and the accepted merchant. -/
structure PayerChannelTrust where
  custody : Custody
  walletMeedDest : Option String
  binding : AcceptedBinding

/-- The checkpoint both parties signed that is in force. -/
structure Operative where
  ckptRef : ByteArr 32
  cumTotal : ℕ
  deriving DecidableEq

/-- A round that was resumed on a notice and not credited from the rail yet. -/
structure PendingVerify where
  ckptRef : ByteArr 32
  claimRecord : ByteArr 32
  amount : ℕ
  cumTotal : ℕ
  txRef : String
  /-- An attempt to verify it failed. -/
  defaulted : Bool
  deriving DecidableEq

structure ChannelClient where
  custody : Custody
  channelId : ByteArr 8
  merchantKey : ByteArr 32
  scope : PayerScope
  kSession : ByteArr 32
  nextSeq : ℕ
  prepay : Bool
  limitL : ℕ
  thTime : ℕ
  /-- When the last round was credited, or the channel opened. -/
  lastSettle : ℕ
  seedInstance : ByteArr 32
  finMeed : String
  rolesBp : List (UInt8 × UInt16)
  /-- The carve of one round, or zero without a value threshold. -/
  roundCarve : ℕ
  cumStreamed : ℕ
  operative : Option Operative
  /-- Credited numerators, aligned with `rolesBp`. -/
  creditedR : List ℕ
  halted : Bool
  pendingVerify : Option PendingVerify
  deriving DecidableEq

variable {ρ : Type} (env : Env ρ)

/-- The terms the wallet signs. -/
def channelAuth (trust : PayerChannelTrust) (params : ChannelOpenParams) (scope : PayerScope)
    (s : ByteArr 32) : ChannelAuth where
  payerKey := trust.custody.payerKey env.suite scope
  channelId := params.channelId
  merchantKey := trust.binding.merchantKey
  denom := params.denom
  mode := if params.prepay then MODE_PREPAY else MODE_POSTPAY
  limitL := params.limitL
  limitE := params.limitE
  thValue := params.thValue
  thTime := params.thTime
  refundPtr := params.refundPtr
  baselineNet := params.baselineNet
  rateSource := params.rateSource
  rateDev := params.rateDev
  schema := params.schema
  vector := params.vector
  registryV := params.registryV
  hs := env.suite.hCommit s
  predecessor := none
  timestamp := params.timestamp
  baselineAsset := params.baselineAsset
  contract := params.contract
  finMeed := params.finMeed
  finDenom := params.finDenom
  sig := none

/-- The carve of `thValue`: at least one unit, so that a small threshold is not none. -/
def roundCarveOf (thValue : ℕ) (rolesBp : List (UInt8 × UInt16)) : ℕ :=
  if thValue = 0 then 0
  else
    let sumBp := (rolesBp.map fun r => r.2.toNat).sum
    max 1 ((u128OfNat (thValue * sumBp / Fee.BP_DENOM)).getD U128_MAX)

/-- Open a channel with the session secret `s`, at the time `now` and by the policy's word. -/
def openInner (trust : PayerChannelTrust) (now : ℕ) (approved : Decision)
    (params : ChannelOpenParams) (s : ByteArr 32) :
    Except ChannelClientError (ChannelOpen × ChannelClient) := do
  match approved with
  | .deny why => throw (.policyDenied why)
  | .approve =>
    let scope ← okOr (PayerScope.resolve env trust.binding.merchantKey trust.binding.host)
      .establish
    let auth := channelAuth env trust params scope s
    require (auth.validateVectorGoverned env.suite) .establish
    let walletExpectation := match trust.walletMeedDest with
      | some d => ExpectedDest.asserted d
      | none => .unasserted
    require (validatePayerSideDestinations env.suite auth.vector .unchecked walletExpectation)
      .establish
    let inputs : AddressInputs :=
      { merchantKey := auth.merchantKey
        asset := auth.baselineAsset
        schema := auth.schema
        vector := auth.vector
        contract := auth.contract
        merchantNet := none }
    let seedInstance ← okOr (inputs.seedInstance env.suite) .establish
    let rolesBp := auth.vector.map fun v => (v.role, v.bp)
    let signed ← okOr (auth.sign env.suite (trust.custody.scopedSk env.suite scope)) .establish
    let aad ← okOr (signed.canonicalContent env.suite) .establish
    let sealed ← okOr (env.sealSessionSecret trust.binding.encKey aad s) .establish
    let salt := env.suite.bindSalt (trust.custody.payerKey env.suite scope)
      trust.binding.merchantKey
    return ({ auth := signed, sealed },
      { custody := trust.custody
        channelId := params.channelId
        merchantKey := trust.binding.merchantKey
        scope
        kSession := env.suite.kSession s salt params.channelId
        nextSeq := 1
        prepay := params.prepay
        limitL := params.limitL
        thTime := params.thTime
        lastSettle := now
        seedInstance
        finMeed := auth.finMeed
        rolesBp
        roundCarve := roundCarveOf params.thValue rolesBp
        cumStreamed := 0
        operative := none
        creditedR := List.replicate rolesBp.length 0
        halted := false
        pendingVerify := none })

/-- Has the reference reached the level, in the rail's order of levels? -/
def finalityReached (adapter : RailAdapter ρ) (rail : ρ) (r required : String) : Bool :=
  let idx (level : String) := (adapter.finalityLevels rail).idxOf? level
  match (adapter.finality rail r).bind fun f => idx f.level, idx required with
  | some reached, some need => decide (reached ≥ need)
  | _, _ => false

namespace ChannelClient

variable (c : ChannelClient)

/-! ## Metering -/

/-- What each role accrued at `cumTotal` and was not credited. -/
def outstandingAt (cumTotal : ℕ) : Option (List ℕ) :=
  (c.rolesBp.zip c.creditedR).mapM fun (r, credited) => do
    let accrued ← (Fee.checkedMul cumTotal r.2.toNat).toOption
    guard (credited ≤ accrued)
    return accrued - credited

/-- Divide what is outstanding at `cumTotal`, at the unity rate. -/
def divideAt (cumTotal : ℕ) : Option Fee.RoundDivision := do
  let outstanding ← c.outstandingAt cumTotal
  let rate ← (Fee.Rate.new 1 1).toOption
  (Fee.divideRound outstanding rate).toOption

/-- The carve still owed at `cumTotal`. -/
def carveAt (cumTotal : ℕ) : Option ℕ := (c.divideAt cumTotal).bind fun div => u128OfNat div.p

/-- The carve of all that accrued at `cumTotal`: the position a draw brings the rail to. -/
def cumulativeTargetAt (cumTotal : ℕ) : Option ℕ := do
  let accrued ← c.rolesBp.mapM fun r => (Fee.checkedMul cumTotal r.2.toNat).toOption
  let rate ← (Fee.Rate.new 1 1).toOption
  let div ← (Fee.divideRound accrued rate).toOption
  u128OfNat div.p

/-- The carve of the round that is being settled; a defaulted one is owed again. -/
def inFlightAmount : ℕ :=
  ((c.pendingVerify.filter fun pv => !pv.defaulted).bind fun pv => c.carveAt pv.cumTotal).getD 0

def postpayOutstanding : ℕ := c.cumStreamed

/-- Is there something to settle? What cannot be computed counts as something. -/
def settleableValuePresent : Bool := c.carveAt c.cumStreamed != some 0

/-- What is owed at `cum` beyond the round in flight; what cannot be computed is the most. -/
def owedBeyondInFlight (cum : ℕ) : ℕ :=
  match c.carveAt cum with
  | some carve => carve - c.inFlightAmount
  | none => U128_MAX

/-- Halt on a full round unsettled or, without a value threshold, on what the operative
checkpoint owes. -/
def valueHalt : Bool :=
  if c.roundCarve > 0 then decide (c.owedBeyondInFlight c.cumStreamed ≥ c.roundCarve)
  else c.operative.any fun op => (c.carveAt op.cumTotal).all fun carve => carve > c.inFlightAmount

/-- Halt on the time since the last credit, while there is something to settle. -/
def timeHalt (now : ℕ) : Bool :=
  decide (c.thTime > 0) && decide (now - c.lastSettle ≥ c.thTime) && c.settleableValuePresent

def refreshHalt (now : ℕ) : ChannelClient :=
  { c with halted := c.prepay && (c.valueHalt || c.timeHalt now) }

/-! ## Slices -/

/-- Mint the next slice, on the policy's word. -/
def nextSlice (now : ℕ) (approved : Decision) (amt : ℕ) :
    Except ChannelClientError Slice × ChannelClient :=
  let c := c.refreshHalt now
  if c.halted then (.error .haltedOnOverdueMeed, c)
  else
    match approved with
    | .deny why => (.error (.policyDenied why), c)
    | .approve =>
      if c.prepay && decide (c.roundCarve > 0) &&
          decide (c.owedBeyondInFlight (satAddU128 c.cumStreamed amt) > c.roundCarve) then
        (.error .haltedOnOverdueMeed, { c with halted := true })
      else if !c.prepay && (u128OfNat (c.postpayOutstanding + amt)).all (· > c.limitL) then
        (.error .windowExceeded, c)
      else
        match Slice.seal env.suite.toCrypto c.nextSeq amt c.kSession with
        | none => (.error .establish, c)
        | some slice =>
          (.ok slice, { c with nextSeq := c.nextSeq + 1
                               cumStreamed := satAddU128 c.cumStreamed amt })

/-! ## Checkpoints -/

/-- The total of a checkpoint of this channel that attests no more than was streamed and accrues
it by the signed vector. -/
def checkpointBasisOk (cp : Checkpoint) : Option ℕ := do
  guard (cp.channelId = c.channelId)
  let cum ← u128OfNat cp.cumTotal
  guard (cum ≤ c.cumStreamed)
  guard (cp.accruals.length = c.rolesBp.length)
  guard ((c.rolesBp.zip cp.accruals).all fun (r, accrued) =>
    accrued.1 == r.1 && (Fee.checkedMul cum r.2.toNat).toOption.any fun want =>
      (u128OfNat want).isSome && (Fee.u256FromBiguint accrued.2).toOption == some want)
  return cum

def cosignCheckpoint (cp : Checkpoint) : Except ChannelClientError Checkpoint :=
  if (c.checkpointBasisOk cp).isNone then
    .error (.checkpoint "checkpoint fails the wallet's own carve basis")
  else .ok (cp.signPayer env.suite (c.custody.scopedSk env.suite c.scope))

/-- Co-sign a checkpoint and propose it to the merchant. -/
def requestCheckpoint (cp : Checkpoint) : Except ChannelClientError CheckpointRequest :=
  if (c.checkpointBasisOk cp).isNone then
    .error (.checkpoint "checkpoint fails the wallet's own carve basis")
  else .ok (.sign env.suite cp (c.custody.scopedSk env.suite c.scope))

/-- The checkpoint of this name and total would not replace the operative one. -/
def superseded (ckptRef : ByteArr 32) (cum : ℕ) : Bool :=
  c.operative.any fun op => decide (cum < op.cumTotal) ||
    decide (cum = op.cumTotal) && decide (ckptRef.toList ≤ op.ckptRef.toList)

/-- Take a checkpoint both signed as the operative one, if it supersedes the one there is. -/
def recordOperative (now : ℕ) (bilateral : Checkpoint) : Bool × ChannelClient :=
  if !bilateral.verifyBilateral env.suite (c.custody.payerKey env.suite c.scope)
      c.merchantKey then (false, c)
  else
    match c.checkpointBasisOk bilateral, bilateral.reference env.suite with
    | some cum, some ckptRef =>
      if c.superseded ckptRef cum then (false, c)
      else
        let c := { c with operative := some { ckptRef, cumTotal := cum } }
        (true, c.refreshHalt now)
    | _, _ => (false, c)

/-! ## Draws -/

def onOverdueMeed (now : ℕ) (decision : HaltOrContinue) : HaltOrContinue × ChannelClient :=
  (decision, c.refreshHalt now)

/-- The round a notice settles, if it draws all that the operative checkpoint owes. -/
def resumedRound (receipt : PrepayDrawCompleted) (amount : ℕ) : Option PendingVerify := do
  let op ← c.operative
  guard (receipt.channelId = c.channelId ∧ receipt.ckptRef = op.ckptRef ∧
    receipt.verifyMerchant env.suite c.merchantKey = true)
  let expected ← c.cumulativeTargetAt op.cumTotal
  guard (amount = expected)
  let incrementalCarve ← c.carveAt op.cumTotal
  guard (incrementalCarve ≠ 0)
  let claim := env.suite.claimRecordId c.seedInstance c.channelId receipt.ckptRef amount
  guard (receipt.claimRecord = claim)
  return { ckptRef := receipt.ckptRef
           claimRecord := claim
           amount
           cumTotal := op.cumTotal
           txRef := receipt.txRef
           defaulted := false }

/-- Is the notice of the round that waits for its verification? -/
def sameRound (pv : PendingVerify) (receipt : PrepayDrawCompleted) (amount : ℕ) : Bool :=
  pv.ckptRef == receipt.ckptRef && receipt.channelId == c.channelId &&
    receipt.verifyMerchant env.suite c.merchantKey && pv.amount == amount &&
    pv.claimRecord == receipt.claimRecord

/-- Resume on the notice of a draw. While a round waits, only its own notice is admitted; once
it defaulted, the notice may name another transfer. -/
def resumeOnPrepayDraw (now : ℕ) (receipt : PrepayDrawCompleted) : Bool × ChannelClient :=
  match u128OfNat receipt.amount with
  | none => (false, c)
  | some amount =>
    if amount = 0 then (false, c)
    else
      match c.pendingVerify with
      | some pv =>
        if !c.sameRound env pv receipt amount then (false, c)
        else if !pv.defaulted && pv.txRef != receipt.txRef then (false, c)
        else if pv.defaulted then
          (true, { c with pendingVerify := some { pv with txRef := receipt.txRef } })
        else (true, c)
      | none =>
        match c.resumedRound env receipt amount with
        | none => (false, c)
        | some pv =>
          let c := { c with pendingVerify := some pv }
          (true, c.refreshHalt now)

/-- Add what a round extinguished to what is credited. -/
def addCredited : List ℕ → List ℕ → List ℕ
  | credited :: rest, er :: ers => (credited + er) % 2 ^ 256 :: addCredited rest ers
  | credited, _ => credited

/-- Credit the round of the checkpoint at `cumTotal`. -/
def foldCredited (cumTotal : ℕ) : Option ChannelClient :=
  (c.divideAt cumTotal).map fun div => { c with creditedR := addCredited c.creditedR div.eR }

/-- Does the rail show the draw of a round, at the position it was for and as final as agreed? -/
def railFunded (rail : ρ) (pv : PendingVerify) : Bool :=
  (((env.adapter.refTarget rail pv.txRef).bind RefInfo.advancedChannelMeed).any fun f =>
    f.channelId == c.channelId && f.seedInstance == c.seedInstance &&
      decide (f.fundedP ≥ pv.amount)) &&
    finalityReached env.adapter rail pv.txRef c.finMeed

/-- Credit a round whose claim is its own and whose draw the rail shows. -/
def tryCredit (rail : ρ) (pv : PendingVerify) : Option ChannelClient := do
  let want := env.suite.claimRecordId c.seedInstance c.channelId pv.ckptRef pv.amount
  guard (pv.claimRecord = want)
  guard (c.railFunded env rail pv = true)
  c.foldCredited pv.cumTotal

/-- Credit the round that waits from the rail, at the time `settled`, or mark it defaulted. -/
def verifyPendingDraw (rail : ρ) (settled now : ℕ) : Bool × ChannelClient :=
  match c.pendingVerify with
  | none => (false, c)
  | some pv =>
    match c.tryCredit env rail pv with
    | some c =>
      let c := { c with pendingVerify := none, lastSettle := settled }
      (true, c.refreshHalt now)
    | none =>
      let c := { c with pendingVerify := some { pv with defaulted := true } }
      (false, c.refreshHalt now)

/-! ## The machine -/

inductive Call (ρ : Type)
  | nextSlice (approved : Decision) (amt : ℕ)
  | cosignCheckpoint (cp : Checkpoint)
  | requestCheckpoint (cp : Checkpoint)
  | recordOperative (bilateral : Checkpoint)
  | onOverdueMeed (decision : HaltOrContinue)
  | resumeOnPrepayDraw (receipt : PrepayDrawCompleted)
  /-- On the rail as it is then; a credit is dated `settled`. -/
  | verifyPendingDraw (rail : ρ) (settled : ℕ)

/-- A call, and what the wallet's clock shows. -/
structure Event (ρ : Type) where
  call : Call ρ
  now : ℕ

inductive Answer
  | slice (r : Except ChannelClientError Slice)
  | cosigned (r : Except ChannelClientError Checkpoint)
  | requested (r : Except ChannelClientError CheckpointRequest)
  | recorded (b : Bool)
  | overdue (decision : HaltOrContinue)
  | resumed (b : Bool)
  | verified (b : Bool)

def step (c : ChannelClient) (e : Event ρ) : ChannelClient × Answer :=
  match e.call with
  | .nextSlice approved amt =>
    let (r, c) := c.nextSlice env e.now approved amt
    (c, .slice r)
  | .cosignCheckpoint cp => (c, .cosigned (c.cosignCheckpoint env cp))
  | .requestCheckpoint cp => (c, .requested (c.requestCheckpoint env cp))
  | .recordOperative bilateral =>
    let (b, c) := c.recordOperative env e.now bilateral
    (c, .recorded b)
  | .onOverdueMeed decision =>
    let (decision, c) := c.onOverdueMeed e.now decision
    (c, .overdue decision)
  | .resumeOnPrepayDraw receipt =>
    let (b, c) := c.resumeOnPrepayDraw env e.now receipt
    (c, .resumed b)
  | .verifyPendingDraw rail settled =>
    let (b, c) := c.verifyPendingDraw env rail settled e.now
    (c, .verified b)

end ChannelClient

end Wallet

end Paytp
