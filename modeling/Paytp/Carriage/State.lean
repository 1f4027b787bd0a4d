import Mathlib.Data.List.AList
import Paytp.Driver
import Paytp.Fee
import Paytp.Rail

/-!
# The merchant carriage: state and positions

The carriage keeps the driver, the metering state of every channel and what settles it: the
operative checkpoint, the ledger, the rounds in flight, the disposition a close recorded and the
references that were consumed. Here are its state and what it computes from it: owed rounds,
watermark targets and the position a successor imports.
-/

namespace Paytp

inductive CarriageError
  | malformed
  | rejected
  | seqInvalid
  | windowExceeded
  | evidenceRequired
  | closed
  | stateMismatch
  deriving DecidableEq, Repr

inductive Reply
  | channelAck (ack : ChannelAck)
  | checkpoint (cp : Checkpoint)
  | settlementConfirmed (c : SettlementConfirmed)
  deriving DecidableEq

inductive Response
  | message (reply : Reply)
  | accepted
  deriving DecidableEq

inductive Profile
  | demo
  | proof
  deriving DecidableEq, Repr

/-- The last countersigned checkpoint: its name and its metering. -/
structure Operative where
  ckptRef : ByteArr 32
  cumTotal : ℕ
  accruals : List (UInt8 × ℕ)
  deriving DecidableEq

/-- What the completed rounds settled and the fundings credited. -/
structure Ledger where
  settledR : List (UInt8 × ℕ) := []
  netLegsSum : ℕ := 0
  fundingSum : ℕ := 0
  version : ℕ := 0
  deriving DecidableEq

structure RoundDecision where
  termsFp : ByteArr 32
  proposalHashes : Finset (ByteArr 32)
  proofs : List SettlementProof
  outputs : List Output
  meedAmount : Option ℕ
  eR : List (UInt8 × ℕ)
  meedFolded : Bool
  netFolded : Bool
  meedFinalTime : Option ℕ
  deterministic : Bool
  ledgerVersion : ℕ
  confirmed : Bool
  drawRef : Option String
  targetP : Option ℕ
  deriving DecidableEq

/-- Where the terminal position of a closed channel goes. -/
inductive ChainState
  | pending
  | committed (successor : ByteArr 8)
  /-- Settled on its own books; the draw still owed is the basis and the target it is pinned to. -/
  | reconciled (pendingDraw : Option (ByteArr 32 × ℕ))
  deriving DecidableEq

structure ImportedBasis where
  cum : ℕ
  ckptRef : ByteArr 32
  accruals : List (UInt8 × ℕ)
  openingSettledR : List (UInt8 × ℕ)
  deriving DecidableEq

structure Carriage (ρ : Type) where
  profile : Profile
  driver : ChannelDriver
  channels : HashMap (ByteArr 8) ChannelState
  operative : HashMap (ByteArr 8) Operative
  ledger : HashMap (ByteArr 8) Ledger
  /-- By channel and checkpoint. The order of its entries stands for the order of iteration,
  which the code leaves open; at most one round meets what the code searches for. -/
  rounds : AList fun _ : ByteArr 8 × ByteArr 32 => RoundDecision
  rail : Option ρ
  consumedFunding : Finset String
  channelEstablishedAt : HashMap (ByteArr 8) ℕ
  chainState : HashMap (ByteArr 8) ChainState
  importedBasis : HashMap (ByteArr 8) ImportedBasis
  decisions : Option DecisionStore

/-- The primitives and the rail a carriage runs with. -/
structure Env (ρ : Type) where
  suite : Suite
  adapter : RailAdapter ρ

/-! ## Keys and records of the store -/

def fundKey (canonicalRef : String) : Bytes := storeKey "fund:" [Bytes.ofString canonicalRef]

def dispKey (cid : ByteArr 8) : Bytes := storeKey "disp:" [cid.toList]

def refundReserveKey (cid : ByteArr 8) (ckptRef : ByteArr 32) : Bytes :=
  storeKey "rfnd:" [cid.toList, ckptRef.toList]

def refundRefKey (cid : ByteArr 8) (ckptRef : ByteArr 32) : Bytes :=
  storeKey "rref:" [cid.toList, ckptRef.toList]

def encodeDisp : ChainState → Bytes
  | .committed successor => 0x01 :: successor.toList
  | .reconciled none => [0x02]
  | .reconciled (some (ckpt, p)) => 0x03 :: (ckpt.toList ++ toBE 16 p)
  | .pending => []

def decodeDisp : Bytes → Option ChainState
  | 0x01 :: bytes => (ByteArr.ofBytes? 8 bytes).map .committed
  | [0x02] => some (.reconciled none)
  | 0x03 :: bytes =>
    if bytes.length = 48 then
      (ByteArr.ofBytes? 32 (bytes.take 32)).map fun ckpt =>
        .reconciled (some (ckpt, ofBE (bytes.drop 32)))
    else none
  | _ => none

/-- The accruals of a channel by role. -/
def ChannelState.accrualsByRole (ch : ChannelState) : List (UInt8 × ℕ) :=
  (ch.vector.map Prod.fst).zip ch.accruals

/-- `u128::try_from`. -/
def u128OfNat (n : ℕ) : Option ℕ := if n ≤ U128_MAX then some n else none

/-- What is listed for a role, or nothing. -/
def ofRole (entries : List (UInt8 × ℕ)) (role : UInt8) : ℕ :=
  ((entries.find? fun e => e.1 == role).map Prod.snd).getD 0

def sumOf (entries : List (UInt8 × ℕ)) : ℕ := (entries.map Prod.snd).sum

/-- Divide, at the unity rate, what the accruals leave unsettled. -/
def divideOutstanding (accruals settledR : List (UInt8 × ℕ)) :
    Except Fee.F7Error Fee.RoundDivision := do
  let accrued ← accruals.mapM fun e => Fee.u256FromBiguint e.2
  let settled ← accruals.mapM fun e => Fee.u256FromBiguint (ofRole settledR e.1)
  let outstanding ← Fee.Reconcile.outstandingMeedPerRole accrued settled
  Fee.divideRound outstanding (← Fee.Rate.new 1 1)

/-- The position `cum` less what is paid, in the bounds of the mode's window. -/
def importedBalanceF6e (mode : Mode) (cum : ℕ) (settledR : List (UInt8 × ℕ))
    (netLegs funding : ℕ) (boundLower boundUpper : ℤ) : ℤ :=
  let settledCarve := (u128OfNat (sumOf settledR / 10000)).getD U128_MAX
  let paid := match mode with
    | .postpay => satAddU128 (satAddU128 funding netLegs) settledCarve
    | .prepay => funding
  let b : ℤ :=
    if cum ≥ paid then i128OfU128 (cum - paid)
    else if ((paid - cum : ℕ) : ℤ) ≤ I128_MAX then -((paid - cum : ℕ) : ℤ)
    else I128_MIN
  if b < boundLower then boundLower else if b > boundUpper then boundUpper else b

/-- The hash of a proposal's terms: all of it but what it credits and its signatures. -/
def termsFingerprint (suite : Suite) (p : SettlementPropose) : ByteArr 32 :=
  let put (x : Bytes) : Bytes := toBE 4 x.length ++ x
  let output (o : Output) : Bytes :=
    put (Tlv.encodeUint o.amount) ++ put (Bytes.ofString o.asset) ++ put (Bytes.ofString o.dest)
  let leg : Bytes := match p.instanceLeg with
    | some l => 1 :: (put (Tlv.encodeUint l.amount) ++ toBE 4 l.extinguished.length ++
        l.extinguished.flatMap fun e => e.1 :: put (Tlv.encodeUint e.2))
    | none => [0]
  let conversion : Bytes := match p.conversion with
    | some c => 1 :: (put (Bytes.ofString c.rate) ++ toBE 8 c.rateTime ++ toBE 8 c.rateExp ++
        toBE 8 c.rateGrace)
    | none => [0]
  suite.sha256 (p.channelId.toList ++ p.ckptRef.toList ++ toBE 4 p.outputs.length ++
    p.outputs.flatMap output ++ leg ++ conversion)

namespace Carriage

variable {ρ : Type}

/-- A carriage without channels. -/
def empty (driver : ChannelDriver) (profile : Profile) : Carriage ρ where
  profile
  driver
  channels := ∅
  operative := ∅
  ledger := ∅
  rounds := ∅
  rail := none
  consumedFunding := ∅
  channelEstablishedAt := ∅
  chainState := ∅
  importedBasis := ∅
  decisions := none

variable (s : Carriage ρ)

/-- Follow the links of committed predecessors to the channel that carries the position now. -/
def followChain : ℕ → ByteArr 8 → ByteArr 8
  | 0, cur => cur
  | fuel + 1, cur =>
    match s.chainState.lookup cur with
    | some (.committed successor) => followChain fuel successor
    | _ => cur

def resolveChainTip (cid : ByteArr 8) : ByteArr 8 :=
  s.followChain (s.chainState.keys.card + 1) cid

/-- May the channel still hand its position on, so that no new round may start? -/
def barsNewRound (cid : ByteArr 8) : Bool :=
  match s.chainState.lookup cid with
  | some .pending | some (.committed _) => true
  | _ => false

def fundingAdmissible (cid : ByteArr 8) : Bool :=
  match s.channels.lookup cid with
  | none => false
  | some ch =>
    if ch.status = .closed then false
    else
      match ch.mode, s.chainState.lookup cid with
      | .postpay, some (.committed _) => false
      | .prepay, some (.committed _) => false
      | .prepay, some (.reconciled _) => false
      | _, _ => true

section rail
variable (adapter : RailAdapter ρ)

/-- Has the reference reached the level, in the rail's order of levels? -/
def finalityReached (rail : ρ) (r required : String) : Bool :=
  let idx (level : String) := (adapter.finalityLevels rail).idxOf? level
  match (adapter.finality rail r).bind fun f => idx f.level, idx required with
  | some reached, some need => decide (reached ≥ need)
  | _, _ => false

/-- Are both levels the strongest of the rail, where there is a rail? -/
def finalityIsIrreversible (finMeed finDenom : String) : Bool :=
  match s.rail with
  | none => true
  | some rail =>
    match (adapter.finalityLevels rail).getLast? with
    | some level => finMeed == level && finDenom == level
    | none => false

end rail

/-- A round as the operative checkpoint and the ledger owe it. -/
structure RecomputedRound where
  meedAmount : Option ℕ
  eR : List (UInt8 × ℕ)
  outputs : List Output
  deriving DecidableEq

def recomputeRound (cid : ByteArr 8) : Except CarriageError RecomputedRound := do
  let op ← okOr (s.operative.lookup cid) .rejected
  let terms ← okOr (s.driver.settlementTerms cid) .rejected
  let led := (s.ledger.lookup cid).getD {}
  require (rolesAscending op.accruals) .rejected
  let div ← (divideOutstanding op.accruals led.settledR).mapError fun _ => .rejected
  let cum ← (Fee.u256FromBiguint op.cumTotal).mapError fun _ => .rejected
  let owedNet := Fee.Reconcile.outstandingMerchantNet cum (op.accruals.map Prod.snd)
    led.netLegsSum led.fundingSum
  let meedAmount ← if div.leg then some <$> okOr (u128OfNat div.p) .rejected else pure none
  return { meedAmount
           eR := (op.accruals.map Prod.fst).zip div.eR
           outputs :=
             if owedNet > 0 then
               [{ amount := owedNet, asset := terms.denom, dest := terms.settlePtr }]
             else [] }

/-- The channel's own cumulative carve of some accruals: less only what its predecessor had
funded already. -/
def cumulativeTargetP (cid : ByteArr 8) (accruals : List (UInt8 × ℕ)) : Option ℕ := do
  guard (rolesAscending accruals)
  let imported := ((s.importedBasis.lookup cid).map ImportedBasis.openingSettledR).getD []
  let div ← (divideOutstanding accruals imported).toOption
  guard div.leg
  u128OfNat div.p

/-- What the carve over the whole chain exceeds the imported one and the channel's own by. -/
def reconciliationDust (cid : ByteArr 8) : ℕ :=
  let evidence := ((s.operative.lookup cid).map Operative.accruals).or
    ((s.importedBasis.lookup cid).map ImportedBasis.accruals)
  match evidence with
  | none => 0
  | some accruals =>
    let carve (rows : List (UInt8 × ℕ)) : ℕ :=
      let cols := rows.filterMap fun e => (Fee.u256FromBiguint e.2).toOption
      (u128OfNat (Fee.Reconcile.meedCarve cols)).getD 0
    let imported := ((s.importedBasis.lookup cid).map fun b => carve b.openingSettledR).getD 0
    let targetP := (s.cumulativeTargetP cid accruals).getD 0
    carve accruals - imported - targetP

/-- The draw a prepay channel owes at its close, pinned to the evidence it has. -/
def computePendingDraw (cid : ByteArr 8) : Option (ByteArr 32 × ℕ) := do
  guard ((s.channels.lookup cid).map ChannelState.mode = some .prepay)
  let terms ← s.driver.settlementTerms cid
  guard !terms.conversionRequired
  let (ckptRef, accruals) ← match s.operative.lookup cid, s.importedBasis.lookup cid with
    | some op, _ => some (op.ckptRef, op.accruals)
    | none, some b => some (b.ckptRef, b.accruals)
    | none, none => none
  let targetP ← s.cumulativeTargetP cid accruals
  guard (targetP > 0)
  return (ckptRef, targetP)

/-- What a successor that names `namedRef` imports of a channel that may be chained: the
metering of the checkpoint of that name, which for a channel that metered nothing is the
synthetic one. -/
def computeChainSnapshot (suite : Suite) (cid : ByteArr 8) (namedRef : ByteArr 32) :
    Option ChainSnapshot := do
  let ch ← s.channels.lookup cid
  let payerKey ← s.driver.payerKey cid
  let t ← s.driver.settlementTerms cid
  let establishedAt ← s.channelEstablishedAt.lookup cid
  let led := (s.ledger.lookup cid).getD {}
  let (cumTotal, accruals) ← match s.operative.lookup cid with
    | some op => do
      guard (op.ckptRef = namedRef)
      let cum ← u128OfNat op.cumTotal
      pure (cum, op.accruals)
    | none => do
      guard (ch.cumTotal = 0)
      let still : StillbornState :=
        { channelId := cid
          prepay := decide (ch.mode = .prepay)
          cumTotal := 0
          accruals := ch.accrualsByRole
          settledSum := 0
          netLegsSum := led.netLegsSum
          fundingSum := led.fundingSum
          timestamp := establishedAt
          prevRef := .replicate 32 0 }
      let cp ← still.syntheticCheckpoint suite
      let syntheticRef ← cp.syntheticReference suite
      guard (syntheticRef = namedRef)
      pure (0, ch.accrualsByRole)
  let accrued ← (accruals.mapM fun e => Fee.u256FromBiguint e.2).toOption
  let settled ← (accruals.mapM fun e => Fee.u256FromBiguint (ofRole led.settledR e.1)).toOption
  let _ ← (Fee.Reconcile.outstandingMeedPerRole accrued settled).toOption
  return { cumTotal
           accruals
           openingSettledR := led.settledR
           openingNetLegs := led.netLegsSum
           openingFunding := led.fundingSum
           importedBalance := importedBalanceF6e ch.mode cumTotal led.settledR led.netLegsSum
             led.fundingSum ch.boundLower ch.boundUpper
           payerKey
           mode := ch.mode
           termsFingerprint := chainTermsFingerprint suite ch.mode t.seedInstance t.denom
             t.baselineNet t.finMeed t.finDenom t.thValue t.thTime
           establishedAt }

/-! ## Decisions -/

section store
variable (fails : StoreFaults)

inductive ConsumeOutcome
  | first
  | duplicate
  | failed
  deriving DecidableEq, Repr

/-- Claim a canonical rail reference. -/
def consumeRef (canonicalRef : String) : ConsumeOutcome × Carriage ρ :=
  let consumed := insert canonicalRef s.consumedFunding
  match s.decisions with
  | some store =>
    match DecisionStore.decide fails store (fundKey canonicalRef) [] with
    | (.fresh, store) => (.first, { s with decisions := some store, consumedFunding := consumed })
    | (.alreadyDecided _, store) =>
      (.duplicate, { s with decisions := some store, consumedFunding := consumed })
    | (.failed, _) => (.failed, s)
  | none =>
    if canonicalRef ∈ s.consumedFunding then (.duplicate, s)
    else (.first, { s with consumedFunding := consumed })

/-- Decide a key where there is a store. -/
def decideKey (key value : Bytes) : Decision × Carriage ρ :=
  match s.decisions with
  | some store =>
    let (d, store) := DecisionStore.decide fails store key value
    (d, { s with decisions := some store })
  | none => (.fresh, s)

def recordDisposition (cid : ByteArr 8) (state : ChainState) : Decision × Carriage ρ :=
  s.decideKey fails (dispKey cid) (encodeDisp state)

end store

end Carriage

end Paytp
