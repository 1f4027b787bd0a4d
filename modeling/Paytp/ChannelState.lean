import Paytp.Slice
import Paytp.Lib.MachineInt
import Paytp.Lib.OrdMap

/-!
# Channel metering

The acceptance state of one channel: slices move the balance, the cumulative total and the
accruals and stay in the window until a checkpoint covers them. A checkpoint may be cut at any
sequence number; what the window holds past the cut is undone from the running totals.

The 64- and 128-bit counters are numbers with the saturating operations where the code
saturates; accruals are unbounded.
-/

namespace Paytp

inductive Mode
  | prepay
  | postpay
  deriving DecidableEq, Repr

inductive Status
  | open
  | pausedWindow
  | pausedEvidence
  | settling
  | closed
  deriving DecidableEq, Repr

inductive Phase
  | open
  | settling
  | closed
  deriving DecidableEq, Repr

inductive AcceptError
  | badMac
  | seqInvalid
  | windowExceeded
  | evidenceRequired
  | notOpen
  deriving DecidableEq, Repr

inductive ImportError
  | vectorMismatch
  | balanceOutOfBounds
  deriving DecidableEq, Repr

/-- An inclusive range of accepted sequence numbers. -/
structure Range where
  lo : ℕ
  hi : ℕ
  deriving DecidableEq, Repr

/-- A recorded event: funding, settlement round or predecessor import, and its reference. -/
structure CkptEvent where
  kind : UInt8
  reference : Bytes
  deriving DecidableEq, Repr

structure Checkpoint where
  channelId : ByteArr 8
  balance : ℕ
  balanceNegative : Bool
  cumTotal : ℕ
  accruals : List (UInt8 × ℕ)
  lastSeq : ℕ
  ranges : List Range
  transcript : ByteArr 32
  events : List CkptEvent
  timestamp : ℕ
  prevRef : ByteArr 32
  sigPayer : Option (ByteArr 64)
  sigMerchant : Option (ByteArr 64)
  deriving DecidableEq

structure ChannelState where
  kSession : Option (ByteArr 32)
  mode : Mode
  boundUpper : ℤ
  boundLower : ℤ
  limitE : ℕ
  /-- Basis points per role, by ascending role. -/
  vector : List (UInt8 × UInt16)
  balance : ℤ
  cumTotal : ℕ
  /-- Accrued numerators, aligned with `vector`. -/
  accruals : List ℕ
  unevidenced : ℕ
  floor : ℕ
  accounted : OrdMap ℕ Unit
  channelId : ByteArr 8
  committedHead : ByteArr 32
  window : OrdMap ℕ Slice
  phase : Phase
  pausedWindow : Bool
  pausedEvidence : Bool
  deriving DecidableEq

namespace ChannelState

variable (crypto : Crypto)

def new (channelId : ByteArr 8) (kSession : ByteArr 32) (mode : Mode) (limitL limitE : ℕ)
    (vector : List (UInt8 × UInt16)) : ChannelState where
  kSession := some kSession
  mode
  boundUpper := match mode with
    | .postpay => i128OfU128 limitL
    | .prepay => 0
  boundLower := match mode with
    | .postpay => 0
    | .prepay => -i128OfU128 limitL
  limitE
  vector
  balance := 0
  cumTotal := 0
  accruals := List.replicate vector.length 0
  unevidenced := 0
  floor := 0
  accounted := .empty
  channelId
  committedHead := Transcript.head0 crypto channelId
  window := .empty
  phase := .open
  pausedWindow := false
  pausedEvidence := false

/-- A successor opening at the position it imports. -/
def newImported (channelId : ByteArr 8) (kSession : ByteArr 32) (mode : Mode)
    (limitL limitE : ℕ) (vector : List (UInt8 × UInt16)) (importedCumTotal : ℕ)
    (importedAccruals : List ℕ) (importedBalance : ℤ) : Except ImportError ChannelState :=
  if importedAccruals.length ≠ vector.length then .error .vectorMismatch
  else
    let state := new crypto channelId kSession mode limitL limitE vector
    if importedBalance > state.boundUpper ∨ importedBalance < state.boundLower then
      .error .balanceOutOfBounds
    else
      .ok { state with cumTotal := importedCumTotal
                       accruals := importedAccruals
                       balance := importedBalance }

def status (s : ChannelState) : Status :=
  match s.phase with
  | .settling => .settling
  | .closed => .closed
  | .open => if s.pausedWindow then .pausedWindow
    else if s.pausedEvidence then .pausedEvidence else .open

/-- Add `amt` times its basis points to each accrual. -/
def accrue (amt : ℕ) : List ℕ → List (UInt8 × UInt16) → List ℕ
  | acc :: accs, (_, bp) :: vs => (acc + amt * bp.toNat) :: accrue amt accs vs
  | accs, _ => accs

/-- The state an accepted slice moves to. -/
def moved (s : ChannelState) (slice : Slice) : ChannelState :=
  let amt := slice.amtMicro
  { s with
    balance := satAddI128 s.balance amt
    cumTotal := satAddU128 s.cumTotal amt
    accruals := accrue amt s.accruals s.vector
    unevidenced := s.unevidenced + amt
    accounted := s.accounted.insert slice.seq ()
    window := s.window.insert slice.seq slice
    pausedEvidence := s.pausedEvidence || decide (s.unevidenced + amt ≥ s.limitE) }

/-- Accept a slice: the state after it, and the error if it is refused. Only the breach of the
window moves a state that refuses. -/
def acceptSlice (s : ChannelState) (slice : Slice) : Except AcceptError Unit × ChannelState :=
  let macOk := slice.verify crypto (s.kSession.getD (.replicate 32 0))
  if s.kSession.isNone || !macOk then (.error .badMac, s)
  else if s.phase ≠ .open then (.error .notOpen, s)
  else if slice.seq ≤ s.floor ∨ slice.seq ∈ s.accounted.keys then (.error .seqInvalid, s)
  else if s.pausedWindow then (.error .windowExceeded, s)
  else
    let amt := slice.amtMicro
    if satAddI128 s.balance amt > s.boundUpper then
      (.error .windowExceeded, { s with pausedWindow := true })
    else if s.unevidenced + amt > s.limitE then (.error .evidenceRequired, s)
    else (.ok (), s.moved slice)

/-- Accept the slices one after the other, up to the first that is refused. -/
def acceptEach (s : ChannelState) : List Slice → Except AcceptError Unit × ChannelState
  | [] => (.ok (), s)
  | slice :: slices =>
    match s.acceptSlice crypto slice with
    | (.error e, s) => (.error e, s)
    | (.ok (), s) => s.acceptEach slices

/-- Accept the slices of one unit together or none of them. -/
def acceptBatch (s : ChannelState) (slices : List Slice) :
    Except AcceptError Unit × ChannelState :=
  match s.acceptEach crypto slices with
  | (.error e, _) =>
    (.error e, if e = .windowExceeded then { s with pausedWindow := true } else s)
  | (.ok (), tentative) => (.ok (), tentative)

def creditFunding (s : ChannelState) (credited : ℕ) : ChannelState :=
  let balance := satSubI128 s.balance (i128OfU128 credited)
  { s with
    balance := if balance < s.boundLower then s.boundLower else balance
    pausedWindow := if credited > 0 ∧ s.pausedWindow then false else s.pausedWindow }

def applySettlementRound (s : ChannelState) (grossDenomSettled : ℕ) : ChannelState :=
  if s.mode = .postpay then
    let balance := satSubI128 s.balance (i128OfU128 grossDenomSettled)
    { s with
      balance := if balance < s.boundLower then s.boundLower else balance
      pausedWindow := if grossDenomSettled > 0 ∧ s.pausedWindow then false else s.pausedWindow }
  else s

/-- The runs of consecutive numbers in an ascending list, from the run `lo`, `hi` on. -/
def runsFrom (lo hi : ℕ) : List ℕ → List Range
  | [] => [⟨lo, hi⟩]
  | s :: rest => if s = hi + 1 then runsFrom lo s rest else ⟨lo, hi⟩ :: runsFrom s s rest

def rangesUpto (s : ChannelState) (cutoff : ℕ) : List Range :=
  match (s.accounted.upto cutoff).keys with
  | [] => []
  | first :: rest => runsFrom first first rest

/-- Fold slices into a transcript head. -/
def foldHead (head : ByteArr 32) (slices : List Slice) : ByteArr 32 :=
  slices.foldl (fun head slice => Transcript.advance crypto head slice.encode) head

def amounts (slices : List Slice) : ℕ := (slices.map Slice.amtMicro).sum

/-- The checkpoint as of `cutoff`: the slices of the window past it are undone. -/
def buildCheckpointAt (s : ChannelState) (cutoff timestamp : ℕ) (prevRef : ByteArr 32)
    (events : List CkptEvent) : Checkpoint :=
  let excludedAmt := amounts (s.window.past cutoff).values
  let histBalance := s.balance - excludedAmt
  { channelId := s.channelId
    balance := histBalance.natAbs
    balanceNegative := decide (histBalance < 0)
    cumTotal := s.cumTotal - excludedAmt
    accruals := (s.vector.zip s.accruals).map
      fun p => (p.1.1, p.2 - excludedAmt * p.1.2.toNat)
    lastSeq := ((s.accounted.upto cutoff).keys.getLast?).getD s.floor
    ranges := s.rangesUpto cutoff
    transcript := foldHead crypto s.committedHead (s.window.upto cutoff).values
    events
    timestamp
    prevRef
    sigPayer := none
    sigMerchant := none }

def buildCheckpoint (s : ChannelState) (timestamp : ℕ) (prevRef : ByteArr 32)
    (events : List CkptEvent) : Checkpoint :=
  s.buildCheckpointAt crypto U64_MAX timestamp prevRef events

/-- Does a proposed checkpoint recompute over the slices it covers? -/
def recomputes (s : ChannelState) (proposed : Checkpoint) : Bool :=
  let own := s.buildCheckpointAt crypto proposed.lastSeq proposed.timestamp proposed.prevRef
    proposed.events
  own.channelId == proposed.channelId && own.cumTotal == proposed.cumTotal &&
    own.accruals == proposed.accruals && own.balance == proposed.balance &&
    own.balanceNegative == proposed.balanceNegative && own.lastSeq == proposed.lastSeq &&
    own.ranges == proposed.ranges && own.transcript == proposed.transcript

/-- Commit the checkpoint as of `cutoff` and keep the newer slices. -/
def checkpointUpto (s : ChannelState) (cutoff : ℕ) : ChannelState :=
  let window := s.window.past cutoff
  let unevidenced := amounts window.values
  { s with
    committedHead := foldHead crypto s.committedHead (s.window.upto cutoff).values
    window
    accounted := s.accounted.past cutoff
    floor := cutoff
    unevidenced
    pausedEvidence := decide (unevidenced ≥ s.limitE) }

def checkpoint (s : ChannelState) : ChannelState :=
  s.checkpointUpto crypto (s.accounted.keys.getLast?.getD s.floor)

def beginSettling (s : ChannelState) : ChannelState :=
  if s.phase ≠ .closed then { s with phase := .settling } else s

def close (s : ChannelState) : ChannelState := { s with phase := .closed, kSession := none }

/-- The name of the operative one of two checkpoints, given by total and name: of the higher
total, else the greater name. -/
def operative (a b : ℕ × ByteArr 32) : ByteArr 32 :=
  match compare a.1 b.1 with
  | .gt => a.2
  | .lt => b.2
  | .eq => if b.2.toList ≤ a.2.toList then a.2 else b.2

/-! ## Operations -/

inductive Op
  | acceptSlice (slice : Slice)
  | acceptBatch (slices : List Slice)
  /-- Commit a proposed checkpoint if it recomputes. -/
  | countersign (proposed : Checkpoint)
  | checkpoint
  | creditFunding (credited : ℕ)
  | applySettlementRound (grossDenomSettled : ℕ)
  | beginSettling
  | close

/-- The state after an operation and the slices it counted. -/
def step (s : ChannelState) : Op → ChannelState × List Slice
  | .acceptSlice slice =>
    match s.acceptSlice crypto slice with
    | (.ok (), s) => (s, [slice])
    | (.error _, s) => (s, [])
  | .acceptBatch slices =>
    match s.acceptBatch crypto slices with
    | (.ok (), s) => (s, slices)
    | (.error _, s) => (s, [])
  | .countersign proposed =>
    (if s.recomputes crypto proposed then s.checkpointUpto crypto proposed.lastSeq else s, [])
  | .checkpoint => (s.checkpoint crypto, [])
  | .creditFunding credited => (s.creditFunding credited, [])
  | .applySettlementRound grossDenomSettled => (s.applySettlementRound grossDenomSettled, [])
  | .beginSettling => (s.beginSettling, [])
  | .close => (s.close, [])

/-- A channel at its birth, fresh or importing a position. -/
inductive Born : ChannelState → Prop
  | fresh (channelId : ByteArr 8) (kSession : ByteArr 32) (mode : Mode) (limitL limitE : ℕ)
    (vector : List (UInt8 × UInt16)) :
    Born (new crypto channelId kSession mode limitL limitE vector)
  | imported {channelId : ByteArr 8} {kSession : ByteArr 32} {mode : Mode} {limitL limitE : ℕ}
    {vector : List (UInt8 × UInt16)} {cumTotal : ℕ} {accruals : List ℕ} {balance : ℤ}
    {s : ChannelState} (hcum : cumTotal ≤ U128_MAX)
    (h : newImported crypto channelId kSession mode limitL limitE vector cumTotal accruals
      balance = .ok s) : Born s

end ChannelState

end Paytp
