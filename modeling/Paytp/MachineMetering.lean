import Paytp.ChannelState

/-!
# Channel metering on machine integers

The calls on a channel with each sum, difference and negation that does not saturate as the
machine computes it: without a value where the result does not fit its type. A call without a
value has overflowed.
-/

namespace Paytp

namespace ChannelState

/-- A call on a channel. -/
inductive Call
  | acceptSlice (slice : Slice)
  | acceptBatch (slices : List Slice)
  | creditFunding (credited : ℕ)
  | applySettlementRound (grossDenomSettled : ℕ)
  | buildCheckpointAt (cutoff timestamp : ℕ) (prevRef : ByteArr 32) (events : List CkptEvent)
  | recomputes (proposed : Checkpoint)
  | checkpoint
  | checkpointUpto (cutoff : ℕ)
  | beginSettling
  | close

variable (crypto : Crypto)

/-- The state after a call. -/
def call (s : ChannelState) : Call → ChannelState
  | .acceptSlice slice => (s.acceptSlice crypto slice).2
  | .acceptBatch slices => (s.acceptBatch crypto slices).2
  | .creditFunding credited => s.creditFunding credited
  | .applySettlementRound grossDenomSettled => s.applySettlementRound grossDenomSettled
  | .buildCheckpointAt .. => s
  | .recomputes _ => s
  | .checkpoint => s.checkpoint crypto
  | .checkpointUpto cutoff => s.checkpointUpto crypto cutoff
  | .beginSettling => s.beginSettling
  | .close => s.close

/-- The state after some calls. -/
def calls (s : ChannelState) (cs : List Call) : ChannelState := cs.foldl (call crypto) s

namespace Machine

/-- The lower and the upper bound of a mode. -/
def bounds (mode : Mode) (limitL : ℕ) : Option (ℤ × ℤ) :=
  match mode with
  | .postpay => some (0, i128OfU128 limitL)
  | .prepay => (negI128 (i128OfU128 limitL)).map (·, 0)

def new (channelId : ByteArr 8) (kSession : ByteArr 32) (mode : Mode) (limitL limitE : ℕ)
    (vector : List (UInt8 × UInt16)) : Option ChannelState := do
  let (boundLower, boundUpper) ← bounds mode limitL
  some { ChannelState.new crypto channelId kSession mode limitL limitE vector with
    boundLower
    boundUpper }

def acceptSlice (s : ChannelState) (slice : Slice) :
    Option (Except AcceptError Unit × ChannelState) :=
  let macOk := slice.verify crypto (s.kSession.getD (.replicate 32 0))
  if s.kSession.isNone || !macOk then some (.error .badMac, s)
  else if s.phase ≠ .open then some (.error .notOpen, s)
  else if slice.seq ≤ s.floor ∨ slice.seq ∈ s.accounted.keys then some (.error .seqInvalid, s)
  else if s.pausedWindow then some (.error .windowExceeded, s)
  else
    let amt := slice.amtMicro
    let newBalance := satAddI128 s.balance (asI128 amt)
    if newBalance > s.boundUpper then
      some (.error .windowExceeded, { s with pausedWindow := true })
    else do
      let unevidenced ← addU128 s.unevidenced amt
      if unevidenced > s.limitE then some (.error .evidenceRequired, s)
      else some (.ok (),
        { s with
          balance := newBalance
          cumTotal := satAddU128 s.cumTotal amt
          accruals := accrue amt s.accruals s.vector
          unevidenced
          accounted := s.accounted.insert slice.seq ()
          window := s.window.insert slice.seq slice
          pausedEvidence := s.pausedEvidence || decide (unevidenced ≥ s.limitE) })

def acceptEach (s : ChannelState) : List Slice → Option (Except AcceptError Unit × ChannelState)
  | [] => some (.ok (), s)
  | slice :: slices => do
    match ← acceptSlice crypto s slice with
    | (.error e, s) => some (.error e, s)
    | (.ok (), s) => acceptEach s slices

def acceptBatch (s : ChannelState) (slices : List Slice) :
    Option (Except AcceptError Unit × ChannelState) := do
  match ← acceptEach crypto s slices with
  | (.error e, _) =>
    some (.error e, if e = .windowExceeded then { s with pausedWindow := true } else s)
  | (.ok (), tentative) => some (.ok (), tentative)

def runsFrom (lo hi : ℕ) : List ℕ → Option (List Range)
  | [] => some [⟨lo, hi⟩]
  | s :: rest => do
    let next ← addU64 hi 1
    if s = next then runsFrom lo s rest else (⟨lo, hi⟩ :: ·) <$> runsFrom s s rest

def rangesUpto (s : ChannelState) (cutoff : ℕ) : Option (List Range) :=
  match (s.accounted.upto cutoff).keys with
  | [] => some []
  | first :: rest => runsFrom first first rest

def buildCheckpointAt (s : ChannelState) (cutoff timestamp : ℕ) (prevRef : ByteArr 32)
    (events : List CkptEvent) : Option Checkpoint := do
  let excludedAmt ← sumU128 ((s.window.past cutoff).values.map Slice.amtMicro)
  let accruals ← (s.vector.zip s.accruals).mapM fun p =>
    (subBig p.2 (excludedAmt * p.1.2.toNat)).map (p.1.1, ·)
  let histBalance ← subI128 s.balance (asI128 excludedAmt)
  let ranges ← rangesUpto s cutoff
  some
    { channelId := s.channelId
      balance := histBalance.natAbs
      balanceNegative := decide (histBalance < 0)
      cumTotal := s.cumTotal - excludedAmt
      accruals
      lastSeq := ((s.accounted.upto cutoff).keys.getLast?).getD s.floor
      ranges
      transcript := foldHead crypto s.committedHead (s.window.upto cutoff).values
      events
      timestamp
      prevRef
      sigPayer := none
      sigMerchant := none }

def checkpointUpto (s : ChannelState) (cutoff : ℕ) : Option ChannelState := do
  let window := s.window.past cutoff
  let unevidenced ← sumU128 (window.values.map Slice.amtMicro)
  some
    { s with
      committedHead := foldHead crypto s.committedHead (s.window.upto cutoff).values
      window
      accounted := s.accounted.past cutoff
      floor := cutoff
      unevidenced
      pausedEvidence := decide (unevidenced ≥ s.limitE) }

/-- The state after a call that does not overflow. -/
def call (s : ChannelState) : Call → Option ChannelState
  | .acceptSlice slice => (acceptSlice crypto s slice).map Prod.snd
  | .acceptBatch slices => (acceptBatch crypto s slices).map Prod.snd
  | .creditFunding credited => some (s.creditFunding credited)
  | .applySettlementRound grossDenomSettled => some (s.applySettlementRound grossDenomSettled)
  | .buildCheckpointAt cutoff timestamp prevRef events =>
    (buildCheckpointAt crypto s cutoff timestamp prevRef events).map fun _ => s
  | .recomputes proposed =>
    (buildCheckpointAt crypto s proposed.lastSeq proposed.timestamp proposed.prevRef
      proposed.events).map fun _ => s
  | .checkpoint => checkpointUpto crypto s (s.accounted.keys.getLast?.getD s.floor)
  | .checkpointUpto cutoff => checkpointUpto crypto s cutoff
  | .beginSettling => some s.beginSettling
  | .close => some s.close

/-- The state after some calls none of which overflows. -/
def calls (s : ChannelState) (cs : List Call) : Option ChannelState := cs.foldlM (call crypto) s

end Machine

end ChannelState

end Paytp
