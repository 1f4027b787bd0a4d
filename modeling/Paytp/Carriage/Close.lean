import Paytp.Carriage.Settlement

/-!
# The merchant carriage: closing

A close for chaining records a revocable intent. A plain close refunds the unconsumed deposit of
a prepay channel, drains its draws, pins the one it still owes and records the disposition; the
refund goes out before the disposition is recorded.
-/

namespace Paytp

namespace Carriage

variable {ρ : Type} (env : Env ρ) (fails : StoreFaults) (s : Carriage ρ)

/-- The disposition a channel has, in memory or else in the store. -/
def priorDisposition (cid : ByteArr 8) : Option ChainState :=
  (s.chainState.lookup cid).or
    (s.decisions.bind fun store => (store.lookup (dispKey cid)).bind decodeDisp)

/-- The evidenced consumption a close reconciles against. -/
def basisCum (cid : ByteArr 8) : ℕ :=
  match s.operative.lookup cid, s.importedBasis.lookup cid with
  | some op, _ => (u128OfNat op.cumTotal).getD U128_MAX
  | none, some b => b.cum
  | none, none => 0

/-- Authenticate a close and check the checkpoint it names and that a chaining channel is
quiescent. -/
def screenClose (close : Close) : Except CarriageError CloseDecision := do
  let cid := close.channelId
  let payerKey ← okOr (s.driver.payerKey cid) .rejected
  let decision ← okOr (close.accept env.suite cid payerKey s.driver.key) .rejected
  let reconciled := match s.chainState.lookup cid with
    | some (.reconciled _) => true
    | _ => false
  require (reconciled || (s.operative.lookup cid).all fun op => close.ckptRef == op.ckptRef)
    .rejected
  require (!(decision.chainIntent && (s.roundsOf cid).any fun r => !r.2.confirmed)) .rejected
  return decision

/-- A close for chaining: every metered slice is evidenced, by a checkpoint of the channel's own
unless nothing was metered. -/
def closeChained (cid : ByteArr 8) : Except CarriageError Unit × Carriage ρ :=
  let liveCum := ((s.channels.lookup cid).map ChannelState.cumTotal).getD 0
  if liveCum ≠ s.basisCum cid then (.error .rejected, s)
  else if (s.operative.lookup cid).isNone ∧ liveCum ≠ 0 then (.error .rejected, s)
  else if (s.priorDisposition cid).isNone then
    (.ok (), { s with chainState := s.chainState.insert cid .pending })
  else (.ok (), s)

/-- A refund to release. -/
structure Refund where
  settlePtr : String
  refundPtr : String
  denom : String
  amount : ℕ
  deriving DecidableEq

/-- The unconsumed deposit of a prepay channel, where there is one. -/
def refundDue (cid : ByteArr 8) : Option Refund := do
  let _ ← s.channels.lookup cid
  let led ← s.ledger.lookup cid
  let t ← s.driver.settlementTerms cid
  let refundPtr ← t.refundPtr
  let refund ← (Fee.Reconcile.prepayUnconsumedDeposit led.fundingSum (s.basisCum cid)).toOption
  let amount := (u128OfNat refund).getD 0
  guard (amount > 0)
  return { settlePtr := t.settlePtr, refundPtr, denom := t.denom, amount }

/-- Submit a due refund under the basis the close names. -/
def submitRefund (close : Close) (refund : Refund) (rail : ρ) : Except RailError String × ρ :=
  env.adapter.releaseKeyed rail close.channelId close.ckptRef refund.settlePtr refund.refundPtr
    refund.denom refund.amount

/-- Reserve a due refund, release it, and record the reference of the release. -/
def releaseRefund (close : Close) : Carriage ρ :=
  match s.refundDue close.channelId, s.rail with
  | some refund, some rail =>
    let s := (s.decideKey fails (refundReserveKey close.channelId close.ckptRef) []).2
    let (released, rail) := submitRefund env close refund rail
    let s := { s with rail := some rail }
    match released with
    | .ok rref => (s.decideKey fails (refundRefKey close.channelId close.ckptRef)
        (Bytes.ofString rref)).2
    | .error _ => s
  | _, _ => s

/-- The first plain close: refund, drain, pin and record. -/
def reconcile (close : Close) : Except CarriageError Unit × Carriage ρ :=
  let cid := close.channelId
  let s := (s.releaseRefund env fails close).drainInterimRounds env cid
  let reconciled := ChainState.reconciled (s.computePendingDraw cid)
  match s.recordDisposition fails cid reconciled with
  | (.failed, s) => (.error .rejected, s)
  | (_, s) => (.ok (), { s with chainState := s.chainState.insert cid reconciled })

/-- Is nothing terminal decided about the channel yet? -/
def firstClose (cid : ByteArr 8) : Bool :=
  match s.priorDisposition cid with
  | none | some .pending => true
  | _ => false

def closePlain (close : Close) : Except CarriageError Unit × Carriage ρ :=
  let (closed, s) :=
    if s.firstClose close.channelId then s.reconcile env fails close else (.ok (), s)
  match closed with
  | .error e => (.error e, s)
  | .ok _ => (.ok (), s.attemptPrepayCloseDraw env close.channelId)

/-- Settle the channel and end its retention. -/
def finishClose (cid : ByteArr 8) : Except CarriageError Response × Carriage ρ :=
  match s.channels.lookup cid with
  | none => (.error .rejected, s)
  | some st =>
    (.ok .accepted, { s with channels := s.channels.insert cid st.beginSettling
                             driver := s.driver.terminate cid })

/-- Does the close chain: by the payer's choice, on a channel without a conversion? -/
def chains (cid : ByteArr 8) (decision : CloseDecision) : Bool :=
  decision.chainIntent &&
    ((s.driver.settlementTerms cid).map fun t => !t.conversionRequired).getD false

def onClose (close : Close) : Except CarriageError Response × Carriage ρ :=
  match s.screenClose env close with
  | .error e => (.error e, s)
  | .ok decision =>
    let cid := close.channelId
    let (closed, s) :=
      if s.chains cid decision then s.closeChained cid else s.closePlain env fails close
    match closed with
    | .error e => (.error e, s)
    | .ok _ => s.finishClose cid

end Carriage

end Paytp
