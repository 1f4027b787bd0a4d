import Paytp.Carriage.Close
import Paytp.Lib.Run

/-!
# The merchant carriage: messages

The handlers of the parsed control messages, batches and retrievals, and the carriage as a
machine: one step handles one message, with the keys that its store fails to decide. Between
messages the rail moves on.
-/

namespace Paytp

namespace Carriage

variable {ρ : Type} (env : Env ρ) (fails : StoreFaults) (s : Carriage ρ)

/-! ## Opening -/

/-- Prepare the import of a predecessor: refuse a reconciled one and refresh the recorded
position of one that may still be chained. -/
def prepareImport (pred : ByteArr 8 × ByteArr 32) : Except CarriageError (Carriage ρ) :=
  match s.chainState.lookup pred.1 with
  | some .pending =>
    let driver := s.driver.removeChainSnapshot pred
    let s := { s with driver }
    match s.computeChainSnapshot env.suite pred.1 pred.2 with
    | some snap => .ok { s with driver := driver.recordChainSnapshot pred snap }
    | none => .ok s
  | some (.reconciled _) => .error .rejected
  | some (.committed _) | none => .ok s

/-- What an OPEN checks before the driver sees it. -/
def screenOpen (auth : ChannelAuth) : Except CarriageError (Carriage ρ) := do
  require (s.finalityIsIrreversible env.adapter auth.finMeed auth.finDenom) .rejected
  match auth.predecessor with
  | some pred => s.prepareImport env pred
  | none => return s

/-- Install an established channel. -/
def install (est : Established) (predecessor : Option (ByteArr 8 × ByteArr 32)) : Carriage ρ :=
  let settledR := (est.ledgerOpenings.map LedgerOpenings.settledR).getD []
  { s with
    ledger := match est.ledgerOpenings with
      | some op => s.ledger.insert est.channelId
          { settledR := op.settledR, netLegsSum := op.netLegs, fundingSum := op.funding
            version := 0 }
      | none => s.ledger
    channelEstablishedAt := s.channelEstablishedAt.insert est.channelId est.establishedAt
    importedBasis := match predecessor with
      | some (_, predRef) => s.importedBasis.insert est.channelId
          { cum := est.state.cumTotal, ckptRef := predRef, accruals := est.state.accrualsByRole
            openingSettledR := settledR }
      | none => s.importedBasis
    channels := s.channels.insert est.channelId est.state }

/-- Commit a predecessor to the successor that imported it. A store that fails to record it does
not stop the import. -/
def commitPredecessor (predecessor : Option (ByteArr 8 × ByteArr 32)) (successor : ByteArr 8) :
    Carriage ρ :=
  match predecessor with
  | some (predCid, _) =>
    let s := (s.recordDisposition fails predCid (.committed successor)).2
    { s with chainState := s.chainState.insert predCid (.committed successor) }
  | none => s

def onOpen (o : ChannelOpen) (now : ℕ) : Except CarriageError Response × Carriage ρ :=
  match s.screenOpen env o.auth with
  | .error e => (.error e, s)
  | .ok s =>
    let (outcome, driver, decisions) :=
      s.driver.openChannel env.suite fails s.decisions o now
    let s := { s with driver, decisions }
    match outcome with
    | .error _ => (.error .rejected, s)
    | .ok (.retransmit ack) =>
      if (ack.encode env.suite).isNone then (.error .malformed, s)
      else (.ok (.message (.channelAck ack)), s)
    | .ok (.established est) =>
      if (est.ack.encode env.suite).isNone then (.error .malformed, s)
      else
        (.ok (.message (.channelAck est.ack)),
          (s.install est o.auth.predecessor).commitPredecessor fails o.auth.predecessor
            est.channelId)

/-! ## Checkpoints -/

/-- The channel an authentic request is about. -/
def screenCheckpoint (request : CheckpointRequest) : Except CarriageError ChannelState := do
  let cid := request.proposed.channelId
  let payerKey ← okOr (s.driver.payerKey cid) .rejected
  require (request.verify env.suite payerKey) .rejected
  okOr (s.channels.lookup cid) .rejected

/-- Countersign a proposal that recomputes; repeat the operative checkpoint to its retry. -/
def onCheckpointRequest (request : CheckpointRequest) :
    Except CarriageError Response × Carriage ρ :=
  match s.screenCheckpoint env request with
  | .error e => (.error e, s)
  | .ok state =>
    let proposed := request.proposed
    let cid := proposed.channelId
    let cp := s.driver.countersignCheckpoint env.suite proposed
    if state.recomputes env.suite.toCrypto proposed then
      let channels := s.channels.insert cid
        (state.checkpointUpto env.suite.toCrypto proposed.lastSeq)
      match cp.reference env.suite with
      | none => (.error .malformed, { s with channels })
      | some ckptRef =>
        (.ok (.message (.checkpoint cp)),
          { s with
            channels
            operative := s.operative.insert cid
              { ckptRef, cumTotal := cp.cumTotal, accruals := cp.accruals } })
    else if (s.operative.lookup cid).any fun op => cp.reference env.suite == some op.ckptRef then
      (.ok (.message (.checkpoint cp)), s)
    else (.error .stateMismatch, s)

/-! ## Funding -/

/-- A funding to credit. -/
structure FundingCredit where
  target : ByteArr 8
  channel : ChannelState
  canonicalRef : String
  credited : ℕ
  newFunding : ℕ

/-- The amount and the canonical reference of a funding, verified on the rail. Only a demo
carriage credits without a rail. -/
def fundingTransfer (fp : FundingProof) (authHash : ByteArr 32) :
    Except CarriageError (ℕ × String) :=
  match s.rail with
  | some rail => do
    let terms ← okOr (s.driver.settlementTerms fp.channelId) .rejected
    let info ← okOr (env.adapter.refTarget rail fp.txRef) .rejected
    require (info.dest == terms.settlePtr && info.asset == terms.denom &&
      decide (fp.amount ≤ info.amount) && info.memo == some authHash &&
      finalityReached env.adapter rail fp.txRef terms.finDenom) .rejected
    return (info.amount, info.canonical)
  | none =>
    match s.profile with
    | .proof => throw .rejected
    | .demo => return (fp.amount, fp.txRef)

/-- What a funding credits: in postpay no more than the merchant-net that is outstanding. -/
def creditedFunding (ch : ChannelState) (led : Ledger) (amount : ℕ) : ℕ :=
  match ch.mode with
  | .postpay =>
    let carve := (u128OfNat (sumOf ch.accrualsByRole / 10000)).getD U128_MAX
    min amount (ch.cumTotal - carve - led.netLegsSum - led.fundingSum)
  | .prepay => amount

def fundingCredit (fp : FundingProof) : Except CarriageError FundingCredit := do
  let target := match s.chainState.lookup fp.channelId with
    | some (.committed _) => s.resolveChainTip fp.channelId
    | _ => fp.channelId
  let payerKey ← okOr (s.driver.payerKey fp.channelId) .rejected
  let authHash ← okOr (s.driver.authHash fp.channelId) .rejected
  require (fp.verify env.suite payerKey) .rejected
  require (fp.authHash == authHash) .rejected
  require (s.fundingAdmissible target) .rejected
  let (amount, canonicalRef) ← s.fundingTransfer env fp authHash
  require (decide (canonicalRef ∉ s.consumedFunding)) .rejected
  let channel ← okOr (s.channels.lookup target) .rejected
  let led := (s.ledger.lookup target).getD {}
  let credited := creditedFunding channel led amount
  let newFunding ← okOr (u128OfNat (led.fundingSum + credited)) .rejected
  return { target, channel, canonicalRef, credited, newFunding }

def onFunding (fp : FundingProof) : Except CarriageError Response × Carriage ρ :=
  match s.fundingCredit env fp with
  | .error e => (.error e, s)
  | .ok c =>
    match s.consumeRef fails c.canonicalRef with
    | (.duplicate, s) => (.ok .accepted, s)
    | (.failed, s) => (.error .rejected, s)
    | (.first, s) =>
      let led := (s.ledger.lookup c.target).getD {}
      (.ok .accepted,
        { s with
          channels := s.channels.insert c.target (c.channel.creditFunding c.credited)
          ledger := s.ledger.insert c.target { led with fundingSum := c.newFunding } })

/-! ## Batches and retrievals -/

def mapAcceptErr : AcceptError → CarriageError
  | .badMac => .rejected
  | .seqInvalid => .seqInvalid
  | .windowExceeded => .windowExceeded
  | .evidenceRequired => .evidenceRequired
  | .notOpen => .closed

def batch (cid : ByteArr 8) (slices : List Slice) : Except CarriageError Response × Carriage ρ :=
  if slices.isEmpty then (.error .malformed, s)
  else
    match s.channels.lookup cid with
    | none => (.error .rejected, s)
    | some state =>
      let (accepted, state) := state.acceptBatch env.suite.toCrypto slices
      let s := { s with channels := s.channels.insert cid state }
      match accepted with
      | .error e => (.error (mapAcceptErr e), s)
      | .ok _ => (.ok .accepted, s)

def ack (req : AckRequest) (now : ℕ) : Except CarriageError Response :=
  match s.driver.serveAckRequest env.suite req now with
  | none => .error .rejected
  | some ack =>
    if (ack.encode env.suite).isNone then .error .malformed
    else .ok (.message (.channelAck ack))

/-! ## The machine -/

/-- A message to the carriage, the merchant's own draw, or a step of the rail. -/
inductive Call (ρ : Type)
  | channelOpen (o : ChannelOpen) (now : ℕ)
  | checkpointRequest (request : CheckpointRequest)
  | fundingProof (fp : FundingProof)
  | settlementPropose (p : SettlementPropose)
  | settlementProof (proof : SettlementProof)
  | close (close : Close)
  | batch (cid : ByteArr 8) (slices : List Slice)
  | ackRequest (req : AckRequest) (now : ℕ)
  | prepayInterimDraw (cid : ByteArr 8)
  | rail (op : ρ → ρ)

structure Event (ρ : Type) where
  call : Call ρ
  fails : StoreFaults

inductive Answer
  | response (r : Except CarriageError Response)
  | notice (m : Option PrepayDrawCompleted)
  | none

def step (s : Carriage ρ) (e : Event ρ) : Carriage ρ × Answer :=
  let respond (r : Except CarriageError Response × Carriage ρ) : Carriage ρ × Answer :=
    (r.2, .response r.1)
  match e.call with
  | .channelOpen o now => respond (s.onOpen env e.fails o now)
  | .checkpointRequest request => respond (s.onCheckpointRequest env request)
  | .fundingProof fp => respond (s.onFunding env e.fails fp)
  | .settlementPropose p => respond (s.onSettlementPropose env p)
  | .settlementProof proof => respond (s.onSettlementProof env e.fails proof)
  | .close close => respond (s.onClose env e.fails close)
  | .batch cid slices => respond (s.batch env cid slices)
  | .ackRequest req now => (s, .response (s.ack env req now))
  | .prepayInterimDraw cid =>
    let (m, s) := s.runPrepayInterimDraw env cid
    (s, .notice m)
  | .rail op => ({ s with rail := s.rail.map op }, .none)

/-! ## What a step does on the rail and to a predecessor -/

/-- The terms a step establishes a channel on. -/
def establishes (s : Carriage ρ) (e : Event ρ) : Option ChannelAuth :=
  match e.call with
  | .channelOpen o now =>
    match s.screenOpen env o.auth with
    | .error _ => none
    | .ok s =>
      match (s.driver.openChannel env.suite e.fails s.decisions o now).1 with
      | .ok (.established _) => some o.auth
      | _ => none
  | _ => none

/-- The successor that a step establishes on an OPEN naming the predecessor `pred`. -/
def successorOf (pred : ByteArr 8) (s : Carriage ρ) (e : Event ρ) : Option (ByteArr 8) :=
  (s.establishes env e).bind fun auth =>
    if auth.predecessor.map Prod.fst = some pred then some auth.channelId else none

/-- The refund a step finds due on a channel that closes for the first time. -/
def refundOf (s : Carriage ρ) (e : Event ρ) : Option (Close × Refund) :=
  match e.call with
  | .close close =>
    match s.screenClose env close with
    | .error _ => none
    | .ok decision =>
      if s.chains close.channelId decision || !s.firstClose close.channelId then none
      else (s.refundDue close.channelId).map fun refund => (close, refund)
  | _ => none

/-- The refund of the channel `cid` that the rail releases in a step. -/
def releaseOf (cid : ByteArr 8) (s : Carriage ρ) (e : Event ρ) : Option String :=
  match s.refundOf env e, s.rail with
  | some (close, refund), some rail =>
    if close.channelId = cid then (submitRefund env close refund rail).1.toOption else none
  | _, _ => none

/-! ## Construction -/

/-- Replay one decided key into the guards. A corrupt record stops a strict replay. -/
def replayGuard (strict : Bool) (s : Carriage ρ) (entry : Bytes × Bytes) : Option (Carriage ρ) :=
  let corrupt := if strict then none else some s
  match entry.1.dropPrefix? (Bytes.ofString "fund:"),
    entry.1.dropPrefix? (Bytes.ofString "disp:") with
  | some canonical, _ =>
    match Bytes.toString? canonical with
    | some r =>
      if entry.2.isEmpty then some { s with consumedFunding := insert r s.consumedFunding }
      else corrupt
    | none => corrupt
  | none, some cidBytes =>
    match ByteArr.ofBytes? 8 cidBytes, decodeDisp entry.2 with
    | some cid, some state => some { s with chainState := s.chainState.insert cid state }
    | _, _ => corrupt
  | none, none => some s

/-- Replay the store, given by its entries in any order, and install it. -/
def replayGuards (strict : Bool) (s : Carriage ρ) (entries : List (Bytes × Bytes)) :
    Option (Carriage ρ) :=
  (entries.foldlM (replayGuard strict) s).map fun s =>
    { s with decisions := some (entries.foldl (fun store e => store.insert e.1 e.2) ∅) }

/-- The channels a store has accepted before; a corrupt record stops the replay. -/
def tombstonesOf (entries : List (Bytes × Bytes)) : Option (Finset (ByteArr 8)) :=
  (entries.filterMap fun e => (e.1.dropPrefix? (Bytes.ofString "chopen:"))).mapM
    (ByteArr.ofBytes? 8) |>.map List.toFinset

/-- A carriage without a store or a rail, or with what the caller attaches of them. -/
def demo (driver : ChannelDriver) (rail : Option ρ) (entries : Option (List (Bytes × Bytes))) :
    Option (Carriage ρ) :=
  let s : Carriage ρ := { (empty driver .demo : Carriage ρ) with rail }
  match entries with
  | some entries => s.replayGuards false entries
  | none => some s

/-- A carriage on a rail and a store that its driver shares. -/
def proof (driver : ChannelDriver) (rail : ρ) (entries : List (Bytes × Bytes)) :
    Option (Carriage ρ) := do
  let tombstones ← tombstonesOf entries
  let driver := { driver with tombstones := driver.tombstones ∪ tombstones, durable := true }
  replayGuards true { (empty driver .proof : Carriage ρ) with rail := some rail } entries

/-- A carriage as it is built over a new driver. -/
inductive Built (env : Env ρ) : Carriage ρ → Prop
  | demo {signingKey encSeed : ByteArr 32} {settlePtr : String} {rail : Option ρ}
    {entries : Option (List (Bytes × Bytes))} {s : Carriage ρ}
    (h : demo (.new env.suite signingKey encSeed settlePtr) rail entries = some s) : Built env s
  | proof {signingKey encSeed : ByteArr 32} {settlePtr : String} {rail : ρ}
    {entries : List (Bytes × Bytes)} {s : Carriage ρ}
    (h : proof (.new env.suite signingKey encSeed settlePtr) rail entries = some s) : Built env s

end Carriage

end Paytp
