import Paytp.Carriage.State

/-!
# The merchant carriage: settlement

The payer's rounds, from proposal to confirmation, and the interim draws the merchant runs on a
prepay channel. Every handler first checks, in the source's order, and then commits: what it
will change is a value the checks return.
-/

namespace Paytp

def MAX_PROPOSAL_HASHES : ℕ := 64
def MAX_PROOFS : ℕ := 64

namespace Carriage

variable {ρ : Type} (env : Env ρ) (fails : StoreFaults) (s : Carriage ρ)

/-! ## Proposals -/

/-- The rounds of a channel. -/
def roundsOf (cid : ByteArr 8) : List (ByteArr 32 × RoundDecision) :=
  s.rounds.entries.filterMap fun e => if e.1.1 = cid then some (e.1.2, e.2) else none

/-- Does the instance leg carry the target and the roles that were recomputed, or nothing where
nothing is owed? -/
def legMatches (leg : Option InstanceLeg) (targetP : Option ℕ) (eR : List (UInt8 × ℕ)) : Bool :=
  match leg, targetP with
  | some l, some tp => u128OfNat l.amount == some tp && l.extinguished == eR
  | none, none => true
  | _, _ => false

/-- The checks of a proposal, and the round as it is stored. -/
def proposedRound (p : SettlementPropose) : Except CarriageError RoundDecision := do
  let cid := p.channelId
  require (!s.barsNewRound cid) .rejected
  let payerKey ← okOr (s.driver.payerKey cid) .rejected
  require (p.verifyPayer env.suite payerKey) .rejected
  require p.sigMerchant.isNone .rejected
  require ((s.channels.lookup cid).map ChannelState.mode != some .prepay) .rejected
  require ((s.driver.settlementTerms cid).all fun t =>
    s.finalityIsIrreversible env.adapter t.finMeed t.finDenom) .rejected
  require (!(s.roundsOf cid).any fun (ck, d) => ck != p.ckptRef && !d.confirmed) .rejected
  let started := s.rounds.lookup (cid, p.ckptRef)
  require ((s.operative.lookup cid).map Operative.ckptRef == some p.ckptRef || started.isSome)
    .rejected
  let terms ← okOr (s.driver.settlementTerms cid) .rejected
  require (p.conversion.isSome == terms.conversionRequired) .malformed
  require (p.outputs.all fun o => terms.boundDests.contains o.dest && o.asset == terms.denom)
    .rejected
  let fp := termsFingerprint env.suite p
  match started with
  | some d =>
    require (d.termsFp == fp) .rejected
    let ph ← okOr (p.proposalHash env.suite) .malformed
    require (decide (ph ∈ d.proposalHashes ∨ d.proposalHashes.card < MAX_PROPOSAL_HASHES)) .rejected
    return { d with proposalHashes := insert ph d.proposalHashes }
  | none =>
    require p.conversion.isNone .rejected
    let r ← s.recomputeRound cid
    require (p.outputs == r.outputs) .rejected
    let targetP ← match r.meedAmount with
      | some _ => do
        let op ← okOr (s.operative.lookup cid) .rejected
        some <$> okOr (s.cumulativeTargetP cid op.accruals) .rejected
      | none => pure none
    require (legMatches p.instanceLeg targetP r.eR) .rejected
    let ph ← okOr (p.proposalHash env.suite) .malformed
    return { termsFp := fp
             proposalHashes := {ph}
             proofs := []
             outputs := r.outputs
             meedAmount := r.meedAmount
             eR := r.eR
             meedFolded := false
             netFolded := false
             meedFinalTime := none
             deterministic := true
             ledgerVersion := ((s.ledger.lookup cid).map Ledger.version).getD 0
             confirmed := false
             drawRef := none
             targetP }

def onSettlementPropose (p : SettlementPropose) : Except CarriageError Response × Carriage ρ :=
  match s.proposedRound env p with
  | .error e => (.error e, s)
  | .ok d => (.ok .accepted, { s with rounds := s.rounds.insert (p.channelId, p.ckptRef) d })

/-! ## Proofs -/

/-- What the legs of a proof were matched to so far. -/
structure LegMatch where
  meedTime : Option ℕ := none
  netTimes : List ℕ := []
  matched : List Bool
  seenRefs : List String := []
  netRefs : List String := []

/-- Has the reference advanced this channel of this instance at least to the target? -/
def advancedTo (info : RefInfo) (cid : ByteArr 8) (seedInstance : ByteArr 32) (targetP : ℕ) :
    Bool :=
  info.advancedChannelMeed.any fun f =>
    f.channelId == cid && f.seedInstance == seedInstance && decide (f.fundedP ≥ targetP)

/-- The first output not matched yet that a transfer pays. -/
def matchingOutput (outputs : List Output) (matched : List Bool) (info : RefInfo) : Option ℕ :=
  (outputs.zip matched).findIdx? fun (o, m) =>
    !m && o.dest == info.dest && o.asset == info.asset && u128OfNat o.amount == some info.amount

/-- Correlate one leg with its record on the rail. -/
def matchLeg (rail : ρ) (terms : SettlementTerms) (key : ByteArr 8 × ByteArr 32)
    (round : RoundDecision) (m : LegMatch) (t : TxRef) : Except CarriageError LegMatch := do
  let info ← okOr (env.adapter.refTarget rail t.reference) .rejected
  require (!m.seenRefs.contains info.canonical) .rejected
  let seenRefs := info.canonical :: m.seenRefs
  let time := (env.adapter.finality rail t.reference).map Finality.time
  if t.leg = 0x01 then do
    let targetP ← okOr round.targetP .rejected
    require (m.meedTime.isNone &&
      info.dest == env.adapter.deriveAddress rail terms.seedInstance &&
      info.asset == terms.baselineAsset && advancedTo info key.1 terms.seedInstance targetP &&
      finalityReached env.adapter rail t.reference terms.finMeed) .rejected
    return { m with seenRefs, meedTime := time }
  else if t.leg = 0x02 then do
    let idx ← okOr (matchingOutput round.outputs m.matched info) .rejected
    require (info.memo == some (env.suite.settlementNetMemo key.1 key.2) &&
      finalityReached env.adapter rail t.reference terms.finDenom) .rejected
    return { m with
      seenRefs
      matched := m.matched.set idx true
      netRefs := m.netRefs ++ [info.canonical]
      netTimes := m.netTimes ++ time.toList }
  else throw .rejected

/-- What a proof folds into the ledger. -/
structure RoundFold where
  key : ByteArr 8 × ByteArr 32
  round : RoundDecision
  foldMeed : Bool
  meedTime : Option ℕ
  foldNet : Bool
  netRefs : List String
  netTotal : ℕ
  newNetLegs : ℕ
  /-- The receipt, where both legs are done. -/
  confirmed : Option SettlementConfirmed

inductive ProofPlan
  /-- Answer without a change. -/
  | answer (r : Response)
  /-- Keep the proof as evidence. -/
  | keepEvidence (key : ByteArr 8 × ByteArr 32) (round : RoundDecision)
  | foldRound (fold : RoundFold)

/-- The sum of the outputs, if it is in its domain; an amount that is not counts for nothing. -/
def netTotal (outputs : List Output) : Option ℕ :=
  u128OfNat (outputs.map fun o => (u128OfNat o.amount).getD 0).sum

/-- The net leg is final no earlier than the meed leg, which a debtor pays first. -/
def netInOrder (meedNeeded : Bool) (meedTime : Option ℕ) (netTimes : List ℕ) : Bool :=
  match meedTime with
  | some rt => netTimes.all fun nt => decide (rt ≤ nt)
  | none => !meedNeeded

/-- The checks of a proof on a deterministic round, and what it folds. -/
def roundFold (rail : ρ) (proof : SettlementProof) (key : ByteArr 8 × ByteArr 32)
    (round : RoundDecision) : Except CarriageError RoundFold := do
  let cid := proof.channelId
  let led := (s.ledger.lookup cid).getD {}
  require (led.version == round.ledgerVersion) .rejected
  let terms ← okOr (s.driver.settlementTerms cid) .rejected
  let m ← proof.txRefs.foldlM (matchLeg env rail terms key round)
    { matched := round.outputs.map fun _ => false }
  let meedNeeded := round.meedAmount.isSome
  let foldMeed := meedNeeded && !round.meedFolded && m.meedTime.isSome
  let meedDone := !meedNeeded || round.meedFolded || foldMeed
  let netComplete := m.matched.all id
  let foldNet := !round.netFolded && netComplete && !m.netRefs.isEmpty
  let willConfirm := meedDone && (round.netFolded || netComplete)
  require (foldMeed || foldNet || willConfirm) .rejected
  require (!foldNet || netInOrder meedNeeded (m.meedTime.or round.meedFinalTime) m.netTimes)
    .rejected
  let total ← if foldNet then okOr (netTotal round.outputs) .rejected else pure 0
  let newNetLegs ← okOr (u128OfNat (led.netLegsSum + total)) .rejected
  require (!foldNet || m.netRefs.all fun r => r ∉ s.consumedFunding) .rejected
  let receipt : SettlementConfirmed :=
    { channelId := cid, proposalHash := proof.proposalHash, sigPayer := none, sigMerchant := none }
  return { key
           round
           foldMeed
           meedTime := m.meedTime
           foldNet
           netRefs := m.netRefs
           netTotal := total
           newNetLegs
           confirmed :=
             if willConfirm then some (s.driver.signConfirmed env.suite receipt) else none }

def proofPlan (proof : SettlementProof) : Except CarriageError ProofPlan := do
  let cid := proof.channelId
  let payerKey ← okOr (s.driver.payerKey cid) .rejected
  require (proof.verifyPayer env.suite payerKey) .rejected
  let (ck, round) ← okOr
    ((s.roundsOf cid).find? fun (_, d) => decide (proof.proposalHash ∈ d.proposalHashes)) .rejected
  let key := (cid, ck)
  if round.confirmed then
    if round.deterministic then
      let receipt : SettlementConfirmed :=
        { channelId := cid, proposalHash := proof.proposalHash, sigPayer := none
          sigMerchant := none }
      return .answer (.message (.settlementConfirmed (s.driver.signConfirmed env.suite receipt)))
    else return .answer .accepted
  else
    match s.rail, round.deterministic with
    | some rail, true => .foldRound <$> s.roundFold env rail proof key round
    | _, _ => return .keepEvidence key round

/-- Add what a round extinguished to what is settled, by ascending role. -/
def addSettled (settledR eR : List (UInt8 × ℕ)) : List (UInt8 × ℕ) :=
  let add (acc : List (UInt8 × ℕ)) (e : UInt8 × ℕ) : List (UInt8 × ℕ) :=
    if acc.any fun a => a.1 == e.1 then
      acc.map fun a => if a.1 = e.1 then (a.1, a.2 + e.2) else a
    else acc ++ [e]
  (eR.foldl add settledR).insertionSort fun a b => a.1 ≤ b.1

/-- The wrapping successor of a ledger's version. -/
def nextVersion (version : ℕ) : ℕ := (version + 1) % 2 ^ 64

/-- Consume references up to the first that is not consumed first here. -/
def consumeRefs (s : Carriage ρ) : List String → ConsumeOutcome × Carriage ρ
  | [] => (.first, s)
  | r :: rs =>
    match s.consumeRef fails r with
    | (.first, s) => consumeRefs s rs
    | (outcome, s) => (outcome, s)

/-- Fold the legs of a round into the ledger, the balance and the round. -/
def foldLegs (fold : RoundFold) : Carriage ρ :=
  let cid := fold.key.1
  let led := (s.ledger.lookup cid).getD {}
  let settledR := if fold.foldMeed then addSettled led.settledR fold.round.eR else led.settledR
  let carveDelta := sumOf settledR / 10000 - sumOf led.settledR / 10000
  let gross :=
    satAddU128 (satAddU128 0 ((u128OfNat carveDelta).getD U128_MAX)) fold.netTotal
  let led : Ledger :=
    { led with
      settledR
      netLegsSum := if fold.foldNet then fold.newNetLegs else led.netLegsSum
      version := if fold.foldMeed || fold.foldNet then nextVersion led.version else led.version }
  { s with
    ledger := s.ledger.insert cid led
    channels := match s.channels.lookup cid with
      | some st => if gross > 0 then s.channels.insert cid (st.applySettlementRound gross)
        else s.channels
      | none => s.channels
    rounds := s.rounds.insert fold.key
      { fold.round with
        meedFolded := fold.round.meedFolded || fold.foldMeed
        meedFinalTime := if fold.foldMeed then fold.meedTime else fold.round.meedFinalTime
        netFolded := fold.round.netFolded || fold.foldNet
        ledgerVersion := led.version
        confirmed := fold.round.confirmed || fold.confirmed.isSome } }

def onSettlementProof (proof : SettlementProof) : Except CarriageError Response × Carriage ρ :=
  match s.proofPlan env proof with
  | .error e => (.error e, s)
  | .ok (.answer r) => (.ok r, s)
  | .ok (.keepEvidence key round) =>
    let proofs := if round.proofs.length < MAX_PROOFS then round.proofs ++ [proof]
      else round.proofs
    (.ok .accepted, { s with rounds := s.rounds.insert key { round with proofs } })
  | .ok (.foldRound fold) =>
    match s.consumeRefs fails (if fold.foldNet then fold.netRefs else []) with
    | (.duplicate, s) => (.ok .accepted, s)
    | (.failed, s) => (.error .rejected, s)
    | (.first, s) =>
      (.ok (match fold.confirmed with
        | some c => .message (.settlementConfirmed c)
        | none => .accepted), s.foldLegs fold)

/-! ## Interim draws -/

/-- Fold a drawn round into what is settled, once, and complete it. -/
def foldInterimRound (cid : ByteArr 8) (ckptRef : ByteArr 32) (eR : List (UInt8 × ℕ))
    (finalTime : Option ℕ) : Carriage ρ :=
  match s.rounds.lookup (cid, ckptRef) with
  | none => s
  | some d =>
    if d.meedFolded then s
    else
      let led := (s.ledger.lookup cid).getD {}
      let version := nextVersion led.version
      { s with
        ledger := s.ledger.insert cid
          { led with settledR := addSettled led.settledR eR, version }
        rounds := s.rounds.insert (cid, ckptRef)
          { d with meedFolded := true, netFolded := true, confirmed := true
                   meedFinalTime := finalTime, ledgerVersion := version } }

/-- Did the draw of a round, as the rail has it, reach the round's target? -/
def drawFunded (cid : ByteArr 8) (seedInstance : ByteArr 32) (d : RoundDecision) : Bool :=
  match d.targetP, d.drawRef, s.rail with
  | some targetP, some r, some rail =>
    (env.adapter.refTarget rail r).any fun info => advancedTo info cid seedInstance targetP
  | _, _, _ => false

/-- Complete or remove one round in flight. -/
def drainRound (cid : ByteArr 8) (seedInstance : ByteArr 32) (s : Carriage ρ)
    (round : ByteArr 32 × RoundDecision) : Carriage ρ :=
  if s.drawFunded env cid seedInstance round.2 then
    s.foldInterimRound cid round.1 round.2.eR none
  else { s with rounds := s.rounds.erase (cid, round.1) }

/-- Before a prepay channel pins its close draw: complete the rounds the rail has drawn and
remove the others. -/
def drainInterimRounds (cid : ByteArr 8) : Carriage ρ :=
  if (s.channels.lookup cid).map ChannelState.mode ≠ some .prepay then s
  else
    match s.driver.settlementTerms cid with
    | none => s
    | some t =>
      ((s.roundsOf cid).filter fun r => !r.2.confirmed).foldl
        (drainRound env cid t.seedInstance) s

/-- The round a draw works on. -/
structure DrawTarget where
  ckptRef : ByteArr 32
  targetP : ℕ
  eR : List (UInt8 × ℕ)
  terms : SettlementTerms

/-- The notice that a draw completed. -/
def drawNotice (cid : ByteArr 8) (target : DrawTarget) (txRef : String) (finality : String) :
    PrepayDrawCompleted :=
  s.driver.signPrepayDraw env.suite
    { channelId := cid
      ckptRef := target.ckptRef
      amount := target.targetP
      extinguished := target.eR
      claimRecord := env.suite.claimRecordId target.terms.seedInstance cid target.ckptRef
        target.targetP
      rail := target.terms.baselineNet
      txRef
      finality
      sigMerchant := none }

/-- The terms of a channel that may draw: prepay, live, and final where the rail is. -/
def drawTerms (cid : ByteArr 8) : Option SettlementTerms := do
  let ch ← s.channels.lookup cid
  guard (ch.mode = .prepay)
  guard (ch.status = .open ∨ ch.status = .pausedWindow ∨ ch.status = .pausedEvidence)
  let terms ← s.driver.settlementTerms cid
  guard !terms.conversionRequired
  guard (s.finalityIsIrreversible env.adapter terms.finMeed terms.finDenom)
  return terms

inductive DrawPlan
  /-- Draw for a round that is locked already, or lock this one and draw. -/
  | draw (target : DrawTarget) (lock : Option RoundDecision)
  /-- The round of this checkpoint is complete: repeat its notice. -/
  | repeatNotice (target : DrawTarget) (txRef : String)

def lockedRound (cid : ByteArr 8) (target : DrawTarget) (p ledgerVersion : ℕ) : RoundDecision where
  termsFp := env.suite.sha256
    (cid.toList ++ target.ckptRef.toList ++ toBE 16 target.targetP)
  proposalHashes := ∅
  proofs := []
  outputs := []
  meedAmount := some p
  eR := target.eR
  meedFolded := false
  netFolded := true
  meedFinalTime := none
  deterministic := true
  ledgerVersion
  confirmed := false
  drawRef := none
  targetP := some target.targetP

def drawPlan (cid : ByteArr 8) : Option DrawPlan := do
  let terms ← s.drawTerms env cid
  let _ ← s.rail
  match (s.roundsOf cid).find? fun r => !r.2.confirmed with
  | some (ckptRef, d) =>
    let targetP ← d.targetP
    return .draw { ckptRef, targetP, eR := d.eR, terms } none
  | none =>
    let op ← s.operative.lookup cid
    match s.rounds.lookup (cid, op.ckptRef) with
    | some d =>
      guard d.confirmed
      let targetP ← d.targetP
      let txRef ← d.drawRef
      return .repeatNotice { ckptRef := op.ckptRef, targetP, eR := d.eR, terms } txRef
    | none =>
      let r ← (s.recomputeRound cid).toOption
      let p ← r.meedAmount
      let targetP ← s.cumulativeTargetP cid op.accruals
      let target : DrawTarget := { ckptRef := op.ckptRef, targetP, eR := r.eR, terms }
      let version := ((s.ledger.lookup cid).map Ledger.version).getD 0
      return .draw target (lockedRound env cid target p version)

def finalityLevel (rail : ρ) (r : String) : String :=
  ((env.adapter.finality rail r).map Finality.level).getD ""

/-- Keep the reference of a draw with its round. -/
def setDrawRef (key : ByteArr 8 × ByteArr 32) (r : String) : Carriage ρ :=
  match s.rounds.lookup key with
  | some d => { s with rounds := s.rounds.insert key { d with drawRef := some r } }
  | none => s

/-- Draw for a locked round, or look at the draw it has, and complete it once it is final. -/
def drawLocked (cid : ByteArr 8) (rail : ρ) (target : DrawTarget) :
    Option PrepayDrawCompleted × Carriage ρ :=
  let key := (cid, target.ckptRef)
  let (drawn, rail) := match (s.rounds.lookup key).bind RoundDecision.drawRef with
    | some r => (Except.ok r, rail)
    | none => env.adapter.advanceChannelMeed rail (some target.terms.settlePtr)
      (env.adapter.deriveAddress rail target.terms.seedInstance) cid target.targetP
      target.terms.baselineAsset
  let s := { s with rail := some rail }
  match drawn with
  | .error .alreadyFunded => (none, s.foldInterimRound cid target.ckptRef target.eR none)
  | .error _ => (none, s)
  | .ok r =>
    let s := s.setDrawRef key r
    if finalityReached env.adapter rail r target.terms.finMeed then
      (some (s.drawNotice env cid target r (finalityLevel env rail r)),
        s.foldInterimRound cid target.ckptRef target.eR
          ((env.adapter.finality rail r).map Finality.time))
    else (none, s)

def runPrepayInterimDraw (cid : ByteArr 8) : Option PrepayDrawCompleted × Carriage ρ :=
  match s.drawPlan env cid, s.rail with
  | some (.repeatNotice target txRef), some rail =>
    (some (s.drawNotice env cid target txRef (finalityLevel env rail txRef)), s)
  | some (.draw target lock), some rail =>
    let s := match lock with
      | some round => { s with rounds := s.rounds.insert (cid, target.ckptRef) round }
      | none => s
    s.drawLocked env cid rail target
  | _, _ => (none, s)

/-- Draw what a reconciled channel still owes. A draw the rail refuses stays owed. -/
def attemptPrepayCloseDraw (cid : ByteArr 8) : Carriage ρ :=
  match s.chainState.lookup cid, s.driver.settlementTerms cid, s.rail with
  | some (.reconciled (some (_, targetP))), some terms, some rail =>
    let (drawn, rail) := env.adapter.advanceChannelMeed rail (some terms.settlePtr)
      (env.adapter.deriveAddress rail terms.seedInstance) cid targetP terms.baselineAsset
    match drawn with
    | .ok _ | .error .alreadyFunded =>
      { s with rail := some rail
               chainState := s.chainState.insert cid (.reconciled none) }
    | .error _ => { s with rail := some rail }
  | _, _, _ => s

end Carriage

end Paytp
