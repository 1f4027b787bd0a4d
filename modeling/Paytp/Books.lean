import Mathlib.Logic.Relation
import Paytp.Carriage.Settlement
import Paytp.Lib.Keyed
import Paytp.Proofs.Metering

/-!
# The books of a channel

One channel as a system of its own: its metering, the evidence for it, its ledger and its rounds.
A move meters, pauses, countersigns, funds, locks a round, restates it, folds it or drops it. A
channel starts fresh or at the position that the books of another channel hand on.
-/

namespace Paytp

open Carriage

structure Books where
  state : ChannelState
  operative : Option Operative
  basis : Option ImportedBasis
  ledger : Ledger
  rounds : List (ByteArr 32 × RoundDecision)
  deriving DecidableEq

namespace Books

variable (b : Books)

/-! ## Evidence -/

/-- What each role has accrued by the evidence: by the operative checkpoint, else by the imported
position, else nothing. -/
def evidence : List (UInt8 × ℕ) :=
  match b.operative, b.basis with
  | some op, _ => op.accruals
  | none, some basis => basis.accruals
  | none, none => b.state.vector.map fun v => (v.1, 0)

def evidenceCum : ℕ :=
  match b.operative, b.basis with
  | some op, _ => op.cumTotal
  | none, some basis => basis.cum
  | none, none => 0

/-- What was settled already when the channel opened. -/
def opening : List (UInt8 × ℕ) := (b.basis.map ImportedBasis.openingSettledR).getD []

/-- What the payer has paid, in fundings, net legs and whole units of meed. -/
def paid : ℕ := b.ledger.fundingSum + b.ledger.netLegsSum + sumOf b.ledger.settledR / 10000

/-- The cumulative target of some accruals. -/
def targetP (accruals : List (UInt8 × ℕ)) : Option ℕ := do
  guard (rolesAscending accruals)
  let div ← (divideOutstanding accruals b.opening).toOption
  guard div.leg
  u128OfNat div.p

/-! ## Rounds -/

/-- The sum over the rounds whose meed leg is folded. -/
def meedSum (f : RoundDecision → ℕ) : ℕ :=
  (b.rounds.map fun r => if r.2.meedFolded then f r.2 else 0).sum

/-- The sum over the rounds whose net leg is folded. -/
def netSum (f : RoundDecision → ℕ) : ℕ :=
  (b.rounds.map fun r => if r.2.netFolded then f r.2 else 0).sum

/-- The units of meed that the folded rounds advanced. -/
def advanced : ℕ := b.meedSum fun d => d.meedAmount.getD 0

/-- The round that the position owes at its operative checkpoint, as it is locked: by a proposal
on a postpay channel, by a draw on a prepay one. -/
structure Owes (op : Operative) (d : RoundDecision) : Prop where
  ascending : rolesAscending op.accruals = true
  division : ∃ div, divideOutstanding op.accruals b.ledger.settledR = .ok div ∧
    d.eR = (op.accruals.map Prod.fst).zip div.eR ∧
    d.meedAmount = if div.leg then some div.p else none
  targeted : d.targetP = if d.meedAmount.isSome then b.targetP op.accruals else none
  target_isSome : d.targetP.isSome = d.meedAmount.isSome
  meedFolded : d.meedFolded = false
  confirmed : d.confirmed = false
  proposed : d.proposalHashes.Nonempty → b.state.mode = .postpay
  drawn : b.state.mode = .prepay → d.meedAmount.isSome = true ∧ d.netFolded = true ∧ d.outputs = []
  netFolded : b.state.mode = .postpay → d.netFolded = false

/-- The same round under other proposals, proofs or references. -/
structure Restates (d d' : RoundDecision) : Prop where
  outputs : d'.outputs = d.outputs
  meedAmount : d'.meedAmount = d.meedAmount
  eR : d'.eR = d.eR
  meedFolded : d'.meedFolded = d.meedFolded
  netFolded : d'.netFolded = d.netFolded
  confirmed : d'.confirmed = d.confirmed
  targetP : d'.targetP = d.targetP

/-- What a proof may fold. -/
structure Folds (k : ByteArr 32) (fold : RoundFold) : Prop where
  round : (k, fold.round) ∈ b.rounds
  unconfirmed : fold.round.confirmed = false
  proposed : fold.round.proposalHashes.Nonempty
  meed : fold.foldMeed = true → fold.round.meedAmount.isSome = true ∧ fold.round.meedFolded = false
  net : fold.foldNet = true → fold.round.netFolded = false ∧
    netTotal fold.round.outputs = some fold.netTotal
  noNet : fold.foldNet = false → fold.netTotal = 0
  newNetLegs : fold.newNetLegs = b.ledger.netLegsSum + fold.netTotal
  confirms : fold.confirmed.isSome = true →
    fold.round.meedAmount.isSome = true → fold.round.meedFolded = true ∨ fold.foldMeed = true

/-- What a fold takes off the balance: the units the settled numerators gain and the net leg. -/
def gross (fold : RoundFold) : ℕ :=
  let settledR := if fold.foldMeed then addSettled b.ledger.settledR fold.round.eR
    else b.ledger.settledR
  let carveDelta := sumOf settledR / 10000 - sumOf b.ledger.settledR / 10000
  satAddU128 (satAddU128 0 ((u128OfNat carveDelta).getD U128_MAX)) fold.netTotal

/-- The round as a proof leaves it. -/
def foldedRound (fold : RoundFold) (version : ℕ) : RoundDecision :=
  { fold.round with
    meedFolded := fold.round.meedFolded || fold.foldMeed
    meedFinalTime := if fold.foldMeed then fold.meedTime else fold.round.meedFinalTime
    netFolded := fold.round.netFolded || fold.foldNet
    ledgerVersion := version
    confirmed := fold.round.confirmed || fold.confirmed.isSome }

def foldedLedger (fold : RoundFold) : Ledger :=
  { b.ledger with
    settledR := if fold.foldMeed then addSettled b.ledger.settledR fold.round.eR
      else b.ledger.settledR
    netLegsSum := if fold.foldNet then fold.newNetLegs else b.ledger.netLegsSum
    version := if fold.foldMeed || fold.foldNet then nextVersion b.ledger.version
      else b.ledger.version }

/-- Fold the legs of a round. -/
def foldLegs (k : ByteArr 32) (fold : RoundFold) : Books :=
  { b with
    state := if b.gross fold > 0 then b.state.applySettlementRound (b.gross fold) else b.state
    ledger := b.foldedLedger fold
    rounds := Keyed.put k (foldedRound fold (b.foldedLedger fold).version) b.rounds }

/-- The round as its draw completes it. -/
def drawnRound (d : RoundDecision) (finalTime : Option ℕ) (version : ℕ) : RoundDecision :=
  { d with meedFolded := true, netFolded := true, confirmed := true
           meedFinalTime := finalTime, ledgerVersion := version }

def drawnLedger (d : RoundDecision) : Ledger :=
  { b.ledger with settledR := addSettled b.ledger.settledR d.eR
                  version := nextVersion b.ledger.version }

/-- Fold a drawn round. -/
def foldInterimRound (k : ByteArr 32) (d : RoundDecision) (finalTime : Option ℕ) : Books :=
  { b with
    ledger := b.drawnLedger d
    rounds := Keyed.put k (drawnRound d finalTime (b.drawnLedger d).version) b.rounds }

/-! ## Moves -/

/-- What a postpay funding may credit: the merchant-net outstanding for what is metered. -/
def outstandingNet : ℕ :=
  let carve := (u128OfNat (sumOf b.state.accrualsByRole / 10000)).getD U128_MAX
  b.state.cumTotal - carve - b.ledger.netLegsSum - b.ledger.fundingSum

inductive Kind
  | meter
  | idle
  | countersign
  | fund
  | lock
  | restate
  | fold
  | draw
  | drop
  deriving DecidableEq, Repr

variable (crypto : Crypto)

inductive Move : Kind → Books → Books → Prop
  | meter {b : Books} {slices : List Slice} {state : ChannelState}
    (taken : ChannelState.Taken b.state slices state)
    (live : slices ≠ [] → b.state.phase = .open) (within : state.balance ≤ state.boundUpper) :
    Move .meter b { b with state }
  | idle {b : Books} {phase : Phase} (pausedWindow : Bool)
    (settles : b.state.phase ≠ .open → phase ≠ .open) :
    Move .idle b { b with state := { b.state with phase, pausedWindow } }
  | countersign {b : Books} {proposed : Checkpoint} (ckptRef : ByteArr 32)
    (recomputes : b.state.recomputes crypto proposed = true) :
    Move .countersign b { b with
      state := b.state.checkpointUpto crypto proposed.lastSeq
      operative := some
        { ckptRef, cumTotal := proposed.cumTotal, accruals := proposed.accruals } }
  | fund {b : Books} {credited : ℕ} (fits : b.ledger.fundingSum + credited ≤ U128_MAX)
    (owed : b.state.mode = .postpay → credited ≤ b.outstandingNet) :
    Move .fund b { b with
      state := b.state.creditFunding credited
      ledger := { b.ledger with fundingSum := b.ledger.fundingSum + credited } }
  | lock {b : Books} {op : Operative} {d : RoundDecision} (operative : b.operative = some op)
    (new : ∀ r ∈ b.rounds, r.1 ≠ op.ckptRef) (quiet : ∀ r ∈ b.rounds, r.2.confirmed = true)
    (owes : b.Owes op d) : Move .lock b { b with rounds := Keyed.put op.ckptRef d b.rounds }
  | restate {b : Books} {k : ByteArr 32} {d d' : RoundDecision} (round : (k, d) ∈ b.rounds)
    (restates : Restates d d')
    (proposed : d'.proposalHashes.Nonempty →
      d.proposalHashes.Nonempty ∨ b.state.mode = .postpay) :
    Move .restate b { b with rounds := Keyed.put k d' b.rounds }
  | fold {b : Books} {k : ByteArr 32} {fold : RoundFold} (folds : b.Folds k fold) :
    Move .fold b (b.foldLegs k fold)
  | draw {b : Books} {k : ByteArr 32} {d : RoundDecision} (finalTime : Option ℕ)
    (round : (k, d) ∈ b.rounds) (unfolded : d.meedFolded = false)
    (unconfirmed : d.confirmed = false)
    (prepay : b.state.mode = .prepay) : Move .draw b (b.foldInterimRound k d finalTime)
  | drop {b : Books} {k : ByteArr 32} {d : RoundDecision} (round : (k, d) ∈ b.rounds)
    (unconfirmed : d.confirmed = false) (prepay : b.state.mode = .prepay) :
    Move .drop b { b with rounds := Keyed.drop k b.rounds }

/-- The position that the books hand on. -/
structure HandsOn (snap : ChainSnapshot) : Prop where
  position : (∃ op, b.operative = some op ∧ snap.cumTotal = op.cumTotal ∧
      snap.accruals = op.accruals) ∨
    b.operative = none ∧ b.state.cumTotal = 0 ∧ snap.cumTotal = 0 ∧
      snap.accruals = b.state.accrualsByRole
  cum_le : snap.cumTotal ≤ U128_MAX
  mode : snap.mode = b.state.mode
  settledR : snap.openingSettledR = b.ledger.settledR
  netLegs : snap.openingNetLegs = b.ledger.netLegsSum
  funding : snap.openingFunding = b.ledger.fundingSum
  balance : snap.importedBalance = importedBalanceF6e b.state.mode snap.cumTotal
    b.ledger.settledR b.ledger.netLegsSum b.ledger.fundingSum b.state.boundLower
    b.state.boundUpper

/-- The books of a channel that opens with nothing. -/
def fresh (channelId : ByteArr 8) (kSession : ByteArr 32) (mode : Mode) (limitL limitE : ℕ) :
    Books where
  state := .new crypto channelId kSession mode limitL limitE SCHEMA_01_ROLES
  operative := none
  basis := none
  ledger := {}
  rounds := []

/-- The books of a channel that opens at a position. -/
def imported (state : ChannelState) (ckptRef : ByteArr 32) (snap : ChainSnapshot) : Books where
  state
  operative := none
  basis := some { cum := state.cumTotal, ckptRef, accruals := state.accrualsByRole
                  openingSettledR := snap.openingSettledR }
  ledger := { settledR := snap.openingSettledR, netLegsSum := snap.openingNetLegs
              fundingSum := snap.openingFunding, version := 0 }
  rounds := []

/-- What each role of the vector imports. -/
def importedAccruals (snap : ChainSnapshot) : Option (List ℕ) :=
  SCHEMA_01_ROLES.mapM fun v => (snap.accruals.find? fun a => a.1 == v.1).map Prod.snd

inductive Reachable : Books → Prop
  | fresh (channelId : ByteArr 8) (kSession : ByteArr 32) (mode : Mode) (limitL limitE : ℕ) :
    Reachable (fresh crypto channelId kSession mode limitL limitE)
  | imported {b : Books} {snap : ChainSnapshot} {channelId : ByteArr 8} {kSession : ByteArr 32}
    {limitL limitE : ℕ} {accruals : List ℕ} {state : ChannelState} (ckptRef : ByteArr 32)
    (hb : Reachable b) (hands : b.HandsOn snap) (hacc : importedAccruals snap = some accruals)
    (hnew : ChannelState.newImported crypto channelId kSession snap.mode limitL limitE
      SCHEMA_01_ROLES snap.cumTotal accruals snap.importedBalance = .ok state) :
    Reachable (imported state ckptRef snap)
  | move {kind : Kind} {b b' : Books} (hb : Reachable b) (hm : Move crypto kind b b') :
    Reachable b'

/-- Moves of some kinds, one after the other. -/
abbrev Moves (kinds : List Kind) : Books → Books → Prop :=
  Relation.ReflTransGen fun b b' => ∃ kind ∈ kinds, Move crypto kind b b'

theorem Reachable.moves {kinds : List Kind} {b b' : Books} (hb : Reachable crypto b)
    (hm : Moves crypto kinds b b') : Reachable crypto b' := by
  induction hm with
  | refl => exact hb
  | tail _ hm ih =>
    obtain ⟨kind, -, hm⟩ := hm
    exact ih.move hm

end Books

end Paytp
