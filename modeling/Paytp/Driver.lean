import Mathlib.Data.Nat.Dist
import Mathlib.Data.Finset.Option
import Paytp.DecisionStore
import Paytp.Establish
import Paytp.Lib.Checks
import Paytp.Settle

/-!
# The establishment driver

An OPEN is checked in the protocol's order and then accepted once for its channel: the
acceptance is decided in the store, retained with its acknowledgement, and an imported
checkpoint is marked consumed. A retained channel answers an identical OPEN with the stored
acknowledgement and anything else with a refusal.
-/

namespace Paytp

inductive ChannelError
  | wrongMerchant
  | badAuth
  | timestampOutOfWindow
  | channelReplay
  | chainReplay
  | chainRejected
  | storeUnavailable
  | sealInvalid
  | hsMismatch
  | offBaselineUnsupported
  deriving DecidableEq, Repr

/-- The position of a predecessor that a successor imports. -/
structure ChainSnapshot where
  cumTotal : ℕ
  accruals : List (UInt8 × ℕ)
  openingSettledR : List (UInt8 × ℕ)
  openingNetLegs : ℕ
  openingFunding : ℕ
  importedBalance : ℤ
  payerKey : ByteArr 32
  mode : Mode
  termsFingerprint : ByteArr 32
  establishedAt : ℕ
  deriving DecidableEq

structure LedgerOpenings where
  settledR : List (UInt8 × ℕ)
  netLegs : ℕ
  funding : ℕ
  deriving DecidableEq

structure SettlementTerms where
  denom : String
  baselineAsset : String
  baselineNet : String
  boundDests : List String
  conversionRequired : Bool
  settlePtr : String
  finDenom : String
  finMeed : String
  seedInstance : ByteArr 32
  refundPtr : Option String
  thValue : ℕ
  thTime : ℕ
  deriving DecidableEq

structure Retained where
  authHash : ByteArr 32
  openHash : ByteArr 32
  payerKey : ByteArr 32
  ack : ChannelAck
  terminated : Bool
  terms : SettlementTerms
  deriving DecidableEq

/-- The position a successor opens at: its state, its ledger and its start. -/
structure Import where
  state : ChannelState
  openings : LedgerOpenings
  establishedAt : ℕ
  deriving DecidableEq

structure Established where
  channelId : ByteArr 8
  authHash : ByteArr 32
  kSession : ByteArr 32
  ack : ChannelAck
  state : ChannelState
  thValue : ℕ
  thTime : ℕ
  establishedAt : ℕ
  ledgerOpenings : Option LedgerOpenings
  deriving DecidableEq

inductive OpenOutcome
  | established (est : Established)
  | retransmit (ack : ChannelAck)
  deriving DecidableEq

structure ChannelDriver where
  signingKey : ByteArr 32
  key : ByteArr 32
  encSecret : ByteArr 32
  encKey : ByteArr 32
  settlePtr : String
  retained : HashMap (ByteArr 8) Retained
  consumedChainRefs : Finset (ByteArr 8 × ByteArr 32)
  chainSnapshots : HashMap (ByteArr 8 × ByteArr 32) ChainSnapshot
  /-- Acceptances are decided in the merchant's store. -/
  durable : Bool
  tombstones : Finset (ByteArr 8)
  deriving DecidableEq

def modeOf (mode : UInt8) : Mode := if mode = MODE_POSTPAY then .postpay else .prepay

/-- The hash of the terms a successor must share with its predecessor. -/
def chainTermsFingerprint (suite : Suite) (mode : Mode) (seedInstance : ByteArr 32)
    (denom baselineNet finMeed finDenom : String) (thValue thTime : ℕ) : ByteArr 32 :=
  let text (s : String) : Bytes := toBE 4 (Bytes.ofString s).length ++ Bytes.ofString s
  let modeByte : UInt8 := match mode with
    | .postpay => 0x01
    | .prepay => 0x00
  suite.sha256 (modeByte :: (seedInstance.toList ++
    [denom, baselineNet, finMeed, finDenom].flatMap text ++ toBE 16 thValue ++ toBE 8 thTime))

/-- The bytes of a key of the store: a name space and what it is about. -/
def storeKey (ns : String) (parts : List Bytes) : Bytes := Bytes.ofString ns ++ parts.flatten

def chopenKey (cid : ByteArr 8) : Bytes := storeKey "chopen:" [cid.toList]

namespace ChannelDriver

variable (suite : Suite)

def new (signingKey encSeed : ByteArr 32) (settlePtr : String) : ChannelDriver :=
  let (encSecret, encKey) := suite.x25519KeypairFromSeed encSeed
  { signingKey
    key := suite.ed25519Public signingKey
    encSecret
    encKey
    settlePtr
    retained := ∅
    consumedChainRefs := ∅
    chainSnapshots := ∅
    durable := false
    tombstones := ∅ }

variable (driver : ChannelDriver)

def recordChainSnapshot (key : ByteArr 8 × ByteArr 32) (snapshot : ChainSnapshot) :
    ChannelDriver :=
  { driver with chainSnapshots := driver.chainSnapshots.insert key snapshot }

def removeChainSnapshot (key : ByteArr 8 × ByteArr 32) : ChannelDriver :=
  { driver with chainSnapshots := driver.chainSnapshots.erase key }

def payerKey (channelId : ByteArr 8) : Option (ByteArr 32) :=
  (driver.retained.lookup channelId).map Retained.payerKey

def authHash (channelId : ByteArr 8) : Option (ByteArr 32) :=
  (driver.retained.lookup channelId).map Retained.authHash

def settlementTerms (channelId : ByteArr 8) : Option SettlementTerms :=
  (driver.retained.lookup channelId).map Retained.terms

def unsealSecret (o : ChannelOpen) : Except ChannelError (ByteArr 32) := do
  let aad ← okOr (o.auth.canonicalContent suite) .badAuth
  okOr (suite.openSessionSecret driver.encSecret o.sealed aad) .sealInvalid

def deriveKey (auth : ChannelAuth) (s : ByteArr 32) : ByteArr 32 :=
  suite.kSession s (suite.bindSalt auth.payerKey auth.merchantKey) auth.channelId

/-- Validate the recorded position of a predecessor against the terms of its successor. -/
def chainedImport (pred : ByteArr 8 × ByteArr 32) (auth : ChannelAuth)
    (kSession seedInstance : ByteArr 32) (mode : Mode) : Except ChannelError Import := do
  let snap ← okOr (driver.chainSnapshots.lookup pred) .chainRejected
  require (snap.payerKey == auth.payerKey && mode == snap.mode) .chainRejected
  require (auth.denom == auth.baselineAsset) .chainRejected
  require (chainTermsFingerprint suite mode seedInstance auth.denom auth.baselineNet auth.finMeed
    auth.finDenom auth.thValue auth.thTime == snap.termsFingerprint) .chainRejected
  let importedAccruals ← okOr
    (auth.vector.mapM fun v => (snap.accruals.find? fun a => a.1 == v.role).map Prod.snd)
    .chainRejected
  match ChannelState.newImported suite.toCrypto auth.channelId kSession mode auth.limitL
      auth.limitE (auth.vector.map fun v => (v.role, v.bp)) snap.cumTotal importedAccruals
      snap.importedBalance with
  | .error _ => throw .chainRejected
  | .ok state =>
    return { state
             openings :=
               { settledR := snap.openingSettledR, netLegs := snap.openingNetLegs
                 funding := snap.openingFunding }
             establishedAt := snap.establishedAt }

/-- What an OPEN that passed its checks establishes. -/
structure Accepted where
  authHash : ByteArr 32
  openHash : ByteArr 32
  kSession : ByteArr 32
  ack : ChannelAck
  terms : SettlementTerms
  imported : Option Import

/-- The address inputs of the instance a channel's meed goes to. -/
def addressInputs (auth : ChannelAuth) : AddressInputs where
  merchantKey := auth.merchantKey
  asset := auth.baselineAsset
  schema := auth.schema
  vector := auth.vector
  contract := auth.contract
  merchantNet := none

/-- The checks of an OPEN up to whether its channel is already known. -/
def screenOpen (o : ChannelOpen) (now : ℕ) : Except ChannelError (ByteArr 32 × ByteArr 32) := do
  let auth := o.auth
  require (auth.merchantKey == driver.key) .wrongMerchant
  require (auth.verify suite) .badAuth
  require (auth.validateVectorGoverned suite) .badAuth
  require (auth.denom == auth.baselineAsset) .offBaselineUnsupported
  require (decide (Nat.dist now auth.timestamp ≤ SKEW_SECS + LATENCY_SECS)) .timestampOutOfWindow
  let authHash ← okOr (auth.authHash suite) .badAuth
  let openHash := suite.sha256 (← okOr (o.encode suite) .badAuth)
  require (auth.channelId ∉ driver.tombstones) .channelReplay
  return (authHash, openHash)

/-- The checks of an OPEN for a channel that is not known, and what it establishes. -/
def acceptOpen (o : ChannelOpen) (authHash openHash : ByteArr 32) :
    Except ChannelError Accepted := do
  let auth := o.auth
  require (auth.predecessor.all fun pred => pred ∉ driver.consumedChainRefs) .chainReplay
  let s ← driver.unsealSecret suite o
  require (suite.hCommit s == auth.hs) .hsMismatch
  let kSession := deriveKey suite auth s
  let seedInstance ← okOr ((addressInputs auth).seedInstance suite) .badAuth
  let mode := modeOf auth.mode
  let imported ← match auth.predecessor with
    | some pred => some <$> driver.chainedImport suite pred auth kSession seedInstance mode
    | none => pure none
  let unsigned : ChannelAck := { authHash, settlePtr := driver.settlePtr, sig := none }
  let ack ← okOr (unsigned.sign suite driver.signingKey) .badAuth
  let terms : SettlementTerms :=
    { denom := auth.denom
      baselineAsset := auth.baselineAsset
      baselineNet := auth.baselineNet
      boundDests := auth.vector.map VectorEntry.dest ++ [driver.settlePtr]
      conversionRequired := auth.denom != auth.baselineAsset
      settlePtr := driver.settlePtr
      finDenom := auth.finDenom
      finMeed := auth.finMeed
      seedInstance
      refundPtr := auth.refundPtr
      thValue := auth.thValue
      thTime := auth.thTime }
  return { authHash, openHash, kSession, ack, terms, imported }

/-- The channel an accepted OPEN starts: at the imported position, or fresh at the time of its
terms. -/
def established (auth : ChannelAuth) (acc : Accepted) : Established :=
  let (state, ledgerOpenings, establishedAt) := match acc.imported with
    | some i => (i.state, some i.openings, i.establishedAt)
    | none =>
      (ChannelState.new suite.toCrypto auth.channelId acc.kSession (modeOf auth.mode) auth.limitL
        auth.limitE (auth.vector.map fun v => (v.role, v.bp)), none, auth.timestamp)
  { channelId := auth.channelId
    authHash := acc.authHash
    kSession := acc.kSession
    ack := acc.ack
    state
    thValue := auth.thValue
    thTime := auth.thTime
    establishedAt
    ledgerOpenings }

/-- Retain an accepted channel and consume the checkpoint it imports. -/
def retain (auth : ChannelAuth) (acc : Accepted) : ChannelDriver :=
  { driver with
    retained := driver.retained.insert auth.channelId
      { authHash := acc.authHash
        openHash := acc.openHash
        payerKey := auth.payerKey
        ack := acc.ack
        terminated := false
        terms := acc.terms }
    consumedChainRefs :=
      if acc.imported.isSome then driver.consumedChainRefs ∪ auth.predecessor.toFinset
      else driver.consumedChainRefs }

/-- Decide that a channel is opened, where the driver has a store. -/
def decideOpen (fails : StoreFaults) (store : Option DecisionStore) (cid : ByteArr 8) :
    Decision × Option DecisionStore :=
  match driver.durable, store with
  | true, some store =>
    let (d, store) := DecisionStore.decide fails store (chopenKey cid) []
    (d, some store)
  | _, store => (.fresh, store)

def openChannel (fails : StoreFaults) (store : Option DecisionStore) (o : ChannelOpen)
    (now : ℕ) : Except ChannelError OpenOutcome × ChannelDriver × Option DecisionStore :=
  let cid := o.auth.channelId
  match driver.screenOpen suite o now with
  | .error e => (.error e, driver, store)
  | .ok (authHash, openHash) =>
    match driver.retained.lookup cid with
    | some r =>
      if !r.terminated && r.authHash == authHash && r.openHash == openHash then
        (.ok (.retransmit r.ack), driver, store)
      else (.error .channelReplay, driver, store)
    | none =>
      match driver.acceptOpen suite o authHash openHash with
      | .error e => (.error e, driver, store)
      | .ok acc =>
        match driver.decideOpen fails store cid with
        | (.fresh, store) =>
          (.ok (.established (established suite o.auth acc)), driver.retain o.auth acc, store)
        | (.alreadyDecided _, store) => (.error .channelReplay, driver, store)
        | (.failed, store) => (.error .storeUnavailable, driver, store)

def countersignCheckpoint (cp : Checkpoint) : Checkpoint := cp.signMerchant suite driver.signingKey

def signConfirmed (c : SettlementConfirmed) : SettlementConfirmed :=
  c.signMerchant suite driver.signingKey

def signPrepayDraw (m : PrepayDrawCompleted) : PrepayDrawCompleted :=
  m.signMerchant suite driver.signingKey

def terminate (channelId : ByteArr 8) : ChannelDriver :=
  match driver.retained.lookup channelId with
  | some r =>
    { driver with retained := driver.retained.insert channelId { r with terminated := true } }
  | none => driver

/-- The stored acknowledgement, for the payer who asks for it in time. -/
def serveAckRequest (req : AckRequest) (now : ℕ) : Option ChannelAck := do
  let r ← driver.retained.lookup req.channelId
  guard (Nat.dist now req.timestamp ≤ SKEW_SECS + LATENCY_SECS)
  guard (req.verify suite r.payerKey)
  return r.ack

end ChannelDriver

end Paytp
