import Paytp.Carriage

/-!
# The retention of accepted channels

One merchant's driver over the lives of its process. A life opens the store on the file the last
one left, restores what was accepted before as tombstones, and then serves OPENs and
acknowledgement requests; what it retains itself, and the metering it created, ends with it. A
driver may also keep no store, and then has one life.
-/

namespace Paytp

namespace ChannelDriver

variable (suite : Suite) (driver : ChannelDriver)

/-- Install a store, given by its entries, and restore the channels it has accepted. -/
def attachDecisions (entries : List (Bytes × Bytes)) : Option ChannelDriver :=
  (Carriage.tombstonesOf entries).map fun tombstones =>
    { driver with tombstones := driver.tombstones ∪ tombstones, durable := true }

/-- Does an OPEN come as far as deciding that its channel is accepted? -/
def asks (o : ChannelOpen) (now : ℕ) : Bool :=
  match driver.screenOpen suite o now with
  | .error _ => false
  | .ok (authHash, openHash) =>
    (driver.retained.lookup o.auth.channelId).isNone &&
      match driver.acceptOpen suite o authHash openHash with
      | .error _ => false
      | .ok _ => true

end ChannelDriver

namespace Retention

/-- What a merchant is started with. -/
structure Config where
  signingKey : ByteArr 32
  encSeed : ByteArr 32
  settlePtr : String

/-- A life: the driver, the metering of the channels it opened, and the store it keeps, if any. -/
structure Process where
  driver : ChannelDriver
  channels : HashMap (ByteArr 8) ChannelState
  wal : Option OneDecision.Wal

/-- Between two lives there is the file of the store, if there is one. -/
inductive Service
  | down (disk : Option Bytes)
  | up (p : Process)

inductive Event
  | channelOpen (o : ChannelOpen) (now : ℕ) (io : AppendIo)
  | ackRequest (req : AckRequest) (now : ℕ)
  | terminate (cid : ByteArr 8)
  /-- The carriage meters a channel. -/
  | meter (cid : ByteArr 8) (f : ChannelState → ChannelState)
  | recordChainSnapshot (key : ByteArr 8 × ByteArr 32) (snapshot : ChainSnapshot)
  | removeChainSnapshot (key : ByteArr 8 × ByteArr 32)
  /-- The carriage decides a key of its own. -/
  | decide (key value : Field) (io : AppendIo)
  | crash
  /-- The process dies while it handles an OPEN, or a decision of the carriage, with some bytes of
  the record written. -/
  | crashInOpen (o : ChannelOpen) (now landed : ℕ)
  | crashIn (key value : Field) (landed : ℕ)
  /-- A new life; `entries` lists the store in the order it is gone through. -/
  | start (io : AppendLog.OpenIo) (entries : List (Bytes × Bytes))

inductive Answer
  | opened (outcome : Except ChannelError OpenOutcome)
  | acked (ack : Option ChannelAck)
  | none
  deriving DecidableEq

/-- The acknowledgement an answer carries. -/
def Answer.ack? : Answer → Option ChannelAck
  | .opened (.ok (.established est)) => some est.ack
  | .opened (.ok (.retransmit ack)) => some ack
  | .acked ack => ack
  | _ => Option.none

namespace Process

variable (suite : Suite) (p : Process)

/-- The file that is left when the process dies. -/
def disk : Option Bytes := p.wal.map fun wal => wal.file.content

def faults (io : AppendIo) : StoreFaults :=
  match p.wal with
  | some wal => DecisionStore.walFaults wal io
  | none => fun _ => false

/-- Handle an OPEN, and create the metering of the channel it establishes. -/
def openChannel (o : ChannelOpen) (now : ℕ) (io : AppendIo) :
    Except ChannelError OpenOutcome × Process :=
  let (outcome, driver, _) :=
    p.driver.openChannel suite (p.faults io) (p.wal.map OneDecision.Wal.map) o now
  let channels := match outcome with
    | .ok (.established est) =>
      if (est.ack.encode suite).isNone then p.channels
      else p.channels.insert est.channelId est.state
    | _ => p.channels
  let wal :=
    if p.driver.asks suite o now then
      p.wal.map fun wal => (wal.decide (chopenKey o.auth.channelId) [] io).2
    else p.wal
  (outcome, { driver, channels, wal })

end Process

variable (suite : Suite) (config : Config)

def Config.driver : ChannelDriver := .new suite config.signingKey config.encSeed config.settlePtr

/-- A service before its first life on a file of `disk`, or the one life without a store. -/
def begin : Option Bytes → Service
  | some disk => .down (some disk)
  | none => .up { driver := config.driver suite, channels := ∅, wal := none }

/-- A new life on a file of `disk`, if the store opens and none of its records is corrupt. -/
def start (disk : Bytes) (io : AppendLog.OpenIo) (entries : List (Bytes × Bytes)) : Service :=
  match OneDecision.openLog disk io with
  | (disk, none) => .down (some disk)
  | (disk, some wal) =>
    if entries.foldl (fun store e => store.insert e.1 e.2) ∅ = wal.map then
      match (config.driver suite).attachDecisions entries with
      | some driver => .up { driver, channels := ∅, wal := some wal }
      | none => .down (some disk)
    else .down (some disk)

def step : Service → Event → Service × Answer
  | .up p, .channelOpen o now io =>
    let (outcome, p) := p.openChannel suite o now io
    (.up p, .opened outcome)
  | .up p, .ackRequest req now => (.up p, .acked (p.driver.serveAckRequest suite req now))
  | .up p, .terminate cid => (.up { p with driver := p.driver.terminate cid }, .none)
  | .up p, .meter cid f =>
    match p.channels.lookup cid with
    | some state => (.up { p with channels := p.channels.insert cid (f state) }, .none)
    | none => (.up p, .none)
  | .up p, .recordChainSnapshot key snapshot =>
    (.up { p with driver := p.driver.recordChainSnapshot key snapshot }, .none)
  | .up p, .removeChainSnapshot key =>
    (.up { p with driver := p.driver.removeChainSnapshot key }, .none)
  | .up p, .decide key value io =>
    (.up { p with wal := p.wal.map fun wal => (wal.decide key.bytes value.bytes io).2 }, .none)
  | .up p, .crash => (.down p.disk, .none)
  | .up p, .crashInOpen o now landed =>
    (.down (if p.driver.asks suite o now then
      p.wal.map fun wal => wal.crashIn (chopenKey o.auth.channelId) [] landed
    else p.disk), .none)
  | .up p, .crashIn key value landed =>
    (.down (p.wal.map fun wal => wal.crashIn key.bytes value.bytes landed), .none)
  | .down (some disk), .start io entries => (start suite config disk io entries, .none)
  | s, _ => (s, .none)

/-- The decisions in the file of the store: those that the next life will know. -/
def Service.durable : Service → HashMap Bytes Bytes
  | .down disk => (OneDecision.replay (disk.getD [])).1
  | .up p => (OneDecision.replay (p.disk.getD [])).1

/-- The metering that a step creates for the channel `cid`. -/
def creates (cid : ByteArr 8) (s : Service) (e : Event) : Option ChannelState :=
  match (step suite config s e).2 with
  | .opened (.ok (.established est)) => if est.channelId = cid then some est.state else none
  | _ => none

end Retention

end Paytp
