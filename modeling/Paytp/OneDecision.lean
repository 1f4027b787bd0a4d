import Paytp.Lib.HashMap
import Paytp.Lib.LogFile
import Paytp.Lib.Run

/-!
# The write-ahead decision store

`decide` appends one record of a key and a value, syncs it and only then answers that the
decision is fresh. Opening replays the whole records of the file into the map and cuts off what
is left past them. The disk may fail at any call and the process may die at any point.
-/

namespace Paytp

namespace OneDecision

inductive Decision
  | fresh
  | alreadyDecided (value : Bytes)
  | failed
  deriving DecidableEq, Repr

/-- The open store: the log file and the map its records were replayed into. -/
structure Wal extends AppendLog where
  map : HashMap Bytes Bytes
  deriving DecidableEq

/-- The replay loop. Every round moves `off` forward, so the fuel never runs out when it starts
past the length of `bytes`. -/
def replayLoop (bytes : Bytes) : ℕ → HashMap Bytes Bytes → ℕ → ℕ → HashMap Bytes Bytes × ℕ
  | 0, map, _, valid => (map, valid)
  | fuel + 1, map, off, valid =>
    match readField bytes off with
    | none => (map, valid)
    | some (key, off) =>
      match readField bytes off with
      | none => (map, valid)
      | some (val, off) => replayLoop bytes fuel (map.orInsert key val) off off

/-- The map of the whole records and the length they take. -/
def replay (bytes : Bytes) : HashMap Bytes Bytes × ℕ := replayLoop bytes (bytes.length + 1) ∅ 0 0

/-- Open the log on a file of `disk`: the bytes left in the file, and the store unless a call
failed. -/
def openLog (disk : Bytes) (io : AppendLog.OpenIo) : Bytes × Option Wal :=
  if !io.read then (disk, none)
  else
    let (map, validLen) := replay disk
    match AppendLog.openAt disk validLen io with
    | (disk, none) => (disk, none)
    | (disk, some log) => (disk, some { toAppendLog := log, map })

/-- The bytes one decision appends. -/
def record (key value : Bytes) : Bytes := frame key ++ frame value

def Wal.decide (wal : Wal) (key value : Bytes) (io : AppendIo) : Decision × Wal :=
  if wal.poisoned then (.failed, wal)
  else
    match wal.map.lookup key with
    | some v => (.alreadyDecided v, wal)
    | none =>
      match wal.toAppendLog.append (record key value) io with
      | (false, log) => (.failed, { wal with toAppendLog := log })
      | (true, log) => (.fresh, { toAppendLog := log, map := wal.map.insert key value })

/-- The file when the process dies inside `decide` with `landed` bytes of the record written. -/
def Wal.crashIn (wal : Wal) (key value : Bytes) (landed : ℕ) : Bytes :=
  if wal.poisoned || (wal.map.lookup key).isSome then wal.file.content
  else wal.toAppendLog.crashIn (record key value) landed

/-! ## The store across crashes -/

/-- A store that is closed over the bytes of its file, or open. -/
inductive Store
  | down (disk : Bytes)
  | up (wal : Wal)
  deriving DecidableEq

inductive Event
  | decide (key value : Field) (io : AppendIo)
  | crash
  | crashIn (key value : Field) (landed : ℕ)
  | reopen (io : AppendLog.OpenIo)
  deriving DecidableEq

def step : Store → Event → Store × Option Decision
  | .up wal, .decide key value io =>
    let (d, wal) := wal.decide key.bytes value.bytes io
    (.up wal, some d)
  | .up wal, .crash => (.down wal.file.content, none)
  | .up wal, .crashIn key value landed =>
    (.down (wal.crashIn key.bytes value.bytes landed), none)
  | .down disk, .reopen io =>
    match openLog disk io with
    | (disk, none) => (.down disk, none)
    | (_, some wal) => (.up wal, none)
  | s, _ => (s, none)

/-- The bytes of the store's file. -/
def Store.disk : Store → Bytes
  | .down disk => disk
  | .up wal => wal.file.content

/-- The decisions an open store knows, and those a closed one will know when it opens. -/
def Store.decisions : Store → HashMap Bytes Bytes
  | .down disk => (replay disk).1
  | .up wal => wal.map

end OneDecision

end Paytp
