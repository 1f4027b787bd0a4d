import Paytp.Lib.HashMap
import Paytp.Lib.LogFile
import Paytp.Lib.Run
import Mathlib.Data.List.DropRight

/-!
# The merchant's consumed-nonce store

A nonce is consumed by one record of three frames: the nonce, the decision it is bound to and
the receipt. The references a decision uses are an index over the same records. Opening refuses
a file with a whole record that does not decode.
-/

namespace Paytp

namespace MerchantStore

inductive StoreError
  | replayed
  | unavailable
  deriving DecidableEq, Repr

inductive OpenError
  | io
  | corrupt
  deriving DecidableEq, Repr

/-- The decision a nonce is bound to. -/
structure NonceRecord where
  paymentRef : String
  idem : Bytes
  resource : String
  quoteSig : ByteArr 64
  deriving DecidableEq

/-- A receipt: the fields the store compares, and the others. -/
structure Receipt (α : Type) where
  nonce : ByteArr 32
  idem : Bytes
  resource : String
  rest : α
  deriving DecidableEq

/-- How receipts are written and how they are read back under the merchant's key. -/
structure ReceiptForm (α : Type) where
  toJson : Receipt α → Bytes
  parseVerify : String → ByteArr 32 → Option (Receipt α)

def paymentRefDelimiter : Char := '|'

/-- The parts before and after the last `c`. -/
def rsplitOnce (s : String) (c : Char) : Option (String × String) :=
  let after := s.toList.rtakeWhile (· != c)
  if after.length < s.toList.length then
    some (String.ofList (s.toList.take (s.toList.length - after.length - 1)), String.ofList after)
  else none

/-- The references a payment uses up: its own, and the net one of a combined reference. -/
def usedRefKeys (paymentRef : String) : List String :=
  match rsplitOnce paymentRef paymentRefDelimiter with
  | some (_, netRef) => [paymentRef, netRef]
  | none => [paymentRef]

def encodeRecord (r : NonceRecord) : Bytes :=
  frame (Bytes.ofString r.paymentRef) ++ frame r.idem ++ frame (Bytes.ofString r.resource) ++
    r.quoteSig.toList

def decodeRecord (bytes : Bytes) : Option NonceRecord := do
  let (refBytes, off) ← readField bytes 0
  let paymentRef ← Bytes.toString? refBytes
  let (idem, off) ← readField bytes off
  let (resBytes, off) ← readField bytes off
  let resource ← Bytes.toString? resBytes
  let sigEnd := off + 64
  let quoteSig ← ByteArr.ofBytes? 64 ((bytes.drop off).take 64)
  if sigEnd != bytes.length then none
  else some { paymentRef, idem, resource, quoteSig }

variable {α : Type} (form : ReceiptForm α) (merchantKey : ByteArr 32)

/-- The two indices over the consumed nonces. -/
@[ext] structure Books (α : Type) where
  byNonce : HashMap (ByteArr 32) (NonceRecord × Receipt α)
  usedRefs : Finset String
  deriving DecidableEq

def Books.empty : Books α := ⟨∅, ∅⟩

/-- The open store. -/
structure Wal (α : Type) extends AppendLog, Books α
  deriving DecidableEq

/-- Decode the three frames of one whole record into the books. -/
def replayRecord (books : Books α) (nonceBytes recBytes rcptBytes : Bytes) :
    Except OpenError (Books α) :=
  match ByteArr.ofBytes? 32 nonceBytes, decodeRecord recBytes,
    (Bytes.toString? rcptBytes).bind (form.parseVerify · merchantKey) with
  | some nonce, some record, some receipt =>
    if receipt.nonce != nonce || receipt.idem != record.idem ||
        receipt.resource != record.resource then
      .error .corrupt
    else
      .ok { usedRefs := books.usedRefs ∪ (usedRefKeys record.paymentRef).toFinset
            byNonce := books.byNonce.orInsert nonce (record, receipt) }
  | _, _, _ => .error .corrupt

/-- The replay loop. Every round moves `off` forward, so the fuel never runs out when it starts
past the length of `bytes`. -/
def replayLoop (bytes : Bytes) : ℕ → Books α → ℕ → ℕ → Except OpenError (Books α × ℕ)
  | 0, books, _, valid => .ok (books, valid)
  | fuel + 1, books, off, valid =>
    match readField bytes off with
    | none => .ok (books, valid)
    | some (nonceBytes, off) =>
      match readField bytes off with
      | none => .ok (books, valid)
      | some (recBytes, off) =>
        match readField bytes off with
        | none => .ok (books, valid)
        | some (rcptBytes, off) =>
          match replayRecord form merchantKey books nonceBytes recBytes rcptBytes with
          | .error e => .error e
          | .ok books => replayLoop bytes fuel books off off

def replay (bytes : Bytes) : Except OpenError (Books α × ℕ) :=
  replayLoop form merchantKey bytes (bytes.length + 1) Books.empty 0 0

/-- Open the log on a file of `disk`: the bytes left in the file, and the store or why not. -/
def openLog (disk : Bytes) (io : AppendLog.OpenIo) : Bytes × Except OpenError (Wal α) :=
  if !io.read then (disk, .error .io)
  else
    match replay form merchantKey disk with
    | .error e => (disk, .error e)
    | .ok (books, validLen) =>
      match AppendLog.openAt disk validLen io with
      | (disk, none) => (disk, .error .io)
      | (disk, some log) => (disk, .ok { toAppendLog := log, toBooks := books })

inductive Peek (α : Type)
  | fresh
  | stored (receipt : Receipt α)
  | replayed
  deriving DecidableEq

def Books.peek (books : Books α) (nonce : ByteArr 32) (record : NonceRecord) : Peek α :=
  match books.byNonce.lookup nonce with
  | some (stored, receipt) => if stored = record then .stored receipt else .replayed
  | none =>
    if (usedRefKeys record.paymentRef).any (· ∈ books.usedRefs) then .replayed else .fresh

/-- The bytes one consumption appends. -/
def entry (nonce : ByteArr 32) (record : NonceRecord) (receipt : Receipt α) : Bytes :=
  frame nonce.toList ++ frame (encodeRecord record) ++ frame (form.toJson receipt)

/-- Consume `nonce`. The builder carries a state of its own, which shows whether it ran. -/
def Wal.consumeNonce {β : Type} (wal : Wal α) (nonce : ByteArr 32) (record : NonceRecord)
    (build : β → Receipt α × β) (b : β) (io : AppendIo) :
    Except StoreError (Receipt α) × β × Wal α :=
  if wal.poisoned then (.error .unavailable, b, wal)
  else
    match wal.byNonce.lookup nonce with
    | some (stored, receipt) =>
      if stored = record then (.ok receipt, b, wal) else (.error .replayed, b, wal)
    | none =>
      let refKeys := usedRefKeys record.paymentRef
      if refKeys.any (· ∈ wal.usedRefs) then (.error .replayed, b, wal)
      else
        let (receipt, b) := build b
        match wal.toAppendLog.append (entry form nonce record receipt) io with
        | (false, log) => (.error .unavailable, b, { wal with toAppendLog := log })
        | (true, log) =>
          (.ok receipt, b, { toAppendLog := log
                             byNonce := wal.byNonce.insert nonce (record, receipt)
                             usedRefs := wal.usedRefs ∪ refKeys.toFinset })

/-- The file when the process dies inside `consumeNonce` with `landed` bytes of the record
written. -/
def Wal.crashIn (wal : Wal α) (nonce : ByteArr 32) (record : NonceRecord) (receipt : Receipt α)
    (landed : ℕ) : Bytes :=
  if wal.poisoned || (wal.byNonce.lookup nonce).isSome ||
      (usedRefKeys record.paymentRef).any (· ∈ wal.usedRefs) then wal.file.content
  else wal.toAppendLog.crashIn (entry form nonce record receipt) landed

/-! ## The store across crashes -/

/-- A consumption whose receipt is built for its record and reads back as it was written, and
whose frames fit their prefixes. -/
structure Consumption where
  nonce : ByteArr 32
  record : NonceRecord
  receipt : Receipt α
  nonce_eq : receipt.nonce = nonce
  idem_eq : receipt.idem = record.idem
  resource_eq : receipt.resource = record.resource
  parses : (Bytes.toString? (form.toJson receipt)).bind (form.parseVerify · merchantKey) =
    some receipt
  short_record : (encodeRecord record).length < 2 ^ 32
  short_receipt : (form.toJson receipt).length < 2 ^ 32

/-- A store that is closed over the bytes of its file, or open. -/
inductive Store (α : Type)
  | down (disk : Bytes)
  | up (wal : Wal α)

inductive Event
  | consume (c : Consumption form merchantKey) (io : AppendIo)
  | crash
  | crashIn (c : Consumption form merchantKey) (landed : ℕ)
  | reopen (io : AppendLog.OpenIo)

variable {form merchantKey}

/-- Build the receipt of `c` and count the run. -/
def Consumption.build (c : Consumption form merchantKey) (runs : ℕ) : Receipt α × ℕ :=
  (c.receipt, runs + 1)

/-- A consumption is answered with its result and how often it ran the builder. -/
def step : Store α → Event form merchantKey →
    Store α × Option (Except StoreError (Receipt α) × ℕ)
  | .up wal, .consume c io =>
    let (result, runs, wal) := wal.consumeNonce form c.nonce c.record c.build 0 io
    (.up wal, some (result, runs))
  | .up wal, .crash => (.down wal.file.content, none)
  | .up wal, .crashIn c landed =>
    (.down (wal.crashIn form c.nonce c.record c.receipt landed), none)
  | .down disk, .reopen io =>
    match openLog form merchantKey disk io with
    | (disk, .error _) => (.down disk, none)
    | (_, .ok wal) => (.up wal, none)
  | s, _ => (s, none)

variable (form merchantKey) in
/-- The books of an open store, and those a closed one will have when it opens. -/
def Store.books : Store α → Except OpenError (Books α)
  | .down disk => (replay form merchantKey disk).map Prod.fst
  | .up wal => .ok wal.toBooks

end MerchantStore

end Paytp
