import Paytp.Crypto
import Paytp.Slice
import Paytp.Kit.Division

/-!
# The contract kit: entries

The machine of a purchase entry: who may move it is the program's business, and here is what moves
it when. An entry is settled once, by a distribution or a refund of what it holds in escrow.
-/

namespace Paytp

namespace Kit

inductive EntryState
  | funded
  | attested
  | cancelled
  | reclaimOpen
  | reclaimed
  | lapsed
  deriving DecidableEq, Repr

/-- No instruction moves an entry out of these. -/
def EntryState.terminal : EntryState → Bool
  | attested | cancelled | reclaimed | lapsed => true
  | funded | reclaimOpen => false

/-- The terms of an entry, which its name commits to. -/
structure EntryTerms where
  nonce : ByteArr 32
  amount : ℕ
  tOpen : ℕ
  tLapse : ℕ
  contest : ℕ
  deriving DecidableEq

structure Instance where
  seedInstance : ByteArr 32
  merchantKey : ByteArr 32
  dests : Fin 4 → Pubkey
  mint : Pubkey
  deriving DecidableEq

structure Entry extends EntryTerms where
  seedInstance : ByteArr 32
  openedAt : ℕ
  state : EntryState
  /-- Settled, by a distribution or a refund. -/
  distributed : Bool
  refundAccount : Pubkey
  deriving DecidableEq

variable (crypto : Crypto)

def deriveEntryId (seedInstance : ByteArr 32) (t : EntryTerms) : ByteArr 32 :=
  crypto.sha256 (Bytes.ofString "PayTPv1-entry" ++ 0x00 :: (seedInstance.toList ++
    t.nonce.toList ++ toBE 16 t.amount ++ toBE 8 t.tOpen ++ toBE 8 t.tLapse ++ toBE 8 t.contest))

namespace Entry

variable (e : Entry)

/-- The name of an entry, from what it records. -/
def id : ByteArr 32 := deriveEntryId crypto e.seedInstance e.toEntryTerms

/-- What funding checks of the terms, and the entry it creates. -/
def fund (inst : Instance) (mint : Pubkey) (entryId : ByteArr 32) (t : EntryTerms)
    (refundAccount : Pubkey) (now : ℕ) : Except KitError Entry := do
  require (decide (t.amount > 0)) .zeroAmount
  require (decide (t.amount ≤ U64_MAX)) .arithmeticDomain
  require (decide (t.tOpen ≤ t.tLapse)) .badInputs
  require (mint == inst.mint) .wrongMint
  require (decide (t.tLapse ≥ now)) .lapsePast
  require (deriveEntryId crypto inst.seedInstance t == entryId) .idMismatch
  return { t with
    seedInstance := inst.seedInstance
    openedAt := 0
    state := .funded
    distributed := false
    refundAccount }

/-- An entry may be attested and cancelled while it is funded, up to its lapse, and while a
reclaim of it is open. -/
def guardActive (now : ℕ) : Except KitError Unit :=
  match e.state with
  | .funded => require (decide (now ≤ e.tLapse)) .lapsed
  | .reclaimOpen => .ok ()
  | _ => .error .terminal

def attest (now : ℕ) : Except KitError Entry := do
  e.guardActive now
  return { e with state := .attested }

def cancel (now : ℕ) : Except KitError Entry := do
  e.guardActive now
  return { e with state := .cancelled }

def lapse (now : ℕ) : Except KitError Entry := do
  require (e.state == .funded) .terminal
  require (decide (now > e.tLapse)) .window
  return { e with state := .lapsed }

def openReclaim (now : ℕ) : Except KitError Entry := do
  require (e.state == .funded) .terminal
  require (decide (now ≥ e.tOpen) && decide (now ≤ e.tLapse)) .window
  return { e with state := .reclaimOpen, openedAt := now }

/-- The sum saturates at 64 bits. -/
def executeReclaim (now : ℕ) : Except KitError Entry := do
  require (e.state == .reclaimOpen) .window
  require (decide (now > min U64_MAX (e.openedAt + e.contest))) .window
  return { e with state := .reclaimed }

def distribute : Except KitError Entry := do
  require (e.state == .attested || e.state == .lapsed) .notDeliverable
  require (!e.distributed) .alreadyDistributed
  return { e with distributed := true }

def refund : Except KitError Entry := do
  require (e.state == .cancelled || e.state == .reclaimed) .notRefundable
  require (!e.distributed) .alreadyDistributed
  return { e with distributed := true }

end Entry

/-- What is done to an entry that is there. -/
inductive EntryOp
  | attest
  | cancel
  | lapse
  | openReclaim
  | executeReclaim
  | distribute
  | refund
  deriving DecidableEq, Repr

def Entry.apply (e : Entry) (now : ℕ) : EntryOp → Except KitError Entry
  | .attest => e.attest now
  | .cancel => e.cancel now
  | .lapse => e.lapse now
  | .openReclaim => e.openReclaim now
  | .executeReclaim => e.executeReclaim now
  | .distribute => e.distribute
  | .refund => e.refund

/-! ## The detached attestation -/

/-- The message a merchant signs to attest an entry. -/
def attestMessage (nonce entryId : ByteArr 32) : Bytes :=
  Bytes.ofString "PayTPv1-attest" ++
    0x00 :: 0x00 :: 0x20 :: (nonce.toList ++ 0x01 :: 0x20 :: entryId.toList)

/-- An instruction of the transaction that the runtime lists. -/
structure ListedInstruction where
  programId : Pubkey
  data : Bytes

/-- The little-endian 16-bit number at an offset. -/
def u16At (d : Bytes) (offset : ℕ) : ℕ :=
  (d.getD offset 0).toNat + 256 * (d.getD (offset + 1) 0).toNat

/-- Did the runtime verify, by this instruction and on its own data, one signature by the key over
the message? -/
def verifiesDetached (ed25519Program : Pubkey) (merchantKey : ByteArr 32) (message : Bytes)
    (ix : ListedInstruction) : Bool :=
  let d := ix.data
  let (sigIx, pkOff, pkIx) := (u16At d 4, u16At d 6, u16At d 8)
  let (msgOff, msgLen, msgIx) := (u16At d 10, u16At d 12, u16At d 14)
  ix.programId == ed25519Program && decide (16 ≤ d.length) && d.getD 0 0 == 1 &&
    sigIx == 65535 && pkIx == 65535 && msgIx == 65535 &&
    decide (pkOff + 32 ≤ d.length) && decide (msgOff + msgLen ≤ d.length) &&
    (d.drop pkOff).take 32 == merchantKey.toList && (d.drop msgOff).take msgLen == message

end Kit

end Paytp
