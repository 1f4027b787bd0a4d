import Mathlib.Data.Finset.Insert
import Paytp.Kit.Entry
import Paytp.Kit.Split

/-!
# The contract kit: instructions

The accounts of the kit and its instructions on entries, as anyone may submit them: with whatever
accounts, signatures and clock. An instruction that fails changes nothing. An address that is
derived for the program has no key to sign with; what a deployed instance owns is moved by the
program alone.
-/

namespace Paytp

namespace Kit

/-- What an instruction finds around it. -/
structure Context where
  now : ℕ
  signers : Finset Pubkey
  listed : List ListedInstruction

/-- A transfer that an instruction made. -/
structure Payment where
  source : Pubkey
  dest : Pubkey
  amount : ℕ
  deriving DecidableEq

structure Program where
  instances : HashMap Pubkey Instance
  entries : HashMap Pubkey Entry
  tokens : Tokens
  deriving DecidableEq

/-- The environment of the program: the hash, the addresses and the verifier of signatures. -/
structure Runtime where
  crypto : Crypto
  addr : Addresses
  ed25519Program : Pubkey

namespace Program

variable (rt : Runtime) (ctx : Context) (s : Program)

/-- Does the key sign the transaction? -/
def signs (key : Pubkey) : Bool := decide (key ∈ ctx.signers) && decide (key ∉ s.instances.keys)

def seedInstance (canonicalBytes : Bytes) : ByteArr 32 :=
  rt.crypto.sha256 (Bytes.ofString "PayTPv1-instance" ++ 0x00 :: canonicalBytes)

/-- The 32 bytes at an offset. -/
def keyAt (bytes : Bytes) (offset : ℕ) : Except KitError Pubkey :=
  okOr (ByteArr.ofBytes? 32 ((bytes.drop offset).take 32)) .badInputs

/-- An account is initialised once. -/
def deployInstance (seed : ByteArr 32) (canonicalBytes : Bytes) :
    Except KitError (List Payment × Program) := do
  require (decide (rt.addr.instanceOf seed ∉ s.instances.keys)) .runtime
  require (seedInstance rt canonicalBytes == seed) .idMismatch
  require (decide (canonicalBytes.length ≥ 34 + 128 + 32) && canonicalBytes.getD 0 1 == 0x00 &&
    canonicalBytes.getD 1 0 == 0x20) .badInputs
  let merchantKey ← keyAt canonicalBytes 2
  let dest0 ← keyAt canonicalBytes 34
  let dest1 ← keyAt canonicalBytes 66
  let dest2 ← keyAt canonicalBytes 98
  let dest3 ← keyAt canonicalBytes 130
  let mint ← keyAt canonicalBytes 162
  let inst : Instance :=
    { seedInstance := seed, merchantKey, dests := ![dest0, dest1, dest2, dest3], mint }
  return ([], { s with instances := s.instances.insert (rt.addr.instanceOf seed) inst })

/-- Create an entry and its escrow and deposit the amount, from an account of the funder's. -/
def fundEntry (inst : Pubkey) (entryId : ByteArr 32) (t : EntryTerms) (refundAccount : Pubkey)
    (mint funderToken funder : Pubkey) : Except KitError (List Payment × Program) := do
  let i ← okOr (s.instances.lookup inst) .runtime
  require (s.signs ctx funder) .runtime
  require (decide (rt.addr.entryOf entryId ∉ s.entries.keys)) .runtime
  let e ← Entry.fund rt.crypto i mint entryId t refundAccount ctx.now
  let escrow := rt.addr.escrowOf entryId
  require (decide (escrow ∉ s.tokens.keys)) .runtime
  let created := s.tokens.insert escrow { mint, owner := inst, amount := 0, frozen := false }
  let tokens ← Tokens.transfer created funderToken escrow funder t.amount
  return ([{ source := funderToken, dest := escrow, amount := t.amount }],
    { s with entries := s.entries.insert (rt.addr.entryOf entryId) e, tokens })

/-- An entry and its instance. -/
def entryAt (inst entry : Pubkey) : Except KitError (Instance × Entry) := do
  let i ← okOr (s.instances.lookup inst) .runtime
  let e ← okOr (s.entries.lookup entry) .runtime
  require (e.seedInstance == i.seedInstance) .instanceMismatch
  return (i, e)

/-- Replace an entry. -/
def setEntry (entry : Pubkey) (e : Entry) : List Payment × Program :=
  ([], { s with entries := s.entries.insert entry e })

/-- What the merchant may do to an entry, as a signer. -/
def merchantAction (inst entry merchant : Pubkey)
    (action : Entry → ℕ → Except KitError Entry) : Except KitError (List Payment × Program) := do
  let (i, e) ← s.entryAt inst entry
  require (merchant == i.merchantKey && s.signs ctx merchant) .runtime
  s.setEntry entry <$> action e ctx.now

def attest (inst entry merchant : Pubkey) : Except KitError (List Payment × Program) :=
  s.merchantAction ctx inst entry merchant Entry.attest

def cancel (inst entry merchant : Pubkey) : Except KitError (List Payment × Program) :=
  s.merchantAction ctx inst entry merchant Entry.cancel

def attestDetached (inst entry : Pubkey) : Except KitError (List Payment × Program) := do
  let (i, e) ← s.entryAt inst entry
  let expected := attestMessage e.nonce (e.id rt.crypto)
  require (ctx.listed.any (verifiesDetached rt.ed25519Program i.merchantKey expected))
    .badAttestation
  s.setEntry entry <$> e.attest ctx.now

/-- What anyone may do to an entry. -/
def entryOnly (entry : Pubkey) (action : Entry → ℕ → Except KitError Entry) :
    Except KitError (List Payment × Program) := do
  let e ← okOr (s.entries.lookup entry) .runtime
  s.setEntry entry <$> action e ctx.now

def lapse (entry : Pubkey) : Except KitError (List Payment × Program) :=
  s.entryOnly ctx entry Entry.lapse

def openReclaim (entry : Pubkey) : Except KitError (List Payment × Program) :=
  s.entryOnly ctx entry Entry.openReclaim

def executeReclaim (entry : Pubkey) : Except KitError (List Payment × Program) :=
  s.entryOnly ctx entry Entry.executeReclaim

/-- Pay a slot its destination's share of an amount, where the destination is paid. -/
def payShare (inst escrow : Pubkey) (amount : ℕ) (dests : Fin 4 → Pubkey) (bpD : Fin 4 → ℕ)
    (paid : List Payment × Tokens) (i : Fin 4) : Except KitError (List Payment × Tokens) := do
  if bpD i = 0 then return paid
  else
    let share := Fee.claimableD amount (bpD i) SCHEMA_01_BP_TOTAL 0
    require (decide (share ≤ U64_MAX)) .arithmeticDomain
    if share = 0 then return paid
    else
      let tokens ← paid.2.transfer escrow (dests i) inst share
      return (paid.1 ++ [{ source := escrow, dest := dests i, amount := share }], tokens)

def distribute (inst entry escrow : Pubkey) (dests : Fin 4 → Pubkey) :
    Except KitError (List Payment × Program) := do
  let (i, e) ← s.entryAt inst entry
  require (inst == rt.addr.instanceOf i.seedInstance) .runtime
  let settled ← e.distribute
  require (escrow == rt.addr.escrowOf (e.id rt.crypto)) .wrongEscrow
  require (decide (dests = i.dests)) .wrongDestination
  let (_, bpD) ← aggregateBpByDest i.dests SCHEMA_01_BP
  let (payments, tokens) ← (List.finRange 4).foldlM
    (payShare inst escrow e.amount dests bpD) ([], s.tokens)
  return (payments, { s with entries := s.entries.insert entry settled, tokens })

def refund (inst entry escrow refundDest : Pubkey) : Except KitError (List Payment × Program) := do
  let (i, e) ← s.entryAt inst entry
  require (inst == rt.addr.instanceOf i.seedInstance) .runtime
  let settled ← e.refund
  require (escrow == rt.addr.escrowOf (e.id rt.crypto)) .wrongEscrow
  require (refundDest == e.refundAccount) .wrongDestination
  require (decide (e.amount ≤ U64_MAX)) .arithmeticDomain
  let tokens ← s.tokens.transfer escrow refundDest inst e.amount
  return ([{ source := escrow, dest := refundDest, amount := e.amount }],
    { s with entries := s.entries.insert entry settled, tokens })

/-! ## The machine -/

inductive Instruction
  | deployInstance (seed : ByteArr 32) (canonicalBytes : Bytes)
  | fundEntry (inst : Pubkey) (entryId : ByteArr 32) (t : EntryTerms) (refundAccount : Pubkey)
    (mint funderToken funder : Pubkey)
  | attest (inst entry merchant : Pubkey)
  | attestDetached (inst entry : Pubkey)
  | cancel (inst entry merchant : Pubkey)
  | lapse (entry : Pubkey)
  | openReclaim (entry : Pubkey)
  | executeReclaim (entry : Pubkey)
  | distribute (inst entry escrow : Pubkey) (dests : Fin 4 → Pubkey)
  | refund (inst entry escrow refundDest : Pubkey)

def run : Instruction → Except KitError (List Payment × Program)
  | .deployInstance seed canonicalBytes => s.deployInstance rt seed canonicalBytes
  | .fundEntry inst entryId t refundAccount mint funderToken funder =>
    s.fundEntry rt ctx inst entryId t refundAccount mint funderToken funder
  | .attest inst entry merchant => s.attest ctx inst entry merchant
  | .attestDetached inst entry => s.attestDetached rt ctx inst entry
  | .cancel inst entry merchant => s.cancel ctx inst entry merchant
  | .lapse entry => s.lapse ctx entry
  | .openReclaim entry => s.openReclaim ctx entry
  | .executeReclaim entry => s.executeReclaim ctx entry
  | .distribute inst entry escrow dests => s.distribute rt inst entry escrow dests
  | .refund inst entry escrow refundDest => s.refund rt inst entry escrow refundDest

/-- A transaction, or what others do on the token program: they change and create accounts that
no instance owns, send tokens to any account and freeze it. -/
inductive Event
  | instruction (i : Instruction) (ctx : Context)
  | account (key : Pubkey) (account : TokenAccount)
  | credit (key : Pubkey) (amount : ℕ)
  | freeze (key : Pubkey) (frozen : Bool)

/-- Does a deployed instance own the account? -/
def ownsAccount (key : Pubkey) : Bool :=
  (s.tokens.lookup key).any fun a => decide (a.owner ∈ s.instances.keys)

/-- Others act on an account. -/
def outside (key : Pubkey) (change : TokenAccount → TokenAccount) : Program :=
  match s.tokens.lookup key with
  | some a => { s with tokens := s.tokens.insert key (change a) }
  | none => s

def step (s : Program) : Event → Program × Except KitError (List Payment)
  | .instruction i ctx =>
    match s.run rt ctx i with
    | .ok (payments, s) => (s, .ok payments)
    | .error e => (s, .error e)
  | .account key account =>
    (if s.ownsAccount key then s else { s with tokens := s.tokens.insert key account }, .ok [])
  | .credit key amount => (s.outside key fun a => { a with amount := a.amount + amount }, .ok [])
  | .freeze key frozen => (s.outside key fun a => { a with frozen }, .ok [])

/-- A program that nothing was done with yet. -/
def initial (tokens : Tokens) : Program := { instances := ∅, entries := ∅, tokens }

end Program

end Kit

end Paytp
