import Paytp.Instance
import Paytp.Lib.Run

/-!
# One lifecycle, on the rail and on the chain

The entries of one instance as the rail hosts it and as the contract keeps them, given the same
requests at the same clock. The rail divides and refunds at once what the contract is asked to
divide and to refund.
-/

namespace Paytp

open Attest Kit

namespace Kit

/-- The entries of an instance on the chain, by their names. -/
structure EntryBook where
  inst : Instance
  entries : HashMap (ByteArr 32) Entry

namespace EntryBook

variable (suite : Suite) (book : EntryBook)

def status (entryId : ByteArr 32) : Option EntryState :=
  (book.entries.lookup entryId).map Entry.state

def put (entryId : ByteArr 32) (e : Entry) : EntryBook :=
  { book with entries := book.entries.insert entryId e }

def fund (entryId : ByteArr 32) (t : EntryTerms) (refundAccount : Pubkey) (now : ℕ) :
    Except KitError EntryBook := do
  require (decide (entryId ∉ book.entries.keys)) .runtime
  let e ← Entry.fund suite.toCrypto book.inst book.inst.mint entryId t refundAccount now
  return book.put entryId e

def entry (entryId : ByteArr 32) : Except KitError Entry :=
  okOr (book.entries.lookup entryId) .runtime

def act (entryId : ByteArr 32) (op : EntryOp) (now : ℕ) : Except KitError EntryBook := do
  let e ← book.entry entryId
  let e' ← e.apply now op
  return book.put entryId e'

/-- Anyone relays what the merchant signed. -/
def attestDetached (entryId : ByteArr 32) (signed : Signed) (now : ℕ) :
    Except KitError EntryBook := do
  let e ← book.entry entryId
  require (coveredBytes signed.kind signed.nonce signed.entryId ==
    attestMessage e.nonce (e.id suite.toCrypto) && signed.verify suite book.inst.merchantKey)
    .badAttestation
  book.act entryId .attest now

/-- The merchant signs the transaction. -/
def cancel (entryId : ByteArr 32) (signers : Finset Pubkey) (now : ℕ) :
    Except KitError EntryBook := do
  require (decide (book.inst.merchantKey ∈ signers)) .runtime
  book.act entryId .cancel now

end EntryBook

end Kit

/-- What both are asked to do. -/
inductive EntryRequest
  | fund (t : EntryTerms) (refundPtr : String) (refundAccount : Pubkey)
  | attest (entryId : ByteArr 32) (signed : Signed)
  | cancel (entryId : ByteArr 32) (signed : Signed) (signers : Finset Pubkey)
  | lapse (entryId : ByteArr 32)
  | openReclaim (entryId : ByteArr 32)
  | executeReclaim (entryId : ByteArr 32)
  | distribute (entryId : ByteArr 32)
  | refund (entryId : ByteArr 32)

/-- The rail's instance and the chain's. -/
structure Lifecycle where
  host : PurchaseInstance
  chain : EntryBook

namespace Lifecycle

/-- An instance that was deployed on both. -/
def deployed (inst : Instance) (meed : List MeedShare) : Lifecycle where
  host := .new inst.merchantKey meed inst.seedInstance
  chain := { inst, entries := ∅ }

variable (suite : Suite) (s : Lifecycle) (now : ℕ)

/-- The rail has divided an entry where it was attested or lapsed, and refunded it where it was
cancelled or reclaimed. -/
def hostPaid (entryId : ByteArr 32) (statuses : List EntryStatus) :
    Except EntryError PurchaseInstance := do
  let e ← s.host.entry entryId
  require (decide (e.state.status ∈ statuses)) .window
  return s.host

def hostRun : EntryRequest → Except EntryError PurchaseInstance
  | .fund t refundPtr _ => Prod.snd <$> s.host.fundEntry suite t refundPtr now
  | .attest entryId signed => Prod.snd <$> s.host.attest suite entryId signed
  | .cancel entryId signed _ => Prod.snd <$> s.host.cancel suite entryId signed
  | .lapse entryId => Prod.snd <$> s.host.claimLapsed entryId now
  | .openReclaim entryId => s.host.openReclaim entryId now
  | .executeReclaim entryId => Prod.snd <$> s.host.executeReclaim entryId now
  | .distribute entryId => s.hostPaid entryId [.attested, .lapsed]
  | .refund entryId => s.hostPaid entryId [.cancelled, .reclaimed]

def chainRun : EntryRequest → Except KitError EntryBook
  | .fund t _ refundAccount =>
    s.chain.fund suite (deriveEntryId suite.toCrypto s.chain.inst.seedInstance t) t refundAccount
      now
  | .attest entryId signed => s.chain.attestDetached suite entryId signed now
  | .cancel entryId _ signers => s.chain.cancel entryId signers now
  | .lapse entryId => s.chain.act entryId .lapse now
  | .openReclaim entryId => s.chain.act entryId .openReclaim now
  | .executeReclaim entryId => s.chain.act entryId .executeReclaim now
  | .distribute entryId => s.chain.act entryId .distribute now
  | .refund entryId => s.chain.act entryId .refund now

/-- A request at some clock; what is refused changes nothing. -/
def step (s : Lifecycle) (r : ℕ × EntryRequest) : Lifecycle × Bool × Bool :=
  let host := s.hostRun suite r.1 r.2
  let chain := s.chainRun suite r.1 r.2
  ({ host := host.toOption.getD s.host, chain := chain.toOption.getD s.chain },
    host.toOption.isSome, chain.toOption.isSome)

/-- The merchant signs what it attests and cancels, and the chain is not asked to escrow what its
64-bit transfers cannot move. -/
def Valid (s : Lifecycle) (r : ℕ × EntryRequest) : Prop :=
  match r.2 with
  | .fund t _ _ => t.amount ≤ U64_MAX
  | .attest entryId signed => ∀ e ∈ s.host.entries.lookup entryId,
      s.host.checkSig suite e entryId signed .attestation = .ok ()
  | .cancel entryId signed signers => s.host.merchantKey ∈ signers ∧
      ∀ e ∈ s.host.entries.lookup entryId,
        s.host.checkSig suite e entryId signed .cancellation = .ok ()
  | _ => True

instance (s : Lifecycle) : ∀ r, Decidable (Valid suite s r)
  | (_, .fund t _ _) => inferInstanceAs (Decidable (t.amount ≤ U64_MAX))
  | (_, .attest entryId signed) => inferInstanceAs (Decidable (∀ e ∈ s.host.entries.lookup entryId,
      s.host.checkSig suite e entryId signed .attestation = .ok ()))
  | (_, .cancel entryId signed signers) =>
    inferInstanceAs (Decidable (s.host.merchantKey ∈ signers ∧
      ∀ e ∈ s.host.entries.lookup entryId,
        s.host.checkSig suite e entryId signed .cancellation = .ok ()))
  | (_, .lapse _) | (_, .openReclaim _) | (_, .executeReclaim _) | (_, .distribute _)
  | (_, .refund _) => .isTrue trivial

/-- Is an entry attested or cancelled that is still funded after its lapse? -/
def late (s : Lifecycle) (r : ℕ × EntryRequest) : Bool :=
  match r.2 with
  | .attest entryId _ | .cancel entryId _ _ =>
    (s.host.entries.lookup entryId).any fun e => decide (e.state = .funded ∧ e.tLapse < r.1)
  | _ => false

end Lifecycle

/-- The state on the chain that a status on the rail is. -/
def EntryStatus.onChain : EntryStatus → EntryState
  | funded => .funded
  | attested => .attested
  | cancelled => .cancelled
  | reclaimOpen => .reclaimOpen
  | reclaimed => .reclaimed
  | lapsed => .lapsed

namespace Lifecycle

variable (suite : Suite)

/-- Both accept a request or both refuse it. What the chain divides or refunds, the rail has
divided or refunded already. -/
def Accepts (s : Lifecycle) (r : ℕ × EntryRequest) : Prop :=
  match r.2, (step suite s r).2 with
  | .distribute _, (host, chain) | .refund _, (host, chain) => chain = true → host = true
  | _, (host, chain) => host = chain

end Lifecycle

end Paytp
