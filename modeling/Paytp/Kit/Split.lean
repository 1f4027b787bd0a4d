import Paytp.Kit.Division

/-!
# The contract kit: the split

A split divides whatever its vault receives among the merchant and the four meed roles. Anyone
may claim for a seat; what a seat may draw is reckoned from what the vault holds and what is on
record as paid. The merchant's seat is never put together with a role's.
-/

namespace Paytp

namespace Kit

/-- The addresses derived for accounts of the programs. -/
structure Addresses where
  instanceOf : ByteArr 32 → Pubkey
  entryOf : ByteArr 32 → Pubkey
  escrowOf : ByteArr 32 → Pubkey
  splitOf : ByteArr 32 → Pubkey
  /-- By owner and mint. -/
  associatedTokenAccount : Pubkey → Pubkey → Pubkey

structure Split where
  seedSplit : ByteArr 32
  merchantKey : ByteArr 32
  merchantNet : Pubkey
  dests : Fin 4 → Pubkey
  mint : Pubkey
  /-- What each seat was paid, the merchant's first; the seats of one destination are on record
  at the first of them. -/
  paid : Fin 5 → ℕ
  deriving DecidableEq

namespace Split

variable (addr : Addresses) (split : Split)

def key : Pubkey := addr.splitOf split.seedSplit

def vaultKey : Pubkey := addr.associatedTokenAccount (split.key addr) split.mint

/-- The account a seat is paid at. -/
def destOf : Fin 5 → Pubkey := Fin.cons split.merchantNet split.dests

/-- The seat that draws for a seat: the first role naming its destination, or the merchant. -/
def drawer : Fin 5 → Fin 5 := Fin.cons 0 fun m => (canonical split.dests m).succ

/-- The seats a seat draws for. -/
def drawnBy (seat : Fin 5) : List (Fin 5) :=
  (List.finRange 5).filter fun j => split.drawer j = seat

/-- The points a seat draws on. -/
def bpOf (meedBpD : Fin 4 → ℕ) : Fin 5 → ℕ := Fin.cons SPLIT_MERCHANT_BP meedBpD

/-- What a seat is owed with `balance` in the vault, and what its destination was paid. -/
def owed (balance bp : ℕ) (seat : Fin 5) : Except KitError (ℕ × ℕ) := do
  let sumPaid ← checkedSum (List.ofFn split.paid)
  let totalReceived ← checkedAdd balance sumPaid
  let paidDest ← checkedSum ((split.drawnBy seat).map split.paid)
  let owed := Fee.claimableD totalReceived bp SPLIT_BP_TOTAL paidDest
  require (decide (owed ≤ U64_MAX)) .arithmeticDomain
  return (owed, paidDest)

/-- Record a destination's payments at the seat that draws for it. -/
def record (seat : Fin 5) (newPaid : ℕ) : Split :=
  { split with
    paid := fun j =>
      if j = seat then newPaid else if split.drawer j = seat then 0 else split.paid j }

end Split

/-- A split and the accounts of the token program. -/
structure SplitVault where
  split : Split
  tokens : Tokens
  deriving DecidableEq

namespace SplitVault

variable (addr : Addresses) (s : SplitVault)

def balance : ℕ := s.tokens.amount (s.split.vaultKey addr)

/-- Draw for a seat: what is paid out and the split after it. -/
def splitClaim (seat : ℕ) (vault dest : Pubkey) : Except KitError (ℕ × SplitVault) :=
  if hseat : seat < 5 then do
    let seat : Fin 5 := ⟨seat, hseat⟩
    let (_, meedBpD) ← aggregateBpByDest s.split.dests SCHEMA_01_BP
    require (vault == s.split.vaultKey addr) .wrongVault
    require (dest == s.split.destOf seat) .wrongDestination
    if s.split.drawer seat ≠ seat then return (0, s)
    else
      require (s.tokens.kind vault).isSome .badInputs
      let (owed, paidDest) ←
        s.split.owed (s.tokens.amount vault) (Split.bpOf meedBpD seat) seat
      if owed = 0 then return (0, s)
      else
        let newPaid ← checkedAdd paidDest owed
        let tokens ← s.tokens.transfer vault dest (s.split.key addr) owed
        return (owed, { split := s.split.record seat newPaid, tokens })
  else .error .badInputs

/-! ## The machine -/

/-- A payment into the vault, a change of another account, or a claim. -/
inductive Event
  | inflow (amount : ℕ)
  | account (key : Pubkey) (account : Option TokenAccount)
  | claim (seat : ℕ) (vault dest : Pubkey)

inductive Outcome
  | received (amount : ℕ)
  | paid (seat : ℕ) (dest : Pubkey) (amount : ℕ)
  | refused
  | none
  deriving DecidableEq

/-- Is the account there, and does it receive? -/
def receives (key : Pubkey) : Bool := (s.tokens.kind key).any fun kind => !kind.2.2

/-- A payment into the vault, which holds 64 bits. -/
def inflow (amount : ℕ) : SplitVault × Outcome :=
  if s.receives (s.split.vaultKey addr) && decide (s.balance addr + amount ≤ U64_MAX) then
    ({ s with
        tokens := s.tokens.setAmount (s.split.vaultKey addr) (s.balance addr + amount) },
      .received amount)
  else (s, .refused)

/-- Whatever others do to an account that is not the vault. -/
def setAccount (key : Pubkey) (account : Option TokenAccount) : SplitVault × Outcome :=
  if key = s.split.vaultKey addr then (s, .none)
  else
    match account with
    | some a => ({ s with tokens := s.tokens.insert key a }, .none)
    | none => ({ s with tokens := s.tokens.erase key }, .none)

def claim (seat : ℕ) (vault dest : Pubkey) : SplitVault × Outcome :=
  match s.splitClaim addr seat vault dest with
  | .ok (amount, s) => (s, .paid seat dest amount)
  | .error _ => (s, .refused)

def step (s : SplitVault) : Event → SplitVault × Outcome
  | .inflow amount => s.inflow addr amount
  | .account key account => s.setAccount addr key account
  | .claim seat vault dest => s.claim addr seat vault dest

end SplitVault

end Kit

end Paytp
