import Paytp.Lib.Bytes
import Paytp.Lib.Checks
import Paytp.Lib.HashMap
import Paytp.Lib.MachineInt

/-!
# The contract kit: token accounts

The accounts of the token program by their address, and the transfers the kit asks it for. The
supply of a mint is a 64-bit number, so that what an account receives does not overflow it.

A transfer is made by the owner. Delegates and close authorities are left out. What the kit owns
has none: it names none when it creates an account, and signs nothing but transfers. What they do to
the accounts of others is among the changes that others make there, and a deposit that a delegate
signs is one of an account that is the delegate's while it is made.
-/

namespace Paytp

namespace Kit

abbrev Pubkey := ByteArr 32

inductive KitError
  | zeroAmount
  | lapsePast
  | idMismatch
  | badInputs
  | instanceMismatch
  | terminal
  | lapsed
  | window
  | badAttestation
  | notDeliverable
  | alreadyDistributed
  | wrongDestination
  | wrongEscrow
  | wrongMint
  | notRefundable
  | arithmeticDomain
  | wrongVault
  | channelMismatch
  /-- The runtime or a program that the kit calls refuses: an account that is missing or of
  another kind, a signature that is missing, or a transfer. -/
  | runtime
  deriving DecidableEq, Repr

structure TokenAccount where
  mint : Pubkey
  owner : Pubkey
  amount : ℕ
  frozen : Bool
  deriving DecidableEq

abbrev Tokens := HashMap Pubkey TokenAccount

namespace Tokens

variable (tokens : Tokens)

/-- What an account is apart from what it holds. -/
def kind (key : Pubkey) : Option (Pubkey × Pubkey × Bool) :=
  (tokens.lookup key).map fun a => (a.mint, a.owner, a.frozen)

def amount (key : Pubkey) : ℕ := ((tokens.lookup key).map TokenAccount.amount).getD 0

/-- May `authority` move tokens from an account of the one kind to one of the other? -/
def movable (authority : Pubkey) :
    Option (Pubkey × Pubkey × Bool) → Option (Pubkey × Pubkey × Bool) → Bool
  | some (mint, owner, frozen), some (mint', _, frozen') =>
    !frozen && !frozen' && mint == mint' && owner == authority
  | _, _ => false

def setAmount (key : Pubkey) (amount : ℕ) : Tokens :=
  match tokens.lookup key with
  | some a => tokens.insert key { a with amount }
  | none => tokens

/-- `Transfer`: an account that transfers to itself keeps what it holds. -/
def transfer (source dest authority : Pubkey) (amount : ℕ) : Except KitError Tokens := do
  require (movable authority (tokens.kind source) (tokens.kind dest)) .runtime
  require (decide (amount ≤ tokens.amount source)) .runtime
  if source = dest then return tokens
  else
    let debited := tokens.setAmount source (tokens.amount source - amount)
    return debited.setAmount dest (tokens.amount dest + amount)

variable {tokens} {tokens' : Tokens} {source dest authority key key' : Pubkey} {n : ℕ}

/-! ## What a transfer moves -/

@[simp] theorem kind_setAmount : (tokens.setAmount key n).kind key' = tokens.kind key' := by
  unfold setAmount kind
  rcases h : tokens.lookup key with _ | a
  · rfl
  · dsimp only
    rw [HashMap.lookup_insert_ite]
    split_ifs with hk
    · rw [hk, h]
      rfl
    · rfl

theorem amount_setAmount_of_ne (hne : key' ≠ key) :
    (tokens.setAmount key n).amount key' = tokens.amount key' := by
  unfold setAmount amount
  rcases tokens.lookup key with _ | a
  · rfl
  · dsimp only
    rw [Finmap.lookup_insert_of_ne _ hne]

theorem amount_setAmount (h : (tokens.kind key).isSome = true) :
    (tokens.setAmount key n).amount key = n := by
  unfold setAmount amount
  obtain ⟨a, ha⟩ : ∃ a, tokens.lookup key = some a := by
    rw [kind, Option.isSome_map] at h
    exact Option.isSome_iff_exists.1 h
  rw [ha]
  dsimp only
  rw [Finmap.lookup_insert]
  rfl

theorem movable_isSome {a b : Option (Pubkey × Pubkey × Bool)} (h : movable authority a b = true) :
    a.isSome = true ∧ b.isSome = true := by
  rcases a with _ | a <;> rcases b with _ | b
  · exact absurd h Bool.false_ne_true
  · exact absurd h Bool.false_ne_true
  · exact absurd h Bool.false_ne_true
  · exact ⟨rfl, rfl⟩

/-- A transfer that was made, to another account. -/
theorem transfer_eq_ok (hne : source ≠ dest) :
    tokens.transfer source dest authority n = .ok tokens' ↔
      movable authority (tokens.kind source) (tokens.kind dest) = true ∧
        n ≤ tokens.amount source ∧
        tokens' = (tokens.setAmount source (tokens.amount source - n)).setAmount dest
          (tokens.amount dest + n) := by
  rw [transfer, if_neg hne]
  simp only [bind_eq_ok, require_eq_ok, decide_eq_true_eq, pure_eq_ok]
  constructor
  · rintro ⟨-, hmov, -, hle, rfl⟩
    exact ⟨hmov, hle, rfl⟩
  · rintro ⟨hmov, hle, rfl⟩
    exact ⟨⟨⟩, hmov, ⟨⟩, hle, rfl⟩

theorem transfer_self (heq : source = dest)
    (h : tokens.transfer source dest authority n = .ok tokens') : tokens' = tokens := by
  rw [transfer, if_pos heq] at h
  simp only [bind_eq_ok, require_eq_ok, pure_eq_ok] at h
  obtain ⟨-, -, -, -, rfl⟩ := h
  rfl

theorem transfer_kind (h : tokens.transfer source dest authority n = .ok tokens') (key : Pubkey) :
    tokens'.kind key = tokens.kind key := by
  by_cases hne : source = dest
  · rw [transfer_self hne h]
  · obtain ⟨-, -, rfl⟩ := (transfer_eq_ok hne).1 h
    rw [kind_setAmount, kind_setAmount]

/-- Only the owner of an account moves what it holds. -/
theorem transfer_authority (h : tokens.transfer source dest authority n = .ok tokens') :
    ∃ mint frozen, tokens.kind source = some (mint, authority, frozen) := by
  rw [transfer] at h
  simp only [bind_eq_ok, require_eq_ok] at h
  obtain ⟨-, hmov, -⟩ := h
  rcases hs : tokens.kind source with _ | ⟨mint, owner, frozen⟩
  · rw [hs] at hmov
    exact absurd hmov Bool.false_ne_true
  · rcases hd : tokens.kind dest with _ | ⟨_, _, _⟩
    · rw [hs, hd] at hmov
      exact absurd hmov Bool.false_ne_true
    · rw [hs, hd] at hmov
      simp only [movable, Bool.and_eq_true, beq_iff_eq] at hmov
      exact ⟨mint, frozen, by rw [hmov.2]⟩

/-- The source gives what is moved. -/
theorem transfer_source (hne : source ≠ dest)
    (h : tokens.transfer source dest authority n = .ok tokens') :
    n ≤ tokens.amount source ∧ tokens'.amount source = tokens.amount source - n := by
  obtain ⟨hmov, hle, rfl⟩ := (transfer_eq_ok hne).1 h
  exact ⟨hle, by rw [amount_setAmount_of_ne hne, amount_setAmount (movable_isSome hmov).1]⟩

theorem transfer_other (hs : key ≠ source) (hd : key ≠ dest)
    (h : tokens.transfer source dest authority n = .ok tokens') :
    tokens'.amount key = tokens.amount key := by
  by_cases hne : source = dest
  · rw [transfer_self hne h]
  · obtain ⟨-, -, rfl⟩ := (transfer_eq_ok hne).1 h
    rw [amount_setAmount_of_ne hd, amount_setAmount_of_ne hs]

/-- Nobody else loses. -/
theorem transfer_le (hs : key ≠ source)
    (h : tokens.transfer source dest authority n = .ok tokens') :
    tokens.amount key ≤ tokens'.amount key := by
  by_cases hd : key = dest
  · subst hd
    obtain ⟨hmov, -, rfl⟩ := (transfer_eq_ok hs.symm).1 h
    rw [amount_setAmount]
    · exact Nat.le_add_right _ _
    · rw [kind_setAmount]
      exact (movable_isSome hmov).2
  · exact (transfer_other hs hd h).ge

end Tokens

end Kit

end Paytp
