import Paytp.Carriage
import Paytp.Wallet.Channel

/-!
# Checkpoint exchanges

A wallet and a merchant on one channel. The wallet co-signs proposals, and what it co-signed
reaches the merchant in any order and any number of times; each checkpoint the merchant returns
is recorded as it comes. Between exchanges either of them is called with anything else.
-/

namespace Paytp

variable {ρ : Type}

/-- The primitives and the rail the wallet's merchant runs with. -/
def Wallet.Env.merchant (env : Wallet.Env ρ) : Paytp.Env ρ where
  suite := env.suite
  adapter := env.adapter

/-- The total and the name of a checkpoint. -/
def Checkpoint.position (suite : Suite) (cp : Checkpoint) : Option (ℕ × ByteArr 32) :=
  (cp.reference suite).map fun ckptRef => (cp.cumTotal, ckptRef)

structure Exchange (ρ : Type) where
  merchant : Carriage ρ
  wallet : Wallet.ChannelClient
  /-- What the wallet co-signed. -/
  requests : List CheckpointRequest
  /-- The positions of the checkpoints that the merchant returned, the last one first. -/
  countersigned : List (ℕ × ByteArr 32)

namespace Exchange

variable (env : Wallet.Env ρ)

inductive Turn (ρ : Type)
  | request (cp : Checkpoint)
  /-- The merchant handles a request of the wallet's, and the wallet records its answer. -/
  | checkpoint (request : CheckpointRequest) (now : ℕ)
  /-- The wallet is called with anything but a checkpoint to record. -/
  | wallet (e : Wallet.ChannelClient.Event ρ)
  /-- The merchant is called with anything but a request on the channel. -/
  | merchant (e : Carriage.Event ρ)

/-- Does the wallet record a checkpoint by the call? -/
def records : Wallet.ChannelClient.Call ρ → Bool
  | .recordOperative _ => true
  | _ => false

/-- Does the call request a checkpoint of the channel? -/
def requestsOn (channelId : ByteArr 8) : Carriage.Call ρ → Bool
  | .checkpointRequest request => request.proposed.channelId == channelId
  | _ => false

def step (p : Exchange ρ) (turn : Turn ρ) : Exchange ρ × Option Checkpoint :=
  match turn with
  | .request cp =>
    match p.wallet.requestCheckpoint env cp with
    | .ok request => ({ p with requests := request :: p.requests }, none)
    | .error _ => (p, none)
  | .checkpoint request now =>
    if request ∈ p.requests then
      match p.merchant.onCheckpointRequest env.merchant request with
      | (.ok (.message (.checkpoint cp)), merchant) =>
        ({ p with
            merchant
            wallet := (p.wallet.recordOperative env now cp).2
            countersigned := (cp.position env.suite).toList ++ p.countersigned }, some cp)
      | (_, merchant) => ({ p with merchant }, none)
    else (p, none)
  | .wallet e =>
    if records e.call then (p, none)
    else ({ p with wallet := (Wallet.ChannelClient.step env p.wallet e).1 }, none)
  | .merchant e =>
    if requestsOn p.wallet.channelId e.call then (p, none)
    else ({ p with merchant := (Carriage.step env.merchant p.merchant e).1 }, none)

/-! ## The operative checkpoint -/

variable (p : Exchange ρ) {m : ℕ × ByteArr 32} {positions : List (ℕ × ByteArr 32)}

/-- The position that is operative for the merchant. -/
def merchantOperative : Option (ℕ × ByteArr 32) :=
  (p.merchant.operative.lookup p.wallet.channelId).map fun op => (op.cumTotal, op.ckptRef)

/-- The position that is operative for the wallet. -/
def walletOperative : Option (ℕ × ByteArr 32) :=
  p.wallet.operative.map fun op => (op.cumTotal, op.ckptRef)

/-- The position that supersedes every one of the list. -/
def Supersedes (m : ℕ × ByteArr 32) (positions : List (ℕ × ByteArr 32)) : Prop :=
  m ∈ positions ∧ ∀ x ∈ positions, x.1 ≤ m.1 ∧ ChannelState.operative m x = m.2

/-- Both go by the same position, the one that supersedes all that was countersigned. -/
def Agrees : Prop :=
  p.merchantOperative = p.walletOperative ∧
    (p.walletOperative = none → p.countersigned = []) ∧
    ∀ m ∈ p.walletOperative, Supersedes m p.countersigned

/-- The position of a request as the merchant would countersign it. -/
def positionOf (request : CheckpointRequest) : Option (ℕ × ByteArr 32) :=
  (p.merchant.driver.countersignCheckpoint env.suite request.proposed).position env.suite

/-- A request that recomputes at the operative total has no lesser name than the operative. -/
def Ascends (p : Exchange ρ) : Turn ρ → Prop
  | .checkpoint request _ => request ∈ p.requests →
      ∀ state ∈ (p.merchant.screenCheckpoint env.merchant request).toOption,
        state.recomputes env.suite.toCrypto request.proposed = true →
        ∀ op ∈ p.merchantOperative, ∀ position ∈ p.positionOf env request,
          position.1 = op.1 → op.2.toList ≤ position.2.toList
  | _ => True

/-- A request of the operative name is of the operative total. -/
def NoCollision (p : Exchange ρ) : Turn ρ → Prop
  | .checkpoint request _ => ∀ op ∈ p.merchantOperative,
      ∀ position ∈ p.positionOf env request, position.2 = op.2 → position.1 = op.1
  | _ => True

instance : Decidable (Supersedes m positions) :=
  inferInstanceAs (Decidable (_ ∧ _))

instance : Decidable p.Agrees := inferInstanceAs (Decidable (_ ∧ _ ∧ _))

instance : DecidablePred (p.Ascends env)
  | .checkpoint _ _ => inferInstanceAs (Decidable (_ → _))
  | .request _ | .wallet _ | .merchant _ => .isTrue trivial

instance : DecidablePred (p.NoCollision env)
  | .checkpoint _ _ => inferInstanceAs (Decidable (∀ op ∈ p.merchantOperative, _))
  | .request _ | .wallet _ | .merchant _ => .isTrue trivial

end Exchange

end Paytp
