import Paytp.Carriage
import Paytp.Wallet.Channel

/-!
# Draws and credits

A wallet and a merchant on the virtual rail. The merchant draws rounds at its operative
checkpoints; of the notices that its draws return the wallet sees any, in any order and any number
of times, and credits the rounds that the rail shows. In between either of them is called with
anything else, and anybody uses the rail.
-/

namespace Paytp

namespace VirtualRail

variable (rail : VirtualRail)

/-- The first split at an address stays. -/
def deploySplit (seed : ByteArr 32) (recipients : List (String × ℕ)) : VirtualRail :=
  { rail with splits := rail.splits.orInsert (deriveAddress seed)
                { recipients, vReceived := 0, paid := recipients.map fun _ => 0 } }

/-- The position that the channel of an instance is funded to. -/
def channelFundedP (seedInstance : ByteArr 32) (channelId : ByteArr 8) : ℕ :=
  ((rail.instances.lookup (deriveAddress seedInstance)).map fun inst =>
    inst.channelFundedP channelId).getD 0

/-- What anybody does on the rail. -/
inductive Op
  | advanceClock (secs : ℕ)
  | setOutage (on : Bool)
  | deploySplit (seed : ByteArr 32) (recipients : List (String × ℕ))
  | deployInstance (seed : ByteArr 32) (meed : List MeedShare)
  | submit (transfer : Transfer)
  | settle (transfer : Transfer) (settleId : ByteArr 32)
  | release (source dest asset : String) (amount : ℕ)
  | releaseKeyed (channelId : ByteArr 8) (ckptRef : ByteArr 32) (source dest asset : String)
    (amount : ℕ)
  | advanceChannelMeed (source : Option String) (addr : String) (channelId : ByteArr 8)
    (targetP : ℕ) (asset : String)
  /-- Purchase entries and claim records: balances move, and a reference may be recorded. -/
  | entry (ledger : HashMap String ℕ) (info : Option RefInfo)

def run (op : Op) : VirtualRail :=
  match op with
  | .advanceClock secs => rail.advanceClock secs
  | .setOutage on => rail.setOutage on
  | .deploySplit seed recipients => rail.deploySplit seed recipients
  | .deployInstance seed meed => rail.deployInstance seed meed
  | .submit transfer => (rail.submit transfer).2
  | .settle transfer settleId => (rail.settle transfer settleId).2
  | .release source dest asset amount => (rail.releaseLocked source dest asset amount).2
  | .releaseKeyed channelId ckptRef source dest asset amount =>
    (rail.releaseKeyed channelId ckptRef source dest asset amount).2
  | .advanceChannelMeed source addr channelId targetP asset =>
    (rail.advanceChannelMeed source addr channelId targetP asset).2
  | .entry ledger none => { rail with ledger }
  | .entry ledger (some info) =>
    (recordRef { rail with ledger } { info with advancedChannelMeed := none }).2

/-- A rail that was new once. -/
inductive Reachable : VirtualRail → Prop
  | new (finalityDelay : ℕ) : Reachable (.new finalityDelay)
  | run {rail : VirtualRail} (h : Reachable rail) (op : Op) : Reachable (rail.run op)

end VirtualRail

namespace Carriage

variable {ρ : Type} (s s' : Carriage ρ) (cid : ByteArr 8)

/-- The sum of what is settled of each role. -/
def settled : ℕ := ((s.ledger.lookup cid).map fun led => sumOf led.settledR).getD 0

/-- The rounds that are folded in `s'` and were not in `s`, with what is settled then. -/
def foldsOf : List (ByteArr 32 × ℕ) :=
  ((s'.roundsOf cid).filter fun r => r.2.meedFolded &&
    !(s.roundsOf cid).any fun r' => r'.1 == r.1 && r'.2.meedFolded).map fun r =>
      (r.1, s'.settled cid)

/-- The notice that is answered, if any. -/
def Answer.noticed : Answer → List PrepayDrawCompleted
  | .notice m => m.toList
  | .response _ | .none => []

/-- The channel, if there is one, takes deposits and succeeds no other. -/
def FirstGeneration : Prop :=
  ∀ st, s.channels.lookup cid = some st → st.mode = .prepay ∧ s.importedBasis.lookup cid = none

end Carriage

structure Crediting where
  merchant : Carriage VirtualRail
  wallet : Wallet.ChannelClient
  /-- What the draws returned. -/
  notices : List PrepayDrawCompleted
  /-- The rounds of the channel that the merchant folded, with what was settled by each. -/
  folds : List (ByteArr 32 × ℕ)

/-- The primitives of a wallet on the virtual rail. -/
def Wallet.virtualEnv (suite : Suite)
    (sealSessionSecret : ByteArr 32 → Bytes → ByteArr 32 → Option Bytes)
    (registrableDomain : String → Option String) : Wallet.Env VirtualRail where
  suite
  adapter := VirtualRail.adapter
  sealSessionSecret
  registrableDomain

namespace Crediting

inductive Turn
  /-- The wallet is called with anything but a notice or the rail. -/
  | wallet (e : Wallet.ChannelClient.Event VirtualRail)
  | resume (m : PrepayDrawCompleted) (now : ℕ)
  | verify (settled now : ℕ)
  /-- The merchant is called with anything. -/
  | merchant (e : Carriage.Event VirtualRail)
  | rail (op : VirtualRail.Op)

/-- Does the wallet learn of a draw by the call? -/
def learns {ρ : Type} : Wallet.ChannelClient.Call ρ → Bool
  | .resumeOnPrepayDraw _ | .verifyPendingDraw _ _ => true
  | _ => false

/-- Is the call a step of the rail, and not a message? -/
def isRail {ρ : Type} : Carriage.Call ρ → Bool
  | .rail _ => true
  | _ => false

variable (env : Wallet.Env VirtualRail) (w : Crediting)

/-- The merchant handles an event. -/
def handle (e : Carriage.Event VirtualRail) : Crediting :=
  let (merchant, answer) := Carriage.step ⟨env.suite, env.adapter⟩ w.merchant e
  { w with
    merchant
    notices := answer.noticed ++ w.notices
    folds := w.merchant.foldsOf merchant w.wallet.channelId ++ w.folds }

/-- A turn answers with the round it credits, if any. -/
def step (turn : Turn) : Crediting × Option Wallet.PendingVerify :=
  match turn with
  | .wallet e =>
    if learns e.call then (w, none)
    else ({ w with wallet := (Wallet.ChannelClient.step env w.wallet e).1 }, none)
  | .resume m now =>
    if m ∈ w.notices then
      ({ w with wallet := (w.wallet.resumeOnPrepayDraw env now m).2 }, none)
    else (w, none)
  | .verify settled now =>
    match w.merchant.rail with
    | none => (w, none)
    | some rail =>
      let (credited, wallet) := w.wallet.verifyPendingDraw env rail settled now
      ({ w with wallet }, if credited then w.wallet.pendingVerify else none)
  | .merchant e => if isRail e.call then (w, none) else (w.handle env e, none)
  | .rail op => ({ w with merchant := { w.merchant with rail := w.merchant.rail.map (·.run op) } },
      none)

/-- A wallet that opened a prepay channel, and a merchant that is new on a rail. -/
structure Starts : Prop where
  built : Carriage.Built ⟨env.suite, env.adapter⟩ w.merchant
  rail : ∃ rail, w.merchant.rail = some rail ∧ rail.Reachable
  opened : ∃ trust now approved params s o,
    Wallet.openInner env trust now approved params s = .ok (o, w.wallet) ∧ params.prepay = true
  notices : w.notices = []
  folds : w.folds = []

end Crediting

namespace Wallet.ChannelClient

variable (c : ChannelClient)

/-- No role was credited more than it accrued at the total. -/
def Accrued (cum : ℕ) : Prop := ∀ r ∈ c.rolesBp.zip c.creditedR, r.2 ≤ cum * r.1.2.toNat

end Wallet.ChannelClient

end Paytp
