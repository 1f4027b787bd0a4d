import Paytp.Quote
import Paytp.Wallet.Channel

/-!
# The wallet's policy

Every expense is put to a policy first, and the policy selects among the paths that a resource is
offered on. It selects by what a path costs the payer; what a path earns the wallet is carried
along to be disclosed.
-/

namespace Paytp

namespace Wallet

/-- The terms of a channel that bear on what may be spent. -/
structure ChannelTerms where
  denom : String
  limitL : ℕ
  limitE : ℕ
  thValue : ℕ
  thTime : ℕ
  prepay : Bool
  deriving DecidableEq

/-! ## Selecting a path -/

structure PathCandidate where
  id : ℕ
  /-- The payer's total cost. -/
  cost : ℕ
  /-- What the selecting software earns on the path. -/
  meedShareBp : ℕ
  deriving DecidableEq

inductive SelectReason
  | costMinimal
  | operatorAuthorizedCostlier
  deriving DecidableEq, Repr

structure PathSelection where
  chosen : ℕ
  cost : ℕ
  /-- The least cost among the paths that are not excluded. -/
  costMinimal : ℕ
  costDelta : ℕ
  meedShareBp : ℕ
  reason : SelectReason
  deriving DecidableEq

namespace PathCandidate

/-- Cheaper, or as cheap with a lower name. -/
def before (a b : PathCandidate) : Bool :=
  decide (a.cost < b.cost) || (a.cost == b.cost && decide (a.id < b.id))

/-- The first of the candidates that none comes before. -/
def cheapest : List PathCandidate → Option PathCandidate
  | [] => none
  | c :: cs =>
    match cheapest cs with
    | some d => some (if d.before c then d else c)
    | none => some c

end PathCandidate

/-- The cheapest path that is not excluded, or the costlier one that the operator authorized. -/
def selectCostMinimal (candidates : List PathCandidate) (excluded : List ℕ)
    (authorizedCostlier : Option ℕ) : Option PathSelection :=
  (PathCandidate.cheapest (candidates.filter fun c => !excluded.contains c.id)).map fun cheapest =>
    let authorized := authorizedCostlier.bind fun id => candidates.find? fun c =>
      c.id == id && !excluded.contains c.id && decide (c.cost > cheapest.cost)
    let chosen := authorized.getD cheapest
    let costDelta := chosen.cost - cheapest.cost
    { chosen := chosen.id
      cost := chosen.cost
      costMinimal := cheapest.cost
      costDelta
      meedShareBp := chosen.meedShareBp
      reason := if costDelta > 0 then .operatorAuthorizedCostlier else .costMinimal }

/-! ## Policies -/

/-- All that a wallet asks its policy. -/
structure WalletPolicy where
  approveQuote : Quote → ℕ → String → Decision
  approveChannel : ChannelTerms → Decision
  approveSlice : ByteArr 8 → ℕ → Decision
  onOverdueMeed : ByteArr 8 → HaltOrContinue
  selectPath : List PathCandidate → Option PathSelection

/-- A budget for each asset and the operator's consent. -/
structure StaticPolicy where
  consent : Bool
  assetLimits : List (String × ℕ)
  perSliceLimit : ℕ
  excludedPaths : List ℕ
  authorizedCostlier : Option ℕ
  deriving DecidableEq

namespace StaticPolicy

def newMulti (assetLimits : List (String × ℕ)) : StaticPolicy where
  consent := true
  assetLimits
  perSliceLimit := min ((assetLimits.map Prod.snd).foldl max 0) U64_MAX
  excludedPaths := []
  authorizedCostlier := none

def new (asset : String) (perTxLimit : ℕ) : StaticPolicy := newMulti [(asset, perTxLimit)]

variable (p : StaticPolicy)

def withExcludedPaths (ids : List ℕ) : StaticPolicy := { p with excludedPaths := ids }

def withAuthorizedCostlier (id : ℕ) : StaticPolicy := { p with authorizedCostlier := some id }

def limitFor (asset : String) : Option ℕ :=
  (p.assetLimits.find? fun a => a.1 == asset).map Prod.snd

/-- Gate an amount by the budget of its asset. -/
def gate (asset : String) (amount : ℕ) (unlisted above : String) : Decision :=
  if !p.consent then .deny "no operator consent"
  else
    match p.limitFor asset with
    | none => .deny unlisted
    | some limit => if amount > limit then .deny above else .approve

def policy : WalletPolicy where
  approveQuote _ amount asset :=
    p.gate asset amount "asset not on allowlist" "amount over per-transaction budget"
  approveChannel terms :=
    p.gate terms.denom terms.limitL "channel denom not on allowlist" "channel limit over budget"
  approveSlice _ amt :=
    if amt > p.perSliceLimit then .deny "slice over per-slice limit" else .approve
  onOverdueMeed _ := .halt
  selectPath candidates := selectCostMinimal candidates p.excludedPaths p.authorizedCostlier

end StaticPolicy

end Wallet

end Paytp
