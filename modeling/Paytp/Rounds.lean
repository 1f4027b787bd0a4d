import Paytp.Fee
import Paytp.Lib.Checks
import Paytp.Lib.Run

/-!
# Settlement rounds

A round settles what the accrued numerators leave outstanding over the settled ones. The history
of a channel's rounds keeps both: between the rounds the roles accrue, and a round that carries a
leg records what it extinguished.
-/

namespace Paytp

namespace Settlement

open Fee

structure Round where
  roles : List UInt8
  division : RoundDivision
  deriving DecidableEq

namespace Round

/-- Both lists name the same roles, and a numerator from 2¹²⁸ on is rejected in either. -/
def compute (accrued settled : List (UInt8 × ℕ)) (rate : Rate) : Except F7Error Round := do
  require (accrued.length == settled.length &&
    !(accrued.zip settled).any fun p => p.1.1 != p.2.1) .inconsistentProposal
  let roles := accrued.map Prod.fst
  let accruedN ← (accrued.map Prod.snd).mapM u256FromBiguint
  let settledN ← (settled.map Prod.snd).mapM u256FromBiguint
  require (!(accruedN ++ settledN).any fun v => v ≥ 2 ^ 128) .arithmeticDomain
  let outstanding ← Reconcile.outstandingMeedPerRole accruedN settledN
  let division ← divideRound outstanding rate
  return { roles, division }

variable (r : Round)

def fundsClaimRecord : Bool := r.division.leg

def amount : ℕ := r.division.p

def extinguished : List (UInt8 × ℕ) := r.roles.zip r.division.eR

end Round

/-! ## The rounds of a channel -/

/-- What is accrued and what is settled, role by role, and the payments of the rounds so far. -/
structure History where
  accrued : List (UInt8 × ℕ)
  settled : List (UInt8 × ℕ)
  carved : List ℕ
  deriving DecidableEq

inductive Event
  | accrue (amounts : List ℕ)
  | round (rate : Rate)
  deriving DecidableEq

def addPerRole (entries : List (UInt8 × ℕ)) (amounts : List ℕ) : List (UInt8 × ℕ) :=
  List.zipWith (fun entry n => (entry.1, entry.2 + n)) entries amounts

namespace History

def new (roles : List UInt8) : History :=
  { accrued := roles.map fun role => (role, 0), settled := roles.map fun role => (role, 0)
    carved := [] }

variable (h : History)

def settledTotal : ℕ := (h.settled.map Prod.snd).sum

def outstandingTotal : ℕ := (h.accrued.map Prod.snd).sum - h.settledTotal

def nextRound (rate : Rate) : Except F7Error Round := Round.compute h.accrued h.settled rate

/-- An accrual names every role; a round that is refused, or carries no leg, records nothing as
settled. -/
def step : Event → History × Except F7Error (Option Round)
  | .accrue amounts =>
    if amounts.length = h.accrued.length then
      ({ h with accrued := addPerRole h.accrued amounts }, .ok none)
    else (h, .error .inconsistentProposal)
  | .round rate =>
    match h.nextRound rate with
    | .error e => (h, .error e)
    | .ok r =>
      ({ h with
          settled := if r.fundsClaimRecord then addPerRole h.settled r.division.eR else h.settled
          carved := h.carved ++ [r.amount] }, .ok (some r))

/-- The history of channel `roles` after the events `es`. -/
def after (roles : List UInt8) (es : List Event) : History := exec History.step (.new roles) es

end History

end Settlement

end Paytp
