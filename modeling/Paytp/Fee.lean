import Mathlib.Algebra.BigOperators.Group.List.Basic
import Mathlib.Algebra.Order.Ring.Nat

/-!
# Settlement arithmetic

The division of a round and the reconciliation of what is accrued with what is settled, over
256-bit numbers: a sum saturates at their bound and a product past it is an error.
-/

namespace Paytp

namespace Fee

def BP_DENOM : ℕ := 10000

def MAX_ROLES : ℕ := 64

def U256_MAX : ℕ := 2 ^ 256 - 1

inductive F7Error
  | arithmeticDomain
  | inconsistentProposal
  deriving DecidableEq, Repr

/-- `u256_from_biguint`. -/
def u256FromBiguint (n : ℕ) : Except F7Error ℕ :=
  if n ≤ U256_MAX then .ok n else .error .arithmeticDomain

def checkedMul (a b : ℕ) : Except F7Error ℕ :=
  if a * b ≤ U256_MAX then .ok (a * b) else .error .arithmeticDomain

/-- Every numerator below 2¹²⁸, and not too many of them. -/
def checkDomain (nR : List ℕ) : Except F7Error Unit :=
  if nR.length ≤ MAX_ROLES ∧ ∀ nr ∈ nR, nr < 2 ^ 128 then .ok () else .error .arithmeticDomain

/-- The saturating sum. -/
def sum (values : List ℕ) : ℕ := values.foldl (fun acc v => min U256_MAX (acc + v)) 0

structure Rate where
  p : ℕ
  q : ℕ
  p_pos : 0 < p
  q_pos : 0 < q
  p_lt : p < 2 ^ 64
  q_lt : q < 2 ^ 64
  deriving DecidableEq

def Rate.new (p q : ℕ) : Except F7Error Rate :=
  if h0 : 0 < p ∧ 0 < q then
    if h : p < 2 ^ 64 ∧ q < 2 ^ 64 then .ok ⟨p, q, h0.1, h0.2, h.1, h.2⟩
    else .error .arithmeticDomain
  else .error .inconsistentProposal

def computeP (n : ℕ) (rate : Rate) : Except F7Error ℕ := do
  let numer ← checkedMul n rate.p
  let p := numer / (rate.q * BP_DENOM)
  if p < 2 ^ 128 then return p else throw .arithmeticDomain

def computeE (pPaid : ℕ) (rate : Rate) : Except F7Error ℕ := do
  let numer ← checkedMul (← checkedMul pPaid rate.q) BP_DENOM
  return numer / rate.p

def carriesLeg (e : ℕ) : Bool := e != 0

/-- One sweep in ascending order, a unit to each role that is not at its cap: what is still to
be placed, and the roles after it. -/
def sweep : ℕ → List (ℕ × ℕ) → ℕ × List (ℕ × ℕ)
  | shortfall, [] => (shortfall, [])
  | shortfall, (er, nr) :: rest =>
    if shortfall = 0 then (0, (er, nr) :: rest)
    else if er < nr then
      let (shortfall, rest) := sweep (shortfall - 1) rest
      (shortfall, (er + 1, nr) :: rest)
    else
      let (shortfall, rest) := sweep shortfall rest
      (shortfall, (er, nr) :: rest)

/-- Sweep until the shortfall is placed. A sweep that places nothing is an error, so the fuel
`shortfall` suffices. -/
def placeShortfall : ℕ → ℕ → List (ℕ × ℕ) → Except F7Error (List (ℕ × ℕ))
  | 0, shortfall, roles =>
    if shortfall = 0 then .ok roles else .error .inconsistentProposal
  | fuel + 1, shortfall, roles =>
    if shortfall = 0 then .ok roles
    else
      let (left, roles) := sweep shortfall roles
      if left = shortfall then .error .inconsistentProposal
      else placeShortfall fuel left roles

/-- `narrow`: the assert on what stands above 256 bits, a panic where it fails. -/
def narrow (big : ℕ) : Option ℕ := if big ≤ U256_MAX then some big else none

/-- The part of `e` each role gives up: in proportion, and the units left over by sweeps. -/
def extinguishPerRole (e : ℕ) (nR : List ℕ) : Except F7Error (List ℕ) := do
  checkDomain nR
  let n := sum nR
  if n = 0 then
    if e ≠ 0 then throw .inconsistentProposal else return nR.map fun _ => 0
  else if e > n then throw .inconsistentProposal
  else
    let eR := nR.map fun nr => e * nr / n
    let shortfall := e - sum eR
    return (← placeShortfall shortfall shortfall (eR.zip nR)).map Prod.fst

structure RoundDivision where
  p : ℕ
  e : ℕ
  eR : List ℕ
  leg : Bool
  deriving DecidableEq

def divideRound (nR : List ℕ) (rate : Rate) : Except F7Error RoundDivision := do
  checkDomain nR
  let n := sum nR
  let p ← computeP n rate
  let e ← computeE p rate
  if e > n then throw .inconsistentProposal
  else
    let eR ← extinguishPerRole e nR
    return { p, e, eR, leg := carriesLeg e }

namespace Reconcile

def meedCarve (accruals : List ℕ) : ℕ := sum accruals / BP_DENOM

def outstandingMeedPerRole (accrued settledR : List ℕ) : Except F7Error (List ℕ) :=
  if accrued.length ≠ settledR.length then .error .inconsistentProposal
  else (accrued.zip settledR).mapM fun (a, s) =>
    if s > a then .error .inconsistentProposal else .ok (a - s)

def outstandingMerchantNet (cumTotal : ℕ) (accruals : List ℕ) (netLegsSum fundingSum : ℕ) : ℕ :=
  cumTotal - meedCarve accruals - netLegsSum - fundingSum

def prepayUnconsumedDeposit (fundingSum cumTotal : ℕ) : Except F7Error ℕ :=
  if cumTotal > fundingSum then .error .inconsistentProposal else .ok (fundingSum - cumTotal)

end Reconcile

end Fee

end Paytp
