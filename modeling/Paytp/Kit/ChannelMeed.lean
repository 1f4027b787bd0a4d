import Paytp.Kit.Entry

/-!
# The contract kit: channel watermarks

The account of a channel's cumulative meed, which is at the address of its instance and channel.
The rent of a new account is the funder's business and not followed.
-/

namespace Paytp

namespace Kit

def CHANMEED_VERSION : ℕ := 1

structure ChannelMeed where
  seedInstance : ByteArr 32
  channelId : ByteArr 8
  version : ℕ
  fundedP : ℕ
  /-- By role; what roles of one destination were paid is at the first of them. -/
  paid : Fin 4 → ℕ
  residue : ℕ
  deriving DecidableEq

namespace ChannelMeed

/-- The account that a first advance creates. -/
def create (inst : Instance) (channelId : ByteArr 8) : ChannelMeed :=
  { seedInstance := inst.seedInstance, channelId, version := CHANMEED_VERSION, fundedP := 0
    paid := fun _ => 0, residue := 0 }

/-- What the slots are paid at a target: each destination's share at its first slot. -/
def divide (dests : Fin 4 → Pubkey) (targetP : ℕ) : Except KitError (Fin 4 → ℕ) := do
  let (_, bpD) ← aggregateBpByDest dests SCHEMA_01_BP
  let newPaid : Fin 4 → ℕ := fun i =>
    if bpD i = 0 then 0 else Fee.claimableD targetP (bpD i) SCHEMA_01_BP_TOTAL 0
  require (decide (∀ i, newPaid i ≤ U128_MAX)) .arithmeticDomain
  return newPaid

/-- What was paid for each destination so far, at its first slot. -/
def oldByDest (dests : Fin 4 → Pubkey) (paid : Fin 4 → ℕ) : Fin 4 → ℕ :=
  Shares.grouped (canonical dests) paid

/-- Advance to a cumulative target, never back and no destination down. -/
def advance (cr : ChannelMeed) (inst : Instance) (channelId : ByteArr 8) (targetP : ℕ) :
    Except KitError ChannelMeed := do
  require (cr.seedInstance == inst.seedInstance) .instanceMismatch
  require (cr.channelId == channelId) .channelMismatch
  if targetP ≤ cr.fundedP then return cr
  else
    let newPaid ← divide inst.dests targetP
    let distributed ← checkedSum (List.ofFn newPaid)
    let old := oldByDest inst.dests cr.paid
    require (decide (∀ i, old i ≤ U128_MAX)) .arithmeticDomain
    require (decide (∀ i, newPaid i ≥ old i)) .arithmeticDomain
    require (decide (distributed ≤ targetP)) .arithmeticDomain
    return { cr with paid := newPaid, residue := targetP - distributed, fundedP := targetP }

end ChannelMeed

/-- The account after an advance: a first one creates it, but not for nothing. -/
def advanceChannelMeed (inst : Instance) (account : Option ChannelMeed) (channelId : ByteArr 8)
    (targetP : ℕ) : Except KitError (Option ChannelMeed) :=
  match account with
  | none =>
    if targetP = 0 then .ok none
    else some <$> (ChannelMeed.create inst channelId).advance inst channelId targetP
  | some cr => some <$> cr.advance inst channelId targetP

end Kit

end Paytp
