import Paytp.HostedRail

/-!
# The virtual rail of purchases

The hosted rail with what a purchase asks it beside: the entry that a reference funded, and the
capabilities it declares, which are fixed when it is made.
-/

namespace Paytp

open Attest Kit

structure EntryRail extends HostedRail where
  /-- The entry that a reference funded. -/
  fundsEntry : HashMap String (ByteArr 32)
  /-- The assets it routes. -/
  assets : List String
  /-- How long an operation may take until it is included. -/
  inclusionLatency : ℕ
  deriving DecidableEq

namespace EntryRail

def new (finalityDelay : ℕ) (assets : List String) (inclusionLatency : ℕ) : EntryRail where
  toHostedRail := .new finalityDelay
  fundsEntry := ∅
  assets
  inclusionLatency

variable (suite : Suite) (s : EntryRail)

def finality (r : String) : Option Finality := s.rail.finality r

def refTarget (r : String) : Option RefInfo := s.rail.refTarget r

def entryStatus (addr : String) (entryId : ByteArr 32) : Option EntryStatus :=
  (s.hosted.lookup addr).bind fun h => h.purchases.status entryId

/-- When an open reclaim may be executed after. -/
def reclaimExecTime (addr : String) (entryId : ByteArr 32) : Option ℕ :=
  (s.hosted.lookup addr).bind fun h => h.purchases.reclaimExecTime entryId

/-- Fund an entry under a new reference, which stands for it. -/
def fundEntry (addr : String) (t : EntryTerms) (refundPtr asset : String) :
    Except RailError ((String × ByteArr 32) × EntryRail) :=
  (fun r =>
    (r.1, { s with toHostedRail := r.2, fundsEntry := s.fundsEntry.insert r.1.1 r.1.2 })) <$>
    s.toHostedRail.fundEntry suite addr t refundPtr asset

def attestEntry (addr : String) (entryId : ByteArr 32) (signed : Signed) :
    Except RailError EntryRail :=
  (fun h => { s with toHostedRail := h }) <$> s.toHostedRail.attestEntry suite addr entryId signed

/-- What anybody does on the rail; what is refused changes nothing. -/
def step (s : EntryRail) : HostedRail.Op → EntryRail × Except RailError Unit
  | .fundEntry addr t refundPtr asset =>
    match s.fundEntry suite addr t refundPtr asset with
    | .ok (_, s) => (s, .ok ())
    | .error e => (s, .error e)
  | op =>
    let (h, answer) := s.toHostedRail.step suite op
    ({ s with toHostedRail := h }, answer)

end EntryRail

end Paytp
