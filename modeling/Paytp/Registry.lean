import Mathlib.Data.List.Infix
import Paytp.Establish
import Paytp.Snapshot
import Paytp.Lib.OrdMap

/-!
# The snapshots that a party retains

A party keeps the snapshots of the registry that it received, by version. A version is accepted
under the newest one, unless any of them revokes it, and where an open-source share goes is looked
up at the version that a vector names. What nobody is listed for goes where the release pins it.
-/

namespace Paytp

def DEV_FUND_DEST_PLACEHOLDER : String := "eip155:0:PLACEHOLDER-release-bound-dev-fund"

def INDEPENDENT_OS_FUND_DEST_PLACEHOLDER : String :=
  "eip155:0:PLACEHOLDER-release-bound-independent-os-fund"

def FOUNDATION_REGISTRY_KEY_PLACEHOLDER : ByteArr 32 := .replicate 32 0x11

/-- A release still has to put the destination in. -/
def isPlaceholder (dest : String) : Bool := decide ("PLACEHOLDER".toList <:+: dest.toList)

def governanceConstantsArePlaceholders : Bool :=
  isPlaceholder DEV_FUND_DEST_PLACEHOLDER || isPlaceholder INDEPENDENT_OS_FUND_DEST_PLACEHOLDER ||
    FOUNDATION_REGISTRY_KEY_PLACEHOLDER == .replicate 32 0x11

inductive RegistryError
  | placeholderGovernance
  | fieldDomain
  | missingField
  deriving DecidableEq, Repr

/-- Only a demonstration decides on placeholders. -/
def ensureGovernanceReady (demoGovernance : Bool) : Except RegistryError Unit :=
  require (demoGovernance || !governanceConstantsArePlaceholders) .placeholderGovernance

/-- Where a listed recipient is paid. -/
def Snapshot.resolveOs (s : Snapshot) (id : String) : Option String :=
  (s.osRecipients.find? fun r => r.1 == id).map Prod.snd

structure SnapshotStore where
  byVersion : OrdMap ℕ Snapshot
  named : ∀ e ∈ byVersion.entries, e.2.version = e.1

namespace SnapshotStore

def new : SnapshotStore where
  byVersion := .empty
  named _ he := (List.not_mem_nil he).elim

variable (store : SnapshotStore)

/-- Keep a snapshot, in the place of one with its version. -/
def insert (s : Snapshot) : SnapshotStore where
  byVersion := store.byVersion.insert s.version s
  named e he := by
    rcases OrdMap.mem_insert_iff.1 he with rfl | ⟨he, -⟩
    · rfl
    · exact store.named e he

/-- The store of some snapshots, as they arrived. -/
def ofList (snapshots : List Snapshot) : SnapshotStore := snapshots.foldl insert new

/-- The newest snapshot. -/
def tip : Option Snapshot := store.byVersion.last?.map Prod.snd

/-- The snapshot of just this version. -/
def atVersion (version : ℕ) : Option Snapshot := store.byVersion.get? version

def versionAccepted (version : ℕ) : Bool :=
  match store.tip with
  | none => false
  | some tip =>
    if version < tip.windowFloor || version > tip.version then false
    else !(store.byVersion.values.any fun s => s.revoked.contains version)

/-- Where the share of an asserted open-source recipient goes, which is the independent fund if it
is not listed. -/
def resolveOsDestination (demoGovernance : Bool) (namedVersion : ℕ) (assertedOs : Option String) :
    Except RegistryError String := do
  ensureGovernanceReady demoGovernance
  require (store.versionAccepted namedVersion) .fieldDomain
  let snap ← okOr (store.atVersion namedVersion) .missingField
  return (assertedOs.bind snap.resolveOs).getD INDEPENDENT_OS_FUND_DEST_PLACEHOLDER

/-- Is a destination the independent fund, or listed at the version that is named? A party without
a registry accepts the fund only. -/
def osDestinationAccepted (demoGovernance : Bool) (namedVersion : ℕ) (dest : String) :
    Except RegistryError Unit := do
  ensureGovernanceReady demoGovernance
  require (!(store.tip.isSome && !store.versionAccepted namedVersion)) .fieldDomain
  if dest = INDEPENDENT_OS_FUND_DEST_PLACEHOLDER then .ok ()
  else
    let snap ← okOr (store.atVersion namedVersion) .fieldDomain
    require (snap.osRecipients.any fun r => r.2 == dest) .fieldDomain

/-- What the store and the release say of governed destinations. -/
def registry (demoGovernance : Bool) : Registry where
  governanceReady := (ensureGovernanceReady demoGovernance).isOk
  osDestinationAccepted namedVersion dest :=
    (store.osDestinationAccepted demoGovernance namedVersion dest).isOk
  devFundDest := DEV_FUND_DEST_PLACEHOLDER

end SnapshotStore

end Paytp
