import Paytp.OneDecision

/-!
# One-decision stores

The store a merchant keeps its decisions in, as the channel plane sees it: a map of what is
decided, and any single decision may fail and leave the map as it was. The write-ahead store is
one of these.
-/

namespace Paytp

export OneDecision (Decision)

/-- The decided keys. -/
abbrev DecisionStore := HashMap Bytes Bytes

/-- Which keys fail to be decided while one message is handled. -/
abbrev StoreFaults := Bytes → Bool

namespace DecisionStore

def decide (fails : StoreFaults) (store : DecisionStore) (key value : Bytes) :
    Decision × DecisionStore :=
  if fails key then (.failed, store)
  else
    match store.lookup key with
    | some v => (.alreadyDecided v, store)
    | none => (.fresh, store.insert key value)

/-- Which keys an open write-ahead store fails to decide when the disk answers `io`. -/
def walFaults (wal : OneDecision.Wal) (io : AppendIo) : StoreFaults := fun key =>
  wal.poisoned || (wal.map.lookup key).isNone && !io.ok

/-- The write-ahead store decides as a map of its decisions does that fails at these keys. -/
theorem decide_walFaults (wal : OneDecision.Wal) (key value : Bytes) (io : AppendIo) :
    decide (walFaults wal io) wal.map key value =
      ((wal.decide key value io).1, (wal.decide key value io).2.map) := by
  unfold OneDecision.Wal.decide decide walFaults
  cases hp : wal.poisoned with
  | true => simp
  | false =>
    cases hk : wal.map.lookup key with
    | some v => simp
    | none =>
      unfold AppendLog.append
      cases io.ok <;> simp

end DecisionStore

end Paytp
