import Paytp.TwoLeg

/-!
# A merchant at the till

The merchant redeems quotes of both kinds on one rail, against one store of consumed nonces, while
anybody acts on the rail. A redemption runs to its end, and the store may fail in it; a crash leaves
the file of the store as it stands, from which the store is opened again.
-/

namespace Paytp

open MerchantStore

structure Till where
  rail : EntryRail
  store : Store ReceiptRest

namespace Till

inductive Event
  | onRail (op : HostedRail.Op)
  | redeemBaseline (presentedJson expectedResource : String) (transfer : Transfer)
    (settleId : ByteArr 32) (now : ℕ) (io : AppendIo)
  | redeemTwoLeg (presentedJson expectedResource meedRef netRef : String) (now : ℕ) (io : AppendIo)
  | crash
  | reopen (io : AppendLog.OpenIo)

variable (codec : TextCodec) (suite : Suite) (m : Merchant)

/-- Redeem a baseline quote on the rail without what it hosts. -/
def redeemBaseline (presentedJson expectedResource : String) (transfer : Transfer)
    (settleId : ByteArr 32) (now : ℕ) (io : AppendIo) (rail : EntryRail) (wal : Wal ReceiptRest) :
    Except RedeemError Receipt × EntryRail × Wal ReceiptRest :=
  let (answer, r, wal) := m.redeemBaseline codec suite presentedJson expectedResource transfer
    settleId now io rail.rail wal
  (answer, { rail with rail := r }, wal)

/-- A redemption is answered while the store is open. -/
def step (s : Till) : Event → Till × Option (Except RedeemError Receipt)
  | .onRail op => ({ s with rail := (s.rail.step suite op).1 }, none)
  | .redeemBaseline presentedJson expectedResource transfer settleId now io =>
    match s.store with
    | .up wal =>
      let (answer, rail, wal) := redeemBaseline codec suite m presentedJson expectedResource
        transfer settleId now io s.rail wal
      (⟨rail, .up wal⟩, some answer)
    | .down _ => (s, none)
  | .redeemTwoLeg presentedJson expectedResource meedRef netRef now io =>
    match s.store with
    | .up wal =>
      let (answer, rail, wal) := m.redeemTwoLeg codec suite presentedJson expectedResource meedRef
        netRef now io s.rail wal
      (⟨rail, .up wal⟩, some answer)
    | .down _ => (s, none)
  | .crash =>
    match s.store with
    | .up wal => ({ s with store := .down wal.file.content }, none)
    | .down _ => (s, none)
  | .reopen io =>
    match s.store with
    | .up _ => (s, none)
    | .down disk =>
      match openLog (Receipt.form codec suite) m.key disk io with
      | (disk, .error _) => ({ s with store := .down disk }, none)
      | (_, .ok wal) => ({ s with store := .up wal }, none)

/-- A receipt that an event is answered with. -/
def receiptOf (s : Till) (e : Event) : Option Receipt :=
  (step codec suite m s e).2.bind Except.toOption

/-- A till with a new store. -/
def new (rail : EntryRail) : Till := ⟨rail, .down []⟩

end Till

end Paytp
