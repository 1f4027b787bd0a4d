import Paytp.Lib.Run
import Paytp.Lib.Totals
import Paytp.Proofs.Inclusions

/-!
# Reorganisations of the asynchronous rail

Value is conserved while what is included is covered and what is reverted was not built upon: the
source of a draw still has what it takes, what is taken back is still where it was paid, and a
channel still stands where the reverted advance brought it. A step without this breaks a balance,
or leaves a watermark that is not what the advances on it moved.
-/

namespace Paytp

namespace AsyncRail

variable (rail : AsyncRail)

/-! ## What is conserved -/

/-- What a reference moved of something, if it moved anything. -/
def RefRecord.on (f : Applied → ℕ) (rec : RefRecord) : ℕ := (rec.applied.map f).getD 0

/-- What all references moved of something. -/
def tally (f : Applied → ℕ) : ℕ := HashMap.total (RefRecord.on f) rail.refs

def appliedAt (r : String) : Option Applied := (rail.refs.lookup r).bind RefRecord.applied

/-- Nothing is lost and nothing is paid twice. -/
structure Conserves : Prop where
  /-- What a channel's recipients were credited and its residue are its watermark. -/
  channels : ∀ addr cid, rail.tally (Applied.paidOn addr cid) + rail.channelResidue addr cid =
    rail.channelFundedP addr cid
  /-- A channel's watermark is what the advances brought into it. -/
  moved : ∀ addr cid, rail.tally (Applied.movedOn addr cid) = rail.channelFundedP addr cid
  /-- What was paid to an address is there, or was taken from it. -/
  deposits : ∀ addr, rail.balance addr + rail.tally (Applied.debits · addr) =
    rail.tally (Applied.credits · addr)
  /-- No two advances pay for the same part of a watermark. -/
  parts : ∀ r r' a a', r ≠ r' → rail.appliedAt r = some a → rail.appliedAt r' = some a' →
    ∀ addr cid, Disjoint (a.part addr cid) (a'.part addr cid)
  /-- An advance pays each destination what it is due of its part. -/
  dues : ∀ r source addr cid delta payouts snapshot,
    rail.appliedAt r = some (.advance source addr cid delta payouts snapshot) →
      ∃ inst, rail.instances.lookup addr = some inst ∧ ∀ dest,
        paidOut payouts dest + dueOf (startOf snapshot) inst.bpTotal inst.meed dest =
          dueOf (startOf snapshot + delta) inst.bpTotal inst.meed dest

/-- What is final stays as it is. -/
def Irrevocable (rail rail' : AsyncRail) : Prop :=
  ∀ r rec, rail.refs.lookup r = some rec → rec.level = .finalized →
    rail'.refs.lookup r = some rec

/-- A submitted transaction is included only while it is covered, and an included one is taken
away only while it can be undone. -/
def Clean (rail : AsyncRail) : Event → Prop
  | .confirm r | .finalize r =>
    ∀ rec ∈ rail.refs.lookup r, rec.level = .submitted → rail.Covered rec.op
  | .reorg r =>
    ∀ rec ∈ rail.refs.lookup r, rec.level = .confirmed → ∀ a ∈ rec.applied, rail.Undoable a
  | _ => True

instance (rail : AsyncRail) : ∀ e, Decidable (Clean rail e)
  | .confirm _ | .finalize _ => inferInstanceAs (Decidable (∀ rec ∈ _, _))
  | .reorg _ => inferInstanceAs (Decidable (∀ rec ∈ _, _))
  | .advanceClock _ | .setOutage _ | .deployInstance _ _ | .submit _ | .settle _ _
  | .release _ _ _ _ | .releaseKeyed _ _ _ _ _ _ | .advanceChannelMeed _ _ _ _ _
  | .dropTx _ => .isTrue trivial

/-- The amount is an unsigned integer of 128 bits. -/
def Event.Typed : Event → Prop
  | .submit transfer | .settle transfer _ => transfer.amount ≤ U128_MAX
  | .release _ _ _ amount | .releaseKeyed _ _ _ _ _ amount => amount ≤ U128_MAX
  | .advanceChannelMeed _ _ _ targetP _ => targetP ≤ U128_MAX
  | _ => True

/-! ## The invariant -/

/-- A record says of itself what its level says. -/
structure Records (rec : RefRecord) : Prop where
  moved : rec.applied.isSome = true ↔ rec.level = .confirmed ∨ rec.level = .finalized
  placeable : rail.Placeable rec.op
  holds : ∀ a ∈ rec.applied, rail.Holds a

structure Sound : Prop where
  fresh : ∀ n, rail.nextRef ≤ n → rail.refs.lookup (refId n) = none
  placed : rail.Placed
  records : ∀ r rec, rail.refs.lookup r = some rec → rail.Records rec
  /-- No advance paid for what its channel's watermark has not reached. -/
  reached : ∀ r a, rail.appliedAt r = some a → ∀ addr cid, ∀ p ∈ a.part addr cid,
    p ≤ rail.channelFundedP addr cid
  conserves : rail.Conserves

/-- The instances that are there stay and divide as they did. -/
def Grows (rail rail' : AsyncRail) : Prop :=
  ∀ addr inst, rail.instances.lookup addr = some inst →
    ∃ inst', rail'.instances.lookup addr = some inst' ∧ inst'.meed = inst.meed

section invariant
variable {rail} {rail' : AsyncRail}

theorem refId_inj {m n : ℕ} (h : refId m = refId n) : m = n := by
  have hdigits : toString m = toString n := (String.append_right_inj _).1 h
  rw [Nat.toString_eq_ofList_toDigits, Nat.toString_eq_ofList_toDigits,
    String.ofList_inj] at hdigits
  rw [← @Nat.ofDigitChars_ten_toDigits m, hdigits, Nat.ofDigitChars_ten_toDigits]

theorem SameMeeds.grows (h : SameMeeds rail rail') : Grows rail rail' := fun _ _ => h.found

theorem Grows.of_instances (h : rail'.instances = rail.instances) : Grows rail rail' :=
  (SameMeeds.of_instances h).grows

theorem Grows.holds (h : Grows rail rail') {a : Applied} (ha : rail.Holds a) : rail'.Holds a := by
  cases a with
  | plain dest amount => trivial
  | release source dest amount => trivial
  | advance source addr cid delta payouts snapshot =>
    obtain ⟨inst, hinst, hstart, hadv⟩ := ha
    obtain ⟨inst', hinst', hmeed⟩ := h addr inst hinst
    exact ⟨inst', hinst', hstart.trans (MeedInstance.standing_congr hmeed _).symm,
      hadv.congr hmeed⟩

theorem Grows.placeable (h : Grows rail rail') {op : Op} (hop : rail.Placeable op) :
    rail'.Placeable op := by
  cases op with
  | plain dest asset amount memo => exact hop
  | release source dest asset amount => exact hop
  | advance source addr cid targetP asset =>
    obtain ⟨inst, hinst⟩ := Option.isSome_iff_exists.1 hop.2
    obtain ⟨inst', hinst', -⟩ := h addr inst hinst
    exact ⟨hop.1, by rw [hinst']; rfl⟩

theorem Grows.records (h : Grows rail rail') {rec : RefRecord} (hrec : rail.Records rec) :
    rail'.Records rec :=
  ⟨hrec.moved, h.placeable hrec.placeable, fun a ha => h.holds (hrec.holds a ha)⟩

theorem appliedAt_setRef (r : String) (rec : RefRecord) (r' : String) :
    (rail.setRef r rec).appliedAt r' = if r' = r then rec.applied else rail.appliedAt r' := by
  unfold appliedAt setRef
  dsimp only
  rw [HashMap.lookup_insert_ite]
  split_ifs <;> rfl

theorem held_eq (f : Applied → ℕ) (r : String) :
    HashMap.held (RefRecord.on f) rail.refs r = ((rail.appliedAt r).map f).getD 0 := by
  unfold HashMap.held appliedAt
  cases rail.refs.lookup r <;> rfl

theorem tally_congr (h : ∀ r, rail'.appliedAt r = rail.appliedAt r) (f : Applied → ℕ) :
    rail'.tally f = rail.tally f :=
  HashMap.total_congr fun r => by rw [held_eq, held_eq, h]

theorem setRef_tally (h : rail'.refs = rail.refs) {r : String} {rec : RefRecord}
    (hrec : rail.refs.lookup r = some rec) (rec' : RefRecord) (f : Applied → ℕ) :
    (rail'.setRef r rec').tally f + rec.on f = rail.tally f + rec'.on f := by
  have hins := HashMap.total_insert (f := RefRecord.on f) rail.refs r rec'
  rw [HashMap.held_of_lookup hrec, ← h] at hins
  rw [tally, tally, ← h]
  exact hins

theorem appliedAt_of_lookup {r : String} {rec : RefRecord} (h : rail.refs.lookup r = some rec) :
    rail.appliedAt r = rec.applied := by
  rw [appliedAt, h]
  rfl

/-- What an applied record pays is due of its part. -/
theorem Sound.dues (h : ∀ r rec, rail.refs.lookup r = some rec → rail.Records rec) :
    ∀ r source addr cid delta payouts snapshot,
      rail.appliedAt r = some (.advance source addr cid delta payouts snapshot) →
      ∃ inst, rail.instances.lookup addr = some inst ∧ ∀ dest,
        paidOut payouts dest + dueOf (startOf snapshot) inst.bpTotal inst.meed dest =
          dueOf (startOf snapshot + delta) inst.bpTotal inst.meed dest := by
  intro r source addr cid delta payouts snapshot happlied
  obtain ⟨rec, hrec, happ⟩ := Option.bind_eq_some_iff.1 happlied
  obtain ⟨inst, hinst, -, hadv⟩ := (h r rec hrec).holds _ happ
  exact ⟨inst, hinst, hadv.dues⟩

/-! ### Steps that move nothing -/

/-- What is moved, and where channels stand, is as it was. -/
structure Undisturbed (rail rail' : AsyncRail) : Prop where
  balance : ∀ addr, rail'.balance addr = rail.balance addr
  applied : ∀ r, rail'.appliedAt r = rail.appliedAt r
  funded : ∀ addr cid, rail'.channelFundedP addr cid = rail.channelFundedP addr cid
  residue : ∀ addr cid, rail'.channelResidue addr cid = rail.channelResidue addr cid
  grows : Grows rail rail'
  placed : rail'.Placed

theorem Sound.undisturbed (h : rail.Sound) (hu : Undisturbed rail rail')
    (hfresh : ∀ n, rail'.nextRef ≤ n → rail'.refs.lookup (refId n) = none)
    (hrecords : ∀ r rec, rail'.refs.lookup r = some rec → rail'.Records rec) : rail'.Sound where
  fresh := hfresh
  placed := hu.placed
  records := hrecords
  reached r a ha addr cid p hp := by
    rw [hu.applied] at ha
    rw [hu.funded]
    exact h.reached r a ha addr cid p hp
  conserves := {
    channels addr cid := by
      rw [tally_congr hu.applied, hu.residue, hu.funded]
      exact h.conserves.channels addr cid
    moved addr cid := by
      rw [tally_congr hu.applied, hu.funded]
      exact h.conserves.moved addr cid
    deposits addr := by
      rw [tally_congr hu.applied, tally_congr hu.applied, hu.balance]
      exact h.conserves.deposits addr
    parts r r' a a' hne ha ha' := by
      rw [hu.applied] at ha ha'
      exact h.conserves.parts r r' a a' hne ha ha'
    dues := Sound.dues hrecords }

theorem Undisturbed.of_eq (h : rail.Placed) (hledger : rail'.ledger = rail.ledger)
    (hinst : rail'.instances = rail.instances) (happ : ∀ r, rail'.appliedAt r = rail.appliedAt r) :
    Undisturbed rail rail' where
  balance addr := by rw [AsyncRail.balance, AsyncRail.balance, hledger]
  applied := happ
  funded addr cid := by rw [channelFundedP, channelFundedP, hinst]
  residue addr cid := by rw [channelResidue, channelResidue, hinst]
  grows := .of_instances hinst
  placed addr inst hi := h addr inst (hinst ▸ hi)

/-- Nothing of what matters is different. -/
theorem Sound.same (h : rail.Sound) (hledger : rail'.ledger = rail.ledger)
    (hinst : rail'.instances = rail.instances) (hrefs : rail'.refs = rail.refs)
    (hnext : rail'.nextRef = rail.nextRef) : rail'.Sound := by
  have happ : ∀ r, rail'.appliedAt r = rail.appliedAt r := fun r => by
    rw [appliedAt, appliedAt, hrefs]
  refine h.undisturbed (.of_eq h.placed hledger hinst happ) (fun n hn => ?_) fun r rec hrec => ?_
  · rw [hrefs]
    exact h.fresh n (hnext ▸ hn)
  · exact (Grows.of_instances hinst).records (h.records r rec (hrefs ▸ hrec))

theorem Sound.deployInstance (h : rail.Sound) (seed : ByteArr 32) (meed : List MeedShare) :
    (rail.deployInstance seed meed).Sound := by
  have hlook : ∀ addr, (rail.deployInstance seed meed).instances.lookup addr =
      if addr = deriveAddress seed then
        some ((rail.instances.lookup (deriveAddress seed)).getD (.new meed seed))
      else rail.instances.lookup addr := fun addr => HashMap.lookup_orInsert _ _ _ _
  have hcases : ∀ addr,
      (rail.deployInstance seed meed).instances.lookup addr = rail.instances.lookup addr ∨
      rail.instances.lookup addr = none ∧
        (rail.deployInstance seed meed).instances.lookup addr = some (.new meed seed) := by
    intro addr
    rw [hlook]
    split_ifs with heq
    · rw [heq]
      cases rail.instances.lookup (deriveAddress seed) with
      | none => exact .inr ⟨rfl, rfl⟩
      | some inst => exact .inl rfl
    · exact .inl rfl
  have hu : Undisturbed rail (rail.deployInstance seed meed) := by
    refine ⟨fun _ => rfl, fun _ => rfl, fun addr cid => ?_, fun addr cid => ?_,
      fun addr inst hinst => ?_, fun addr inst hinst => ?_⟩
    · unfold channelFundedP
      obtain heq | ⟨hnone, hnew⟩ := hcases addr
      · rw [heq]
      · rw [hnone, hnew]
        rfl
    · unfold channelResidue
      obtain heq | ⟨hnone, hnew⟩ := hcases addr
      · rw [heq]
      · rw [hnone, hnew]
        rfl
    · obtain heq | ⟨hnone, -⟩ := hcases addr
      · exact ⟨inst, heq.trans hinst, rfl⟩
      · rw [hnone] at hinst
        cases hinst
    · obtain heq | ⟨-, hnew⟩ := hcases addr
      · exact h.placed addr inst (heq ▸ hinst)
      · rw [hnew] at hinst
        cases hinst
        exact fun cid => ⟨0, rfl⟩
  exact h.undisturbed hu h.fresh fun r rec hrec => hu.grows.records (h.records r rec hrec)

theorem Sound.record (h : rail.Sound) {op : Op} (hop : rail.Placeable op) :
    (rail.record op).2.Sound := by
  have hnone := h.fresh rail.nextRef (Nat.le_refl _)
  have hlook : ∀ r, (rail.record op).2.refs.lookup r = if r = refId rail.nextRef then
      some { level := .submitted, op, applied := none, info := none }
      else rail.refs.lookup r := fun r => HashMap.lookup_insert_ite _ _ _ _
  have happ : ∀ r, (rail.record op).2.appliedAt r = rail.appliedAt r := by
    intro r
    rw [appliedAt, appliedAt, hlook]
    split_ifs with heq
    · rw [heq, hnone]
      rfl
    · rfl
  refine h.undisturbed (.of_eq h.placed rfl rfl happ) (fun n hn => ?_) fun r rec hrec => ?_
  · have hlt : rail.nextRef + 1 ≤ n := hn
    rw [hlook, if_neg fun heq => by have := refId_inj heq; omega]
    exact h.fresh n (by omega)
  · rw [hlook] at hrec
    split_ifs at hrec
    · cases hrec
      exact ⟨by simp, hop, nofun⟩
    · exact (@Grows.of_instances rail (rail.record op).2 rfl).records (h.records r rec hrec)

/-- A record that has moved what it had moved before. -/
theorem Sound.setLevel (h : rail.Sound) {r : String} {rec rec' : RefRecord}
    (hrec : rail.refs.lookup r = some rec) (happ : rec'.applied = rec.applied)
    (hop : rec'.op = rec.op)
    (hlevel : rec.applied.isSome = true ↔ rec'.level = .confirmed ∨ rec'.level = .finalized) :
    (rail.setRef r rec').Sound := by
  have hsame : ∀ r', (rail.setRef r rec').appliedAt r' = rail.appliedAt r' := by
    intro r'
    rw [appliedAt_setRef]
    split_ifs with heq
    · rw [heq, appliedAt_of_lookup hrec, happ]
    · rfl
  have hlook : ∀ r', (rail.setRef r rec').refs.lookup r' =
      if r' = r then some rec' else rail.refs.lookup r' :=
    fun r' => HashMap.lookup_insert_ite _ _ _ _
  have hgrows : Grows rail (rail.setRef r rec') := .of_instances rfl
  refine h.undisturbed (.of_eq h.placed rfl rfl hsame) (fun n hn => ?_) fun r' rec'' hrec' => ?_
  · have hfree := h.fresh n hn
    rw [hlook, if_neg fun heq => by rw [heq, hrec] at hfree; cases hfree]
    exact hfree
  · rw [hlook] at hrec'
    split_ifs at hrec'
    · cases hrec'
      have hold := h.records r rec hrec
      refine ⟨?_, ?_, ?_⟩
      · rw [happ]
        exact hlevel
      · rw [hop]
        exact hgrows.placeable hold.placeable
      · rw [happ]
        exact fun a ha => hgrows.holds (hold.holds a ha)
    · exact hgrows.records (h.records r' rec'' hrec')

/-! ### Inclusion -/

/-- A submitted transaction with what its inclusion moved, at the level it is brought to. -/
def RefRecord.included (rec : RefRecord) (level : Level) (a : Applied) (info : RefInfo) :
    RefRecord :=
  { rec with level, applied := some a, info := some info }

section included
variable {after : AsyncRail} {r : String} {rec : RefRecord} {a : Applied} {info : RefInfo}
  {level : Level}

/-- What is there after an inclusion, but for the balances. -/
theorem included_rest (h : rail.Sound) (hrec : rail.refs.lookup r = some rec)
    (hnone : rec.applied = none) (hm : Moves rail after a)
    (hlevel : level = .confirmed ∨ level = .finalized) :
    let s' := after.setRef r (rec.included level a info)
    (∀ f, s'.tally f = rail.tally f + f a) ∧
      (∀ n, s'.nextRef ≤ n → s'.refs.lookup (refId n) = none) ∧
      (∀ r' rec', s'.refs.lookup r' = some rec' → s'.Records rec') ∧
      ∀ r' a', s'.appliedAt r' = some a' →
        r' = r ∧ a' = a ∨ r' ≠ r ∧ rail.appliedAt r' = some a' := by
  have hgrows : Grows rail (after.setRef r (rec.included level a info)) := hm.meeds.grows
  have hlook : ∀ r', (after.setRef r (rec.included level a info)).refs.lookup r' =
      if r' = r then some (rec.included level a info) else rail.refs.lookup r' := by
    intro r'
    rw [← hm.refs]
    exact HashMap.lookup_insert_ite _ _ _ _
  dsimp only
  refine ⟨fun f => ?_, fun n hn => ?_, fun r' rec' hrec' => ?_, fun r' a' ha' => ?_⟩
  · have htally := setRef_tally hm.refs hrec (rec.included level a info) f
    have hzero : rec.on f = 0 := by
      rw [RefRecord.on, hnone]
      rfl
    rw [hzero] at htally
    exact htally
  · have hfree := h.fresh n (hm.nextRef ▸ hn)
    rw [hlook, if_neg fun heq => by rw [heq, hrec] at hfree; cases hfree]
    exact hfree
  · rw [hlook] at hrec'
    split_ifs at hrec'
    · cases hrec'
      refine ⟨⟨fun _ => hlevel, fun _ => rfl⟩,
        hgrows.placeable (h.records r rec hrec).placeable, fun a' ha' => ?_⟩
      cases ha'
      exact hgrows.holds hm.holds
    · exact hgrows.records (h.records r' rec' hrec')
  · rw [appliedAt_setRef] at ha'
    split_ifs at ha' with heq
    · exact .inl ⟨heq, (Option.some.inj ha').symm⟩
    · refine .inr ⟨heq, ?_⟩
      rw [appliedAt, ← hm.refs]
      exact ha'

/-- An inclusion conserves exactly if it is balanced. -/
theorem included_iff (h : rail.Sound) (hrec : rail.refs.lookup r = some rec)
    (hnone : rec.applied = none) (hm : Moves rail after a)
    (hlevel : level = .confirmed ∨ level = .finalized) :
    let s' := after.setRef r (rec.included level a info)
    (s'.Conserves ↔ Balanced rail after a) ∧ (Balanced rail after a → s'.Sound) := by
  obtain ⟨htally, hfresh, hrecords, happ⟩ :=
    @included_rest rail after r rec a info level h hrec hnone hm hlevel
  obtain ⟨hchannels, hmoved, hdeposits, hparts, -⟩ := h.conserves
  dsimp only
  generalize hs' : after.setRef r (rec.included level a info) = s' at *
  have hinst : s'.instances = after.instances := by rw [← hs']; rfl
  have hfunded : ∀ addr cid, s'.channelFundedP addr cid = after.channelFundedP addr cid :=
    fun addr cid => by rw [channelFundedP, channelFundedP, hinst]
  have hbalance : ∀ addr, s'.balance addr = after.balance addr := fun addr => by rw [← hs']; rfl
  have hplaced : s'.Placed := fun addr inst hi => hm.placed addr inst (hinst ▸ hi)
  have hmeeds : SameMeeds rail s' := fun addr => by
    rw [hinst]
    exact hm.meeds addr
  have hup : ∀ addr cid, rail.channelFundedP addr cid ≤ after.channelFundedP addr cid :=
    fun addr cid => by
      rw [hm.funded]
      exact Nat.le_add_right _ _
  have hreached : ∀ r' a', s'.appliedAt r' = some a' → ∀ addr cid, ∀ p ∈ a'.part addr cid,
      p ≤ s'.channelFundedP addr cid := by
    intro r' a' ha' addr cid p hp
    rw [hfunded]
    obtain ⟨-, rfl⟩ | ⟨-, hold⟩ := happ r' a' ha'
    · rw [hm.part, Finset.mem_Ioc] at hp
      exact hp.2
    · exact (h.reached r' a' hold addr cid p hp).trans (hup addr cid)
  -- what is paid for now lies beyond what was paid for before
  have hbeyond : ∀ r' a', rail.appliedAt r' = some a' → ∀ addr cid,
      Disjoint (a.part addr cid) (a'.part addr cid) := by
    intro r' a' ha' addr cid
    rw [Finset.disjoint_left, hm.part]
    intro p hp hp'
    have := h.reached r' a' ha' addr cid p hp'
    have := (Finset.mem_Ioc.1 hp).1
    omega
  have hconserves : Balanced rail after a → s'.Conserves := by
    intro hbal
    refine ⟨fun addr cid => ?_, fun addr cid => ?_, fun addr => ?_,
      fun r₁ r₂ a₁ a₂ hne h₁ h₂ addr cid => ?_, Sound.dues hrecords⟩
    · have hres := hplaced.residue addr cid
      have hres' := h.placed.residue addr cid
      have hold := hchannels addr cid
      have hfloors := hm.floors addr cid
      rw [hmeeds.floorsAt] at hres
      rw [htally]
      rw [hfunded] at hres ⊢
      omega
    · rw [htally, hfunded, hm.funded, hmoved]
    · have hold := hdeposits addr
      have hnew := hbal addr
      rw [htally, htally, hbalance]
      omega
    · obtain ⟨rfl, rfl⟩ | ⟨hr₁, h₁⟩ := happ r₁ a₁ h₁
      · obtain ⟨rfl, -⟩ | ⟨-, h₂⟩ := happ r₂ a₂ h₂
        · exact absurd rfl hne
        · exact hbeyond r₂ a₂ h₂ addr cid
      · obtain ⟨-, rfl⟩ | ⟨-, h₂⟩ := happ r₂ a₂ h₂
        · exact (hbeyond r₁ a₁ h₁ addr cid).symm
        · exact hparts r₁ r₂ a₁ a₂ hne h₁ h₂ addr cid
  refine ⟨⟨fun hc addr => ?_, hconserves⟩,
    fun hbal => ⟨hfresh, hplaced, hrecords, hreached, hconserves hbal⟩⟩
  have hnew := hc.deposits addr
  have hold := hdeposits addr
  rw [htally, htally, hbalance] at hnew
  omega

end included

/-! ### Reorganisation -/

/-- A transaction that was taken away. -/
def RefRecord.takenAway (rec : RefRecord) : RefRecord :=
  { rec with level := .dropped, applied := none, info := none }

section takenAway
variable {after : AsyncRail} {r : String} {rec : RefRecord} {a : Applied}

/-- What is there after a reorganisation, but for the balances. -/
theorem takenAway_rest (h : rail.Sound) (hrec : rail.refs.lookup r = some rec)
    (hsome : rec.applied = some a) (hr : Reverts rail after a) :
    let s' := after.setRef r rec.takenAway
    (∀ f, s'.tally f + f a = rail.tally f) ∧
      (∀ n, s'.nextRef ≤ n → s'.refs.lookup (refId n) = none) ∧
      (∀ r' rec', s'.refs.lookup r' = some rec' → s'.Records rec') ∧
      ∀ r' a', s'.appliedAt r' = some a' → r' ≠ r ∧ rail.appliedAt r' = some a' := by
  have hgrows : Grows rail (after.setRef r rec.takenAway) := hr.meeds.grows
  have hlook : ∀ r', (after.setRef r rec.takenAway).refs.lookup r' =
      if r' = r then some rec.takenAway else rail.refs.lookup r' := by
    intro r'
    rw [← hr.refs]
    exact HashMap.lookup_insert_ite _ _ _ _
  dsimp only
  refine ⟨fun f => ?_, fun n hn => ?_, fun r' rec' hrec' => ?_, fun r' a' ha' => ?_⟩
  · have htally := setRef_tally hr.refs hrec rec.takenAway f
    have hon : rec.on f = f a := by
      rw [RefRecord.on, hsome]
      rfl
    rw [hon] at htally
    exact htally
  · have hfree := h.fresh n (hr.nextRef ▸ hn)
    rw [hlook, if_neg fun heq => by rw [heq, hrec] at hfree; cases hfree]
    exact hfree
  · rw [hlook] at hrec'
    split_ifs at hrec'
    · cases hrec'
      exact ⟨by simp [RefRecord.takenAway], hgrows.placeable (h.records r rec hrec).placeable,
        nofun⟩
    · exact hgrows.records (h.records r' rec' hrec')
  · rw [appliedAt_setRef] at ha'
    split_ifs at ha' with heq
    · cases ha'
    · refine ⟨heq, ?_⟩
      rw [appliedAt, ← hr.refs]
      exact ha'

/-- A reorganisation conserves exactly if what it takes away can be undone. -/
theorem takenAway_iff (h : rail.Sound) (hrec : rail.refs.lookup r = some rec)
    (hsome : rec.applied = some a) (hr : Reverts rail after a) :
    let s' := after.setRef r rec.takenAway
    (s'.Conserves ↔ rail.Undoable a) ∧ (rail.Undoable a → s'.Sound) := by
  obtain ⟨htally, hfresh, hrecords, happ⟩ := takenAway_rest h hrec hsome hr
  obtain ⟨hchannels, hmoved, hdeposits, hparts, -⟩ := h.conserves
  have hthis : rail.appliedAt r = some a := (appliedAt_of_lookup hrec).trans hsome
  rw [hr.undoable]
  dsimp only
  generalize hs' : after.setRef r rec.takenAway = s' at *
  have hinst : s'.instances = after.instances := by rw [← hs']; rfl
  have hfunded : ∀ addr cid, s'.channelFundedP addr cid = after.channelFundedP addr cid :=
    fun addr cid => by rw [channelFundedP, channelFundedP, hinst]
  have hbalance : ∀ addr, s'.balance addr = after.balance addr := fun addr => by rw [← hs']; rfl
  have hplaced : s'.Placed := fun addr inst hi => hr.placed addr inst (hinst ▸ hi)
  have hmeeds : SameMeeds rail s' := fun addr => by
    rw [hinst]
    exact hr.meeds addr
  have hconserves : (∀ addr, a.credits addr ≤ rail.balance addr) →
      (∀ addr cid, rail.channelFundedP addr cid =
        after.channelFundedP addr cid + a.movedOn addr cid) → s'.Conserves := by
    intro hthere hat
    refine ⟨fun addr cid => ?_, fun addr cid => ?_, fun addr => ?_,
      fun r₁ r₂ a₁ a₂ hne h₁ h₂ => hparts r₁ r₂ a₁ a₂ hne (happ r₁ a₁ h₁).2 (happ r₂ a₂ h₂).2,
      Sound.dues hrecords⟩
    · have hres := hplaced.residue addr cid
      have hres' := h.placed.residue addr cid
      have hold := hchannels addr cid
      have hfloors := hr.floors addr cid
      have hless := htally (Applied.paidOn addr cid)
      rw [hmeeds.floorsAt] at hres
      rw [← hat] at hfloors
      rw [hfunded] at hres ⊢
      omega
    · have hold := hmoved addr cid
      have hless := htally (Applied.movedOn addr cid)
      rw [hat] at hold
      rw [hfunded]
      omega
    · have hold := hdeposits addr
      have hpaid := htally (Applied.credits · addr)
      have htaken := htally (Applied.debits · addr)
      have hle := hthere addr
      rw [hbalance, hr.balance]
      omega
  have hreached : (∀ addr cid, rail.channelFundedP addr cid =
      after.channelFundedP addr cid + a.movedOn addr cid) → ∀ r' a', s'.appliedAt r' = some a' →
      ∀ addr cid, ∀ p ∈ a'.part addr cid, p ≤ s'.channelFundedP addr cid := by
    intro hat r' a' ha' addr cid p hp
    obtain ⟨hne, ha'⟩ := happ r' a' ha'
    have hle := h.reached r' a' ha' addr cid p hp
    -- it was reached, and not by what is taken away
    have hnot : p ∉ a.part addr cid :=
      Finset.disjoint_left.1 (hparts r' r a' a hne ha' hthis addr cid) hp
    rw [hr.part, Finset.mem_Ioc, ← hat] at hnot
    rw [hfunded]
    omega
  refine ⟨⟨fun hc => ⟨fun addr => ?_, fun addr cid => ?_⟩, fun hu => hconserves hu.1 hu.2⟩,
    fun hu => ⟨hfresh, hplaced, hrecords, hreached hu.2, hconserves hu.1 hu.2⟩⟩
  · have hnew := hc.deposits addr
    have hold := hdeposits addr
    have hpaid := htally (Applied.credits · addr)
    have htaken := htally (Applied.debits · addr)
    rw [hbalance, hr.balance] at hnew
    omega
  · have hnew := hc.moved addr cid
    have hold := hmoved addr cid
    have hless := htally (Applied.movedOn addr cid)
    rw [hfunded] at hnew
    omega

end takenAway

/-! ### Steps -/

/-- A step conserves exactly if `ok`, which keeps the invariant, and what is final stays. -/
structure ConservesIff (rail rail' : AsyncRail) (ok : Prop) : Prop where
  iff : rail'.Conserves ↔ ok
  keeps : ok → rail'.Sound
  final : Irrevocable rail rail'

theorem ConservesIff.of_sound {ok : Prop} (hok : ok) (hsound : rail'.Sound)
    (hfinal : Irrevocable rail rail') : ConservesIff rail rail' ok :=
  ⟨⟨fun _ => hok, fun _ => hsound.conserves⟩, fun _ => hsound, hfinal⟩

theorem Irrevocable.of_refs (h : rail'.refs = rail.refs) : Irrevocable rail rail' :=
  fun r rec hrec _ => by rw [h]; exact hrec

theorem Irrevocable.setRef {after : AsyncRail} (hrefs : after.refs = rail.refs) {r : String}
    (hopen : ∀ rec ∈ rail.refs.lookup r, rec.level ≠ .finalized) (rec' : RefRecord) :
    Irrevocable rail (after.setRef r rec') := by
  intro r' rec hrec hfinal
  have hne : r' ≠ r := fun heq => hopen rec (heq ▸ hrec) hfinal
  rw [← hrefs] at hrec
  exact (Finmap.lookup_insert_of_ne _ hne).trans hrec

theorem Sound.record_final (h : rail.Sound) (op : Op) : Irrevocable rail (rail.record op).2 := by
  have hnone := h.fresh rail.nextRef (Nat.le_refl _)
  intro r rec hrec _
  have hne : r ≠ refId rail.nextRef := fun heq => by
    rw [heq, hnone] at hrec
    cases hrec
  exact (Finmap.lookup_insert_of_ne _ hne).trans hrec

/-- A step that records at most an operation. -/
def Submits (rail rail' : AsyncRail) : Prop := rail'.Sound ∧ Irrevocable rail rail'

theorem Submits.refl (h : rail.Sound) : Submits rail rail := ⟨h, .of_refs rfl⟩

theorem Sound.submits (h : rail.Sound) {op : Op} (hop : rail.Placeable op) :
    Submits rail (rail.record op).2 := ⟨h.record hop, h.record_final op⟩

theorem releaseLocked_submits (h : rail.Sound) (source dest asset : String) {amount : ℕ}
    (hmax : amount ≤ U128_MAX) : Submits rail (rail.releaseLocked source dest asset amount).2 := by
  unfold releaseLocked
  split_ifs
  · exact .refl h
  · exact .refl h
  · exact h.submits hmax

theorem submit_submits (h : rail.Sound) {transfer : Transfer} (hmax : transfer.amount ≤ U128_MAX) :
    Submits rail (rail.submit transfer).2 := by
  unfold submit
  split_ifs
  · exact .refl h
  · exact @Sound.submits rail h (plainOf transfer) hmax

theorem settle_submits (h : rail.Sound) {transfer : Transfer} (hmax : transfer.amount ≤ U128_MAX)
    (settleId : ByteArr 32) : Submits rail (rail.settle transfer settleId).2 := by
  unfold settle
  split
  · exact .refl h
  · split_ifs
    · exact .refl h
    · obtain ⟨hsound, hfinal⟩ := @Sound.submits rail h (plainOf transfer) hmax
      exact ⟨hsound.same rfl rfl rfl rfl, hfinal⟩

theorem releaseKeyed_submits (h : rail.Sound) (cid : ByteArr 8) (ckptRef : ByteArr 32)
    (source dest asset : String) {amount : ℕ} (hmax : amount ≤ U128_MAX) :
    Submits rail (rail.releaseKeyed cid ckptRef source dest asset amount).2 := by
  obtain ⟨hsound, hfinal⟩ := releaseLocked_submits h source dest asset hmax
  unfold releaseKeyed
  split
  · exact .refl h
  · split
    · rename_i hres
      rw [hres] at hsound hfinal
      exact ⟨hsound.same rfl rfl rfl rfl, hfinal⟩
    · rename_i hres
      rw [hres] at hsound hfinal
      exact ⟨hsound, hfinal⟩

theorem advanceChannelMeed_submits (h : rail.Sound) (source : Option String) (addr : String)
    (cid : ByteArr 8) {targetP : ℕ} (asset : String) (hmax : targetP ≤ U128_MAX) :
    Submits rail (rail.advanceChannelMeed source addr cid targetP asset).2 := by
  unfold advanceChannelMeed
  split_ifs
  · exact .refl h
  · split
    · exact .refl h
    · rename_i inst hinst
      dsimp only
      split_ifs
      · exact .refl h
      · exact h.submits ⟨hmax, by rw [hinst]; rfl⟩

theorem Sound.unmoved (h : rail.Sound) {r : String} {rec : RefRecord}
    (hrec : rail.refs.lookup r = some rec) (hlevel : rec.level = .submitted) :
    rec.applied = none := by
  have hmoved := (h.records r rec hrec).moved
  rw [hlevel] at hmoved
  simpa using hmoved

/-- A submitted transaction that is included, at the level it is brought to. -/
theorem confirm_included (h : rail.Sound) {r : String} {rec : RefRecord}
    (hrec : rail.refs.lookup r = some rec) (hlevel : rec.level = .submitted) :
    ∃ (a : Applied) (info : RefInfo) (after : AsyncRail),
      rail.confirm r = after.setRef r (rec.included .confirmed a info) ∧
      ∀ level, level = .confirmed ∨ level = .finalized →
        ConservesIff rail (after.setRef r (rec.included level a info)) (rail.Covered rec.op) := by
  obtain ⟨a, info, after, happly, hm, hcovered⟩ :=
    apply_moves h.placed (h.records r rec hrec).placeable
  refine ⟨a, { info with canonical := r }, after, ?_, fun level hl => ?_⟩
  · unfold confirm
    rw [hrec]
    dsimp only
    rw [if_pos hlevel, happly]
    rfl
  · obtain ⟨hiff, hkeeps⟩ := @included_iff rail after r rec a { info with canonical := r } level h
      hrec (h.unmoved hrec hlevel) hm hl
    refine ⟨hiff.trans hcovered.symm, fun hc => hkeeps (hcovered.1 hc), .setRef hm.refs ?_ _⟩
    intro rec' hrec'
    rw [hrec] at hrec'
    cases hrec'
    rw [hlevel]
    exact nofun

theorem confirm_iff (h : rail.Sound) (r : String) :
    ConservesIff rail (rail.confirm r) (Clean rail (.confirm r)) := by
  cases hrec : rail.refs.lookup r with
  | none =>
    have hsame : rail.confirm r = rail := by rw [confirm, hrec]
    rw [hsame]
    exact .of_sound (fun rec hr => by rw [hrec] at hr; cases hr) h (.of_refs rfl)
  | some rec =>
    by_cases hlevel : rec.level = .submitted
    · obtain ⟨a, info, after, hconfirm, hall⟩ := confirm_included h hrec hlevel
      have hclean : Clean rail (.confirm r) ↔ rail.Covered rec.op := by
        simp [Clean, hrec, hlevel]
      rw [hconfirm, hclean]
      exact hall .confirmed (.inl rfl)
    · have hsame : rail.confirm r = rail := by
        rw [confirm, hrec]
        exact if_neg hlevel
      rw [hsame]
      exact .of_sound (fun rec' hr => by
        rw [hrec] at hr
        cases hr
        exact fun hl => absurd hl hlevel) h (.of_refs rfl)

theorem finalize_iff (h : rail.Sound) (r : String) :
    ConservesIff rail (rail.finalize r) (Clean rail (.finalize r)) := by
  have hquiet : ∀ rec, rail.refs.lookup r = some rec → rec.level ≠ .submitted →
      Clean rail (.finalize r) := fun rec hrec hlevel rec' hrec' hsub => by
    rw [hrec] at hrec'
    cases hrec'
    exact absurd hsub hlevel
  unfold finalize
  cases hrec : rail.refs.lookup r with
  | none => exact .of_sound (fun rec hr => by rw [hrec] at hr; cases hr) h (.of_refs rfl)
  | some rec =>
    dsimp only [Option.map_some]
    cases hlevel : rec.level with
    | submitted =>
      obtain ⟨a, info, after, hconfirm, hall⟩ := confirm_included h hrec hlevel
      have hclean : Clean rail (.finalize r) ↔ rail.Covered rec.op := by
        simp [Clean, hrec, hlevel]
      have hfinal : (rail.confirm r).settleLevel r =
          after.setRef r (rec.included .finalized a info) := by
        have hlook : (after.setRef r (rec.included .confirmed a info)).refs.lookup r =
            some (rec.included .confirmed a info) := Finmap.lookup_insert _
        have hlevel' : (rec.included .confirmed a info).level = .confirmed := rfl
        rw [hconfirm, settleLevel, hlook]
        dsimp only
        rw [if_pos hlevel', setRef, setRef, setRef]
        exact congrArg (fun refs => { after with refs }) (Finmap.insert_insert _)
      dsimp only
      rw [hfinal, hclean]
      exact hall .finalized (.inr rfl)
    | confirmed =>
      have hsettle : rail.settleLevel r = rail.setRef r { rec with level := .finalized } := by
        rw [settleLevel, hrec]
        exact if_pos hlevel
      have hmoved := (h.records r rec hrec).moved
      have hopen : ∀ rec' ∈ rail.refs.lookup r, rec'.level ≠ .finalized := fun rec' hr => by
        rw [hrec] at hr
        cases hr
        rw [hlevel]
        exact nofun
      dsimp only
      rw [hsettle]
      refine .of_sound (hquiet rec hrec (by rw [hlevel]; exact nofun))
        (h.setLevel hrec rfl rfl ?_) (.setRef rfl hopen _)
      rw [hmoved, hlevel]
      simp
    | finalized =>
      exact .of_sound (hquiet rec hrec (by rw [hlevel]; exact nofun)) h (.of_refs rfl)
    | dropped =>
      exact .of_sound (hquiet rec hrec (by rw [hlevel]; exact nofun)) h (.of_refs rfl)

/-- A submitted transaction that is dropped has moved nothing. -/
theorem Sound.drop (h : rail.Sound) {r : String} {rec : RefRecord}
    (hrec : rail.refs.lookup r = some rec) (hlevel : rec.level = .submitted) :
    (rail.setRef r { rec with level := .dropped }).Sound ∧
      Irrevocable rail (rail.setRef r { rec with level := .dropped }) := by
  have hnone := h.unmoved hrec hlevel
  refine ⟨h.setLevel hrec rfl rfl (by simp [hnone]), .setRef rfl (fun rec' hr => ?_) _⟩
  rw [hrec] at hr
  cases hr
  rw [hlevel]
  exact nofun

theorem dropTx_sound (h : rail.Sound) (r : String) :
    (rail.dropTx r).Sound ∧ Irrevocable rail (rail.dropTx r) := by
  unfold dropTx
  cases hrec : rail.refs.lookup r with
  | none => exact ⟨h, .of_refs rfl⟩
  | some rec =>
    dsimp only
    split_ifs with hlevel
    · exact h.drop hrec hlevel
    · exact ⟨h, .of_refs rfl⟩

theorem reorg_iff (h : rail.Sound) (r : String) :
    ConservesIff rail (rail.reorg r).2 (Clean rail (.reorg r)) := by
  have hquiet : ∀ rec, rail.refs.lookup r = some rec → rec.level ≠ .confirmed →
      Clean rail (.reorg r) := fun rec hrec hlevel rec' hrec' hconf => by
    rw [hrec] at hrec'
    cases hrec'
    exact absurd hconf hlevel
  unfold reorg
  cases hrec : rail.refs.lookup r with
  | none => exact .of_sound (fun rec hr => by rw [hrec] at hr; cases hr) h (.of_refs rfl)
  | some rec =>
    dsimp only
    cases hlevel : rec.level with
    | submitted =>
      obtain ⟨hsound, hfinal⟩ := h.drop hrec hlevel
      exact .of_sound (hquiet rec hrec (by rw [hlevel]; exact nofun)) hsound hfinal
    | confirmed =>
      have hrecords := h.records r rec hrec
      obtain ⟨a, ha⟩ := Option.isSome_iff_exists.1 (hrecords.moved.2 (.inl hlevel))
      have hr := revert_reverts h.placed (hrecords.holds a ha)
      obtain ⟨hiff, hkeeps⟩ := takenAway_iff h hrec ha hr
      have hclean : Clean rail (.reorg r) ↔ rail.Undoable a := by
        simp [Clean, hrec, hlevel, ha]
      have hopen : ∀ rec' ∈ rail.refs.lookup r, rec'.level ≠ .finalized := fun rec' hl => by
        rw [hrec] at hl
        cases hl
        rw [hlevel]
        exact nofun
      dsimp only
      rw [ha, hclean]
      exact ⟨hiff, hkeeps, .setRef hr.refs hopen _⟩
    | finalized =>
      exact .of_sound (hquiet rec hrec (by rw [hlevel]; exact nofun)) h (.of_refs rfl)
    | dropped =>
      exact .of_sound (hquiet rec hrec (by rw [hlevel]; exact nofun)) h (.of_refs rfl)

/-- What a step must meet for value to be conserved, and what is final stays anyway. -/
theorem step_iff (h : rail.Sound) {e : Event} (ht : e.Typed) :
    ConservesIff rail (step rail e).1 (Clean rail e) := by
  have hsubmits : ∀ {rail' : AsyncRail} {ok : Prop}, ok → Submits rail rail' →
      ConservesIff rail rail' ok := fun hok hs => .of_sound hok hs.1 hs.2
  cases e with
  | advanceClock secs => exact .of_sound trivial (h.same rfl rfl rfl rfl) (.of_refs rfl)
  | setOutage on => exact .of_sound trivial (h.same rfl rfl rfl rfl) (.of_refs rfl)
  | deployInstance seed meed => exact .of_sound trivial (h.deployInstance seed meed) (.of_refs rfl)
  | submit transfer => exact hsubmits trivial (submit_submits h ht)
  | settle transfer settleId => exact hsubmits trivial (settle_submits h ht settleId)
  | release source dest asset amount =>
    exact hsubmits trivial (releaseLocked_submits h source dest asset ht)
  | releaseKeyed channelId ckptRef source dest asset amount =>
    exact hsubmits trivial (releaseKeyed_submits h channelId ckptRef source dest asset ht)
  | advanceChannelMeed source addr channelId targetP asset =>
    exact hsubmits trivial (advanceChannelMeed_submits h source addr channelId asset ht)
  | confirm r => exact confirm_iff h r
  | finalize r => exact finalize_iff h r
  | reorg r => exact reorg_iff h r
  | dropTx r => exact .of_sound trivial (dropTx_sound h r).1 (dropTx_sound h r).2

theorem new_sound : new.Sound where
  fresh _ _ := rfl
  placed _ _ h := nomatch h
  records _ _ h := nomatch h
  reached _ _ h := nomatch h
  conserves := ⟨fun _ _ => rfl, fun _ _ => rfl, fun _ => rfl, fun _ _ _ _ _ h => (nomatch h),
    fun _ _ _ _ _ _ _ h => (nomatch h)⟩

end invariant

/-! ## Runs -/

/-- In any interleaving, every step conserves value and leaves what is final as it is, exactly if
every inclusion is covered and every reorganisation can be undone. -/
theorem reorgs_conserve (es : List Event) (h : ∀ e ∈ es, e.Typed) :
    Along step (fun s e => (step s e).1.Conserves ∧ Irrevocable s (step s e).1) new es ↔
      Along step Clean new es := by
  have hfree : ∀ s, Along step (fun _ e => e.Typed) s es := by
    induction es with
    | nil => exact fun _ => trivial
    | cons e es ih =>
      obtain ⟨he, hes⟩ := List.forall_mem_cons.1 h
      exact fun s => ⟨he, ih hes _⟩
  refine along_iff (I := Sound) (fun s e hs ht hok => (step_iff hs ht).keeps hok)
    (fun s e hs ht => ?_) new es new_sound (hfree new)
  have hstep := step_iff hs ht
  exact (and_iff_left hstep.final).trans hstep.iff

/-! ### Two advances of one channel -/

def twoAdvances : List Event :=
  [.deployInstance (.ofNat 32 0x77) [⟨"il", 50⟩, ⟨"wallet", 30⟩, ⟨"fund", 20⟩],
    .submit { dest := "settle-ptr", asset := "virt-usd", amount := 10000, memo := none },
    .finalize "async-ref:0",
    .advanceChannelMeed (some "settle-ptr") (deriveAddress (.ofNat 32 0x77)) (.ofNat 8 7) 4000
      "virt-usd",
    .advanceChannelMeed (some "settle-ptr") (deriveAddress (.ofNat 32 0x77)) (.ofNat 8 7) 6000
      "virt-usd",
    .confirm "async-ref:1", .confirm "async-ref:2"]

theorem twoAdvances_typed : ∀ e ∈ twoAdvances, e.Typed := by
  simp [twoAdvances, Event.Typed, U128_MAX]

/-- The later advance is taken away before the one that it builds on. -/
theorem reorgs_conserve_twoAdvances :
    Along step (fun s e => (step s e).1.Conserves ∧ Irrevocable s (step s e).1) new
      (twoAdvances ++ [.reorg "async-ref:2", .reorg "async-ref:1"]) :=
  (reorgs_conserve _ fun e he => by
    rcases List.mem_append.1 he with he | he
    · exact twoAdvances_typed e he
    · simp only [List.mem_cons, List.not_mem_nil, or_false] at he
      rcases he with rfl | rfl <;> trivial).2 (by decide +kernel)

/-- The earlier advance is taken away, and the watermark with it. What the later one paid is paid
for no part of a watermark. -/
theorem reorg_forgets_advance :
    ¬∀ es : List Event, (∀ e ∈ es, e.Typed) → (exec step new es).Conserves := by
  intro h
  have hmoved := (h (twoAdvances ++ [.reorg "async-ref:1"]) fun e he => by
    rcases List.mem_append.1 he with he | he
    · exact twoAdvances_typed e he
    · rw [List.mem_singleton.1 he]
      trivial).moved (deriveAddress (.ofNat 32 0x77)) (.ofNat 8 7)
  revert hmoved
  decide +kernel

end AsyncRail

end Paytp
