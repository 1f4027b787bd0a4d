import Paytp.EntryRail
import Paytp.Proofs.Conservation

/-!
# What the rail recorded stays

Whatever anybody does on the rail, a reference keeps the transfer that it was recorded for and the
time of it, a settle id keeps its reference, and the clock does not run back. An entry keeps its
terms, and moves along from one state to another until it is settled.
-/

namespace Paytp

open Attest Kit

namespace VirtualRail

def refId (n : ℕ) : String := "virt-ref:" ++ toString n

theorem refId_inj {m n : ℕ} (h : refId m = refId n) : m = n := by
  have hdigits : toString m = toString n := (String.append_right_inj _).1 h
  rw [Nat.toString_eq_ofList_toDigits, Nat.toString_eq_ofList_toDigits,
    String.ofList_inj] at hdigits
  rw [← @Nat.ofDigitChars_ten_toDigits m, hdigits, Nat.ofDigitChars_ten_toDigits]

/-- The next references are not taken, and what is recorded has its own reference. -/
structure Fresh (rail : VirtualRail) : Prop where
  next : ∀ n, rail.nextRef ≤ n → rail.refs.lookup (refId n) = none
  canonical : ∀ r x, rail.refs.lookup r = some x → x.2.canonical = r

/-- A later state of the rail. -/
structure Later (rail rail' : VirtualRail) : Prop where
  clock : rail.clock ≤ rail'.clock
  delay : rail'.finalityDelay = rail.finalityDelay
  nextRef : rail.nextRef ≤ rail'.nextRef
  fresh : rail.Fresh → rail'.Fresh
  refs : rail.Fresh → ∀ r x, rail.refs.lookup r = some x → rail'.refs.lookup r = some x
  settleIds : ∀ id r, rail.settleIds.lookup id = some r → rail'.settleIds.lookup id = some r

variable {rail rail' rail'' : VirtualRail}

theorem new_fresh (finalityDelay : ℕ) : (new finalityDelay).Fresh := by
  refine ⟨fun _ _ => rfl, fun r x hx => ?_⟩
  rw [show (new finalityDelay).refs.lookup r = none from rfl] at hx
  cases hx

namespace Later

theorem refl (rail : VirtualRail) : rail.Later rail :=
  ⟨le_rfl, rfl, le_rfl, id, fun _ _ _ => id, fun _ _ => id⟩

theorem trans (h : rail.Later rail') (h' : rail'.Later rail'') : rail.Later rail'' where
  clock := h.clock.trans h'.clock
  delay := h'.delay.trans h.delay
  nextRef := h.nextRef.trans h'.nextRef
  fresh hf := h'.fresh (h.fresh hf)
  refs hf r x hr := h'.refs (h.fresh hf) r x (h.refs hf r x hr)
  settleIds id r hid := h'.settleIds id r (h.settleIds id r hid)

end Later

/-- The references, the settle ids and the clock are what they were. -/
structure SameRefs (rail rail' : VirtualRail) : Prop where
  clock : rail'.clock = rail.clock
  delay : rail'.finalityDelay = rail.finalityDelay
  nextRef : rail'.nextRef = rail.nextRef
  refs : rail'.refs = rail.refs
  settleIds : rail'.settleIds = rail.settleIds

namespace SameRefs

theorem refl (rail : VirtualRail) : rail.SameRefs rail := ⟨rfl, rfl, rfl, rfl, rfl⟩

theorem trans (h : rail.SameRefs rail') (h' : rail'.SameRefs rail'') : rail.SameRefs rail'' :=
  ⟨h'.clock.trans h.clock, h'.delay.trans h.delay, h'.nextRef.trans h.nextRef,
    h'.refs.trans h.refs, h'.settleIds.trans h.settleIds⟩

theorem later (h : rail.SameRefs rail') : rail.Later rail' where
  clock := h.clock.ge
  delay := h.delay
  nextRef := h.nextRef.ge
  fresh hf := by
    refine ⟨fun n hn => ?_, fun r x hx => ?_⟩
    · rw [h.refs]
      exact hf.next n (h.nextRef ▸ hn)
    · rw [h.refs] at hx
      exact hf.canonical r x hx
  refs _ r x hr := by rw [h.refs, hr]
  settleIds id r hid := by rw [h.settleIds, hid]

end SameRefs

theorem applyPayouts_sameRefs : ∀ (payouts : List Payout) (rail : VirtualRail),
    rail.SameRefs (rail.applyPayouts payouts)
  | [], rail => .refl rail
  | p :: payouts, rail => by
    obtain ⟨hclock, hdelay, hnext, hrefs, hids⟩ :=
      applyPayouts_sameRefs payouts (rail.credit p.dest p.amount)
    exact ⟨hclock, hdelay, hnext, hrefs, hids⟩

/-- The next reference is recorded. -/
theorem recordRef_refs (rail : VirtualRail) (info : RefInfo) (r : String) :
    (rail.recordRef info).2.refs.lookup r = if r = refId rail.nextRef then
      some (rail.clock, { info with canonical := refId rail.nextRef }) else rail.refs.lookup r :=
  HashMap.lookup_insert_ite _ _ _ _

theorem recordRef_later (rail : VirtualRail) (info : RefInfo) :
    rail.Later (rail.recordRef info).2 where
  clock := le_rfl
  delay := rfl
  nextRef := Nat.le_succ _
  fresh hf := by
    refine ⟨fun n hn => ?_, fun r x hx => ?_⟩
    · have hlt : rail.nextRef + 1 ≤ n := hn
      rw [recordRef_refs, if_neg fun heq => by have := refId_inj heq; omega]
      exact hf.next n (by omega)
    · rw [recordRef_refs] at hx
      split_ifs at hx with hr
      · obtain rfl := Option.some.inj hx
        exact hr.symm
      · exact hf.canonical r x hx
  refs hf r x hr := by
    have hne : r ≠ refId rail.nextRef := by
      rintro rfl
      rw [hf.next _ le_rfl] at hr
      cases hr
    rw [recordRef_refs, if_neg hne, hr]
  settleIds _ _ := id

theorem SameRefs.record (h : rail.SameRefs rail') (info : RefInfo) :
    rail.Later (rail'.recordRef info).2 := h.later.trans (recordRef_later rail' info)

theorem recordPayment_later (rail : VirtualRail) (transfer : Transfer) :
    rail.Later (rail.recordPayment transfer).2 := by
  obtain ⟨paid, hpays, heq⟩ | ⟨e, heq⟩ := rail.recordPayment_cases transfer <;> rw [heq]
  · obtain ⟨ledger, splits, rfl⟩ := hpays.kept
    have hsame : rail.SameRefs { rail with ledger := ledger, splits := splits } :=
      ⟨rfl, rfl, rfl, rfl, rfl⟩
    exact hsame.record _
  · exact .refl rail

theorem submit_later (rail : VirtualRail) (transfer : Transfer) :
    rail.Later (rail.submit transfer).2 := by
  unfold submit
  split_ifs
  · exact .refl rail
  · exact recordPayment_later rail transfer

theorem settle_later (rail : VirtualRail) (transfer : Transfer) (settleId : ByteArr 32) :
    rail.Later (rail.settle transfer settleId).2 := by
  have hpay := rail.recordPayment_later transfer
  unfold settle
  rcases hid : rail.settleIds.lookup settleId with _ | existing
  · dsimp only
    split_ifs
    · exact .refl rail
    · rcases hafter : rail.recordPayment transfer with ⟨e | r, after⟩ <;> rw [hafter] at hpay
      · exact hpay
      · refine ⟨hpay.clock, hpay.delay, hpay.nextRef,
          fun hf => ⟨(hpay.fresh hf).next, (hpay.fresh hf).canonical⟩, hpay.refs,
          fun id r' hr => ?_⟩
        have hne : id ≠ settleId := by
          rintro rfl
          rw [hid] at hr
          cases hr
        show (after.settleIds.insert settleId r).lookup id = some r'
        rw [HashMap.lookup_insert_ite, if_neg hne]
        exact hpay.settleIds id r' hr
  · exact .refl rail

theorem releaseLocked_later (rail : VirtualRail) (source dest asset : String) (amount : ℕ) :
    rail.Later (rail.releaseLocked source dest asset amount).2 := by
  unfold releaseLocked
  split_ifs
  · exact .refl rail
  · exact .refl rail
  · show rail.Later (((rail.debit source amount).credit dest amount).recordRef _).2
    refine SameRefs.record ?_ _
    exact ⟨rfl, rfl, rfl, rfl, rfl⟩

theorem releaseKeyed_later (rail : VirtualRail) (cid : ByteArr 8) (ckptRef : ByteArr 32)
    (source dest asset : String) (amount : ℕ) :
    rail.Later (rail.releaseKeyed cid ckptRef source dest asset amount).2 := by
  have hrelease := rail.releaseLocked_later source dest asset amount
  unfold releaseKeyed
  rcases rail.releaseKeys.lookup (cid, ckptRef) with _ | existing
  · rcases hafter : rail.releaseLocked source dest asset amount with ⟨e | r, after⟩ <;>
      rw [hafter] at hrelease
    · exact hrelease
    · refine hrelease.trans (SameRefs.later ?_)
      exact ⟨rfl, rfl, rfl, rfl, rfl⟩
  · exact .refl rail

theorem advanceChannelMeed_later (rail : VirtualRail) (source : Option String) (addr : String)
    (cid : ByteArr 8) (target : ℕ) (asset : String) :
    rail.Later (rail.advanceChannelMeed source addr cid target asset).2 := by
  unfold advanceChannelMeed
  split_ifs
  · exact .refl rail
  · rcases rail.instances.lookup addr with _ | inst
    · exact .refl rail
    · have hpaid : ∀ mid payouts info, rail.SameRefs mid →
          rail.Later ((mid.applyPayouts payouts).recordRef info).2 := fun mid payouts info hmid =>
        (hmid.trans (applyPayouts_sameRefs payouts mid)).record info
      rcases source with _ | src
      · exact hpaid _ _ _ ⟨rfl, rfl, rfl, rfl, rfl⟩
      · dsimp only
        split_ifs
        · exact .refl rail
        · exact hpaid _ _ _ ⟨rfl, rfl, rfl, rfl, rfl⟩
        · exact hpaid _ _ _ ⟨rfl, rfl, rfl, rfl, rfl⟩

end VirtualRail

/-! ## Entries -/

namespace PurchaseInstance

namespace State

/-- The states that an entry may come to from a state. -/
def Leads : State → State → Prop
  | funded, _ => True
  | reclaimOpen openedAt, s =>
    s = reclaimOpen openedAt ∨ s = attested ∨ s = cancelled ∨ s = reclaimed
  | s, s' => s' = s

theorem leads_refl : ∀ s : State, s.Leads s
  | funded => trivial
  | reclaimOpen _ => .inl rfl
  | attested | cancelled | reclaimed | lapsed => rfl

theorem Leads.trans {a b c : State} (h : a.Leads b) (h' : b.Leads c) : a.Leads c := by
  rcases a with _ | _ | _ | openedAt | _ | _
  case funded => trivial
  case reclaimOpen =>
    obtain rfl | rfl | rfl | rfl := h
    · exact h'
    · exact .inr (.inl h')
    · exact .inr (.inr (.inl h'))
    · exact .inr (.inr (.inr h'))
  all_goals
    obtain rfl := h
    exact h'

/-- What is settled stays as it is. -/
theorem Leads.settled {a b : State} (h : a.Leads b) (ha : a.active = false) : b = a := by
  rcases a with _ | _ | _ | openedAt | _ | _
  case funded | reclaimOpen => cases ha
  all_goals exact h

end State

/-- A later state of an entry, no later than a clock. -/
structure Entry.Later (now : ℕ) (e e' : Entry) : Prop where
  terms : e'.toEntryTerms = e.toEntryTerms
  refundPtr : e'.refundPtr = e.refundPtr
  leads : e.state.Leads e'.state
  early : now < e.tOpen → e.tOpen ≤ e.tLapse → e.state = .funded →
    e'.state = .funded ∨ e'.state = .attested ∨ e'.state = .cancelled

/-- A later state of an instance, no later than a clock. -/
structure Later (now : ℕ) (inst inst' : PurchaseInstance) : Prop where
  merchantKey : inst'.merchantKey = inst.merchantKey
  seedInstance : inst'.seedInstance = inst.seedInstance
  entries : ∀ entryId e, inst.entries.lookup entryId = some e →
    ∃ e', inst'.entries.lookup entryId = some e' ∧ e.Later now e'

variable {suite : Suite} {now now' : ℕ} {inst inst' inst'' : PurchaseInstance} {e e' e'' : Entry}

theorem Entry.Later.refl (now : ℕ) (e : Entry) : e.Later now e :=
  ⟨rfl, rfl, e.state.leads_refl, fun _ _ => .inl⟩

theorem Entry.Later.trans (h : e.Later now e') (h' : e'.Later now' e'') (hle : now ≤ now') :
    e.Later now' e'' where
  terms := h'.terms.trans h.terms
  refundPtr := h'.refundPtr.trans h.refundPtr
  leads := h.leads.trans h'.leads
  early hnow hwindow hfunded := by
    have hopen : e'.tOpen = e.tOpen := congrArg EntryTerms.tOpen h.terms
    have hlapse : e'.tLapse = e.tLapse := congrArg EntryTerms.tLapse h.terms
    rcases h.early (by omega) hwindow hfunded with hs | hs | hs
    · exact h'.early (by omega) (by omega) hs
    · exact .inr (.inl ((h'.leads.settled (by rw [hs]; rfl)).trans hs))
    · exact .inr (.inr ((h'.leads.settled (by rw [hs]; rfl)).trans hs))

namespace Later

theorem refl (now : ℕ) (inst : PurchaseInstance) : inst.Later now inst :=
  ⟨rfl, rfl, fun _ e he => ⟨e, he, .refl now e⟩⟩

theorem trans (h : inst.Later now inst') (h' : inst'.Later now' inst'') (hle : now ≤ now') :
    inst.Later now' inst'' where
  merchantKey := h'.merchantKey.trans h.merchantKey
  seedInstance := h'.seedInstance.trans h.seedInstance
  entries entryId e he := by
    obtain ⟨e', he', hlater⟩ := h.entries entryId e he
    obtain ⟨e'', he'', hlater'⟩ := h'.entries entryId e' he'
    exact ⟨e'', he'', hlater.trans hlater' hle⟩

end Later

/-- An entry is brought to a state that it may come to. -/
theorem setState_later {entryId : ByteArr 32} (he : inst.entries.lookup entryId = some e)
    {state : State} (hleads : e.state.Leads state)
    (hearly : now < e.tOpen → e.tOpen ≤ e.tLapse → e.state = .funded →
      state = .funded ∨ state = .attested ∨ state = .cancelled) :
    inst.Later now (inst.setState entryId e state) := by
  refine ⟨rfl, rfl, fun entryId' e' he' => ?_⟩
  show ∃ e'', (inst.entries.insert entryId { e with state }).lookup entryId' = some e'' ∧ _
  rw [HashMap.lookup_insert_ite]
  split_ifs with hid
  · rw [hid, he] at he'
    cases he'
    exact ⟨_, rfl, rfl, rfl, hleads, hearly⟩
  · exact ⟨e', he', .refl now e'⟩

theorem distribute_later (now : ℕ) (inst : PurchaseInstance) (amount : ℕ) :
    inst.Later now (inst.distribute amount).2 := by
  unfold distribute
  split_ifs <;> exact ⟨rfl, rfl, fun _ e he => ⟨e, he, .refl now e⟩⟩

/-- An entry that may be moved still leads to what it is attested or cancelled to. -/
theorem State.leads_of_active {s : State} (h : s.active = true) :
    s.Leads .attested ∧ s.Leads .cancelled := by
  rcases s with _ | _ | _ | openedAt | _ | _
  case funded => exact ⟨trivial, trivial⟩
  case reclaimOpen => exact ⟨.inr (.inl rfl), .inr (.inr (.inl rfl))⟩
  all_goals cases h

theorem run_later {op : Op} {out : List Payout} (hrun : inst.run suite now op = .ok (out, inst')) :
    inst.Later now inst' := by
  rcases op <;> simp only [run] at hrun
  case attest entryId signed =>
    simp only [attest, entry, bind_eq_ok, okOr_eq_ok, require_eq_ok, pure_eq_ok] at hrun
    obtain ⟨e, he, -, hact, -, -, hout⟩ := hrun
    have hdist := (inst.setState entryId e .attested).distribute_later now e.amount
    rw [hout] at hdist
    exact (setState_later he (State.leads_of_active hact).1 fun _ _ _ => .inr (.inl rfl)).trans
      hdist
      le_rfl
  case claimLapsed entryId =>
    simp only [claimLapsed, entry, bind_eq_ok, okOr_eq_ok, require_eq_ok, beq_iff_eq,
      pure_eq_ok, Bool.not_eq_true', decide_eq_false_iff_not, not_le] at hrun
    obtain ⟨e, he, -, hs, -, hlate, hout⟩ := hrun
    have hdist := (inst.setState entryId e .lapsed).distribute_later now e.amount
    rw [hout] at hdist
    refine (setState_later he ?_ fun hearly hwindow _ => ?_).trans hdist le_rfl
    · rw [hs]
      trivial
    · omega
  case cancel entryId signed =>
    simp only [cancel, entry, bind_eq_ok, okOr_eq_ok, require_eq_ok, pure_eq_ok] at hrun
    obtain ⟨e, he, -, hact, -, -, hout⟩ := hrun
    cases hout
    exact setState_later he (State.leads_of_active hact).2 fun _ _ _ => .inr (.inr rfl)
  case executeReclaim entryId =>
    simp only [executeReclaim, entry, bind_eq_ok, okOr_eq_ok] at hrun
    obtain ⟨e, he, hrun⟩ := hrun
    rcases hs : e.state <;> simp only [hs, bind_eq_ok, pure_eq_ok] at hrun
    case reclaimOpen openedAt =>
      obtain ⟨_, -, -, -, hout⟩ := hrun
      cases hout
      refine setState_later he ?_ fun _ _ hfunded => ?_
      · rw [hs]
        exact .inr (.inr (.inr rfl))
      · rw [hs] at hfunded
        cases hfunded
    all_goals
      obtain ⟨_, hnone, -⟩ := hrun
      cases hnone
  case openReclaim entryId =>
    simp only [openReclaim, entry, bind_eq_ok, map_eq_ok, okOr_eq_ok, require_eq_ok, beq_iff_eq,
      pure_eq_ok] at hrun
    obtain ⟨_, ⟨e, he, -, hs, -, hwindow, rfl⟩, hout⟩ := hrun
    cases hout
    refine setState_later he ?_ fun hearly _ _ => ?_
    · rw [hs]
      trivial
    · simp [hearly] at hwindow
  case fundEntry t refundPtr =>
    simp only [fundEntry, bind_eq_ok, map_eq_ok, require_eq_ok, pure_eq_ok, Bool.not_eq_true',
      decide_eq_false_iff_not] at hrun
    obtain ⟨_, ⟨-, -, -, -, -, -, -, hfree, rfl⟩, hout⟩ := hrun
    cases hout
    refine ⟨rfl, rfl, fun entryId e he => ⟨e, ?_, .refl now e⟩⟩
    have hne : entryId ≠ suite.entryIdPurchase inst.seedInstance t.nonce t.amount t.tOpen t.tLapse
        t.contest := by
      rintro rfl
      exact hfree (Finmap.mem_keys.2 (Finmap.mem_of_lookup_eq_some he))
    rw [HashMap.lookup_insert_ite, if_neg hne, he]

theorem fundEntry_later {t : EntryTerms} {refundPtr : String} {entryId : ByteArr 32}
    (h : inst.fundEntry suite t refundPtr now = .ok (entryId, inst')) : inst.Later now inst' := by
  have hrun : inst.run suite now (.fundEntry t refundPtr) = .ok ([], inst') := by
    rw [run, h]
    rfl
  exact run_later hrun

end PurchaseInstance

/-! ## The whole rail -/

namespace HostedRail

structure Later (s s' : HostedRail) : Prop where
  rail : s.rail.Later s'.rail
  hosted : ∀ addr h, s.hosted.lookup addr = some h →
    ∃ h', s'.hosted.lookup addr = some h' ∧ h.purchases.Later s'.rail.clock h'.purchases

variable {suite : Suite} {s s' s'' : HostedRail}

namespace Later

theorem of_rail {rail : VirtualRail} (h : s.rail.Later rail) : s.Later { s with rail } :=
  ⟨h, fun _ h hh => ⟨h, hh, .refl _ _⟩⟩

theorem refl (s : HostedRail) : s.Later s := of_rail (.refl s.rail)

theorem trans (h : s.Later s') (h' : s'.Later s'') : s.Later s'' where
  rail := h.rail.trans h'.rail
  hosted addr x hx := by
    obtain ⟨x', hx', hlater⟩ := h.hosted addr x hx
    obtain ⟨x'', hx'', hlater'⟩ := h'.hosted addr x' hx'
    exact ⟨x'', hx'', hlater.trans hlater' h'.rail.clock⟩

/-- What is hosted at one address changes. -/
theorem replace {rail : VirtualRail} (hrail : s.rail.Later rail) {addr : String} {x x' : Hosted}
    (hx : s.hosted.lookup addr = some x) (h : x.purchases.Later rail.clock x'.purchases) :
    s.Later ⟨rail, s.hosted.insert addr x'⟩ := by
  refine ⟨hrail, fun addr' y hy => ?_⟩
  dsimp only
  rw [HashMap.lookup_insert_ite]
  split_ifs with haddr
  · rw [haddr, hx] at hy
    cases hy
    exact ⟨x', rfl, h⟩
  · exact ⟨y, hy, .refl _ _⟩

end Later

theorem onEntries_later {addr : String} {op : PurchaseInstance.Op}
    (h : s.onEntries suite addr op = .ok s') : s.Later s' := by
  unfold onEntries instanceAt at h
  simp only [bind_eq_ok, okOr_eq_ok, mapError_eq_ok, pure_eq_ok] at h
  obtain ⟨x, hx, ⟨payouts, purchases⟩, hrun, rfl⟩ := h
  have hsame := VirtualRail.applyPayouts_sameRefs payouts s.rail
  refine .replace hsame.later hx ?_
  rw [hsame.clock]
  exact PurchaseInstance.run_later hrun

theorem fundEntry_later {addr refundPtr asset : String} {t : EntryTerms}
    {r : (String × ByteArr 32) × HostedRail}
    (h : s.fundEntry suite addr t refundPtr asset = .ok r) : s.Later r.2 := by
  unfold fundEntry instanceAt at h
  simp only [bind_eq_ok, okOr_eq_ok, mapError_eq_ok, pure_eq_ok] at h
  obtain ⟨-, -, x, hx, ⟨entryId, purchases⟩, hfund, rfl⟩ := h
  exact .replace (VirtualRail.recordRef_later _ _) hx (PurchaseInstance.fundEntry_later hfund)

theorem fundClaimRecord_later {source : Option String} {addr asset : String} {cid : ByteArr 8}
    {ckptRef : ByteArr 32} {amount : ℕ} {r : (String × ByteArr 32) × HostedRail}
    (h : s.fundClaimRecord suite source addr cid ckptRef amount asset = .ok r) :
    s.Later r.2 := by
  unfold fundClaimRecord instanceAt at h
  simp only [bind_eq_ok, okOr_eq_ok, pure_eq_ok] at h
  obtain ⟨-, -, -, -, -, -, x, hx, -, -, rfl⟩ := h
  have hpaid : ∀ mid payouts info, s.rail.SameRefs mid →
      s.rail.Later ((VirtualRail.applyPayouts mid payouts).recordRef info).2 :=
    fun mid payouts info hmid =>
      (hmid.trans (VirtualRail.applyPayouts_sameRefs payouts mid)).record info
  refine .replace ?_ hx (PurchaseInstance.distribute_later _ x.purchases amount)
  rcases source with _ | src
  · exact hpaid _ _ _ ⟨rfl, rfl, rfl, rfl, rfl⟩
  · exact hpaid _ _ _ ⟨rfl, rfl, rfl, rfl, rfl⟩

theorem deployInstance_later {seed : ByteArr 32} {inputs : AddressInputs}
    {r : String × HostedRail} (h : s.deployInstance suite seed inputs = .ok r) :
    s.Later r.2 := by
  unfold deployInstance at h
  simp only [bind_eq_ok, pure_eq_ok] at h
  obtain ⟨-, -, -, -, rfl⟩ := h
  refine ⟨VirtualRail.SameRefs.later ⟨rfl, rfl, rfl, rfl, rfl⟩, fun addr x hx => ?_⟩
  exact ⟨x, HashMap.lookup_orInsert_of_some hx, .refl _ _⟩

theorem onHosted_later {α : Type} {x : Except RailError α} {next : α → HostedRail}
    (hx : ∀ a, x = .ok a → s.Later (next a)) : s.Later (s.onHosted x next).1 := by
  rcases x with e | a
  · exact .refl s
  · exact hx a rfl

/-- Whatever is done on the rail, what it recorded stays. -/
theorem step_later (op : Op) : s.Later (step suite s op).1 := by
  rcases op
  case advanceClock secs =>
    exact .of_rail ⟨Nat.le_add_right _ _, rfl, le_rfl, fun hf => ⟨hf.next, hf.canonical⟩,
      fun _ _ _ => id, fun _ _ => id⟩
  case setOutage on => exact .of_rail (VirtualRail.SameRefs.later ⟨rfl, rfl, rfl, rfl, rfl⟩)
  case submit transfer => exact .of_rail (s.rail.submit_later transfer)
  case settle transfer settleId => exact .of_rail (s.rail.settle_later transfer settleId)
  case release source dest asset amount =>
    exact .of_rail (s.rail.releaseLocked_later source dest asset amount)
  case releaseKeyed cid ckptRef source dest asset amount =>
    exact .of_rail (s.rail.releaseKeyed_later cid ckptRef source dest asset amount)
  case advanceChannelMeed source addr cid target asset =>
    exact .of_rail (s.rail.advanceChannelMeed_later source addr cid target asset)
  case deploySplit seed inputs =>
    refine onHosted_later fun r h => ?_
    unfold deploySplit at h
    simp only [bind_eq_ok, pure_eq_ok] at h
    obtain ⟨-, -, -, -, -, -, rfl⟩ := h
    exact .of_rail (VirtualRail.SameRefs.later ⟨rfl, rfl, rfl, rfl, rfl⟩)
  case deployInstance seed inputs => exact onHosted_later fun r h => deployInstance_later h
  case fundEntry addr t refundPtr asset => exact onHosted_later fun r h => fundEntry_later h
  case fundClaimRecord source addr cid ckptRef amount asset =>
    exact onHosted_later fun r h => fundClaimRecord_later h
  all_goals exact onHosted_later fun r h => onEntries_later h

end HostedRail

namespace EntryRail

/-- The next references are not taken, and have funded nothing. -/
structure Fresh (s : EntryRail) : Prop where
  refs : s.rail.Fresh
  funds : ∀ n, s.rail.nextRef ≤ n → s.fundsEntry.lookup (VirtualRail.refId n) = none

/-- A later state of the rail of purchases. -/
structure Later (s s' : EntryRail) : Prop extends s.toHostedRail.Later s'.toHostedRail where
  caps : s'.assets = s.assets ∧ s'.inclusionLatency = s.inclusionLatency
  keepsFresh : s.Fresh → s'.Fresh
  funds : s.Fresh → ∀ r id, s.fundsEntry.lookup r = some id → s'.fundsEntry.lookup r = some id

variable {suite : Suite} {s s' s'' : EntryRail}

theorem new_fresh (finalityDelay : ℕ) (assets : List String) (inclusionLatency : ℕ) :
    (new finalityDelay assets inclusionLatency).Fresh :=
    ⟨VirtualRail.new_fresh finalityDelay, fun _ _ => rfl⟩

namespace Later

/-- A step that funds no entry. -/
theorem of_hosted {hosted : HostedRail} (h : s.toHostedRail.Later hosted) :
    s.Later { s with toHostedRail := hosted } where
  toLater := h
  caps := ⟨rfl, rfl⟩
  keepsFresh hf := ⟨h.rail.fresh hf.refs, fun n hn => hf.funds n (h.rail.nextRef.trans hn)⟩
  funds _ _ _ := id

theorem refl (s : EntryRail) : s.Later s := of_hosted (.refl s.toHostedRail)

theorem trans (h : s.Later s') (h' : s'.Later s'') : s.Later s'' where
  toLater := h.toLater.trans h'.toLater
  caps := ⟨h'.caps.1.trans h.caps.1, h'.caps.2.trans h.caps.2⟩
  keepsFresh hf := h'.keepsFresh (h.keepsFresh hf)
  funds hf r id hr := h'.funds (h.keepsFresh hf) r id (h.funds hf r id hr)

end Later

theorem fundEntry_eq_ok {addr refundPtr asset : String} {t : EntryTerms}
    {r : (String × ByteArr 32) × EntryRail} :
    s.fundEntry suite addr t refundPtr asset = .ok r ↔
      ∃ h, s.toHostedRail.fundEntry suite addr t refundPtr asset = .ok (r.1, h) ∧
        r.2 = { s with toHostedRail := h, fundsEntry := s.fundsEntry.insert r.1.1 r.1.2 } := by
  unfold fundEntry
  simp only [map_eq_ok]
  constructor
  · rintro ⟨⟨id, h⟩, hfund, rfl⟩
    exact ⟨h, hfund, rfl⟩
  · rintro ⟨h, hfund, hr⟩
    exact ⟨(r.1, h), hfund, by rw [← hr]⟩

/-- What funds an entry is the next reference. -/
theorem fundEntry_ref {addr refundPtr asset : String} {t : EntryTerms}
    {r : (String × ByteArr 32) × HostedRail} {s : HostedRail}
    (h : s.fundEntry suite addr t refundPtr asset = .ok r) :
    r.1.1 = VirtualRail.refId s.rail.nextRef ∧ r.2.rail.nextRef = s.rail.nextRef + 1 := by
  unfold HostedRail.fundEntry HostedRail.instanceAt at h
  simp only [bind_eq_ok, okOr_eq_ok, mapError_eq_ok, pure_eq_ok] at h
  obtain ⟨-, -, x, hx, ⟨entryId, purchases⟩, hfund, rfl⟩ := h
  exact ⟨rfl, rfl⟩

theorem fundEntry_later {addr refundPtr asset : String} {t : EntryTerms}
    {r : (String × ByteArr 32) × EntryRail}
    (h : s.fundEntry suite addr t refundPtr asset = .ok r) : s.Later r.2 := by
  obtain ⟨hosted, hfund, hr⟩ := fundEntry_eq_ok.1 h
  obtain ⟨href, hnext⟩ := fundEntry_ref hfund
  have hlater := HostedRail.fundEntry_later hfund
  rw [hr]
  dsimp only at href hnext hlater
  refine ⟨hlater, ⟨rfl, rfl⟩, fun hf => ⟨hlater.rail.fresh hf.refs, fun n hn => ?_⟩,
    fun hf r' id hid => ?_⟩
  · dsimp only at hn ⊢
    rw [HashMap.lookup_insert_ite, href, if_neg fun heq => by
      have := VirtualRail.refId_inj heq; omega]
    exact hf.funds n (by omega)
  · have hne : r' ≠ r.1.1 := by
      rintro rfl
      rw [href, hf.funds _ le_rfl] at hid
      cases hid
    dsimp only
    rw [HashMap.lookup_insert_ite, if_neg hne, hid]

theorem attestEntry_later {addr : String} {entryId : ByteArr 32} {signed : Signed}
    (h : s.attestEntry suite addr entryId signed = .ok s') : s.Later s' := by
  unfold attestEntry at h
  obtain ⟨hosted, hattest, rfl⟩ := map_eq_ok.1 h
  exact .of_hosted (HostedRail.onEntries_later hattest)

/-- What does not fund an entry is done on the hosted rail. -/
theorem step_fst {op : HostedRail.Op}
    (hop : ¬∃ addr t refundPtr asset, op = .fundEntry addr t refundPtr asset) :
    (step suite s op).1 =
      { s with toHostedRail := (HostedRail.step suite s.toHostedRail op).1 } := by
  rcases op
  case fundEntry addr t refundPtr asset => exact (hop ⟨addr, t, refundPtr, asset, rfl⟩).elim
  all_goals rfl

theorem step_later (op : HostedRail.Op) : s.Later (step suite s op).1 := by
  by_cases hop : ∃ addr t refundPtr asset, op = .fundEntry addr t refundPtr asset
  · obtain ⟨addr, t, refundPtr, asset, rfl⟩ := hop
    rcases hfund : s.fundEntry suite addr t refundPtr asset with e | ⟨id, s'⟩
    · simp only [step, hfund]
      exact .refl s
    · simp only [step, hfund]
      exact fundEntry_later hfund
  · rw [step_fst hop]
    exact .of_hosted (HostedRail.step_later op)

theorem exec_later : ∀ (ops : List HostedRail.Op) (s : EntryRail), s.Later (exec (step suite) s ops)
  | [], s => .refl s
  | op :: ops, s => (step_later op).trans (exec_later ops (step suite s op).1)

end EntryRail

end Paytp
