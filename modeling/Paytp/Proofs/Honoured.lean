import Paytp.Proofs.Recorded
import Paytp.Proofs.SameOffer

/-!
# A purchase in two legs that the wallet completes is honoured

What the wallet funds and what it pays is recorded for good, early enough to be final in the
window of the quote. Before that window ends nobody but the merchant can settle the entry, so the
merchant finds both legs as it asks for them, whatever else is done on the rail meanwhile.
-/

namespace Paytp

open Attest Kit MerchantStore

namespace VirtualRail

variable {rail rail' : VirtualRail} {r : String}

/-- A level is one that is wanted, or stronger. -/
def Reaches (level want : String) : Prop :=
  ∃ i j, finalityLevels.idxOf? level = some i ∧ finalityLevels.idxOf? want = some j ∧ j ≤ i

theorem Reaches.final {level want : String} (h : Reaches level want) : Reaches "final" want := by
  obtain ⟨i, j, -, hj, -⟩ := h
  have hlt : j < finalityLevels.length := (List.findIdx?_eq_some_iff_getElem.1 hj).1
  exact ⟨1, j, rfl, hj, Nat.le_of_lt_succ hlt⟩

theorem finality_of_refs {time : ℕ} {info : RefInfo} (h : rail.refs.lookup r = some (time, info)) :
    rail.finality r = some (if rail.clock ≥ time + rail.finalityDelay then
      ⟨"final", time + rail.finalityDelay⟩ else ⟨"pending", time⟩) := by
  unfold finality
  rw [h]
  rfl

/-- What was recorded early enough is final in time. -/
theorem finality_time_le {time limit : ℕ} {info : RefInfo} {f : Finality}
    (h : rail.refs.lookup r = some (time, info)) (hlimit : time + rail.finalityDelay ≤ limit)
    (hf : rail.finality r = some f) : f.time ≤ limit := by
  rw [finality_of_refs h] at hf
  obtain rfl := Option.some.inj hf
  split_ifs
  · exact hlimit
  · exact (Nat.le_add_right _ _).trans hlimit

/-- Finality does not go back. -/
theorem Later.finality (h : rail.Later rail') (hf : rail.Fresh) {f : Finality} {want : String}
    (hr : rail.finality r = some f) (hwant : Reaches f.level want) :
    ∃ f', rail'.finality r = some f' ∧ Reaches f'.level want := by
  obtain ⟨⟨time, info⟩, hlook, -⟩ := Option.map_eq_some_iff.1 hr
  rw [finality_of_refs hlook] at hr
  obtain rfl := Option.some.inj hr
  refine ⟨_, finality_of_refs (h.refs hf r _ hlook), ?_⟩
  rw [h.delay]
  split_ifs with hnow
  · exact hwant.final
  · have hpast : ¬rail.clock ≥ time + rail.finalityDelay := fun hpast => hnow (hpast.trans h.clock)
    rwa [if_neg hpast] at hwant

theorem recordPayment_ok {transfer : Transfer} (h : rail.recordPayment transfer = (.ok r, rail')) :
    r = refId rail.nextRef ∧ rail'.refs.lookup r = some (rail.clock,
      ⟨transfer.dest, transfer.asset, transfer.amount, transfer.memo, none, r⟩) := by
  obtain ⟨paid, hpays, heq⟩ | ⟨e, heq⟩ := rail.recordPayment_cases transfer
  · obtain ⟨ledger, splits, rfl⟩ := hpays.kept
    obtain ⟨hr, rfl⟩ := Prod.mk.inj (heq.symm.trans h)
    obtain rfl := Except.ok.inj hr
    refine ⟨rfl, ?_⟩
    rw [recordRef_refs]
    exact if_pos rfl
  · cases heq.symm.trans h

theorem submit_ok {transfer : Transfer} (h : rail.submit transfer = (.ok r, rail')) :
    r = refId rail.nextRef ∧ rail'.refs.lookup r = some (rail.clock,
      ⟨transfer.dest, transfer.asset, transfer.amount, transfer.memo, none, r⟩) := by
  unfold submit at h
  split_ifs at h
  · simp at h
  · exact recordPayment_ok h

/-- No reference of the rail has the delimiter of combined references in it. -/
theorem refId_plain (n : ℕ) : Merchant.hasReservedRefDelimiter (refId n) = false := by
  unfold Merchant.hasReservedRefDelimiter refId
  have hname : "virt-ref:".toList.any (· == paymentRefDelimiter) = false := by decide
  rw [List.any_eq_false]
  intro c hc
  rw [String.toList_append, List.mem_append] at hc
  rcases hc with hc | hc
  · exact List.any_eq_false.1 hname c hc
  · rw [Nat.toString_eq_ofList_toDigits, String.toList_ofList] at hc
    have hdigit := Jcs.isDigit_of_mem hc
    intro hbar
    rw [beq_iff_eq.1 hbar] at hdigit
    exact absurd hdigit (by decide)

end VirtualRail

section Purchases

variable {suite : Suite} {rail rail' : EntryRail} {plan : TwoLegPlan} {meedRef netRef : String}
  {merchantKey : ByteArr 32} {m : Merchant}

theorem PurchaseInstance.distribute_entries (inst : PurchaseInstance) (amount : ℕ) :
    (inst.distribute amount).2.entries = inst.entries := by
  unfold distribute
  split_ifs <;> rfl

/-- What funding an entry leaves on the rail. -/
theorem EntryRail.fundEntry_spec {s s' : EntryRail} {addr refundPtr asset r : String}
    {t : EntryTerms} {entryId : ByteArr 32}
    (h : s.fundEntry suite addr t refundPtr asset = .ok ((r, entryId), s')) :
    r = VirtualRail.refId s.rail.nextRef ∧ s'.rail.clock = s.rail.clock ∧
      s'.rail.finalityDelay = s.rail.finalityDelay ∧
      s'.rail.refs.lookup r = some (s.rail.clock, ⟨addr, asset, t.amount, some t.nonce, none, r⟩) ∧
      s'.fundsEntry.lookup r = some entryId ∧ t.tOpen ≤ t.tLapse ∧
      ∃ x x', s.hosted.lookup addr = some x ∧ s'.hosted.lookup addr = some x' ∧
        x'.purchases.merchantKey = x.purchases.merchantKey ∧
        x'.purchases.entries.lookup entryId = some { t with refundPtr, state := .funded } := by
  obtain ⟨hosted, hfund, hs⟩ := EntryRail.fundEntry_eq_ok.1 h
  dsimp only at hfund hs
  subst hs
  unfold HostedRail.fundEntry HostedRail.instanceAt at hfund
  simp only [bind_eq_ok, okOr_eq_ok, mapError_eq_ok, pure_eq_ok, Prod.mk.injEq] at hfund
  obtain ⟨-, -, x, hx, ⟨id, purchases⟩, hentry, ⟨rfl, rfl⟩, rfl⟩ := hfund
  unfold PurchaseInstance.fundEntry at hentry
  simp only [bind_eq_ok, require_eq_ok, pure_eq_ok, Bool.not_eq_true', decide_eq_false_iff_not,
    not_lt, Prod.mk.injEq] at hentry
  obtain ⟨-, -, -, -, -, hwindow, -, -, rfl, rfl⟩ := hentry
  refine ⟨rfl, rfl, rfl, ?_, Finmap.lookup_insert _, hwindow, x, _, hx, Finmap.lookup_insert _, rfl,
    Finmap.lookup_insert _⟩
  exact (VirtualRail.recordRef_refs _ _ _).trans (if_pos rfl)

namespace Wallet

open VirtualRail

/-- What the meed leg of a plan left on the rail. -/
structure Funded (merchantKey : ByteArr 32) (plan : TwoLegPlan) (meedRef : String)
    (rail : EntryRail) : Prop where
  fresh : rail.Fresh
  plain : Merchant.hasReservedRefDelimiter meedRef = false
  recorded : ∃ time info, rail.rail.refs.lookup meedRef = some (time, info) ∧
    info.asset = plan.baselineAsset ∧ info.memo = some plan.nonce ∧
    time + rail.rail.finalityDelay ≤ plan.tOpen
  funds : rail.fundsEntry.lookup meedRef = some plan.entryId
  window : plan.tOpen ≤ plan.tLapse
  entry : ∃ x e, rail.hosted.lookup plan.instanceAddress = some x ∧
    x.purchases.merchantKey = merchantKey ∧ x.purchases.entries.lookup plan.entryId = some e ∧
    e.toEntryTerms = plan.entry ∧ (rail.rail.clock < plan.tOpen →
      e.state = .funded ∨ e.state = .attested ∨ e.state = .cancelled)

/-- What the net leg of a plan left on the rail. -/
structure NetPaid (plan : TwoLegPlan) (netRef : String) (rail : EntryRail) : Prop where
  plain : Merchant.hasReservedRefDelimiter netRef = false
  recorded : ∃ time, rail.rail.refs.lookup netRef =
      some (time, ⟨plan.netTo, plan.netAsset, plan.netAmount, some plan.nonce, none, netRef⟩) ∧
    time + rail.rail.finalityDelay ≤ plan.tOpen

theorem finalityHeadroom_ok {caps : RailCaps} {now tOpen : ℕ} {finMeed finNet : String}
    (h : finalityHeadroom caps now finMeed finNet tOpen = .ok ()) :
    finMeed ∈ caps.finalityLevels ∧ finNet ∈ caps.finalityLevels ∧
      now + caps.finalityDelay + caps.finalityDelay ≤ tOpen := by
  unfold finalityHeadroom at h
  simp only [bind_eq_ok, okOr_eq_ok, require_eq_ok, addU64_eq_some, Bool.not_eq_true',
    decide_eq_false_iff_not, List.contains_eq_mem, decide_eq_true_eq] at h
  obtain ⟨-, hmeed, -, hnet, _, ⟨-, rfl⟩, _, ⟨-, rfl⟩, -, -, hle⟩ := h
  exact ⟨hmeed, hnet, not_lt.1 hle⟩

theorem fundMeedLeg_ok (h : fundMeedLeg suite rail plan = (.ok meedRef, rail')) :
    finalityHeadroom rail.caps rail.rail.clock plan.finMeed plan.finNet plan.tOpen = .ok () ∧
      rail.fundEntry suite plan.instanceAddress plan.entry plan.refundPtr plan.baselineAsset =
        .ok ((meedRef, plan.entryId), rail') := by
  unfold fundMeedLeg at h
  split at h
  · simp at h
  · rename_i hroom
    refine ⟨hroom, ?_⟩
    split at h
    · simp at h
    · rename_i r fundedId after hfund
      split_ifs at h with hid
      · simp at h
      · obtain ⟨hr, rfl⟩ := Prod.mk.inj h
        rw [hfund, Except.ok.inj hr, not_not.1 (mt bne_iff_ne.2 hid)]

theorem fundMeedLeg_funded (hfresh : rail.Fresh)
    (hhost : ∀ x, rail.hosted.lookup plan.instanceAddress = some x →
      x.purchases.merchantKey = merchantKey)
    (h : fundMeedLeg suite rail plan = (.ok meedRef, rail')) :
    Funded merchantKey plan meedRef rail' := by
  obtain ⟨hroom, hfund⟩ := fundMeedLeg_ok h
  obtain ⟨-, -, htime⟩ := finalityHeadroom_ok hroom
  have hfresh' := (EntryRail.fundEntry_later hfund).keepsFresh hfresh
  obtain ⟨rfl, hclock, hdelay, hrefs, hfunds, hwindow, x, x', hx, hx', hkey, hentry⟩ :=
    EntryRail.fundEntry_spec hfund
  have hdelay' : rail'.rail.finalityDelay = rail.caps.finalityDelay := hdelay
  refine ⟨hfresh', refId_plain _, ⟨_, _, hrefs, rfl, rfl, ?_⟩, hfunds, hwindow,
    x', _, hx', hkey.trans (hhost x hx), hentry, rfl, fun _ => .inl rfl⟩
  omega

theorem Funded.later (h : Funded merchantKey plan meedRef rail) (hlater : rail.Later rail') :
    Funded merchantKey plan meedRef rail' := by
  obtain ⟨time, info, hlook, hasset, hmemo, htime⟩ := h.recorded
  obtain ⟨x, e, hx, hkey, he, hterms, hstate⟩ := h.entry
  obtain ⟨x', hx', hinst⟩ := hlater.hosted _ x hx
  obtain ⟨e', he', hentry⟩ := hinst.entries _ e he
  have hopen : e.tOpen = plan.tOpen := congrArg EntryTerms.tOpen hterms
  have hlapse : e.tLapse = plan.tLapse := congrArg EntryTerms.tLapse hterms
  have hwindow := h.window
  refine ⟨hlater.keepsFresh h.fresh, h.plain, ⟨time, info, ?_, hasset, hmemo, ?_⟩, ?_, hwindow,
    x', e', hx', hinst.merchantKey.trans hkey, he', hentry.terms.trans hterms, fun hnow => ?_⟩
  · exact hlater.rail.refs h.fresh.refs _ _ hlook
  · rwa [hlater.rail.delay]
  · exact hlater.funds h.fresh _ _ h.funds
  · have hclock := hlater.rail.clock
    rcases hstate (by omega) with hs | hs | hs
    · exact hentry.early (by omega) (by omega) hs
    · exact .inr (.inl ((hentry.leads.settled (by rw [hs]; rfl)).trans hs))
    · exact .inr (.inr ((hentry.leads.settled (by rw [hs]; rfl)).trans hs))

theorem NetPaid.later (h : NetPaid plan netRef rail) (hfresh : rail.Fresh)
    (hlater : rail.Later rail') : NetPaid plan netRef rail' := by
  obtain ⟨time, hlook, htime⟩ := h.recorded
  refine ⟨h.plain, time, hlater.rail.refs hfresh.refs _ _ hlook, ?_⟩
  rwa [hlater.rail.delay]

theorem submit_later (h : rail.submit plan.netTransfer = (.ok netRef, rail')) :
    rail.Later rail' := by
  have hlater := rail.rail.submit_later plan.netTransfer
  unfold EntryRail.submit at h
  obtain ⟨-, rfl⟩ := Prod.mk.inj h
  exact .of_hosted (.of_rail hlater)

theorem submitNetLeg_ok (h : submitNetLeg rail plan meedRef = (.ok netRef, rail')) :
    netLegReady rail plan meedRef = .ok () ∧
      rail.submit plan.netTransfer = (.ok netRef, rail') := by
  unfold submitNetLeg at h
  split at h
  · simp at h
  · rename_i hready
    refine ⟨hready, ?_⟩
    rcases hsubmit : rail.submit plan.netTransfer with ⟨answer, after⟩
    rw [hsubmit] at h
    obtain ⟨hanswer, rfl⟩ := Prod.mk.inj h
    rw [mapError_eq_ok.1 hanswer]

theorem submitNetLeg_paid (h : submitNetLeg rail plan meedRef = (.ok netRef, rail')) :
    rail.Later rail' ∧ NetPaid plan netRef rail' ∧
      ∃ f, rail.finality meedRef = some f ∧ Reaches f.level plan.finMeed := by
  obtain ⟨hready, hsubmit⟩ := submitNetLeg_ok h
  have hlater := submit_later hsubmit
  unfold netLegReady at hready
  simp only [bind_eq_ok, okOr_eq_ok, require_eq_ok, addU64_eq_some, Bool.not_eq_true',
    decide_eq_false_iff_not, not_lt] at hready
  obtain ⟨-, -, -, -, meedTime, hmeed, netFin, ⟨-, rfl⟩, -, -, hin⟩ := hready
  refine ⟨hlater, ?_, ?_⟩
  · unfold EntryRail.submit at hsubmit
    obtain ⟨hanswer, rfl⟩ := Prod.mk.inj hsubmit
    obtain ⟨href, hlook⟩ := VirtualRail.submit_ok (Prod.ext hanswer rfl)
    refine ⟨?_, _, hlook, ?_⟩
    · rw [href]
      exact refId_plain _
    · show rail.rail.clock + (rail.rail.submit plan.netTransfer).2.finalityDelay ≤ plan.tOpen
      rw [(rail.rail.submit_later plan.netTransfer).delay]
      exact hin
  · unfold meedFinalityTime at hmeed
    obtain ⟨f, hf, hmeed⟩ := Option.bind_eq_some_iff.1 hmeed
    refine ⟨f, hf, ?_⟩
    split at hmeed
    · rename_i i j hi hj
      split_ifs at hmeed with hle
      exact ⟨i, j, hi, hj, hle⟩
    · simp at hmeed

end Wallet

namespace Merchant

open VirtualRail Wallet

variable {codec : TextCodec} {t : TwoLegTerms} {now : ℕ}

theorem legFinal_ok {f : Finality} {required : String} {deadline : ℕ}
    (hlevel : Reaches f.level required) (htime : f.time ≤ deadline) :
    legFinal f required deadline now = .ok () := by
  obtain ⟨i, j, hi, hj, hle⟩ := hlevel
  unfold legFinal
  simp only [bind_eq_ok, require_eq_ok]
  exact ⟨⟨⟩, by simp [hi, hj, hle], by simpa using htime⟩

theorem confirmLeg_ok {r required : String} {deadline : ℕ} {time : ℕ} {info : RefInfo}
    (hlook : rail.rail.refs.lookup r = some (time, info))
    (hin : time + rail.rail.finalityDelay ≤ deadline)
    (hlevel : ∃ f, rail.finality r = some f ∧ Reaches f.level required) :
    confirmLeg rail r required deadline now = .ok () := by
  obtain ⟨f, hf, hlevel⟩ := hlevel
  unfold confirmLeg
  simp only [bind_eq_ok, okOr_eq_ok]
  exact ⟨f, hf, legFinal_ok hlevel (finality_time_le hlook hin hf)⟩

/-- A redemption in two legs of a settlement is answered as the store answers. -/
theorem redeemTwoLeg_of_settled {json resource : String} {q : Quote} {io : AppendIo}
    {wal wal' : Wal ReceiptRest} {answer : Except StoreError Receipt}
    (haccept : m.acceptTwoLeg codec suite json resource = .ok q)
    (hplain : (hasReservedRefDelimiter meedRef || hasReservedRefDelimiter netRef) = false)
    (hpeek : wal.peek q.nonce (twoLegRecord q meedRef netRef) = .fresh)
    (hsettle : m.settleTwoLeg suite q meedRef netRef now rail = .ok (t, rail'))
    (hconsume : wal.consumeNonce (Receipt.form codec suite) q.nonce (twoLegRecord q meedRef netRef)
      (fun u => (m.twoLegReceipt codec suite t meedRef netRef now, u)) () io = (answer, (), wal')) :
    m.redeemTwoLeg codec suite json resource meedRef netRef now io rail wal =
      (answer.mapError storeError, rail', wal') := by
  unfold redeemTwoLeg
  simp only [haccept, hplain, Bool.false_eq_true, if_false, hpeek, hsettle, hconsume]

/-- The merchant finds both legs of the plan as the terms ask for them. -/
theorem confirmTwoLeg_ok (hterms : t.Matches suite plan)
    (hfunded : Funded m.key plan meedRef rail) (hpaid : NetPaid plan netRef rail)
    (hmeed : ∃ f, rail.finality meedRef = some f ∧ Reaches f.level plan.finMeed)
    (hnet : ∃ f, rail.finality netRef = some f ∧ Reaches f.level plan.finNet)
    (hstands : entryStands suite t rail now = true) :
    confirmTwoLeg suite t rail meedRef netRef now = .ok () := by
  obtain ⟨time, info, hlook, hasset, hmemo, htime⟩ := hfunded.recorded
  obtain ⟨netTime, hnetLook, hnetTime⟩ := hpaid.recorded
  have htarget : rail.refTarget meedRef = some info := by
    unfold EntryRail.refTarget VirtualRail.refTarget
    rw [hlook]
    rfl
  have hnetTarget : rail.refTarget netRef =
      some ⟨plan.netTo, plan.netAsset, plan.netAmount, some plan.nonce, none, netRef⟩ := by
    unfold EntryRail.refTarget VirtualRail.refTarget
    rw [hnetLook]
    rfl
  obtain ⟨hto, hnetAsset, hamount⟩ := hterms.net
  obtain ⟨hfinMeed, hfinNet⟩ := hterms.finality
  unfold confirmTwoLeg
  simp only [bind_eq_ok, okOr_eq_ok, require_eq_ok]
  refine ⟨info, htarget, ⟨⟩, ?_, ⟨⟩, ?_, ⟨⟩, hstands, ⟨⟩, ?_, _, hnetTarget, ?_⟩
  · rw [hterms.entryId, hterms.baselineAsset, hterms.nonce, hfunded.funds, hasset, hmemo]
    simp
  · rw [hterms.honorDeadline, hfinMeed]
    exact confirmLeg_ok hlook htime hmeed
  · rw [hterms.honorDeadline, hfinNet]
    exact confirmLeg_ok hnetLook hnetTime hnet
  · rw [hto, hnetAsset, hamount, hterms.nonce]
    simp

theorem entryStatus_eq {addr : String} {entryId : ByteArr 32} {x : Hosted}
    {e : PurchaseInstance.Entry} (hx : rail.hosted.lookup addr = some x)
    (he : x.purchases.entries.lookup entryId = some e) :
    rail.entryStatus addr entryId = some e.state.status := by
  unfold EntryRail.entryStatus PurchaseInstance.status
  rw [hx, Option.bind_some, he]
  rfl

/-- An entry that was attested is not attested again. -/
theorem attestEntry_refused {addr : String} {entryId : ByteArr 32}
    (h : rail.entryStatus addr entryId = some .attested) (signed : Signed) (after : EntryRail) :
    rail.attestEntry suite addr entryId signed ≠ .ok after := by
  intro hattest
  obtain ⟨x, hx, hstatus⟩ := Option.bind_eq_some_iff.1 h
  obtain ⟨e, he, hattested⟩ := Option.map_eq_some_iff.1 hstatus
  obtain ⟨hosted, hattest, -⟩ := map_eq_ok.1 hattest
  unfold HostedRail.attestEntry HostedRail.onEntries HostedRail.instanceAt at hattest
  simp only [bind_eq_ok, okOr_eq_ok, mapError_eq_ok, PurchaseInstance.run,
    PurchaseInstance.attest, PurchaseInstance.entry, require_eq_ok] at hattest
  obtain ⟨x', hx', -, ⟨e', he', -, hactive, -⟩, -⟩ := hattest
  obtain rfl : x' = x := Option.some.inj (hx'.symm.trans hx)
  obtain rfl : e' = e := Option.some.inj (he'.symm.trans he)
  have hs : e'.state = .attested := by
    rcases hs : e'.state <;> rw [hs] at hattested <;> cases hattested
  rw [hs] at hactive
  cases hactive

/-- The merchant finds an attested entry as it needs it. -/
theorem attest_again (h : rail.entryStatus t.instanceAddr (t.entryId suite) = some .attested) :
    entryStands suite t rail now = true ∧ m.attest suite t rail = .ok rail := by
  unfold entryStands attest
  rw [h]
  refine ⟨rfl, ?_⟩
  rcases hattest : rail.attestEntry suite t.instanceAddr (t.entryId suite)
    (Signed.create suite .attestation t.quote.nonce (t.entryId suite) m.signingKey) with e | after
  · dsimp only
    rw [hattest]
    exact if_pos rfl
  · exact (attestEntry_refused h _ _ hattest).elim

/-- The merchant attests the entry of the plan, or finds it attested. -/
theorem attest_ok (now : ℕ) (hsigns : suite.Signs) (hkey : m.key = suite.ed25519Public m.signingKey)
    (hterms : t.Matches suite plan) (hfunded : Funded m.key plan meedRef rail)
    (hopen : rail.rail.clock < plan.tOpen)
    (hkept : rail.entryStatus plan.instanceAddress plan.entryId ≠ some .cancelled) :
    entryStands suite t rail now = true ∧ ∃ rail', m.attest suite t rail = .ok rail' ∧
      rail'.entryStatus plan.instanceAddress plan.entryId = some .attested := by
  obtain ⟨x, e, hx, hmerchant, he, heq, hstate⟩ := hfunded.entry
  have hstatus := entryStatus_eq hx he
  have hnonce : e.nonce = plan.nonce := congrArg EntryTerms.nonce heq
  rcases hstate hopen with hs | hs | hs
  · -- the entry is funded
    unfold entryStands attest
    rw [hterms.instanceAddr, hterms.entryId, hterms.nonce, hstatus, hs]
    refine ⟨rfl, ?_⟩
    generalize hsigned :
      Signed.create suite .attestation plan.nonce plan.entryId m.signingKey = signed
    have hverify : signed.verify suite m.key = true := by
      rw [← hsigned, hkey]
      exact hsigns _ _
    have hrun : x.purchases.run suite rail.rail.clock (.attest plan.entryId signed) =
        .ok ((x.purchases.setState plan.entryId e .attested).distribute e.amount) := by
      simp only [PurchaseInstance.run, PurchaseInstance.attest, PurchaseInstance.entry,
        PurchaseInstance.checkSig, bind_eq_ok, okOr_eq_ok, require_eq_ok, pure_eq_ok]
      refine ⟨e, he, ⟨⟩, by rw [hs]; rfl, ⟨⟩, ?_, rfl⟩
      rw [hmerchant, hverify, hnonce, ← hsigned]
      simp [Signed.create]
    generalize hout : (x.purchases.setState plan.entryId e .attested).distribute e.amount = out
      at hrun
    have hattest : rail.attestEntry suite plan.instanceAddress plan.entryId signed =
        .ok { rail with
              rail := rail.rail.applyPayouts out.1
              hosted :=
                rail.hosted.insert plan.instanceAddress { x with purchases := out.2 } } := by
      refine map_eq_ok.2 ⟨_, ?_, rfl⟩
      unfold HostedRail.attestEntry HostedRail.onEntries HostedRail.instanceAt
      simp only [bind_eq_ok, okOr_eq_ok, mapError_eq_ok, pure_eq_ok]
      exact ⟨x, hx, out, hrun, rfl⟩
    dsimp only
    rw [hattest]
    refine ⟨_, rfl, ?_⟩
    refine @entryStatus_eq _ _ _ _ { e with state := .attested } (Finmap.lookup_insert _) ?_
    rw [← hout, PurchaseInstance.distribute_entries]
    exact Finmap.lookup_insert _
  · -- the entry was attested before
    have hattested : rail.entryStatus plan.instanceAddress plan.entryId = some .attested := by
      rw [hstatus, hs]
      rfl
    rw [← hterms.instanceAddr, ← hterms.entryId] at hattested
    obtain ⟨hstands, hattest⟩ := attest_again hattested
    refine ⟨hstands, rail, hattest, ?_⟩
    rw [← hterms.instanceAddr, ← hterms.entryId]
    exact hattested
  · rw [hstatus, hs] at hkept
    exact (hkept rfl).elim

end Merchant

namespace Wallet

open VirtualRail

variable {codec : TextCodec} {idna : Host.Idna} {w : Wallet} {binding : AcceptedBinding}
  {quoteJson resource refundPtr : String} {approvedOffer : Offer} {expectedIl : Option String}
  {q : Quote} {io : AppendIo} {wal : Wal ReceiptRest} {now : ℕ}

/-- Both legs of a plan are on the rail, and the meed has its finality. -/
structure Completed (merchantKey : ByteArr 32) (plan : TwoLegPlan) (meedRef netRef : String)
    (rail : EntryRail) : Prop where
  funded : Funded merchantKey plan meedRef rail
  paid : NetPaid plan netRef rail
  meedFinal : ∃ f, rail.finality meedRef = some f ∧ Reaches f.level plan.finMeed

theorem Completed.later (h : Completed merchantKey plan meedRef netRef rail)
    (hlater : rail.Later rail') : Completed merchantKey plan meedRef netRef rail' := by
  obtain ⟨f, hf, hreaches⟩ := h.meedFinal
  exact ⟨h.funded.later hlater, h.paid.later h.funded.fresh hlater,
    hlater.rail.finality h.funded.fresh.refs hf hreaches⟩

theorem Funded.completed (h : Funded merchantKey plan meedRef rail)
    (hnet : submitNetLeg rail plan meedRef = (.ok netRef, rail')) :
    Completed merchantKey plan meedRef netRef rail' := by
  obtain ⟨hlater, hpaid, f, hf, hreaches⟩ := submitNetLeg_paid hnet
  exact ⟨h.later hlater, hpaid, hlater.rail.finality h.fresh.refs hf hreaches⟩

/-- A purchase that was completed is redeemed before its window ends. -/
theorem Completed.redeemed (now : ℕ) (h : Completed m.key plan meedRef netRef rail)
    (hsigns : suite.Signs) (hkey : m.key = suite.ed25519Public m.signingKey)
    (haccept : m.acceptTwoLeg codec suite quoteJson resource = .ok q) {t : Merchant.TwoLegTerms}
    (hterms : m.twoLegTerms suite q = .ok t) (hmatches : t.Matches suite plan)
    (hopen : rail.rail.clock < plan.tOpen)
    (hkept : rail.entryStatus plan.instanceAddress plan.entryId ≠ some .cancelled)
    (hnet : ∃ f, rail.finality netRef = some f ∧ Reaches f.level plan.finNet)
    (hpeek : wal.peek q.nonce (Merchant.twoLegRecord q meedRef netRef) = .fresh)
    (hclean : wal.poisoned = false) (hio : io.ok = true) :
    ∃ rail' wal', m.redeemTwoLeg codec suite quoteJson resource meedRef netRef now io rail wal =
        (.ok (m.twoLegReceipt codec suite t meedRef netRef now), rail', wal') ∧
      rail'.entryStatus plan.instanceAddress plan.entryId = some .attested := by
  obtain ⟨hstands, rail', hattest, hattested⟩ :=
    Merchant.attest_ok now hsigns hkey hmatches h.funded hopen hkept
  have hconfirm := Merchant.confirmTwoLeg_ok hmatches h.funded h.paid h.meedFinal hnet hstands
  have hsettle : m.settleTwoLeg suite q meedRef netRef now rail = .ok (t, rail') := by
    unfold Merchant.settleTwoLeg
    simp only [bind_eq_ok, pure_eq_ok]
    exact ⟨t, hterms, ⟨⟩, hconfirm, rail', hattest, rfl⟩
  obtain ⟨hfree, hrefs⟩ : wal.byNonce.lookup q.nonce = none ∧
      ∀ key ∈ usedRefKeys (Merchant.twoLegRecord q meedRef netRef).paymentRef,
        key ∉ wal.usedRefs := by
    unfold MerchantStore.Books.peek at hpeek
    split at hpeek
    · split_ifs at hpeek
    · rename_i hnone
      split_ifs at hpeek with hused
      refine ⟨hnone, fun key hkey hmem => hused (List.any_eq_true.2 ⟨key, hkey, ?_⟩)⟩
      simpa using hmem
  obtain ⟨wal', hconsume⟩ : ∃ wal', wal.consumeNonce (Receipt.form codec suite) q.nonce
      (Merchant.twoLegRecord q meedRef netRef)
      (fun u => (m.twoLegReceipt codec suite t meedRef netRef now, u)) () io =
        (.ok (m.twoLegReceipt codec suite t meedRef netRef now), (), wal') :=
    ⟨_, Wal.consumeNonce_new _ _ hclean hfree hrefs hio⟩
  have hplain : (Merchant.hasReservedRefDelimiter meedRef ||
      Merchant.hasReservedRefDelimiter netRef) = false := by
    rw [h.funded.plain, h.paid.plain]
    rfl
  exact ⟨rail', wal', Merchant.redeemTwoLeg_of_settled haccept hplain hpeek hsettle hconsume,
    hattested⟩

/-- A purchase in two legs that the wallet plans, funds and pays on the first such offer of the
quote, at any times and whatever else is done on the rail, is honoured: before the window of the
quote ends, and unless the merchant cancelled the entry, a redemption of it returns a receipt as
soon as the net leg has its quoted finality. -/
theorem payment_honoured (hregistry : w.registry = suite.toRegistry)
    (hbinding : binding.merchantKey = m.key) (hsigns : suite.Signs)
    (hkey : m.key = suite.ed25519Public m.signingKey)
    (hq : Quote.parseVerify codec suite quoteJson m.key = some q)
    (hfirst : (q.offers.find? fun o => o.twoLeg.isSome) = mirroredOffer q.offers approvedOffer)
    {rail₀ rail₁ rail₂ rail₃ : EntryRail} {ops₁ ops₂ ops₃ : List HostedRail.Op}
    (hfresh : rail₀.Fresh)
    (hplan : w.planTwoLeg codec suite idna rail₀ quoteJson approvedOffer binding resource refundPtr
      expectedIl = .ok plan)
    (hrail₁ : rail₁ = exec (EntryRail.step suite) rail₀ ops₁)
    (hhost : ∀ x, rail₁.hosted.lookup plan.instanceAddress = some x →
      x.purchases.merchantKey = m.key)
    (hfund : fundMeedLeg suite rail₁ plan = (.ok meedRef, rail₂))
    (hnet : submitNetLeg (exec (EntryRail.step suite) rail₂ ops₂) plan meedRef =
      (.ok netRef, rail₃))
    (hrail : rail = exec (EntryRail.step suite) rail₃ ops₃)
    (hopen : rail.rail.clock < q.exp + q.grace)
    (hkept : rail.entryStatus plan.instanceAddress plan.entryId ≠ some .cancelled)
    (hfinal : ∃ f, rail.finality netRef = some f ∧ Reaches f.level plan.finNet)
    (hpeek : wal.peek q.nonce (Merchant.twoLegRecord q meedRef netRef) = .fresh)
    (hclean : wal.poisoned = false) (hio : io.ok = true) :
    ∃ receipt rail' wal', m.redeemTwoLeg codec suite quoteJson resource meedRef netRef now io rail
        wal = (.ok receipt, rail', wal') ∧ receipt.nonce = q.nonce ∧
      rail'.entryStatus plan.instanceAddress plan.entryId = some .attested := by
  obtain ⟨q', offer, terms, seed, hplanned⟩ := planTwoLeg_ok hplan
  rw [hbinding] at hplanned
  obtain rfl : q' = q := Option.some.inj (hplanned.quote.symm.trans hq)
  obtain ⟨t, hterms, hquote, hmatches⟩ :=
    hplanned.terms_matched (hfirst.trans hplanned.mirrored)
  obtain ⟨-, -, -, htOpen, -⟩ := twoLegFeasible_ok hplanned.feasible
  have hlater : rail₀.Later rail₁ := hrail₁ ▸ EntryRail.exec_later ops₁ rail₀
  have hfunded := fundMeedLeg_funded (hlater.keepsFresh hfresh) hhost hfund
  have hcompleted := ((hfunded.later (EntryRail.exec_later ops₂ rail₂)).completed hnet).later
    (@EntryRail.exec_later suite ops₃ rail₃)
  rw [← hrail] at hcompleted
  rw [← htOpen] at hopen
  obtain ⟨rail', wal', hredeem, hattested⟩ := hcompleted.redeemed now hsigns hkey
    (hplanned.accepted hregistry) hterms hmatches hopen hkept hfinal hpeek hclean hio
  refine ⟨_, rail', wal', hredeem, ?_, hattested⟩
  rw [← hquote]
  rfl

end Wallet

end Purchases

namespace Shop

/-- The rail with the instance of the quote. -/
def hostRail : EntryRail :=
  exec (EntryRail.step keyedSuite) newRail
    [.deployInstance instanceSeed (twoLegQuote.addressInputs merchant.key "usd" none)]

/-- The meed is funded, and final after two minutes. -/
def fundedRail : EntryRail := (Wallet.fundMeedLeg keyedSuite hostRail plan).2

theorem hostRail_funded :
    Wallet.fundMeedLeg keyedSuite hostRail plan = (.ok "virt-ref:0", fundedRail) := by
  have hfund : (Wallet.fundMeedLeg keyedSuite hostRail plan).1 = .ok "virt-ref:0" := by
    decide +kernel
  rw [fundedRail, ← hfund]

def meedFinalRail : EntryRail := exec (EntryRail.step keyedSuite) fundedRail [.advanceClock 120]

/-- The net is paid, and final after two minutes. -/
def paidRail : EntryRail := (Wallet.submitNetLeg meedFinalRail plan "virt-ref:0").2

theorem meedFinalRail_paid :
    Wallet.submitNetLeg meedFinalRail plan "virt-ref:0" = (.ok "virt-ref:1", paidRail) := by
  have hpaid : (Wallet.submitNetLeg meedFinalRail plan "virt-ref:0").1 = .ok "virt-ref:1" := by
    decide +kernel
  rw [paidRail, ← hpaid]

def finalRail : EntryRail := exec (EntryRail.step keyedSuite) paidRail [.advanceClock 120]

/-- The purse's purchase is redeemed. -/
theorem payment_honoured_shop : ∃ receipt rail' wal',
    merchant.redeemTwoLeg (readerOf twoLegQuote) keyedSuite (textOf twoLegQuote)
      "https://shop.example/song" "virt-ref:0" "virt-ref:1" 1000000240 .good finalRail emptyWal =
        (.ok receipt, rail', wal') ∧ receipt.nonce = twoLegQuote.nonce ∧
      rail'.entryStatus plan.instanceAddress plan.entryId = some .attested := by
  have hmirrored : Wallet.mirroredOffer twoLegQuote.offers
      (twoLegOffer twoLegParams merchant.payout) =
        some (twoLegOffer twoLegParams merchant.payout) := Wallet.mirroredOffer_singleton rfl
  have hhost : ∀ x, hostRail.hosted.lookup plan.instanceAddress = some x →
      x.purchases.merchantKey = merchant.key := by
    intro x hx
    have hkey : (hostRail.hosted.lookup plan.instanceAddress).map (·.purchases.merchantKey) =
        some merchant.key := by decide +kernel
    rw [hx] at hkey
    exact Option.some.inj hkey
  have hdeployed : hostRail = exec (EntryRail.step keyedSuite) newRail [.deployInstance instanceSeed
      (twoLegQuote.addressInputs merchant.key "usd" none)] := by
    rw [hostRail]
  have hlast : finalRail = exec (EntryRail.step keyedSuite) paidRail [.advanceClock 120] := by
    rw [finalRail]
  have hnet := meedFinalRail_paid
  rw [meedFinalRail] at hnet
  have hfinal : ∃ f, finalRail.finality "virt-ref:1" = some f ∧
      VirtualRail.Reaches f.level plan.finNet :=
    ⟨⟨"final", 1000000240⟩, by decide +kernel, 1, 1, rfl, rfl, le_rfl⟩
  have hopen : finalRail.rail.clock < twoLegQuote.exp + twoLegQuote.grace := by decide +kernel
  have hkept : finalRail.entryStatus plan.instanceAddress plan.entryId ≠ some .cancelled := by
    decide +kernel
  have hpeek : emptyWal.peek twoLegQuote.nonce
      (Merchant.twoLegRecord twoLegQuote "virt-ref:0" "virt-ref:1") = .fresh := by
    rfl
  exact Wallet.payment_honoured rfl rfl keyedSuite_signs rfl twoLegQuote_reads hmirrored.symm
    (EntryRail.new_fresh 120 ["usd"] 5) twoLegQuote_planned hdeployed hhost hostRail_funded
    hnet hlast hopen hkept hfinal hpeek rfl rfl

end Shop

end Paytp
