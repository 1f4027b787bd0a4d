import Paytp.Proofs.TillRuns

/-!
# Retries are honoured

A payment that was settled, and an attestation that was made, stay on the rail whatever becomes of
the redemption that they were made in. So a redemption that failed at the store is answered when it
is tried again, and moves nothing on the rail.
-/

namespace Paytp

open Attest Kit MerchantStore VirtualRail

namespace VirtualRail

variable {rail rail' : VirtualRail} {transfer : Transfer} {settleId : ByteArr 32} {r : String}

/-- What a settlement under a new id leaves on the rail. -/
theorem settle_new (hnew : rail.settleIds.lookup settleId = none)
    (h : rail.settle transfer settleId = (.ok r, rail')) :
    r = refId rail.nextRef ∧ rail'.settleIds.lookup settleId = some r ∧
      rail'.finalityDelay = rail.finalityDelay ∧ rail'.refs.lookup r = some (rail.clock,
        ⟨transfer.dest, transfer.asset, transfer.amount, transfer.memo, none, r⟩) := by
  have hlater := rail.settle_later transfer settleId
  rw [h] at hlater
  unfold settle at h
  rw [hnew] at h
  dsimp only at h
  split_ifs at h
  · simp at h
  · rcases hpay : rail.recordPayment transfer with ⟨e | id, after⟩ <;> rw [hpay] at h
    · simp at h
    · obtain ⟨hid, hrail⟩ := Prod.mk.inj h
      obtain rfl := Except.ok.inj hid
      obtain ⟨href, hlook⟩ := recordPayment_ok hpay
      refine ⟨href, ?_, hlater.delay, ?_⟩
      · rw [← hrail]
        exact Finmap.lookup_insert _
      · rw [← hrail]
        exact hlook

/-- Under an id that was settled, nothing moves. -/
theorem settle_settled (h : rail.settleIds.lookup settleId = some r) (transfer : Transfer) :
    rail.settle transfer settleId = (.ok r, rail) := by
  unfold settle
  rw [h]

end VirtualRail

namespace Merchant

variable {codec : TextCodec} {suite : Suite} {m : Merchant} {rail rail' : EntryRail}
  {wal wal' : Wal ReceiptRest} {json resource : String} {now : ℕ} {io : AppendIo}

theorem redeemBaseline_later (transfer : Transfer) (settleId : ByteArr 32) (rail : VirtualRail) :
    rail.Later
      (m.redeemBaseline codec suite json resource transfer settleId now io rail wal).2.1 := by
  have hlater := rail.settle_later transfer settleId
  rcases hterms : m.baselineTerms codec suite json resource with e | t
  · rw [redeemBaseline_refused _ _ _ hterms]
    exact .refl rail
  · rw [redeemBaseline_of_terms _ _ _ hterms]
    unfold redeemTerms
    split_ifs
    · exact .refl rail
    · rcases hsettle : rail.settle transfer settleId with ⟨e | paymentRef, r⟩ <;>
        rw [hsettle] at hlater
      · exact hlater
      · dsimp only
        rcases confirmBaseline t r paymentRef now with e | canonical
        · exact hlater
        · exact hlater

/-- A call under an id that was settled leaves the rail as it is. -/
theorem redeemBaseline_unmoved {settleId : ByteArr 32} {rail : VirtualRail} {r : String}
    (h : rail.settleIds.lookup settleId = some r) (transfer : Transfer) :
    (m.redeemBaseline codec suite json resource transfer settleId now io rail wal).2.1 = rail := by
  rcases hterms : m.baselineTerms codec suite json resource with e | t
  · rw [redeemBaseline_refused _ _ _ hterms]
  · rw [redeemBaseline_of_terms _ _ _ hterms]
    unfold redeemTerms
    split_ifs
    · rfl
    · rw [settle_settled h]
      dsimp only
      rcases confirmBaseline t rail r now with e | canonical <;> rfl

/-- A call that settles leaves the rail as the settlement does, whatever it answers. -/
theorem redeemBaseline_settles {t : BaselineTerms} {transfer : Transfer} {settleId : ByteArr 32}
    {rail r : VirtualRail} {paymentRef : String}
    (hterms : m.baselineTerms codec suite json resource = .ok t)
    (hpays : t.paidBy transfer = true)
    (hsettle : rail.settle transfer settleId = (.ok paymentRef, r)) :
    (m.redeemBaseline codec suite json resource transfer settleId now io rail wal).2.1 = r := by
  rw [redeemBaseline_of_terms _ _ _ hterms]
  unfold redeemTerms
  rw [hpays, hsettle]
  dsimp only [Bool.not_true]
  rcases confirmBaseline t r paymentRef now with e | canonical <;> rfl

/-- A settlement that is final in time is confirmed. -/
theorem confirmBaseline_ok {t : BaselineTerms} {transfer : Transfer} {rail : VirtualRail}
    {paymentRef : String} {n time : ℕ} (hplain : paymentRef = refId n)
    (hpays : t.paidBy transfer = true) (hlevel : t.requiredFinality ∈ finalityLevels)
    (hlook : rail.refs.lookup paymentRef = some (time,
      ⟨transfer.dest, transfer.asset, transfer.amount, transfer.memo, none, paymentRef⟩))
    (hin : time + rail.finalityDelay ≤ t.quote.honorDeadline)
    (hfinal : time + rail.finalityDelay ≤ rail.clock) :
    confirmBaseline t rail paymentRef now = .ok paymentRef := by
  have hf : rail.finality paymentRef = some ⟨"final", time + rail.finalityDelay⟩ := by
    rw [finality_of_refs hlook, if_pos hfinal]
  have hreaches : Reaches "final" t.requiredFinality := by
    obtain ⟨j, hj⟩ := Option.isSome_iff_exists.1 (List.isSome_idxOf?.2 hlevel)
    have hlt : j < finalityLevels.length := (List.findIdx?_eq_some_iff_getElem.1 hj).1
    exact ⟨1, j, rfl, hj, Nat.le_of_lt_succ hlt⟩
  have htarget : rail.refTarget paymentRef = some
      ⟨transfer.dest, transfer.asset, transfer.amount, transfer.memo, none, paymentRef⟩ := by
    unfold VirtualRail.refTarget
    rw [hlook]
    rfl
  unfold confirmBaseline
  simp only [bind_eq_ok, okOr_eq_ok, require_eq_ok, pure_eq_ok]
  refine ⟨_, hf, ⟨⟩, legFinal_ok hreaches hin, _, htarget, ⟨⟩, hpays, ⟨⟩, ?_, rfl⟩
  dsimp only
  rw [hplain, refId_plain]
  rfl

theorem settleTwoLeg_later {q : Quote} {t : TwoLegTerms} {meedRef netRef : String}
    (h : m.settleTwoLeg suite q meedRef netRef now rail = .ok (t, rail')) : rail.Later rail' := by
  unfold settleTwoLeg at h
  simp only [bind_eq_ok, pure_eq_ok] at h
  obtain ⟨t', -, ⟨⟩, -, rail₁, hattest, heq⟩ := h
  obtain ⟨rfl, rfl⟩ := Prod.mk.inj heq
  exact (attest_attested hattest).1

theorem redeemTwoLeg_later (meedRef netRef : String) (rail : EntryRail) :
    rail.Later (m.redeemTwoLeg codec suite json resource meedRef netRef now io rail wal).2.1 := by
  unfold redeemTwoLeg
  rcases m.acceptTwoLeg codec suite json resource with e | q
  · exact .refl rail
  · dsimp only
    split_ifs
    · exact .refl rail
    · rcases wal.peek q.nonce (twoLegRecord q meedRef netRef) with _ | stored | _
      · rcases hsettle : m.settleTwoLeg suite q meedRef netRef now rail with e | ⟨t, rail₁⟩
        · exact .refl rail
        · exact settleTwoLeg_later hsettle
      · exact .refl rail
      · exact .refl rail

/-- What a settlement in two legs found on the rail, for good. -/
structure TwoLegSettled (suite : Suite) (t : TwoLegTerms) (meedRef netRef : String)
    (rail : EntryRail) : Prop where
  fresh : rail.Fresh
  funds : rail.fundsEntry.lookup meedRef = some (t.entryId suite)
  meed : ∃ info, rail.rail.InTime meedRef t.finMeed t.quote.honorDeadline info ∧
    info.asset = t.baselineAsset ∧ info.memo = some t.quote.nonce
  net : ∃ info, rail.rail.InTime netRef t.finNet t.quote.honorDeadline info ∧
    info.dest = t.netPayTo ∧ info.asset = t.netAsset ∧ t.netAmount ≤ info.amount ∧
    info.memo = some t.quote.nonce
  attested : rail.entryStatus t.instanceAddr (t.entryId suite) = some .attested

section TwoLeg

variable {t : TwoLegTerms} {q : Quote} {meedRef netRef : String}

theorem confirmLeg_inTime {reference required : String} {deadline : ℕ} {info : RefInfo}
    (htarget : rail.refTarget reference = some info)
    (h : confirmLeg rail reference required deadline now = .ok ()) :
    rail.rail.InTime reference required deadline info := by
  unfold confirmLeg at h
  simp only [bind_eq_ok, okOr_eq_ok] at h
  obtain ⟨f, hfinality, hlegal⟩ := h
  exact inTime_of_legFinal hfinality htarget hlegal

theorem settleTwoLeg_settled (hfresh : rail.Fresh)
    (h : m.settleTwoLeg suite q meedRef netRef now rail = .ok (t, rail')) :
    m.twoLegTerms suite q = .ok t ∧ TwoLegSettled suite t meedRef netRef rail' := by
  unfold settleTwoLeg at h
  simp only [bind_eq_ok, pure_eq_ok] at h
  obtain ⟨t', hterms, ⟨⟩, hconfirm, rail₁, hattest, heq⟩ := h
  obtain ⟨rfl, rfl⟩ := Prod.mk.inj heq
  obtain ⟨hlater, hattested⟩ := attest_attested hattest
  unfold confirmTwoLeg at hconfirm
  simp only [bind_eq_ok, okOr_eq_ok, require_eq_ok, Bool.not_eq_true', Bool.or_eq_false_iff,
    bne_eq_false_iff_eq, decide_eq_false_iff_not, not_lt] at hconfirm
  obtain ⟨ri, hri, ⟨⟩, ⟨⟨hfunds, hasset⟩, hmemo⟩, ⟨⟩, hmeed, ⟨⟩, -, ⟨⟩, hnet, ni, hni,
    ⟨⟨hdest, hnetAsset⟩, hamount⟩, hnetMemo⟩ := hconfirm
  refine ⟨hterms, hlater.keepsFresh hfresh, hlater.funds hfresh _ _ hfunds, ⟨ri, ?_, hasset, hmemo⟩,
    ⟨ni, ?_, hdest, hnetAsset, hamount, hnetMemo⟩, hattested⟩
  · exact (confirmLeg_inTime hri hmeed).later hfresh.refs hlater.rail
  · exact (confirmLeg_inTime hni hnet).later hfresh.refs hlater.rail

theorem TwoLegSettled.later (h : TwoLegSettled suite t meedRef netRef rail)
    (hlater : rail.Later rail') : TwoLegSettled suite t meedRef netRef rail' := by
  obtain ⟨ri, hmeed, hri⟩ := h.meed
  obtain ⟨ni, hnet, hni⟩ := h.net
  exact ⟨hlater.keepsFresh h.fresh, hlater.funds h.fresh _ _ h.funds,
    ⟨ri, hmeed.later h.fresh.refs hlater.rail, hri⟩, ⟨ni, hnet.later h.fresh.refs hlater.rail, hni⟩,
    attested_later h.attested hlater⟩

theorem InTime.confirmed (now : ℕ) {reference : String} {deadline : ℕ} {info : RefInfo}
    (h : rail.rail.InTime reference "final" deadline info) :
    rail.refTarget reference = some info ∧
      confirmLeg rail reference "final" deadline now = .ok () := by
  obtain ⟨time, hlook, -, hlevel⟩ := h
  obtain ⟨hin, hpast⟩ : time + rail.rail.finalityDelay ≤ deadline ∧
      time + rail.rail.finalityDelay ≤ rail.rail.clock := by
    simpa using hlevel
  refine ⟨?_, confirmLeg_ok hlook hin ⟨_, finality_of_refs hlook, ?_⟩⟩
  · unfold EntryRail.refTarget VirtualRail.refTarget
    rw [hlook]
    rfl
  · rw [if_pos hpast]
    exact ⟨1, 1, rfl, rfl, le_rfl⟩

/-- What was settled with the strongest finality is settled again, and nothing moves. -/
theorem TwoLegSettled.again (h : TwoLegSettled suite t meedRef netRef rail)
    (hterms : m.twoLegTerms suite q = .ok t) (hmeed : t.finMeed = "final")
    (hnet : t.finNet = "final") :
    m.settleTwoLeg suite q meedRef netRef now rail = .ok (t, rail) := by
  obtain ⟨ri, hmeedTime, hasset, hmemo⟩ := h.meed
  obtain ⟨ni, hnetTime, hdest, hnetAsset, hamount, hnetMemo⟩ := h.net
  rw [hmeed] at hmeedTime
  rw [hnet] at hnetTime
  obtain ⟨hri, hmeedLeg⟩ := InTime.confirmed now hmeedTime
  obtain ⟨hni, hnetLeg⟩ := InTime.confirmed now hnetTime
  obtain ⟨hstands, hattest⟩ :
      entryStands suite t rail now = true ∧ m.attest suite t rail = .ok rail :=
    attest_again h.attested
  unfold settleTwoLeg confirmTwoLeg
  simp only [bind_eq_ok, okOr_eq_ok, require_eq_ok, pure_eq_ok]
  refine ⟨t, hterms, ⟨⟩, ⟨ri, hri, ⟨⟩, ?_, ⟨⟩, ?_, ⟨⟩, hstands, ⟨⟩, ?_, ni, hni, ?_⟩, rail, hattest,
    rfl⟩
  · rw [h.funds, hasset, hmemo]
    simp
  · rw [hmeed]
    exact hmeedLeg
  · rw [hnet]
    exact hnetLeg
  · rw [hdest, hnetAsset, hnetMemo]
    simpa using hamount

/-- Only the store is unavailable. -/
theorem settleTwoLeg_error {e : RedeemError} (hterms : m.twoLegTerms suite q = .ok t)
    (h : m.settleTwoLeg suite q meedRef netRef now rail = .error e) : e ≠ .storeUnavailable := by
  have hleg : ∀ {reference required deadline},
      confirmLeg rail reference required deadline now = .error e → e ≠ .storeUnavailable := by
    intro reference required deadline hleg
    unfold confirmLeg legFinal at hleg
    simp only [bind_eq_error, okOr_eq_error, require_eq_error] at hleg
    rcases hleg with ⟨-, rfl⟩ | ⟨f, -, ⟨-, rfl⟩ | ⟨-, -, -, rfl⟩⟩
    · simp
    · split_ifs <;> simp
    · simp
  have hconfirm : confirmTwoLeg suite t rail meedRef netRef now = .error e →
      e ≠ .storeUnavailable := by
    intro hconfirm
    unfold confirmTwoLeg at hconfirm
    simp only [bind_eq_error, okOr_eq_error, require_eq_error] at hconfirm
    rcases hconfirm with ⟨-, rfl⟩ | ⟨ri, -, ⟨-, rfl⟩ | ⟨-, -, hmeed | ⟨-, -, ⟨-, rfl⟩ |
      ⟨-, -, hnet | ⟨-, -, ⟨-, rfl⟩ | ⟨ni, -, -, rfl⟩⟩⟩⟩⟩⟩
    · simp
    · simp
    · exact hleg hmeed
    · simp
    · exact hleg hnet
    · simp
    · simp
  unfold settleTwoLeg at h
  rw [hterms] at h
  simp only [bind_eq_error] at h
  rcases h with h | ⟨t', ht, h | ⟨-, -, h | ⟨rail', -, h⟩⟩⟩
  · cases h
  · obtain rfl := Except.ok.inj ht
    exact hconfirm h
  · unfold attest at h
    dsimp only at h
    rcases hattest : rail.attestEntry suite t'.instanceAddr (t'.entryId suite)
      (Signed.create suite .attestation t'.quote.nonce (t'.entryId suite) m.signingKey)
      with err | after
    · rw [hattest] at h
      dsimp only at h
      split_ifs at h
      obtain rfl := Except.error.inj h
      simp
    · rw [hattest] at h
      cases h
  · cases h

end TwoLeg

/-- A decision that no other one is in the way of is answered. -/
theorem consumeNonce_answers {nonce : ByteArr 32} {record : NonceRecord} {receipt : Receipt}
    (hclean : wal.poisoned = false) (hpeek : wal.peek nonce record ≠ .replayed)
    (hio : io.ok = true) : ∃ receipt' wal', wal.consumeNonce (Receipt.form codec suite) nonce record
      (fun u => (receipt, u)) () io = (.ok receipt', (), wal') := by
  unfold MerchantStore.Books.peek at hpeek
  rcases hn : wal.byNonce.lookup nonce with _ | ⟨stored, kept⟩ <;> rw [hn] at hpeek
  · dsimp only at hpeek
    split_ifs at hpeek with hused
    · exact (hpeek rfl).elim
    · refine ⟨_, _, Wal.consumeNonce_new _ _ hclean hn (fun key hkey hmem => hused ?_) hio⟩
      exact List.any_eq_true.2 ⟨key, hkey, by simpa using hmem⟩
  · dsimp only at hpeek
    split_ifs at hpeek with hrecord
    · exact ⟨kept, wal, by simp [Wal.consumeNonce, hclean, hn, hrecord]⟩
    · exact (hpeek rfl).elim

end Merchant

namespace Till

variable {codec : TextCodec} {suite : Suite} {m : Merchant}

theorem step_later (s : Till) (e : Event) : s.rail.Later (step codec suite m s e).1.rail := by
  obtain ⟨rail, store⟩ := s
  rcases e with op | ⟨json, resource, transfer, settleId, now, io⟩ |
    ⟨json, resource, meedRef, netRef, now, io⟩ | _ | io
  case onRail => exact EntryRail.step_later op
  case redeemBaseline =>
    rcases store with disk | wal
    · exact .refl rail
    · exact .of_hosted (.of_rail (Merchant.redeemBaseline_later transfer settleId rail.rail))
  case redeemTwoLeg =>
    rcases store with disk | wal
    · exact .refl rail
    · exact Merchant.redeemTwoLeg_later meedRef netRef rail
  case crash => rcases store with disk | wal <;> exact .refl rail
  case reopen =>
    rcases store with disk | wal
    · unfold step
      dsimp only
      rcases openLog (Receipt.form codec suite) m.key disk io with ⟨disk', e | wal⟩ <;>
        exact .refl rail
    · exact .refl rail

theorem exec_later : ∀ (s : Till) (es : List Event),
    s.rail.Later (exec (step codec suite m) s es).rail
  | s, [] => .refl s.rail
  | s, e :: es => (step_later s e).trans (exec_later (step codec suite m s e).1 es)

/-- A call that settled a payment early enough is answered with a receipt when it is made again, at
any time after the payment became final and whatever was done meanwhile, if the store is open then
and decided nothing else; and no call under its id moves anything again. -/
theorem baseline_retried {s : Till} (hfresh : s.rail.Fresh) {wal₀ : Wal ReceiptRest}
    (hstore : s.store = .up wal₀) {json resource : String} {t : Merchant.BaselineTerms}
    (hterms : m.baselineTerms codec suite json resource = .ok t) {transfer : Transfer}
    (hpays : t.paidBy transfer = true) (hlevel : t.requiredFinality ∈ finalityLevels)
    {settleId : ByteArr 32} (hnew : s.rail.rail.settleIds.lookup settleId = none)
    {paymentRef : String} {r : VirtualRail}
    (hsettle : s.rail.rail.settle transfer settleId = (.ok paymentRef, r))
    (hin : s.rail.rail.clock + s.rail.rail.finalityDelay ≤ t.quote.honorDeadline)
    (now₀ : ℕ) (io₀ : AppendIo) (es : List Event) {s' : Till}
    (hrun : s' = exec (step codec suite m) (step codec suite m s
      (.redeemBaseline json resource transfer settleId now₀ io₀)).1 es) :
    (∀ json' resource' transfer' now io, (step codec suite m s'
      (.redeemBaseline json' resource' transfer' settleId now io)).1.rail = s'.rail) ∧
    ∀ wal now io, s'.store = .up wal → wal.poisoned = false →
      wal.peek t.quote.nonce (t.record paymentRef) ≠ .replayed → io.ok = true →
      s.rail.rail.clock + s.rail.rail.finalityDelay ≤ s'.rail.rail.clock →
      ∃ receipt, (step codec suite m s'
        (.redeemBaseline json resource transfer settleId now io)).2 = some (.ok receipt) := by
  obtain ⟨href, hid, hdelay, hlook⟩ := settle_new hnew hsettle
  have hr : s.rail.rail.Later r := by
    have hlater := s.rail.rail.settle_later transfer settleId
    rwa [hsettle] at hlater
  obtain ⟨store, hfirst⟩ : ∃ store, (step codec suite m s
      (.redeemBaseline json resource transfer settleId now₀ io₀)).1 =
        ⟨{ s.rail with rail := r }, store⟩ := by
    refine ⟨.up (m.redeemBaseline codec suite json resource transfer settleId now₀ io₀ s.rail.rail
      wal₀).2.2, ?_⟩
    unfold step redeemBaseline
    rw [hstore]
    dsimp only
    rw [Merchant.redeemBaseline_settles hterms hpays hsettle]
  rw [hfirst] at hrun
  have hlater : r.Later s'.rail.rail := by
    rw [hrun]
    exact (@exec_later codec suite m ⟨{ s.rail with rail := r }, store⟩ es).rail
  have hid' := hlater.settleIds settleId paymentRef hid
  refine ⟨fun json' resource' transfer' now io => ?_,
    fun wal now io hup hclean hpeek hio hclock => ?_⟩
  · unfold step redeemBaseline
    rcases s'.store with disk | wal
    · rfl
    · dsimp only
      rw [Merchant.redeemBaseline_unmoved hid']
  · have hlook' := hlater.refs (hr.fresh hfresh.refs) _ _ hlook
    have hconfirm : Merchant.confirmBaseline t s'.rail.rail paymentRef now = .ok paymentRef :=
      Merchant.confirmBaseline_ok href hpays hlevel hlook'
        (by rw [hlater.delay, hdelay]; exact hin) (by rw [hlater.delay, hdelay]; exact hclock)
    obtain ⟨receipt, wal', hconsume⟩ := @Merchant.consumeNonce_answers codec suite wal io _ _
      (m.baselineReceipt codec suite t paymentRef now) hclean hpeek hio
    refine ⟨receipt, ?_⟩
    unfold step redeemBaseline
    rw [hup]
    dsimp only
    rw [Merchant.redeemBaseline_of_terms _ _ _ hterms]
    unfold Merchant.redeemTerms
    rw [hpays, settle_settled hid']
    simp only [Bool.not_true, Bool.false_eq_true, if_false, hconfirm, hconsume]
    rfl

/-- What a call in two legs did on the rail before it failed at the store. -/
theorem twoLeg_failed {s : Till} {json resource meedRef netRef : String} {q : Quote}
    {t : Merchant.TwoLegTerms} (haccept : m.acceptTwoLeg codec suite json resource = .ok q)
    (hterms : m.twoLegTerms suite q = .ok t) {now : ℕ} {io : AppendIo}
    (h : (step codec suite m s (.redeemTwoLeg json resource meedRef netRef now io)).2 =
      some (.error .storeUnavailable)) :
    (Merchant.hasReservedRefDelimiter meedRef || Merchant.hasReservedRefDelimiter netRef) = false ∧
      m.settleTwoLeg suite q meedRef netRef now s.rail = .ok (t,
        (step codec suite m s (.redeemTwoLeg json resource meedRef netRef now io)).1.rail) := by
  obtain ⟨rail, store⟩ := s
  unfold step Merchant.redeemTwoLeg at h ⊢
  rcases store with disk | wal
  · simp at h
  · simp only [haccept] at h ⊢
    split_ifs at h ⊢ with hplain
    · simp at h
    · refine ⟨by simpa using hplain, ?_⟩
      rcases hpeek : wal.peek q.nonce (Merchant.twoLegRecord q meedRef netRef)
        with _ | stored | _ <;>
        simp only [hpeek] at h ⊢
      · rcases hsettle : m.settleTwoLeg suite q meedRef netRef now rail with e | ⟨t', rail'⟩ <;>
          simp only [hsettle] at h ⊢
        · exact (Merchant.settleTwoLeg_error hterms hsettle (by simpa using h)).elim
        · unfold Merchant.settleTwoLeg at hsettle
          simp only [bind_eq_ok, pure_eq_ok, hterms, Prod.mk.injEq] at hsettle
          obtain ⟨t'', ht, ⟨⟩, -, rail'', -, rfl, -⟩ := hsettle
          rw [Except.ok.inj ht]
      · simp at h
      · simp at h

/-- A call in two legs that failed at the store is answered with a receipt when it is made again, if
the strongest finality was quoted for both legs, whatever was done meanwhile, and if the store is
open then and decided nothing else; and it moves nothing on the rail again. -/
theorem twoLeg_retried {s : Till} (hfresh : s.rail.Fresh) {json resource meedRef netRef : String}
    {q : Quote} {t : Merchant.TwoLegTerms}
    (haccept : m.acceptTwoLeg codec suite json resource = .ok q)
    (hterms : m.twoLegTerms suite q = .ok t) (hmeed : t.finMeed = "final")
    (hnet : t.finNet = "final") {now₀ : ℕ} {io₀ : AppendIo}
    (hfailed : (step codec suite m s (.redeemTwoLeg json resource meedRef netRef now₀ io₀)).2 =
      some (.error .storeUnavailable))
    (es : List Event) {s' : Till}
    (hrun : s' = exec (step codec suite m) (step codec suite m s
      (.redeemTwoLeg json resource meedRef netRef now₀ io₀)).1 es)
    {wal : Wal ReceiptRest} (hup : s'.store = .up wal) (hclean : wal.poisoned = false)
    (hpeek : wal.peek q.nonce (Merchant.twoLegRecord q meedRef netRef) ≠ .replayed)
    (now : ℕ) {io : AppendIo} (hio : io.ok = true) :
    ∃ receipt, (step codec suite m s' (.redeemTwoLeg json resource meedRef netRef now io)).2 =
        some (.ok receipt) ∧
      (step codec suite m s' (.redeemTwoLeg json resource meedRef netRef now io)).1.rail =
        s'.rail := by
  obtain ⟨hplain, hsettle⟩ := twoLeg_failed haccept hterms hfailed
  have hlater := @exec_later codec suite m (step codec suite m s
    (.redeemTwoLeg json resource meedRef netRef now₀ io₀)).1 es
  rw [← hrun] at hlater
  have hagain : m.settleTwoLeg suite q meedRef netRef now s'.rail = .ok (t, s'.rail) :=
    ((Merchant.settleTwoLeg_settled hfresh hsettle).2.later hlater).again hterms hmeed hnet
  unfold step Merchant.redeemTwoLeg
  rw [hup]
  simp only [haccept, hplain, Bool.false_eq_true, if_false]
  rcases hfound : wal.peek q.nonce (Merchant.twoLegRecord q meedRef netRef) with _ | stored | _
  · simp only [hagain]
    obtain ⟨receipt, wal', hconsume⟩ := @Merchant.consumeNonce_answers codec suite wal io _ _
      (m.twoLegReceipt codec suite t meedRef netRef now) hclean hpeek hio
    exact ⟨receipt, by rw [hconsume]; rfl, trivial⟩
  · exact ⟨stored, rfl, rfl⟩
  · exact (hpeek hfound).elim

end Till

namespace Shop

/-- An append that lands nothing, and is cut back. -/
def fullDisk : AppendIo := ⟨some 0, false, true, true⟩

theorem emptyWal_full {form : ReceiptForm ReceiptRest} (nonce : ByteArr 32) (record : NonceRecord)
    (build : Unit → Receipt × Unit) : emptyWal.consumeNonce form nonce record build () fullDisk =
      (.error .unavailable, (), emptyWal) := by
  have hused : (usedRefKeys record.paymentRef).any (· ∈ emptyWal.usedRefs) = false := by
    simp [emptyWal, MerchantStore.Books.empty]
  have hfree : emptyWal.byNonce.lookup nonce = none := Finmap.lookup_empty _
  have hclean : emptyWal.poisoned = false := rfl
  unfold Wal.consumeNonce
  simp only [hclean, hfree, hused, Bool.false_eq_true, if_false]
  rfl

theorem emptyWal_peek (nonce : ByteArr 32) (record : NonceRecord) :
    emptyWal.peek nonce record = .fresh := by
  have hfree : emptyWal.byNonce.lookup nonce = none := Finmap.lookup_empty _
  unfold MerchantStore.Books.peek
  rw [hfree]
  simp [emptyWal, MerchantStore.Books.empty]

/-- The payment of the quote was settled as the disk was full. -/
def shortOfDisk : Till := ⟨{ newRail with rail := start }, .up emptyWal⟩

/-- The call is answered once the disk has room, and no other call under its id moves anything. -/
theorem baseline_retried_shop : ∃ s' receipt,
    s' = (Till.step (readerOf quote) keyedSuite merchant shortOfDisk
      (.redeemBaseline (textOf quote) "https://shop.example/song" transfer (.ofNat 32 1) 1000
        fullDisk)).1 ∧
    (Till.step (readerOf quote) keyedSuite merchant s'
      (.redeemBaseline (textOf quote) "https://shop.example/song" transfer (.ofNat 32 1) 1060
        .good)).2 = some (.ok receipt) ∧
    (Till.step (readerOf quote) keyedSuite merchant s'
      (.redeemBaseline (textOf quote) "https://shop.example/song" transfer (.ofNat 32 1) 1060
        .good)).1.rail = s'.rail := by
  obtain ⟨rail, hsettle, hconfirm⟩ := transfer_settled
  have hpays : terms.paidBy transfer = true := rfl
  have hrefused : merchant.redeemBaseline (readerOf quote) keyedSuite (textOf quote)
      "https://shop.example/song" transfer (.ofNat 32 1) 1000 fullDisk start emptyWal =
        (.error .storeUnavailable, rail, emptyWal) := by
    rw [Merchant.redeemBaseline_of_terms _ _ _ quote_terms]
    unfold Merchant.redeemTerms
    simp only [hpays, hsettle, hconfirm, Bool.not_true, Bool.false_eq_true, if_false, emptyWal_full]
    rfl
  have hfresh : shortOfDisk.rail.Fresh := till_fresh
  generalize hs : Till.step (readerOf quote) keyedSuite merchant shortOfDisk
    (.redeemBaseline (textOf quote) "https://shop.example/song" transfer (.ofNat 32 1) 1000
      fullDisk) = first
  have hfirst : first = (⟨{ newRail with rail := rail }, .up emptyWal⟩,
      some (.error .storeUnavailable)) := by
    rw [← hs, shortOfDisk]
    exact @Till.step_redeemBaseline _ _ _ { newRail with rail := start } _ _ _ _ _ _ _ _ _ _
      hrefused
  have hclock : shortOfDisk.rail.rail.clock + shortOfDisk.rail.rail.finalityDelay ≤
      first.1.rail.rail.clock := by
    rw [← hs]
    exact (Till.step_later shortOfDisk _).rail.clock
  have hpeek : emptyWal.peek terms.quote.nonce (terms.record "virt-ref:0") ≠ .replayed := by
    rw [emptyWal_peek]
    simp
  have hin : shortOfDisk.rail.rail.clock + shortOfDisk.rail.rail.finalityDelay ≤
      terms.quote.honorDeadline := by decide +kernel
  obtain ⟨hunmoved, hanswered⟩ := Till.baseline_retried hfresh rfl quote_terms hpays
    (by decide : "final" ∈ VirtualRail.finalityLevels) (Finmap.lookup_empty _) hsettle
    hin 1000 fullDisk [] (by rw [hs, exec])
  obtain ⟨receipt, hreceipt⟩ := hanswered emptyWal 1060 .good (by rw [hfirst]) rfl hpeek rfl hclock
  exact ⟨first.1, receipt, rfl, hreceipt, hunmoved _ _ _ _ _⟩

theorem twoLegQuote_accepted : merchant.acceptTwoLeg (readerOf twoLegQuote) keyedSuite
    (textOf twoLegQuote) "https://shop.example/song" = .ok twoLegQuote := by
  unfold Merchant.acceptTwoLeg
  simp only [bind_eq_ok, okOr_eq_ok, require_eq_ok, pure_eq_ok]
  exact ⟨twoLegQuote, twoLegQuote_reads, ⟨⟩, by decide +kernel, ⟨⟩, by decide +kernel, ⟨⟩,
    by decide +kernel, rfl⟩

theorem finalRail_fresh : finalRail.Fresh := by
  have hnew : newRail.Fresh := EntryRail.new_fresh 120 ["usd"] 5
  have hhost : newRail.Later hostRail := by
    rw [hostRail]
    exact EntryRail.exec_later _ _
  have hfunded := EntryRail.fundEntry_later (Wallet.fundMeedLeg_ok hostRail_funded).2
  dsimp only at hfunded
  have hmeed : fundedRail.Later meedFinalRail := by
    rw [meedFinalRail]
    exact EntryRail.exec_later _ _
  have hpaid : meedFinalRail.Later paidRail := (Wallet.submitNetLeg_paid meedFinalRail_paid).1
  have hfinal : paidRail.Later finalRail := by
    rw [finalRail]
    exact EntryRail.exec_later _ _
  exact ((((hhost.trans hfunded).trans hmeed).trans hpaid).trans hfinal).keepsFresh hnew

/-- Both legs of the purchase are final, and the disk is full. -/
def paidTill : Till := ⟨finalRail, .up emptyWal⟩

/-- The call in two legs is answered once the disk has room, and moves nothing again. -/
theorem twoLeg_retried_shop : ∃ s' receipt,
    s' = (Till.step (readerOf twoLegQuote) keyedSuite merchant paidTill (.redeemTwoLeg
      (textOf twoLegQuote) "https://shop.example/song" "virt-ref:0" "virt-ref:1" 1000000240
        fullDisk)).1 ∧
    (Till.step (readerOf twoLegQuote) keyedSuite merchant s' (.redeemTwoLeg
      (textOf twoLegQuote) "https://shop.example/song" "virt-ref:0" "virt-ref:1" 1000000260
        .good)).2 = some (.ok receipt) ∧
    (Till.step (readerOf twoLegQuote) keyedSuite merchant s' (.redeemTwoLeg
      (textOf twoLegQuote) "https://shop.example/song" "virt-ref:0" "virt-ref:1" 1000000260
        .good)).1.rail = s'.rail := by
  have hsettles : (merchant.settleTwoLeg keyedSuite twoLegQuote "virt-ref:0" "virt-ref:1" 1000000240
      finalRail).isOk = true := by decide +kernel
  obtain ⟨⟨t, rail⟩, hsettle⟩ : ∃ x, merchant.settleTwoLeg keyedSuite twoLegQuote "virt-ref:0"
      "virt-ref:1" 1000000240 finalRail = .ok x := by
    rcases hx : merchant.settleTwoLeg keyedSuite twoLegQuote "virt-ref:0" "virt-ref:1" 1000000240
      finalRail with e | x
    · rw [hx] at hsettles
      cases hsettles
    · exact ⟨x, rfl⟩
  obtain ⟨hterms, -⟩ := Merchant.settleTwoLeg_settled finalRail_fresh hsettle
  have hlevels : (merchant.twoLegTerms keyedSuite twoLegQuote).map
      (fun t => (t.finMeed, t.finNet)) = .ok ("final", "final") := by decide +kernel
  rw [hterms] at hlevels
  obtain ⟨hmeed, hnet⟩ := Prod.mk.inj (Except.ok.inj hlevels)
  have hplain : (Merchant.hasReservedRefDelimiter "virt-ref:0" ||
      Merchant.hasReservedRefDelimiter "virt-ref:1") = false := by decide
  have hrefused : merchant.redeemTwoLeg (readerOf twoLegQuote) keyedSuite (textOf twoLegQuote)
      "https://shop.example/song" "virt-ref:0" "virt-ref:1" 1000000240 fullDisk finalRail emptyWal =
        (.error .storeUnavailable, rail, emptyWal) :=
    Merchant.redeemTwoLeg_of_settled twoLegQuote_accepted hplain (emptyWal_peek _ _) hsettle
      (emptyWal_full _ _ _)
  generalize hs : Till.step (readerOf twoLegQuote) keyedSuite merchant paidTill (.redeemTwoLeg
    (textOf twoLegQuote) "https://shop.example/song" "virt-ref:0" "virt-ref:1" 1000000240
      fullDisk) = first
  have hfailed : first = (⟨rail, .up emptyWal⟩, some (.error .storeUnavailable)) := by
    rw [← hs, paidTill]
    exact Till.step_redeemTwoLeg hrefused
  have hpeek : emptyWal.peek twoLegQuote.nonce
      (Merchant.twoLegRecord twoLegQuote "virt-ref:0" "virt-ref:1") ≠ .replayed := by
    rw [emptyWal_peek]
    simp
  have hfresh : paidTill.rail.Fresh := by
    rw [paidTill]
    exact finalRail_fresh
  obtain ⟨receipt, hanswer, hunmoved⟩ := Till.twoLeg_retried hfresh
    twoLegQuote_accepted hterms hmeed hnet (by rw [hs, hfailed]) [] (by rw [hs, exec])
    (by rw [hfailed]) rfl hpeek 1000000260 (rfl : AppendIo.good.ok = true)
  exact ⟨first.1, receipt, rfl, hanswer, hunmoved⟩

end Shop

end Paytp
