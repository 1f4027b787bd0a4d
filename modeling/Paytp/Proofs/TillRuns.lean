import Paytp.Proofs.Honoured
import Paytp.Proofs.StoredReceipts
import Paytp.Till

/-!
# What a receipt stands for

Whatever is done at the till and on the rail, a nonce that the store holds was consumed on
evidence that stays: the payment of a split was recorded early enough, or the entry of a purchase
in two legs is attested for good and the net leg was recorded early enough. The receipts for one
nonce have the same bytes, and those for two nonces share no reference.
-/

namespace Paytp

open Attest Kit MerchantStore

namespace VirtualRail

variable {rail rail' : VirtualRail} {r required : String} {deadline : ℕ} {info : RefInfo}

/-- What a reference was recorded for reached the required finality, in time. -/
def InTime (rail : VirtualRail) (r required : String) (deadline : ℕ) (info : RefInfo) : Prop :=
  ∃ time, rail.refs.lookup r = some (time, info) ∧ time ≤ deadline ∧
    (required = "pending" ∨ required = "final" ∧ time + rail.finalityDelay ≤ deadline ∧
      time + rail.finalityDelay ≤ rail.clock)

theorem InTime.later (h : rail.InTime r required deadline info) (hf : rail.Fresh)
    (hlater : rail.Later rail') : rail'.InTime r required deadline info := by
  obtain ⟨time, hlook, htime, hlevel⟩ := h
  refine ⟨time, hlater.refs hf r _ hlook, htime, hlevel.imp_right fun hfinal => ?_⟩
  rw [hlater.delay]
  exact ⟨hfinal.1, hfinal.2.1, hfinal.2.2.trans hlater.clock⟩

/-- A leg that the merchant takes to be final is final in time. -/
theorem inTime_of_legFinal {f : Finality} {now : ℕ} (hf : rail.finality r = some f)
    (htarget : rail.refTarget r = some info)
    (h : Merchant.legFinal f required deadline now = .ok ()) :
    rail.InTime r required deadline info := by
  obtain ⟨⟨time, info'⟩, hlook, rfl⟩ := Option.map_eq_some_iff.1 htarget
  rw [finality_of_refs hlook] at hf
  obtain rfl := Option.some.inj hf
  unfold Merchant.legFinal at h
  simp only [bind_eq_ok, require_eq_ok, Bool.not_eq_true', decide_eq_false_iff_not, not_lt] at h
  obtain ⟨-, hreached, hdeadline⟩ := h
  have hrequired : required = "pending" ∨ required = "final" := by
    rcases hidx : finalityLevels.idxOf? required with _ | i
    · rw [hidx] at hreached
      split at hreached <;> simp_all
    · have hmem : required ∈ finalityLevels := List.isSome_idxOf?.1 (by rw [hidx]; rfl)
      simpa [finalityLevels] using hmem
  refine ⟨time, hlook, ?_, hrequired.imp_right fun hfinal => ?_⟩
  · split_ifs at hdeadline
    · exact (Nat.le_add_right _ _).trans hdeadline
    · exact hdeadline
  · split_ifs at hdeadline hreached with hnow
    · exact ⟨hfinal, hdeadline, hnow⟩
    · rw [hfinal] at hreached
      cases hreached

end VirtualRail

namespace Merchant

variable (codec : TextCodec) (suite : Suite) (m : Merchant)

/-- What a decision was made on, as the rail shows it. -/
inductive Earned (rail : EntryRail) (nonce : ByteArr 32) (record : NonceRecord) : Prop
  | baseline {json resource : String} {t : BaselineTerms} {paymentRef : String} {info : RefInfo}
    (hterms : m.baselineTerms codec suite json resource = .ok t) (hnonce : t.quote.nonce = nonce)
    (hrecord : t.record paymentRef = record)
    (hpaid : info.dest = t.payTo ∧ info.asset = t.asset ∧ t.amount ≤ info.amount)
    (hfinal : rail.rail.InTime paymentRef t.requiredFinality t.quote.honorDeadline info)
  | twoLeg {json resource meedRef netRef : String} {q : Quote} {t : TwoLegTerms} {info : RefInfo}
    (haccept : m.acceptTwoLeg codec suite json resource = .ok q)
    (hterms : m.twoLegTerms suite q = .ok t) (hnonce : q.nonce = nonce)
    (hrecord : twoLegRecord q meedRef netRef = record)
    (hattested : rail.entryStatus t.instanceAddr (t.entryId suite) = some .attested)
    (hpaid : info.dest = t.netPayTo ∧ info.asset = t.netAsset ∧ t.netAmount ≤ info.amount ∧
      info.memo = some nonce)
    (hfinal : rail.rail.InTime netRef t.finNet q.honorDeadline info)

variable {codec suite m} {rail rail' : EntryRail} {nonce : ByteArr 32} {record : NonceRecord}

/-- An attestation is for good. -/
theorem attested_later {addr : String} {entryId : ByteArr 32}
    (h : rail.entryStatus addr entryId = some .attested) (hlater : rail.Later rail') :
    rail'.entryStatus addr entryId = some .attested := by
  obtain ⟨x, hx, hstatus⟩ := Option.bind_eq_some_iff.1 h
  obtain ⟨e, he, hattested⟩ := Option.map_eq_some_iff.1 hstatus
  have hs : e.state = .attested := by
    rcases hs : e.state <;> rw [hs] at hattested <;> cases hattested
  obtain ⟨x', hx', hinst⟩ := hlater.hosted _ x hx
  obtain ⟨e', he', hentry⟩ := hinst.entries _ e he
  rw [entryStatus_eq hx' he', (hentry.leads.settled (by rw [hs]; rfl)), hs]
  rfl

/-- Evidence stays. -/
theorem Earned.later (h : Earned codec suite m rail nonce record) (hf : rail.Fresh)
    (hlater : rail.Later rail') : Earned codec suite m rail' nonce record := by
  cases h with
  | baseline hterms hnonce hrecord hpaid hfinal =>
    exact .baseline hterms hnonce hrecord hpaid (hfinal.later hf.refs hlater.rail)
  | twoLeg haccept hterms hnonce hrecord hattested hpaid hfinal =>
    exact .twoLeg haccept hterms hnonce hrecord (attested_later hattested hlater) hpaid
      (hfinal.later hf.refs hlater.rail)

/-- What is confirmed of a settlement is evidence for its decision. -/
theorem confirmBaseline_earned {json resource canonical : String} {t : BaselineTerms}
    {paymentRef : String} {now : ℕ} (hf : rail.Fresh)
    (hterms : m.baselineTerms codec suite json resource = .ok t)
    (h : confirmBaseline t rail.rail paymentRef now = .ok canonical) :
    canonical = paymentRef ∧ Earned codec suite m rail t.quote.nonce (t.record canonical) := by
  unfold confirmBaseline at h
  simp only [bind_eq_ok, okOr_eq_ok, require_eq_ok, pure_eq_ok, Bool.not_eq_true',
    Bool.or_eq_false_iff, bne_eq_false_iff_eq, decide_eq_false_iff_not, not_lt] at h
  obtain ⟨f, hfin, ⟨⟩, hlegal, info, htarget, -, ⟨⟨hdest, hasset⟩, hamount⟩, -, -, rfl⟩ := h
  obtain ⟨⟨time, info'⟩, hlook, rfl⟩ := Option.map_eq_some_iff.1 htarget
  have hcanonical : info'.canonical = paymentRef := hf.refs.canonical _ _ hlook
  refine ⟨hcanonical, ?_⟩
  rw [hcanonical]
  exact .baseline hterms rfl rfl ⟨hdest, hasset, hamount⟩
    (VirtualRail.inTime_of_legFinal hfin htarget hlegal)

theorem attestEntry_attested {addr : String} {entryId : ByteArr 32} {signed : Signed}
    (h : rail.attestEntry suite addr entryId signed = .ok rail') :
    rail'.entryStatus addr entryId = some .attested := by
  unfold EntryRail.attestEntry at h
  obtain ⟨hosted, hattest, rfl⟩ := map_eq_ok.1 h
  unfold HostedRail.attestEntry HostedRail.onEntries HostedRail.instanceAt at hattest
  simp only [bind_eq_ok, okOr_eq_ok, mapError_eq_ok, PurchaseInstance.run, PurchaseInstance.attest,
    PurchaseInstance.entry, require_eq_ok, pure_eq_ok] at hattest
  obtain ⟨x, -, ⟨out, purchases⟩, ⟨e, -, -, -, -, -, hout⟩, rfl⟩ := hattest
  have hentries := (x.purchases.setState entryId e .attested).distribute_entries e.amount
  rw [hout] at hentries
  refine @entryStatus_eq _ _ _ _ { e with state := .attested } (Finmap.lookup_insert _) ?_
  rw [hentries]
  exact Finmap.lookup_insert _

theorem attest_attested {t : TwoLegTerms} (h : m.attest suite t rail = .ok rail') :
    rail.Later rail' ∧ rail'.entryStatus t.instanceAddr (t.entryId suite) = some .attested := by
  unfold attest at h
  dsimp only at h
  rcases hattest : rail.attestEntry suite t.instanceAddr (t.entryId suite)
    (Signed.create suite .attestation t.quote.nonce (t.entryId suite) m.signingKey) with e | after
  · rw [hattest] at h
    dsimp only at h
    split_ifs at h with hstatus
    obtain rfl := Except.ok.inj h
    exact ⟨.refl rail, hstatus⟩
  · rw [hattest] at h
    obtain rfl := Except.ok.inj h
    exact ⟨EntryRail.attestEntry_later hattest, attestEntry_attested hattest⟩

/-- What comes before a receipt in two legs is evidence for its decision. -/
theorem settleTwoLeg_earned {json resource meedRef netRef : String} {q : Quote} {t : TwoLegTerms}
    {now : ℕ} (hf : rail.Fresh)
    (haccept : m.acceptTwoLeg codec suite json resource = .ok q)
    (h : m.settleTwoLeg suite q meedRef netRef now rail = .ok (t, rail')) :
    m.twoLegTerms suite q = .ok t ∧ rail.Later rail' ∧
      Earned codec suite m rail' q.nonce (twoLegRecord q meedRef netRef) := by
  unfold settleTwoLeg at h
  simp only [bind_eq_ok, pure_eq_ok] at h
  obtain ⟨t', hterms, ⟨⟩, hconfirm, rail₁, hattest, heq⟩ := h
  obtain ⟨rfl, rfl⟩ := Prod.mk.inj heq
  obtain ⟨hlater, hattested⟩ := attest_attested hattest
  obtain ⟨hquote, -⟩ := twoLegTerms_ok hterms
  unfold confirmTwoLeg at hconfirm
  simp only [bind_eq_ok, okOr_eq_ok, require_eq_ok, Bool.not_eq_true', Bool.or_eq_false_iff,
    bne_eq_false_iff_eq, decide_eq_false_iff_not, not_lt] at hconfirm
  obtain ⟨ri, -, -, -, -, -, -, -, ⟨⟩, hnet, ni, htarget, ⟨⟨hdest, hasset⟩, hamount⟩, hmemo⟩ :=
    hconfirm
  unfold confirmLeg at hnet
  simp only [bind_eq_ok, okOr_eq_ok] at hnet
  obtain ⟨f, hfin, hlegal⟩ := hnet
  rw [hquote] at hlegal hmemo
  exact ⟨hterms, hlater, .twoLeg haccept hterms rfl rfl hattested ⟨hdest, hasset, hamount, hmemo⟩
    ((VirtualRail.inTime_of_legFinal hfin htarget hlegal).later hf.refs hlater.rail)⟩

end Merchant

namespace Till

open Merchant

variable {codec : TextCodec} {suite : Suite} {m : Merchant} {serde : Serde} {limit : ℕ∞} {s : Till}
  {cs : List (Consumption (Receipt.form codec suite) m.key)}

variable (codec suite m serde) in
/-- What a redemption stores fits its frames, and its numbers are kept. -/
def Fits (s : Till) : Event → Prop
  | .redeemBaseline json resource transfer settleId now _ => now ≤ U64_MAX ∧
      ∀ t paymentRef rail', m.baselineTerms codec suite json resource = .ok t →
        s.rail.rail.settle transfer settleId = (.ok paymentRef, rail') →
        Merchant.Fits codec serde
          (t.record paymentRef, m.baselineReceipt codec suite t paymentRef now)
  | .redeemTwoLeg json resource meedRef netRef now _ => now ≤ U64_MAX ∧
      ∀ q t, m.acceptTwoLeg codec suite json resource = .ok q → m.twoLegTerms suite q = .ok t →
        Merchant.Fits codec serde
          (twoLegRecord q meedRef netRef, m.twoLegReceipt codec suite t meedRef netRef now)
  | _ => True

theorem step_redeemBaseline {rail : EntryRail} {wal wal' : Wal ReceiptRest} {json resource : String}
    {transfer : Transfer} {settleId : ByteArr 32} {now : ℕ} {io : AppendIo}
    {answer : Except RedeemError Receipt} {r : VirtualRail}
    (h : m.redeemBaseline codec suite json resource transfer settleId now io rail.rail wal =
      (answer, r, wal')) :
    step codec suite m ⟨rail, .up wal⟩ (.redeemBaseline json resource transfer settleId now io) =
      (⟨{ rail with rail := r }, .up wal'⟩, some answer) := by
  unfold step redeemBaseline
  dsimp only
  rw [h]

theorem step_redeemTwoLeg {rail rail' : EntryRail} {wal wal' : Wal ReceiptRest}
    {json resource meedRef netRef : String} {now : ℕ} {io : AppendIo}
    {answer : Except RedeemError Receipt}
    (h : m.redeemTwoLeg codec suite json resource meedRef netRef now io rail wal =
      (answer, rail', wal')) :
    step codec suite m ⟨rail, .up wal⟩ (.redeemTwoLeg json resource meedRef netRef now io) =
      (⟨rail', .up wal'⟩, some answer) := by
  unfold step
  dsimp only
  rw [h]

theorem peek_stored {α : Type} {books : MerchantStore.Books α} {nonce : ByteArr 32}
    {record : NonceRecord} {receipt : MerchantStore.Receipt α}
    (h : books.peek nonce record = .stored receipt) :
    books.byNonce.lookup nonce = some (record, receipt) := by
  unfold MerchantStore.Books.peek at h
  split at h
  · rename_i stored kept hlook
    split_ifs at h with hrecord
    rw [hlook, hrecord, Peek.stored.inj h]
  · split_ifs at h

/-- The receipt in two legs is one that is issued for its decision. -/
theorem twoLegReceipt_issued {t : TwoLegTerms} {json : String} {now : ℕ} (hnow : now ≤ U64_MAX)
    (hread : Quote.parseVerify codec suite json m.key = some t.quote)
    (hoffer : t.offer ∈ t.quote.offers) (meedRef netRef : String) :
    ∃ r, Issued codec suite m t.quote.nonce (twoLegRecord t.quote meedRef netRef) r ∧
      m.twoLegReceipt codec suite t meedRef netRef now = r.sign codec suite m.signingKey := by
  refine ⟨_, ⟨⟨?_, ?_, ?_⟩, ?_, ?_, ?_, ?_⟩, rfl⟩
  · rfl
  · rfl
  · exact hnow
  · rfl
  · rfl
  · rfl
  · exact ⟨json, t.quote, t.offer, hread, hoffer, rfl⟩

/-- A consumption was made on evidence that the rail shows. -/
def EarnedOn (rail : EntryRail) (c : Consumption (Receipt.form codec suite) m.key) : Prop :=
  Earned codec suite m rail c.nonce c.record

/-- The store is of consumptions that were made on evidence. -/
structure Sound (s : Till) (cs : List (Consumption (Receipt.form codec suite) m.key)) : Prop where
  fresh : s.rail.Fresh
  tracks : s.store.Tracks (EarnedOn s.rail) cs

variable (codec suite m) in
/-- The decision that a redemption asks for. -/
def recordOf (s : Till) : Event → Option NonceRecord
  | .redeemBaseline json resource transfer settleId _ _ => do
    let t ← (m.baselineTerms codec suite json resource).toOption
    let paymentRef ← (s.rail.rail.settle transfer settleId).1.toOption
    return t.record paymentRef
  | .redeemTwoLeg json resource meedRef netRef _ _ =>
    (m.acceptTwoLeg codec suite json resource).toOption.map fun q => twoLegRecord q meedRef netRef
  | _ => none

variable (codec suite m) in
/-- A receipt that an event is answered with, and the decision that it is for. -/
def decisionOf (s : Till) (e : Event) : Option (NonceRecord × Receipt) :=
  (receiptOf codec suite m s e).bind fun r => (s.recordOf codec suite m e).map fun d => (d, r)

/-- A receipt for a decision is one of the consumptions, as it is written. -/
def Booked (cs : List (Consumption (Receipt.form codec suite) m.key)) (record : NonceRecord)
    (r : Receipt) : Prop :=
  ∃ c ∈ cs, c.nonce = r.nonce ∧ c.record = record ∧
    Receipt.toJson codec c.receipt = Receipt.toJson codec r

/-- What a step keeps of the consumptions, the rail and the receipt that it gives for a decision. -/
structure Step (s s' : Till) (record : Option NonceRecord) (given : Option Receipt)
    (cs cs' : List (Consumption (Receipt.form codec suite) m.key)) : Prop where
  grows : cs <+: cs'
  sound : s'.Sound cs'
  later : s.rail.Later s'.rail
  receipt : ∀ r ∈ given, ∃ d ∈ record, Booked cs' d r

/-- The rail goes on, and the store stays. -/
theorem Sound.onRail (h : s.Sound cs) {rail : EntryRail} (hlater : s.rail.Later rail)
    (record : Option NonceRecord) : Step s { s with rail } record none cs cs where
  grows := List.prefix_rfl
  sound := ⟨hlater.keepsFresh h.fresh, h.tracks.mono fun _ hc => hc.later h.fresh hlater⟩
  later := hlater
  receipt _ hr := by cases hr

section Reading

variable (hreads : serde.Reads limit) (hcodec : codec.parseStrict = Jcs.parseStrict serde)
  (hb64 : ∀ bytes, codec.b64Decode (codec.b64 bytes) = some bytes) (hsigns : suite.Signs)
  (hkey : m.key = suite.ed25519Public m.signingKey)

include hreads hcodec hb64 hsigns hkey

/-- A decision on evidence is consumed, for a receipt that the merchant signs. -/
theorem Sound.consume {rail : EntryRail} {wal : Wal ReceiptRest} (hs : s.store = .up wal)
    (h : s.Sound cs) (hlater : s.rail.Later rail) {nonce : ByteArr 32} {record : NonceRecord}
    {r : Receipt} (hissued : Issued codec suite m nonce record r)
    (hfits : Merchant.Fits codec serde (record, r.sign codec suite m.signingKey))
    (hearned : Earned codec suite m rail nonce record) (io : AppendIo) :
    ∃ result wal' cs', wal.consumeNonce (Receipt.form codec suite) nonce record
        (fun u => (r.sign codec suite m.signingKey, u)) () io = (result, (), wal') ∧
      Step s ⟨rail, .up wal'⟩ (some record) (result.mapError storeError).toOption cs cs' := by
  have htracks : wal.Tracks (EarnedOn rail) cs := by
    have htracks := h.tracks
    rw [hs] at htracks
    exact Wal.Tracks.mono htracks fun _ hc => hc.later h.fresh hlater
  obtain ⟨c, hnonce, hrecord, hjson⟩ := hissued.consumption hreads hcodec hb64 hsigns hkey hfits
  have hE : EarnedOn rail c := by
    unfold EarnedOn
    rw [hnonce, hrecord]
    exact hearned
  rw [← Receipt.form_toJson codec suite] at hjson
  have hname : (r.sign codec suite m.signingKey).nonce = nonce := hissued.nonce_eq
  generalize r.sign codec suite m.signingKey = signed at hjson hname ⊢
  obtain ⟨result, wal', cs', hrun, hconsumed⟩ :=
    htracks.consume hname () io ⟨c, hnonce, hrecord, hjson, hE⟩
  refine ⟨result, wal', cs', hrun, hconsumed.grows,
    ⟨hlater.keepsFresh h.fresh, hconsumed.tracks⟩, hlater, fun receipt hr => ?_⟩
  have hok := mapError_eq_ok.1 (toOption_eq_some.1 hr)
  obtain ⟨hname, c', hc', hnonce', hrecord', hjson'⟩ := hconsumed.answer receipt hok
  rw [Receipt.form_toJson] at hjson'
  exact ⟨record, rfl, c', hc', hnonce'.trans hname.symm, hrecord', hjson'⟩

theorem Sound.redeemBaseline {json resource : String} {transfer : Transfer}
    {settleId : ByteArr 32} {now : ℕ} {io : AppendIo} {wal : Wal ReceiptRest}
    (hs : s.store = .up wal) (h : s.Sound cs)
    (hfits : s.Fits codec suite m serde (.redeemBaseline json resource transfer settleId now io)) :
    ∃ answer rail wal' cs', redeemBaseline codec suite m json resource transfer settleId now io
        s.rail wal = (answer, rail, wal') ∧ Step s ⟨rail, .up wal'⟩ (s.recordOf codec suite m
          (.redeemBaseline json resource transfer settleId now io)) answer.toOption cs cs' := by
  -- a call that leaves the store as it is
  have hidle : ∀ (e : RedeemError) (r : VirtualRail) record, s.rail.rail.Later r →
      Step s ⟨{ s.rail with rail := r }, .up wal⟩ record
        (Except.error e : Except RedeemError Receipt).toOption cs cs := by
    intro e r record hlater
    rw [← hs]
    exact h.onRail (.of_hosted (.of_rail hlater)) record
  obtain ⟨hnow, hfits⟩ := hfits
  unfold Till.redeemBaseline
  rcases hterms : m.baselineTerms codec suite json resource with e | t
  · rw [redeemBaseline_refused _ _ _ hterms]
    exact ⟨_, _, _, cs, rfl, hidle e _ _ (.refl _)⟩
  · rw [redeemBaseline_of_terms _ _ _ hterms]
    unfold redeemTerms
    split_ifs
    · exact ⟨_, _, _, cs, rfl, hidle _ _ _ (.refl _)⟩
    · have hlater := s.rail.rail.settle_later transfer settleId
      rcases hsettle : s.rail.rail.settle transfer settleId with ⟨e | paymentRef, r⟩ <;>
        rw [hsettle] at hlater
      · exact ⟨_, _, _, cs, rfl, hidle _ _ _ hlater⟩
      · have hrail : s.rail.Later { s.rail with rail := r } := .of_hosted (.of_rail hlater)
        dsimp only
        rcases hconfirm : confirmBaseline t r paymentRef now with e | canonical
        · exact ⟨_, _, _, cs, rfl, hidle _ _ _ hlater⟩
        · obtain ⟨rfl, hearned⟩ := @confirmBaseline_earned codec suite m { s.rail with rail := r }
            _ _ _ _ _ _ (hrail.keepsFresh h.fresh) hterms hconfirm
          obtain ⟨hread, -, -, hoffer, -⟩ := baselineTerms_eq_ok.1 hterms
          have hissued : Issued codec suite m t.quote.nonce (t.record canonical)
              (Receipt.baseline t.quote t.offer.accept t.quote.baseline canonical now) :=
            ⟨⟨rfl, rfl, hnow⟩, rfl, rfl, rfl, json, t.quote, t.offer, hread,
              List.mem_of_find?_eq_some hoffer, rfl⟩
          obtain ⟨result, wal', cs', hrun, hstep⟩ :=
            h.consume hreads hcodec hb64 hsigns hkey hs hrail
            hissued (hfits t _ r hterms hsettle) hearned io
          refine ⟨result.mapError storeError, { s.rail with rail := r }, wal', cs', ?_, ?_⟩
          · dsimp only
            unfold baselineReceipt
            rw [hrun]
          · simp only [recordOf, hterms, hsettle]
            exact hstep

theorem Sound.redeemTwoLeg {json resource meedRef netRef : String} {now : ℕ} {io : AppendIo}
    {wal : Wal ReceiptRest} (hs : s.store = .up wal) (h : s.Sound cs)
    (hfits : s.Fits codec suite m serde (.redeemTwoLeg json resource meedRef netRef now io)) :
    ∃ answer rail wal' cs', m.redeemTwoLeg codec suite json resource meedRef netRef now io s.rail
        wal = (answer, rail, wal') ∧ Step s ⟨rail, .up wal'⟩ (s.recordOf codec suite m
          (.redeemTwoLeg json resource meedRef netRef now io)) answer.toOption cs cs' := by
  have hidle : ∀ (e : RedeemError) record, Step s ⟨s.rail, .up wal⟩ record
      (Except.error e : Except RedeemError Receipt).toOption cs cs := by
    intro e record
    rw [← hs]
    exact h.onRail (.refl s.rail) record
  obtain ⟨hnow, hfits⟩ := hfits
  unfold Merchant.redeemTwoLeg
  rcases haccept : m.acceptTwoLeg codec suite json resource with e | q
  · exact ⟨_, _, _, cs, rfl, hidle e _⟩
  · dsimp only
    split_ifs
    · exact ⟨_, _, _, cs, rfl, hidle _ _⟩
    · rcases hpeek : wal.peek q.nonce (twoLegRecord q meedRef netRef) with _ | stored | _
      · rcases hsettle : m.settleTwoLeg suite q meedRef netRef now s.rail with e | ⟨t, rail⟩
        · exact ⟨_, _, _, cs, rfl, hidle e _⟩
        · obtain ⟨hterms, hlater, hearned⟩ := settleTwoLeg_earned h.fresh haccept hsettle
          obtain ⟨rfl, hoffer⟩ := twoLegTerms_ok hterms
          obtain ⟨r, hissued, hreceipt⟩ :=
            twoLegReceipt_issued hnow (acceptTwoLeg_ok haccept) hoffer meedRef netRef
          have hfits := hfits t.quote t haccept hterms
          rw [hreceipt] at hfits
          obtain ⟨result, wal', cs', hrun, hstep⟩ := h.consume hreads hcodec hb64 hsigns hkey hs
            hlater hissued hfits hearned io
          refine ⟨result.mapError storeError, rail, wal', cs', ?_, ?_⟩
          · dsimp only
            rw [hreceipt, hrun]
          · simp only [recordOf, haccept]
            exact hstep
      · -- the decision was made before
        have htracks := h.tracks
        rw [hs] at htracks
        have hstored := peek_stored hpeek
        refine ⟨.ok stored, s.rail, wal, cs, rfl, List.prefix_rfl, ⟨h.fresh, htracks⟩, .refl _,
          fun r hr => ?_⟩
        obtain rfl : stored = r := Option.some.inj hr
        obtain ⟨c, hc, hnonce, hrecord, hjson⟩ := Wal.Tracks.stored htracks hstored
        rw [Receipt.form_toJson] at hjson
        exact ⟨_, by simp only [recordOf, haccept]; rfl, c, hc,
          hnonce.trans (htracks.named _ _ hstored).symm, hrecord, hjson⟩
      · exact ⟨_, _, _, cs, rfl, hidle _ _⟩

/-- Every step of the till keeps its evidence, and gives receipts of it only. -/
theorem Sound.step (h : s.Sound cs) (e : Event) (hfits : s.Fits codec suite m serde e) :
    ∃ cs', Step s (step codec suite m s e).1 (s.recordOf codec suite m e)
      (receiptOf codec suite m s e) cs cs' := by
  obtain ⟨rail, store⟩ := s
  unfold receiptOf
  rcases e with op | ⟨json, resource, transfer, settleId, now, io⟩ |
    ⟨json, resource, meedRef, netRef, now, io⟩ | _ | io
  case onRail => exact ⟨cs, h.onRail (EntryRail.step_later op) _⟩
  case redeemBaseline =>
    rcases store with disk | wal
    · exact ⟨cs, h.onRail (.refl rail) _⟩
    · obtain ⟨answer, rail', wal', cs', hrun, hstep⟩ :=
        h.redeemBaseline hreads hcodec hb64 hsigns hkey rfl hfits
      refine ⟨cs', ?_⟩
      dsimp only at hrun
      simp only [Till.step, hrun]
      exact hstep
  case redeemTwoLeg =>
    rcases store with disk | wal
    · exact ⟨cs, h.onRail (.refl rail) _⟩
    · obtain ⟨answer, rail', wal', cs', hrun, hstep⟩ :=
        h.redeemTwoLeg hreads hcodec hb64 hsigns hkey rfl hfits
      refine ⟨cs', ?_⟩
      dsimp only at hrun
      simp only [Till.step, hrun]
      exact hstep
  case crash =>
    rcases store with disk | wal
    · exact ⟨cs, h.onRail (.refl rail) _⟩
    · obtain ⟨cs', hgrows, hdisk⟩ := Wal.Tracks.crash h.tracks
      exact ⟨cs', hgrows, ⟨h.fresh, hdisk⟩, .refl rail, fun r hr => by cases hr⟩
  case reopen =>
    rcases store with disk | wal
    · rcases DiskTracks.opens h.tracks io with ⟨wal, hopen, htracks⟩ | ⟨⟨e, hopen⟩, hdisk⟩
      · rcases hlog : openLog (Receipt.form codec suite) m.key disk io with ⟨disk', result⟩
        rw [hlog] at hopen
        dsimp only at hopen
        subst hopen
        simp only [Till.step, hlog]
        exact ⟨cs, List.prefix_rfl, ⟨h.fresh, htracks⟩, .refl rail, fun r hr => by cases hr⟩
      · rcases hlog : openLog (Receipt.form codec suite) m.key disk io with ⟨disk', result⟩
        rw [hlog] at hopen hdisk
        dsimp only at hopen hdisk
        subst hopen
        simp only [Till.step, hlog]
        exact ⟨cs, List.prefix_rfl, ⟨h.fresh, hdisk⟩, .refl rail, fun r hr => by cases hr⟩
    · exact ⟨cs, h.onRail (.refl rail) _⟩

/-- So does every run. -/
theorem Sound.exec : ∀ {s : Till} {cs : List (Consumption (Receipt.form codec suite) m.key)}
    (es : List Event), s.Sound cs →
    Along (Till.step codec suite m) (Fits codec suite m serde) s es →
    ∃ cs', cs <+: cs' ∧ (Paytp.exec (Till.step codec suite m) s es).Sound cs' ∧
      s.rail.Later (Paytp.exec (Till.step codec suite m) s es).rail ∧
      (∀ d ∈ marks (Till.step codec suite m) (decisionOf codec suite m) s es,
        Booked cs' d.1 d.2) ∧
      (marks (Till.step codec suite m) (decisionOf codec suite m) s es).map Prod.snd =
        marks (Till.step codec suite m) (receiptOf codec suite m) s es
  | s, cs, [], h, _ => ⟨cs, List.prefix_rfl, h, .refl s.rail,
      fun d hd => (List.not_mem_nil hd).elim, rfl⟩
  | s, cs, e :: es, h, hfits => by
    obtain ⟨cs₁, hstep⟩ := h.step hreads hcodec hb64 hsigns hkey e hfits.1
    obtain ⟨cs₂, hgrows, hsound, hlater, hbooked, hmarks⟩ := hstep.sound.exec es hfits.2
    refine ⟨cs₂, hstep.grows.trans hgrows, hsound, hstep.later.trans hlater, fun d hd => ?_, ?_⟩
    · rw [marks, List.mem_append, Option.mem_toList] at hd
      rcases hd with hd | hd
      · obtain ⟨r, hr, hrecord⟩ := Option.bind_eq_some_iff.1 hd
        obtain ⟨record, hasked, rfl⟩ := Option.map_eq_some_iff.1 hrecord
        obtain ⟨record', hrecord', c, hc, hc'⟩ := hstep.receipt r hr
        obtain rfl : record' = record := Option.some.inj (hrecord'.symm.trans hasked)
        exact ⟨c, hgrows.subset hc, hc'⟩
      · exact hbooked d hd
    · rw [marks, marks, List.map_append, hmarks]
      congr 1
      unfold decisionOf
      rcases hgiven : receiptOf codec suite m s e with _ | r
      · rfl
      · obtain ⟨record, hrecord, -⟩ := hstep.receipt r hgiven
        rw [Option.mem_def.1 hrecord]
        rfl

/-- Whatever is done at a till with a new store and on its rail, failed stores and crashes included:
what is decided for a nonce was decided on evidence that the rail still shows, an attested entry
among it, which is never refunded. No two nonces are decided on one reference. Every receipt is for
what is decided for its nonce, and all receipts for a nonce have the same bytes. -/
theorem receipts_sound {rail : EntryRail} (hfresh : rail.Fresh) (es : List Event)
    (hfits : Along (Till.step codec suite m) (Fits codec suite m serde) (new rail) es) :
    ∃ decided : ByteArr 32 → Option NonceRecord,
      (∀ nonce record, decided nonce = some record → Earned codec suite m
        (Paytp.exec (Till.step codec suite m) (new rail) es).rail nonce record) ∧
      (∀ n n' record record' key, decided n = some record → decided n' = some record' →
        key ∈ usedRefKeys record.paymentRef → key ∈ usedRefKeys record'.paymentRef → n = n') ∧
      (∀ wal, (Paytp.exec (Till.step codec suite m) (new rail) es).store = .up wal →
        ∀ nonce, decided nonce = (wal.byNonce.lookup nonce).map Prod.fst) ∧
      (∀ d ∈ marks (Till.step codec suite m) (decisionOf codec suite m) (new rail) es,
        decided d.2.nonce = some d.1) ∧
      (∀ r ∈ marks (Till.step codec suite m) (receiptOf codec suite m) (new rail) es,
        ∃ record, (record, r) ∈
          marks (Till.step codec suite m) (decisionOf codec suite m) (new rail) es) ∧
      ∀ r ∈ marks (Till.step codec suite m) (receiptOf codec suite m) (new rail) es,
        ∀ r' ∈ marks (Till.step codec suite m) (receiptOf codec suite m) (new rail) es,
          r.nonce = r'.nonce → Receipt.toJson codec r = Receipt.toJson codec r' := by
  have hnew : (new rail).Sound ([] : List (Consumption (Receipt.form codec suite) m.key)) :=
    ⟨hfresh, ⟨[], rfl, torn_nil (by norm_num)⟩, .nil, fun _ hc => by cases hc⟩
  obtain ⟨cs, -, hsound, -, hbooked, hmarks⟩ :=
    hnew.exec hreads hcodec hb64 hsigns hkey es hfits
  obtain ⟨hadmitted, hearned⟩ := Store.Tracks.made hsound.tracks
  have hdecision : ∀ r ∈ marks (Till.step codec suite m) (receiptOf codec suite m) (new rail) es,
      ∃ record, (record, r) ∈
        marks (Till.step codec suite m) (decisionOf codec suite m) (new rail) es := by
    intro r hr
    rw [← hmarks] at hr
    obtain ⟨⟨record, r'⟩, hd, rfl⟩ := List.mem_map.1 hr
    exact ⟨record, hd⟩
  refine ⟨fun n => ((booksOf cs).byNonce.lookup n).map Prod.fst, fun n record hn => ?_,
    fun n n' record record' key hn hn' => ?_, fun wal hwal n => ?_, fun d hd => ?_, hdecision,
    fun r hr r' hr' hsame => ?_⟩
  · obtain ⟨e, he, rfl⟩ := Option.map_eq_some_iff.1 hn
    obtain ⟨c, hc, rfl, rfl⟩ := booksOf_lookup he
    exact hearned c hc
  · obtain ⟨e, he, rfl⟩ := Option.map_eq_some_iff.1 hn
    obtain ⟨e', he', rfl⟩ := Option.map_eq_some_iff.1 hn'
    exact hadmitted.apart.apart n n' e e' key he he'
  · have htracks := hsound.tracks
    rw [hwal] at htracks
    have hnonces := congrArg (Option.map Prod.fst) (Wal.Tracks.nonces htracks n)
    simpa [Option.map_map, Function.comp_def, written] using hnonces.symm
  · obtain ⟨c, hc, hnonce, hrecord, -⟩ := hbooked d hd
    dsimp only
    rw [← hnonce, hadmitted.listed c hc, ← hrecord]
    rfl
  · obtain ⟨record, hd⟩ := hdecision r hr
    obtain ⟨record', hd'⟩ := hdecision r' hr'
    obtain ⟨c, hc, hnonce, -, hjson⟩ := hbooked _ hd
    obtain ⟨c', hc', hnonce', -, hjson'⟩ := hbooked _ hd'
    have hlook := hadmitted.listed c hc
    have hlook' := hadmitted.listed c' hc'
    rw [hnonce, hsame, ← hnonce', hlook'] at hlook
    have hreceipt := congrArg Prod.snd (Option.some.inj hlook)
    rw [← hjson, ← hjson']
    exact congrArg _ hreceipt.symm

end Reading

end Till

namespace Shop

/-- A till of the shop, with a new store. -/
def till : Till := .new { newRail with rail := start }

theorem till_fresh : till.rail.Fresh where
  refs :=
    { next := fun _ _ => rfl
      canonical := fun _ _ h => by cases h }
  funds _ _ := rfl

/-- The payment of the quote, between the start of the till and a crash. -/
def soldAtTill : List Till.Event :=
  [.reopen .good, .redeemBaseline (quote.toJson wireCodec) "https://shop.example/song" transfer
    (.ofNat 32 1) 1000 .good, .crash]

theorem quote_read_back : ∃ o, (offerOf 100).Same o ∧
    Quote.parseVerify wireCodec keyedSuite (quote.toJson wireCodec) merchant.key =
      some { quote with offers := [o] } := by
  obtain ⟨offers, hread, hsame⟩ := @Quote.parseVerify_toJson serde ⊤ wireCodec keyedSuite
    serde_reads rfl wireCodec_b64 keyedSuite_signs (quoteOf 1 2000000000 [offerOf 100])
    (quoteOf_typed (by decide))
    (fun o ho => List.mem_singleton.1 ho ▸ ⟨acceptOf_kept 100, fun _ h => by cases h⟩)
    merchant.signingKey le_top
  obtain ⟨o, rest, hoffer, hnil, rfl⟩ := List.forall₂_cons_left_iff.1 hsame
  obtain rfl := List.forall₂_nil_left_iff.1 hnil
  exact ⟨o, hoffer, hread⟩

theorem till_opened :
    (Till.step wireCodec keyedSuite merchant till (.reopen .good)).1 =
      { till with store := .up emptyWal } := rfl

theorem till_sold {o : Offer} (hsame : (offerOf 100).Same o)
    (hread : Quote.parseVerify wireCodec keyedSuite (quote.toJson wireCodec) merchant.key =
      some { quote with offers := [o] }) :
    (Till.step wireCodec keyedSuite merchant { till with store := .up emptyWal }
      (.redeemBaseline (quote.toJson wireCodec) "https://shop.example/song" transfer (.ofNat 32 1)
        1000 .good)).2 = some (.ok (receiptOf o)) := by
  obtain ⟨rail, hsettle, hconfirm⟩ := transfer_settled
  have hpaid : (readTerms o).paidBy transfer = true := (rfl : terms.paidBy transfer = true)
  have hconfirmed : Merchant.confirmBaseline (readTerms o) rail "virt-ref:0" 1000 =
      .ok "virt-ref:0" := hconfirm
  obtain ⟨wal, hredeem⟩ : ∃ wal, merchant.redeemBaseline wireCodec keyedSuite
      (quote.toJson wireCodec) "https://shop.example/song" transfer (.ofNat 32 1) 1000 .good start
      emptyWal = (.ok (receiptOf o), rail, wal) := by
    rw [Merchant.redeemBaseline_of_terms 1000 .good emptyWal (readTerms_eq hsame hread)]
    unfold Merchant.redeemTerms
    simp only [hpaid, hsettle, hconfirmed, Bool.not_true, Bool.false_eq_true, if_false]
    rw [Wal.consumeNonce_new _ _ rfl (Finmap.lookup_empty _) (fun _ _ => Finset.notMem_empty _) rfl]
    exact ⟨_, rfl⟩
  exact congrArg Prod.snd (@Till.step_redeemBaseline _ _ _ till.rail _ _ _ _ _ _ _ _ _ _ hredeem)

/-- The receipt that the till gave before the crash is for what is decided, on a payment that the
rail shows. -/
theorem receipts_sound_shop : ∃ (r : Receipt) (record : NonceRecord),
    r ∈ marks (Till.step wireCodec keyedSuite merchant)
      (Till.receiptOf wireCodec keyedSuite merchant) till soldAtTill ∧
    r.nonce = quote.nonce ∧ Merchant.Earned wireCodec keyedSuite merchant
      (exec (Till.step wireCodec keyedSuite merchant) till soldAtTill).rail r.nonce record := by
  obtain ⟨o, hsame, hread⟩ := quote_read_back
  have hfits : Along (Till.step wireCodec keyedSuite merchant)
      (Till.Fits wireCodec keyedSuite merchant serde) till soldAtTill := by
    refine ⟨trivial, ⟨by decide, fun t paymentRef rail' hterms hsettle => ?_⟩, trivial, trivial⟩
    obtain rfl := Except.ok.inj ((readTerms_eq hsame hread).symm.trans hterms)
    obtain ⟨rail, hsettled, -⟩ := transfer_settled
    obtain ⟨href, -⟩ := Prod.mk.inj (hsettled.symm.trans hsettle)
    obtain rfl := Except.ok.inj href
    exact receiptOf_fits hsame
  obtain ⟨decided, hearned, -, -, hdecided, hreceipts, -⟩ :=
    @Till.receipts_sound wireCodec keyedSuite merchant serde ⊤ serde_reads rfl wireCodec_b64
      keyedSuite_signs rfl { newRail with rail := start } till_fresh soldAtTill hfits
  have hgiven : receiptOf o ∈ marks (Till.step wireCodec keyedSuite merchant)
      (Till.receiptOf wireCodec keyedSuite merchant) till soldAtTill := by
    have hanswer : Till.receiptOf wireCodec keyedSuite merchant { till with store := .up emptyWal }
        (.redeemBaseline (quote.toJson wireCodec) "https://shop.example/song" transfer
          (.ofNat 32 1) 1000 .good) = some (receiptOf o) := by
      unfold Till.receiptOf
      rw [till_sold hsame hread]
      rfl
    simp only [soldAtTill, marks, till_opened, hanswer]
    simp
  obtain ⟨record, hd⟩ := hreceipts _ hgiven
  exact ⟨receiptOf o, record, hgiven, rfl, hearned _ _ (hdecided _ hd)⟩

end Shop

end Paytp
