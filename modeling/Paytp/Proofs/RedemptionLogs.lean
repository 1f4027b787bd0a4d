import Paytp.Proofs.Documents
import Paytp.Proofs.NonceReplay
import Paytp.Proofs.Recharge
import Paytp.TwoLeg

/-!
# The log of redemptions reopens

A redemption that is answered with a receipt leaves the store as it was, or appends one record of a
receipt that the merchant has just signed. Such a receipt is read back with the members of its
entry in order, and is written as before. So the books of the log are those of the store, but for
that order, and a reopened store answers with the same bytes.
-/

namespace Paytp

open MerchantStore

/-! ## Stores and their logs -/

theorem AppendLog.append_fst (l : AppendLog) (rec : Bytes) (io : AppendIo) :
    (l.append rec io).1 = io.ok := by
  unfold AppendLog.append
  cases io.ok <;> rfl

namespace MerchantStore

variable {α : Type} {form : ReceiptForm α} {merchantKey : ByteArr 32}

/-- A nonce that is new is consumed. -/
theorem Wal.consumeNonce_new {β : Type} {wal : Wal α} {nonce : ByteArr 32}
    {record : NonceRecord} (build : β → Receipt α × β) (b : β) {io : AppendIo}
    (hclean : wal.poisoned = false) (hfree : wal.byNonce.lookup nonce = none)
    (hrefs : ∀ key ∈ usedRefKeys record.paymentRef, key ∉ wal.usedRefs) (hio : io.ok = true) :
    wal.consumeNonce form nonce record build b io = (.ok (build b).1, (build b).2,
      ⟨(wal.toAppendLog.append (entry form nonce record (build b).1) io).2,
        wal.byNonce.insert nonce (record, (build b).1),
        wal.usedRefs ∪ (usedRefKeys record.paymentRef).toFinset⟩) := by
  have happend := AppendLog.append_fst wal.toAppendLog (entry form nonce record (build b).1) io
  rcases happ : wal.toAppendLog.append (entry form nonce record (build b).1) io with ⟨done, log⟩
  rw [happ] at happend
  obtain rfl : done = true := happend.trans hio
  simpa [Wal.consumeNonce, hclean, hfree, happ] using hrefs

/-- A consumption that is answered has its receipt from the books, or appends it. -/
theorem Wal.consumeNonce_ok {β : Type} {wal wal' : Wal α} {nonce : ByteArr 32}
    {record : NonceRecord} {build : β → Receipt α × β} {b b' : β} {io : AppendIo}
    {receipt : Receipt α}
    (h : wal.consumeNonce form nonce record build b io = (.ok receipt, b', wal')) :
    wal' = wal ∨ wal.poisoned = false ∧ wal.byNonce.lookup nonce = none ∧
      receipt = (build b).1 ∧ io.ok = true ∧
        wal' = ⟨(wal.toAppendLog.append (entry form nonce record receipt) io).2,
          wal.byNonce.insert nonce (record, receipt),
          wal.usedRefs ∪ (usedRefKeys record.paymentRef).toFinset⟩ := by
  rcases hp : wal.poisoned with _ | _
  · rcases hk : wal.byNonce.lookup nonce with _ | ⟨stored, kept⟩
    · simp only [Wal.consumeNonce, hp, hk, Bool.false_eq_true, if_false] at h
      split_ifs at h with hrefs
      · simp at h
      · have hio := AppendLog.append_fst wal.toAppendLog
          (entry form nonce record (build b).1) io
        rcases happ : wal.toAppendLog.append (entry form nonce record (build b).1) io with
          ⟨done, log⟩
        rw [happ] at h hio
        obtain rfl : done = io.ok := hio
        rcases hok : io.ok with _ | _
        · simp [hok] at h
        · simp only [hok, Prod.mk.injEq, Except.ok.injEq] at h
          obtain ⟨rfl, -, rfl⟩ := h
          exact .inr ⟨rfl, rfl, rfl, rfl, by rw [happ]⟩
    · simp only [Wal.consumeNonce, hp, hk, Bool.false_eq_true, if_false] at h
      split_ifs at h
      · exact .inl (Prod.mk.inj (Prod.mk.inj h).2).2.symm
      · simp at h
  · simp [Wal.consumeNonce, hp] at h

/-- A stored decision with the bytes of its receipt. -/
def written (form : ReceiptForm α) (e : NonceRecord × Receipt α) : NonceRecord × Bytes :=
  (e.1, form.toJson e.2)

/-- The file is the log of some consumptions. Their books are those of the store, as far as the
bytes of the receipts tell. -/
structure Backed (wal : Wal α) (cs : List (Consumption form merchantKey)) : Prop where
  clean : wal.poisoned = false
  holds : wal.toAppendLog.Holds (fun _ => False) (log cs)
  refs : wal.usedRefs = (booksOf cs).usedRefs
  nonces : ∀ n, (wal.byNonce.lookup n).map (written form) =
    ((booksOf cs).byNonce.lookup n).map (written form)

theorem Backed.content {wal : Wal α} {cs : List (Consumption form merchantKey)}
    (h : Backed wal cs) : wal.file.content = encodeLog (log cs) :=
  h.holds.content_of_clean h.clean

/-- Appending a receipt that is written as the one that is read back of it. -/
theorem Backed.append {wal : Wal α} {cs : List (Consumption form merchantKey)} (h : Backed wal cs)
    (c : Consumption form merchantKey) {receipt : Receipt α}
    (hjson : form.toJson c.receipt = form.toJson receipt)
    (hfree : wal.byNonce.lookup c.nonce = none) {io : AppendIo} (hio : io.ok = true) :
    Backed ⟨(wal.toAppendLog.append (entry form c.nonce c.record receipt) io).2,
      wal.byNonce.insert c.nonce (c.record, receipt),
      wal.usedRefs ∪ (usedRefKeys c.record.paymentRef).toFinset⟩ (cs ++ [c]) := by
  have hentry : entry form c.nonce c.record receipt = encodeFields (fields c) := by
    rw [← entry_eq, entry, entry, hjson]
  obtain ⟨-, hclean, hholds⟩ := h.holds.append_ok h.clean (fields c) hio
  rw [← hentry] at hclean hholds
  refine ⟨hclean, log_concat cs c ▸ hholds, ?_, fun n => ?_⟩
  · rw [booksOf_concat]
    exact congrArg (· ∪ (usedRefKeys c.record.paymentRef).toFinset) h.refs
  · have hnone : (booksOf cs).byNonce.lookup c.nonce = none := by
      have hnonce := h.nonces c.nonce
      rw [hfree, Option.map_none] at hnonce
      exact Option.map_eq_none_iff.1 hnonce.symm
    rw [booksOf_concat, Books.add, HashMap.lookup_orInsert, hnone, Option.getD_none]
    show ((wal.byNonce.insert c.nonce (c.record, receipt)).lookup n).map (written form) = _
    rw [HashMap.lookup_insert_ite]
    split_ifs
    · exact congrArg some (congrArg (Prod.mk c.record) hjson.symm)
    · exact h.nonces n

/-- The consumption of a receipt that is read back as another one, which is written the same. -/
theorem exists_consumption {nonce : ByteArr 32} {record : NonceRecord} {receipt back : Receipt α}
    (hnonce : back.nonce = nonce) (hidem : back.idem = record.idem)
    (hresource : back.resource = record.resource)
    (hparses : (Bytes.toString? (form.toJson receipt)).bind (form.parseVerify · merchantKey) =
      some back) (hjson : form.toJson back = form.toJson receipt)
    (hrecord : (encodeRecord record).length < 2 ^ 32)
    (hreceipt : (form.toJson receipt).length < 2 ^ 32) :
    ∃ c : Consumption form merchantKey, c.nonce = nonce ∧ c.record = record ∧
      form.toJson c.receipt = form.toJson receipt :=
  ⟨{ nonce, record, receipt := back, nonce_eq := hnonce, idem_eq := hidem
     resource_eq := hresource, parses := by rw [hjson, hparses], short_record := hrecord
     short_receipt := by rw [hjson]; exact hreceipt }, rfl, rfl, hjson⟩

/-- How the log of some consumptions opens: with their books, unless the disk fails. -/
theorem openLog_log (cs : List (Consumption form merchantKey)) (io : AppendLog.OpenIo) :
    (openLog form merchantKey (encodeLog (log cs)) io).2 = .error .io ∨
      (openLog form merchantKey (encodeLog (log cs)) io).2 =
        .ok ⟨⟨⟨encodeLog (log cs), (encodeLog (log cs)).length⟩, (encodeLog (log cs)).length,
          false⟩, booksOf cs⟩ := by
  obtain ⟨-, hopen⟩ := AppendLog.openAt_spec (log cs) [] io
  rw [List.append_nil] at hopen
  unfold openLog
  rcases io.read with _ | _
  · exact .inl rfl
  · simp only [Bool.not_true, Bool.false_eq_true, if_false, replay_encodeLog]
    rcases hat : AppendLog.openAt (encodeLog (log cs)) (encodeLog (log cs)).length io with
      ⟨disk, _ | l⟩
    · exact .inl rfl
    · rw [hat] at hopen
      obtain rfl := hopen l rfl
      exact .inr rfl

theorem openLog_good (cs : List (Consumption form merchantKey)) :
    ∃ wal, (openLog form merchantKey (encodeLog (log cs)) .good).2 = .ok wal := by
  have hsome := AppendLog.openAt_good (encodeLog (log cs)) (encodeLog (log cs)).length
  unfold openLog
  rw [if_neg (by decide), replay_encodeLog]
  simp only
  rcases hat : AppendLog.openAt (encodeLog (log cs)) (encodeLog (log cs)).length .good with
    ⟨disk, _ | l⟩
  · rw [hat] at hsome
    cases hsome
  · exact ⟨_, rfl⟩

theorem openLog_ok {cs : List (Consumption form merchantKey)} {io : AppendLog.OpenIo}
    {wal : Wal α} (h : (openLog form merchantKey (encodeLog (log cs)) io).2 = .ok wal) :
    wal.toBooks = booksOf cs ∧ Backed wal cs := by
  rcases openLog_log cs io with herror | hok
  · rw [h] at herror
    cases herror
  · obtain rfl := Except.ok.inj (h.symm.trans hok)
    exact ⟨rfl, rfl, AppendLog.holds_open (log cs), rfl, fun _ => rfl⟩

/-- What is stored is answered again with the same bytes. -/
theorem Backed.serves {wal wal' : Wal α} {cs : List (Consumption form merchantKey)}
    (h : Backed wal cs) (h' : Backed wal' cs) {nonce : ByteArr 32} {record : NonceRecord}
    {receipt : Receipt α} (hk : wal.byNonce.lookup nonce = some (record, receipt)) :
    ∃ receipt', form.toJson receipt' = form.toJson receipt ∧
      ∀ {β : Type} (build : β → Receipt α × β) (b : β) (io : AppendIo),
        wal'.consumeNonce form nonce record build b io = (.ok receipt', b, wal') := by
  have hsame : (wal'.byNonce.lookup nonce).map (written form) =
      some (written form (record, receipt)) := by
    rw [h'.nonces, ← h.nonces, hk, Option.map_some]
  obtain ⟨⟨record', receipt'⟩, hk', hwritten⟩ := Option.map_eq_some_iff.1 hsame
  obtain ⟨rfl, hjson⟩ := Prod.mk.inj hwritten
  exact ⟨receipt', hjson, fun build b io => by simp [Wal.consumeNonce, h'.clean, hk']⟩

end MerchantStore

/-! ## Redemptions -/

namespace Receipt

variable (codec : TextCodec) (suite : Suite)

theorem form_toJson : (form codec suite).toJson = toJson codec := by
  rw [form]

theorem form_parseVerify : (form codec suite).parseVerify = parseVerify codec suite := by
  rw [form]

end Receipt

namespace Merchant

variable {codec : TextCodec} {suite : Suite} {m : Merchant} {now : ℕ} {io : AppendIo}
  {wal wal' : Wal ReceiptRest} {receipt : Receipt}

theorem settleTwoLeg_ok {q : Quote} {t : TwoLegTerms} {meedRef netRef : String}
    {rail rail' : EntryRail}
    (h : m.settleTwoLeg suite q meedRef netRef now rail = .ok (t, rail')) :
    m.twoLegTerms suite q = .ok t := by
  unfold settleTwoLeg at h
  simp only [bind_eq_ok, pure_eq_ok] at h
  obtain ⟨t', ht', -, -, rail₁, -, heq⟩ := h
  rw [ht', (Prod.mk.inj heq).1]

theorem redeemTerms_ok {t : BaselineTerms} {transfer : Transfer} {settleId : ByteArr 32}
    {rail rail' : VirtualRail}
    (h : m.redeemTerms codec suite t transfer settleId now io rail wal =
      (.ok receipt, rail', wal')) :
    ∃ paymentRef canonical, wal.consumeNonce (Receipt.form codec suite) t.quote.nonce
      (t.record canonical) (fun u => (m.baselineReceipt codec suite t paymentRef now, u)) () io =
        (.ok receipt, (), wal') := by
  unfold redeemTerms at h
  split_ifs at h
  · simp at h
  · rcases hsettle : rail.settle transfer settleId with ⟨e | paymentRef, rail₁⟩
    · simp [hsettle] at h
    · rcases hconfirm : confirmBaseline t rail₁ paymentRef now with e | canonical
      · simp [hsettle, hconfirm] at h
      · rcases hconsume : wal.consumeNonce (Receipt.form codec suite) t.quote.nonce
          (t.record canonical) (fun u => (m.baselineReceipt codec suite t paymentRef now, u)) () io
          with ⟨result, u, wal₁⟩
        simp only [hsettle, hconfirm, hconsume, Prod.mk.injEq] at h
        obtain ⟨hresult, -, rfl⟩ := h
        obtain rfl := mapError_eq_ok.1 hresult
        exact ⟨paymentRef, canonical, hconsume⟩

theorem redeemTwoLeg_ok {presentedJson expectedResource meedRef netRef : String}
    {rail rail' : EntryRail}
    (h : m.redeemTwoLeg codec suite presentedJson expectedResource meedRef netRef now io rail wal =
      (.ok receipt, rail', wal')) :
    wal' = wal ∨ ∃ q t, m.acceptTwoLeg codec suite presentedJson expectedResource = .ok q ∧
      m.twoLegTerms suite q = .ok t ∧
      wal.consumeNonce (Receipt.form codec suite) q.nonce (twoLegRecord q meedRef netRef)
        (fun u => (m.twoLegReceipt codec suite t meedRef netRef now, u)) () io =
          (.ok receipt, (), wal') := by
  unfold redeemTwoLeg at h
  rcases haccept : m.acceptTwoLeg codec suite presentedJson expectedResource with e | q
  · simp [haccept] at h
  · simp only [haccept] at h
    split_ifs at h
    · simp at h
    · rcases hpeek : wal.peek q.nonce (twoLegRecord q meedRef netRef) with _ | stored | _
      · rcases hsettle : m.settleTwoLeg suite q meedRef netRef now rail with e | ⟨t, rail₁⟩
        · simp [hpeek, hsettle] at h
        · rcases hconsume : wal.consumeNonce (Receipt.form codec suite) q.nonce
            (twoLegRecord q meedRef netRef)
            (fun u => (m.twoLegReceipt codec suite t meedRef netRef now, u)) () io
            with ⟨result, u, wal₁⟩
          simp only [hpeek, hsettle, hconsume, Prod.mk.injEq] at h
          obtain ⟨hresult, -, rfl⟩ := h
          obtain rfl := mapError_eq_ok.1 hresult
          exact .inr ⟨q, t, rfl, settleTwoLeg_ok hsettle, hconsume⟩
      · simp only [hpeek, Prod.mk.injEq] at h
        exact .inl h.2.2.symm
      · simp [hpeek] at h

theorem twoLegTerms_ok {q : Quote} {t : TwoLegTerms} (h : m.twoLegTerms suite q = .ok t) :
    t.quote = q ∧ t.offer ∈ q.offers := by
  unfold twoLegTerms at h
  simp only [bind_eq_ok, okOr_eq_ok, require_eq_ok, pure_eq_ok] at h
  obtain ⟨offer, hoffer, tl, -, payTo, -, asset, -, amount, -, basset, -, meed, -, reclaim, -,
    contest, -, fin, -, finMeed, -, finNet, -, seed, -, -, -, -, -, rfl⟩ := h
  exact ⟨rfl, List.mem_of_find?_eq_some hoffer⟩

theorem acceptTwoLeg_ok {presentedJson expectedResource : String} {q : Quote}
    (h : m.acceptTwoLeg codec suite presentedJson expectedResource = .ok q) :
    Quote.parseVerify codec suite presentedJson m.key = some q := by
  unfold acceptTwoLeg at h
  simp only [bind_eq_ok, okOr_eq_ok, require_eq_ok, pure_eq_ok] at h
  obtain ⟨q', hq', -, -, -, -, -, -, rfl⟩ := h
  exact hq'

variable (codec suite m) in
/-- A redemption that is answered with a receipt. -/
inductive Redeems (wal : Wal ReceiptRest) (receipt : Receipt) (wal' : Wal ReceiptRest) : Prop
  | baseline {presentedJson expectedResource : String} {transfer : Transfer}
    {settleId : ByteArr 32} {now : ℕ} {io : AppendIo} {rail rail' : VirtualRail}
    (hnow : now ≤ U64_MAX)
    (h : m.redeemBaseline codec suite presentedJson expectedResource transfer settleId now io rail
      wal = (.ok receipt, rail', wal'))
  | twoLeg {presentedJson expectedResource meedRef netRef : String} {now : ℕ} {io : AppendIo}
    {rail rail' : EntryRail} (hnow : now ≤ U64_MAX)
    (h : m.redeemTwoLeg codec suite presentedJson expectedResource meedRef netRef now io rail wal =
      (.ok receipt, rail', wal'))

variable (codec suite m) in
/-- A receipt for a decision under a quote of the merchant, which the merchant signs. -/
structure Issued (nonce : ByteArr 32) (record : NonceRecord) (r : Receipt) : Prop where
  typed : r.Typed
  nonce_eq : r.nonce = nonce
  idem_eq : r.idem = record.idem
  resource_eq : r.resource = record.resource
  offered : ∃ json q o, Quote.parseVerify codec suite json m.key = some q ∧ o ∈ q.offers ∧
    r.rest.accept = o.accept

/-- A redemption leaves the store as it was, or appends a receipt that is signed for it. -/
theorem Redeems.appends (h : Redeems codec suite m wal receipt wal') :
    wal' = wal ∨ ∃ nonce record r io, Issued codec suite m nonce record r ∧
      receipt = r.sign codec suite m.signingKey ∧ wal.byNonce.lookup nonce = none ∧
        io.ok = true ∧
        wal' = ⟨(wal.toAppendLog.append
            (entry (Receipt.form codec suite) nonce record receipt) io).2,
          wal.byNonce.insert nonce (record, receipt),
          wal.usedRefs ∪ (usedRefKeys record.paymentRef).toFinset⟩ := by
  cases h with
  | @baseline presentedJson expectedResource transfer settleId now io rail rail' hnow h =>
    rcases hterms : m.baselineTerms codec suite presentedJson expectedResource with e | t
    · rw [redeemBaseline_refused now io wal hterms] at h
      simp at h
    · rw [redeemBaseline_of_terms now io wal hterms] at h
      obtain ⟨paymentRef, canonical, hconsume⟩ := redeemTerms_ok h
      obtain ⟨hread, -, -, hoffer, -⟩ := baselineTerms_eq_ok.1 hterms
      refine (Wal.consumeNonce_ok hconsume).imp_right ?_
      rintro ⟨-, hfree, hreceipt, hio, hwal⟩
      refine ⟨t.quote.nonce, t.record canonical, Receipt.baseline t.quote t.offer.accept
        t.quote.baseline paymentRef now, io, ⟨⟨rfl, rfl, hnow⟩, rfl, rfl, rfl, ?_⟩, hreceipt,
        hfree, hio, hwal⟩
      exact ⟨presentedJson, t.quote, t.offer, hread, List.mem_of_find?_eq_some hoffer, rfl⟩
  | @twoLeg presentedJson expectedResource meedRef netRef now io rail rail' hnow h =>
    refine (redeemTwoLeg_ok h).elim .inl ?_
    rintro ⟨q, t, haccept, hterms, hconsume⟩
    obtain ⟨rfl, hoffer⟩ := twoLegTerms_ok hterms
    refine (Wal.consumeNonce_ok hconsume).imp_right ?_
    rintro ⟨-, hfree, hreceipt, hio, hwal⟩
    refine ⟨t.quote.nonce, twoLegRecord t.quote meedRef netRef, _, io,
      ⟨⟨?_, ?_, ?_⟩, ?_, ?_, ?_, ?_⟩, hreceipt, hfree, hio, hwal⟩
    · rfl
    · rfl
    · exact hnow
    · rfl
    · rfl
    · rfl
    · exact ⟨presentedJson, t.quote, t.offer, acceptTwoLeg_ok haccept, hoffer, rfl⟩

/-! ## Runs -/

/-- A stored receipt whose numbers are kept, in a record that fits its frames. -/
structure Fits (codec : TextCodec) (serde : Serde) (e : NonceRecord × Receipt) : Prop where
  keeps : ∀ text ∈ e.2.rest.accept.numbers, serde.Keeps text
  record : (encodeRecord e.1).length < 2 ^ 32
  receipt : (Receipt.toJson codec e.2).length < 2 ^ 32

variable (codec suite m) in
/-- The stores on a new log after any redemptions, each answered with a receipt whose record fits,
with restarts between them. -/
inductive Run (serde : Serde) : Wal ReceiptRest → Prop
  | opened {io : AppendLog.OpenIo} {wal : Wal ReceiptRest}
    (h : (openLog (Receipt.form codec suite) m.key [] io).2 = .ok wal) : Run serde wal
  | redeemed {wal wal' : Wal ReceiptRest} {receipt : Receipt} (hrun : Run serde wal)
    (h : Redeems codec suite m wal receipt wal')
    (hfits : ∀ e, wal'.byNonce.lookup receipt.nonce = some e → Fits codec serde e) : Run serde wal'
  | reopened {io : AppendLog.OpenIo} {wal wal' : Wal ReceiptRest} (hrun : Run serde wal)
    (h : (openLog (Receipt.form codec suite) m.key wal.file.content io).2 = .ok wal') :
    Run serde wal'

section Reading

variable {serde : Serde} {limit : ℕ∞}

/-- What an offer of a quote mirrors has no two members of one name, and is nested three deep in
the document. -/
theorem accept_distinct (hreads : serde.Reads limit)
    (hcodec : codec.parseStrict = Jcs.parseStrict serde) {json : String} {pk : ByteArr 32}
    {q : Quote} {o : Offer} (h : Quote.parseVerify codec suite json pk = some q)
    (ho : o ∈ q.offers) :
    o.accept.Distinct ∧ ((o.accept.tree.depth + 3 : ℕ) : ℕ∞) ≤ limit := by
  obtain ⟨value, -, -, hread, -, -, hq⟩ := Quote.parseVerify_some h
  obtain ⟨hdistinct, hdepth⟩ := hreads.parseStrict_distinct (hcodec ▸ hread)
  obtain ⟨items, item, hmember, hitem, haccept⟩ := (Quote.fromMembers_some hq).offer_member ho
  obtain ⟨hitems, hinner⟩ := hdistinct.member hmember
  obtain ⟨hitemDistinct, hitemDepth⟩ := hitems.item hitem
  obtain ⟨hacceptDistinct, hacceptDepth⟩ := hitemDistinct.member haccept
  refine ⟨hacceptDistinct, le_trans (Nat.cast_le.2 ?_) hdepth⟩
  omega

/-- What is issued is read back as a receipt that is written the same. -/
theorem Issued.consumption (hreads : serde.Reads limit)
    (hcodec : codec.parseStrict = Jcs.parseStrict serde)
    (hb64 : ∀ bytes, codec.b64Decode (codec.b64 bytes) = some bytes) (hsigns : suite.Signs)
    (hkey : m.key = suite.ed25519Public m.signingKey) {nonce : ByteArr 32} {record : NonceRecord}
    {r : Receipt} (h : Issued codec suite m nonce record r)
    (hfits : Fits codec serde (record, r.sign codec suite m.signingKey)) :
    ∃ c : Consumption (Receipt.form codec suite) m.key, c.nonce = nonce ∧ c.record = record ∧
      Receipt.toJson codec c.receipt = Receipt.toJson codec (r.sign codec suite m.signingKey) := by
  obtain ⟨json, q, o, hread, ho, haccept⟩ := h.offered
  obtain ⟨hdistinct, hlimit⟩ := accept_distinct hreads hcodec hread ho
  rw [← haccept] at hdistinct hlimit
  have hdepth : ((Receipt.toValue codec (r.sign codec suite m.signingKey) true).tree.depth : ℕ∞) ≤
      limit := (Nat.cast_le.2 (Receipt.toValue_depth _ true)).trans hlimit
  obtain ⟨accept, hback, -, hjson⟩ := Receipt.parseVerify_toJson hreads hcodec hb64 hsigns h.typed
    ⟨hdistinct, hfits.keeps⟩ m.signingKey hdepth
  rw [← hkey] at hback
  have hnonce : (r.sign codec suite m.signingKey).nonce = nonce := h.nonce_eq
  have hidem : (r.sign codec suite m.signingKey).idem = record.idem := h.idem_eq
  have hresource : (r.sign codec suite m.signingKey).resource = record.resource := h.resource_eq
  have hreceipt : (Receipt.toJson codec (r.sign codec suite m.signingKey)).length < 2 ^ 32 :=
    hfits.receipt
  rw [← Receipt.form_toJson codec suite] at hback hjson hreceipt ⊢
  rw [← Receipt.form_parseVerify] at hback
  generalize r.sign codec suite m.signingKey = signed at hnonce hidem hresource hback hjson hreceipt
  refine exists_consumption ?_ ?_ ?_ hback hjson hfits.record hreceipt
  · exact hnonce
  · exact hidem
  · exact hresource

/-- A run leaves a store that its log backs. -/
theorem Run.backed (hreads : serde.Reads limit)
    (hcodec : codec.parseStrict = Jcs.parseStrict serde)
    (hb64 : ∀ bytes, codec.b64Decode (codec.b64 bytes) = some bytes) (hsigns : suite.Signs)
    (hkey : m.key = suite.ed25519Public m.signingKey) (h : Run codec suite m serde wal) :
    ∃ cs : List (Consumption (Receipt.form codec suite) m.key), Backed wal cs := by
  induction h with
  | opened h =>
    have hempty : ([] : Bytes) =
        encodeLog (log ([] : List (Consumption (Receipt.form codec suite) m.key))) := rfl
    rw [hempty] at h
    exact ⟨[], (openLog_ok h).2⟩
  | reopened _ h ih =>
    obtain ⟨cs, hbacked⟩ := ih
    rw [hbacked.content] at h
    exact ⟨cs, (openLog_ok h).2⟩
  | @redeemed wal wal' receipt _ h hfits ih =>
    obtain ⟨cs, hbacked⟩ := ih
    obtain rfl | ⟨nonce, record, r, io, hissued, rfl, hfree, hio, rfl⟩ := h.appends
    · exact ⟨cs, hbacked⟩
    · have hstored := hfits (record, r.sign codec suite m.signingKey) (by
        rw [show (r.sign codec suite m.signingKey).nonce = nonce from hissued.nonce_eq]
        exact Finmap.lookup_insert _)
      obtain ⟨c, rfl, rfl, hjson⟩ :=
        hissued.consumption hreads hcodec hb64 hsigns hkey hstored
      rw [← Receipt.form_toJson codec suite] at hjson
      exact ⟨cs ++ [c], hbacked.append c hjson hfree hio⟩

end Reading

end Merchant

section Documents

variable {serde : Serde} {limit : ℕ∞} {codec : TextCodec} {suite : Suite}

/-- Quotes and receipts that are signed and written are read back under their key, up to the order
of members, if their numbers are kept, as the integers of 64 bits are. So the log of any redemptions
is never corrupt, and the store that it opens to has the decisions that were made, and answers
with the bytes of the receipts that were given. -/
theorem documents_and_logs (hreads : serde.Reads limit)
    (hcodec : codec.parseStrict = Jcs.parseStrict serde)
    (hb64 : ∀ bytes, codec.b64Decode (codec.b64 bytes) = some bytes) (hsigns : suite.Signs) :
    (∀ i : ℤ, Jcs.I64_MIN ≤ i → i < Jcs.U64_END → serde.Keeps (toString i)) ∧
    (∀ (q : Quote) (sk : ByteArr 32), q.Typed →
      (∀ o ∈ q.offers, o.All (StrictValue.Kept serde)) →
      ((q.sign codec suite sk).toValue codec true).tree.depth ≤ limit →
      ∃ offers, Quote.parseVerify codec suite ((q.sign codec suite sk).toJson codec)
        (suite.ed25519Public sk) = some { q.sign codec suite sk with offers } ∧
          List.Forall₂ Offer.Same q.offers offers) ∧
    (∀ (r : Receipt) (sk : ByteArr 32), r.Typed → r.rest.accept.Kept serde →
      (Receipt.toValue codec (r.sign codec suite sk) true).tree.depth ≤ limit →
      ∃ accept, (Bytes.toString? (Receipt.toJson codec (r.sign codec suite sk))).bind
        (Receipt.parseVerify codec suite · (suite.ed25519Public sk)) =
          some { r.sign codec suite sk with rest := { (r.sign codec suite sk).rest with accept } } ∧
          r.rest.accept.Same accept) ∧
    ∀ (m : Merchant), m.key = suite.ed25519Public m.signingKey →
      ∀ wal : Wal ReceiptRest, Merchant.Run codec suite m serde wal →
      (∀ io, (openLog (Receipt.form codec suite) m.key wal.file.content io).2 ≠
        .error .corrupt) ∧
      (∃ wal', (openLog (Receipt.form codec suite) m.key wal.file.content .good).2 = .ok wal') ∧
      ∀ io wal', (openLog (Receipt.form codec suite) m.key wal.file.content io).2 = .ok wal' →
        wal'.usedRefs = wal.usedRefs ∧
        (∀ n, (wal'.byNonce.lookup n).map (written (Receipt.form codec suite)) =
          (wal.byNonce.lookup n).map (written (Receipt.form codec suite))) ∧
        ∀ nonce record receipt, wal.byNonce.lookup nonce = some (record, receipt) →
          ∃ receipt', Receipt.toJson codec receipt' = Receipt.toJson codec receipt ∧
            ∀ {β : Type} (build : β → Receipt × β) (b : β) (io : AppendIo),
              wal'.consumeNonce (Receipt.form codec suite) nonce record build b io =
                (.ok receipt', b, wal') := by
  refine ⟨fun i => serde.keeps_toString, fun q sk h hoffers hdepth => ?_,
    fun r sk h haccept hdepth => ?_, fun m hkey wal hrun => ?_⟩
  · exact Quote.parseVerify_toJson hreads hcodec hb64 hsigns h hoffers sk hdepth
  · obtain ⟨accept, hread, hsame, -⟩ :=
      Receipt.parseVerify_toJson hreads hcodec hb64 hsigns h haccept sk hdepth
    exact ⟨accept, hread, hsame⟩
  · obtain ⟨cs, hbacked⟩ := hrun.backed hreads hcodec hb64 hsigns hkey
    rw [hbacked.content]
    refine ⟨fun io hcorrupt => ?_, openLog_good cs, fun io wal' hopen => ?_⟩
    · rcases openLog_log cs io with hio | hok
      · cases hcorrupt.symm.trans hio
      · cases hcorrupt.symm.trans hok
    · obtain ⟨hbooks, hbacked'⟩ := openLog_ok hopen
      refine ⟨hbacked'.refs.trans hbacked.refs.symm, fun n => ?_, fun nonce record receipt hk => ?_⟩
      · rw [hbacked.nonces, hbacked'.nonces]
      · rw [← Receipt.form_toJson codec suite]
        exact hbacked.serves hbacked' hk

end Documents

namespace Shop

/-- An integer past 64 bits. -/
def wideNumber : String := toString (2 ^ 64 + 1 : ℤ)

/-- A library without a limit, which rounds this integer. -/
def serde : Serde where
  fromStr text := JsonTree.read text.toList
  f64Text token :=
    some (if token = wideNumber.toList then "18446744073709552000" else String.ofList token)

def wireCodec : TextCodec := serde.codec (codecOf []).b64 (codecOf []).b64Decode

theorem serde_reads : serde.Reads ⊤ where
  reads _ _ h _ := h
  within _ _ _ := le_top

theorem wireCodec_b64 (bytes : Bytes) :
    wireCodec.b64Decode (wireCodec.b64 bytes) = some bytes :=
  codecOf_b64 [] bytes

/-- A baseline receipt that names an entry. -/
def strayReceipt : Receipt where
  nonce := .ofNat 32 1
  idem := [7]
  resource := "https://shop.example/song"
  rest :=
    { accept := acceptOf 100
      paid := [{ leg := "split", network := "eip155:8453", reference := "virt-ref:0" }]
      entry := some (.ofNat 32 5)
      ts := 1000
      signature := none }

/-- A quote of one offer that mirrors an integer past 64 bits. -/
def wideQuote : Quote := quoteOf 1 2000000000
  [{ accept := .object [("amount", .number wideNumber)]
     finality := some "final", merchantNet := none, twoLeg := none }]

theorem acceptOf_kept (amount : ℕ) : (acceptOf amount).Kept serde where
  distinct := by
    refine .object (by simp) fun m hm => ?_
    simp only [List.mem_cons, List.not_mem_nil, or_false] at hm
    rcases hm with rfl | rfl | rfl | rfl | rfl | rfl | rfl | rfl | rfl
    case inr.inr.inr.inl => exact .number _
    all_goals exact .string _
  keeps := by
    intro text ht
    obtain rfl : text = toString (60 : ℤ) := by
      have hsixty : toString (60 : ℤ) = "60" := rfl
      simpa [acceptOf, StrictValue.numbers, StrictValue.numbersMembers, hsixty] using ht
    exact serde.keeps_toString (by decide) (by decide)

theorem wideNumber_unread (token : List Char) : Jcs.visitNumber serde token ≠ some wideNumber := by
  intro h
  have htext := Jcs.visitNumber_toString (by decide) h
  have hfloat : (if token = wideNumber.toList then "18446744073709552000" else
      String.ofList token) = wideNumber := Option.some.inj htext
  split_ifs at hfloat with htoken
  · exact absurd hfloat (by decide)
  · exact htoken (by rw [← hfloat, String.toList_ofList])

/-- A receipt of a baseline payment that names an entry is refused, and of a quote that mirrors an
integer past 64 bits no quote of the same offers is read. -/
theorem documents_refused :
    (Receipt.validatePaid strayReceipt.rest.paid = true ∧
      strayReceipt.rest.accept.Kept serde ∧
      (Bytes.toString? (Receipt.toJson wireCodec
        (strayReceipt.sign wireCodec keyedSuite merchant.signingKey))).bind
          (Receipt.parseVerify wireCodec keyedSuite · merchant.key) = none) ∧
    (wideQuote.Typed ∧
      (∀ o ∈ wideQuote.offers, o.twoLeg = none ∧ o.accept.Distinct ∧
        ∀ text ∈ o.accept.numbers, ∃ i : ℤ, text = toString i) ∧
      ¬∃ offers, Quote.parseVerify wireCodec keyedSuite
        ((wideQuote.sign wireCodec keyedSuite merchant.signingKey).toJson wireCodec) merchant.key =
          some { wideQuote.sign wireCodec keyedSuite merchant.signingKey with offers } ∧
            List.Forall₂ Offer.Same wideQuote.offers offers) := by
  refine ⟨⟨by decide, acceptOf_kept 100, ?_⟩, quoteOf_typed (by decide), ?_, ?_⟩
  · have hts : strayReceipt.rest.ts ≤ U64_MAX := by decide
    have hshape : strayReceipt.rest.entry.isSome ≠
        (strayReceipt.rest.paid.map PaidLeg.leg == ["meed", "net"]) := by decide
    exact @Receipt.parseVerify_misshapen serde ⊤ wireCodec keyedSuite serde_reads rfl
      wireCodec_b64 strayReceipt hts hshape (acceptOf_kept 100) merchant.signingKey merchant.key
      le_top
  · intro o ho
    obtain rfl := List.mem_singleton.1 ho
    refine ⟨rfl, .object (by simp) (by simpa using .number _), fun text ht => ?_⟩
    obtain rfl : text = wideNumber := by
      simpa [StrictValue.numbers, StrictValue.numbersMembers] using ht
    exact ⟨2 ^ 64 + 1, rfl⟩
  · rintro ⟨offers, hread, hsame⟩
    obtain ⟨o, rest, hoffer, -, rfl⟩ := List.forall₂_cons_left_iff.1 hsame
    have hnumbers := Quote.offered_numbers rfl hread List.mem_cons_self
    have hstrict : (StrictValue.object [("amount", .number wideNumber)]).Strict :=
      .object (by simp) (by simpa using .number (Jcs.integerOf_toString _).1)
    have hamount := hoffer.accept.member hstrict "amount"
    obtain ⟨amount, hamount, hnumber⟩ := rel_some hamount
    cases hnumber
    obtain ⟨token, htoken⟩ := hnumbers wideNumber
      (StrictValue.numbers_member hamount List.mem_cons_self)
    exact wideNumber_unread token htoken

/-- What the quote asks for when its offer is read as another one. -/
def readTerms (o : Offer) : Merchant.BaselineTerms :=
  { terms with quote := { quote with offers := [o] }, offer := o }

theorem readTerms_eq {o : Offer} (hsame : (offerOf 100).Same o)
    (hread : Quote.parseVerify wireCodec keyedSuite (quote.toJson wireCodec) merchant.key =
      some { quote with offers := [o] }) :
    merchant.baselineTerms wireCodec keyedSuite (quote.toJson wireCodec)
      "https://shop.example/song" = .ok (readTerms o) := by
  obtain ⟨-, hvector, hresource, -, hpayTo, hasset, hamount, hfinality, seed, hseed, haddress⟩ :=
    Merchant.baselineTerms_eq_ok.1 quote_terms
  have hstr := hsame.accept.memberStr (offerOf_strict 100).accept
  have htwoLeg : o.twoLeg = none := by
    have hrel := hsame.twoLeg
    generalize o.twoLeg = tl at hrel
    cases hrel
    rfl
  refine Merchant.baselineTerms_eq_ok.2 ⟨hread, hvector, hresource, ?_, ?_, ?_, ?_, ?_, seed, ?_,
    haddress⟩
  · simp [readTerms, htwoLeg]
  · exact (hstr "payTo").symm.trans hpayTo
  · exact (hstr "asset").symm.trans hasset
  · show (o.accept.memberStr "maxAmountRequired").bind (Jcs.parseUnsigned U128_MAX) = _
    rw [← hstr]
    exact hamount
  · exact hsame.finality.symm.trans hfinality
  · have hnet : o.merchantNet = terms.offer.merchantNet := hsame.merchantNet.symm
    show (terms.quote.addressInputs merchant.key terms.asset o.merchantNet).seedSplit keyedSuite = _
    rw [hnet]
    exact hseed

/-- The payment is settled and is final. -/
theorem transfer_settled : ∃ rail, start.settle transfer (.ofNat 32 1) = (.ok "virt-ref:0", rail) ∧
    Merchant.confirmBaseline terms rail "virt-ref:0" 1000 = .ok "virt-ref:0" := by
  refine ⟨(start.settle transfer (.ofNat 32 1)).2, Prod.ext ?_ rfl, ?_⟩
  · rfl
  · rfl

/-- The receipt of the redemption. -/
def receiptOf (o : Offer) : Receipt :=
  merchant.baselineReceipt wireCodec keyedSuite (readTerms o) "virt-ref:0" 1000

theorem redeemed_read {o : Offer} (hsame : (offerOf 100).Same o)
    (hread : Quote.parseVerify wireCodec keyedSuite (quote.toJson wireCodec) merchant.key =
      some { quote with offers := [o] }) :
    ∃ wal, Merchant.Redeems wireCodec keyedSuite merchant emptyWal (receiptOf o) wal ∧
      wal.byNonce =
        emptyWal.byNonce.insert quote.nonce (terms.record "virt-ref:0", receiptOf o) := by
  obtain ⟨rail, hsettle, hconfirm⟩ := transfer_settled
  have hpaid : (readTerms o).paidBy transfer = true := (rfl : terms.paidBy transfer = true)
  have hconfirmed : Merchant.confirmBaseline (readTerms o) rail "virt-ref:0" 1000 =
      .ok "virt-ref:0" := hconfirm
  have hredeem : merchant.redeemBaseline wireCodec keyedSuite (quote.toJson wireCodec)
      "https://shop.example/song" transfer (.ofNat 32 1) 1000 .good start emptyWal = _ :=
    Merchant.redeemBaseline_of_terms 1000 .good emptyWal (readTerms_eq hsame hread)
  unfold Merchant.redeemTerms at hredeem
  simp only [hpaid, hsettle, hconfirmed, Bool.not_true, Bool.false_eq_true, if_false] at hredeem
  rw [Wal.consumeNonce_new _ _ rfl (Finmap.lookup_empty _) (fun _ _ => Finset.notMem_empty _) rfl]
    at hredeem
  have hnow : 1000 ≤ U64_MAX := by decide
  refine ⟨_, .baseline hnow hredeem, ?_⟩
  rfl

theorem receiptOf_toJson {o : Offer} (hsame : (offerOf 100).Same o) :
    Receipt.toJson wireCodec (receiptOf o) = Receipt.toJson wireCodec (receiptOf (offerOf 100)) :=
  Receipt.toJson_sign_reorder (r := Receipt.baseline quote (acceptOf 100) quote.baseline
    "virt-ref:0" 1000) hsame.accept (acceptOf_kept 100).strict merchant.signingKey

theorem receiptOf_fits {o : Offer} (hsame : (offerOf 100).Same o) :
    Merchant.Fits wireCodec serde (terms.record "virt-ref:0", receiptOf o) where
  keeps text ht := by
    have hkept := acceptOf_kept 100
    exact hkept.keeps text (hsame.accept.numbers hkept.strict ht)
  record := by
    show (encodeRecord (terms.record "virt-ref:0")).length < 2 ^ 32
    decide +kernel
  receipt := by
    show (Receipt.toJson wireCodec (receiptOf o)).length < 2 ^ 32
    rw [receiptOf_toJson hsame]
    simp only [receiptOf, Merchant.baselineReceipt, Receipt.sign, Receipt.toJson, Jcs.toJcs,
      Bytes.ofString_ofList]
    decide +kernel

theorem emptyWal_opens : (openLog (Receipt.form wireCodec keyedSuite) merchant.key []
    .good).2 = .ok emptyWal := rfl

/-- The quote is read back and redeemed, and the log of it opens with the receipt. -/
theorem documents_and_logs_redeemed : ∃ (o : Offer) (wal wal' : Wal ReceiptRest),
    Quote.parseVerify wireCodec keyedSuite (quote.toJson wireCodec) merchant.key =
      some { quote with offers := [o] } ∧
    Merchant.Run wireCodec keyedSuite merchant serde wal ∧
    wal.byNonce.lookup quote.nonce = some (terms.record "virt-ref:0", receiptOf o) ∧
    (openLog (Receipt.form wireCodec keyedSuite) merchant.key wal.file.content .good).2 =
      .ok wal' ∧
    (wal'.byNonce.lookup quote.nonce).map (written (Receipt.form wireCodec keyedSuite)) =
      some (written (Receipt.form wireCodec keyedSuite)
        (terms.record "virt-ref:0", receiptOf o)) := by
  obtain ⟨-, hquotes, -, hlogs⟩ := @documents_and_logs serde ⊤ wireCodec keyedSuite serde_reads rfl
    wireCodec_b64 keyedSuite_signs
  have hsigned : (quoteOf 1 2000000000 [offerOf 100]).sign wireCodec keyedSuite
      merchant.signingKey = quote := rfl
  obtain ⟨offers, hread, hsame⟩ := hquotes (quoteOf 1 2000000000 [offerOf 100]) merchant.signingKey
    (quoteOf_typed (by decide))
    (fun o ho => List.mem_singleton.1 ho ▸ ⟨acceptOf_kept 100, fun _ h => by cases h⟩) le_top
  obtain ⟨o, rest, hoffer, hnil, rfl⟩ := List.forall₂_cons_left_iff.1 hsame
  obtain rfl := List.forall₂_nil_left_iff.1 hnil
  rw [hsigned] at hread
  obtain ⟨wal, hredeems, hbooks⟩ := redeemed_read hoffer hread
  have hlookup : wal.byNonce.lookup quote.nonce =
      some (terms.record "virt-ref:0", receiptOf o) := by
    rw [hbooks]
    exact Finmap.lookup_insert _
  have hrun : Merchant.Run wireCodec keyedSuite merchant serde wal :=
    .redeemed (.opened emptyWal_opens) hredeems fun e he => by
      rw [show (receiptOf o).nonce = quote.nonce from rfl, hlookup] at he
      exact Option.some.inj he ▸ receiptOf_fits hoffer
  obtain ⟨-, ⟨wal', hopen⟩, hserved⟩ := hlogs merchant rfl wal hrun
  obtain ⟨-, hnonces, -⟩ := hserved .good wal' hopen
  exact ⟨o, wal, wal', hread, hrun, hlookup, hopen,
    (hnonces quote.nonce).trans (by rw [hlookup]; rfl)⟩

end Shop

end Paytp
