import Paytp.Proofs.ConsumedNonces
import Paytp.Proofs.RedemptionLogs

/-!
# Receipts over crashes

A store whose receipts are read back as receipts that are written the same. It tracks the
consumptions that its log is of, each with the evidence that it was made on, through failed appends,
crashes and openings: what is written behind the log is at most a part of one more consumption that
was made on evidence, which a crash may complete.
-/

namespace Paytp

namespace AppendLog

variable {free free' : List Field → Prop} {l : AppendLog} {rs : List (List Field)}

/-- A clean log has nothing behind its records. -/
theorem Holds.of_clean (h : l.Holds free rs) (hp : l.poisoned = false) : l.Holds free' rs where
  len_eq := h.len_eq
  content_eq := ⟨[], by rw [h.content_of_clean hp, List.append_nil], .inl rfl⟩
  cursor_eq := h.cursor_eq

end AppendLog

namespace MerchantStore

variable {α : Type} {form : ReceiptForm α} {merchantKey : ByteArr 32}
  {E E' : Consumption form merchantKey → Prop} {cs : List (Consumption form merchantKey)}
  {wal : Wal α}

/-- What the books hold for a nonce is one of the consumptions. -/
theorem booksOf_lookup {n : ByteArr 32} {e : NonceRecord × Receipt α} :
    (booksOf cs).byNonce.lookup n = some e → ∃ c ∈ cs, c.nonce = n ∧ (c.record, c.receipt) = e := by
  induction cs using List.reverseRecOn with
  | nil =>
    intro h
    cases h
  | append_singleton cs c ih =>
    intro h
    rw [booksOf_concat, Books.add, HashMap.lookup_orInsert] at h
    split_ifs at h with hn
    · rcases hold : (booksOf cs).byNonce.lookup c.nonce with _ | e'
      · rw [hold] at h
        exact ⟨c, by simp, hn.symm, Option.some.inj h⟩
      · rw [hold] at h
        obtain rfl : e' = e := Option.some.inj h
        obtain ⟨c', hc', hnonce, heq⟩ := ih (by rw [hn, hold])
        exact ⟨c', by simp [hc'], hnonce, heq⟩
    · obtain ⟨c', hc', hnonce, heq⟩ := ih h
      exact ⟨c', by simp [hc'], hnonce, heq⟩

/-- The consumptions are booked each under its nonce, and no two of them share a reference. -/
structure Admitted (cs : List (Consumption form merchantKey)) : Prop where
  apart : (booksOf cs).Apart
  listed : ∀ c ∈ cs, (booksOf cs).byNonce.lookup c.nonce = some (c.record, c.receipt)

theorem Admitted.nil : Admitted ([] : List (Consumption form merchantKey)) :=
  ⟨apart_empty, fun _ hc => by cases hc⟩

theorem Admitted.concat (h : Admitted cs) {c : Consumption form merchantKey}
    (hfree : (booksOf cs).Free c) : Admitted (cs ++ [c]) := by
  refine ⟨?_, fun c' hc' => ?_⟩ <;> rw [booksOf_concat]
  · exact h.apart.add hfree
  · rw [hfree.lookup_add]
    split_ifs with hn
    · rcases List.mem_append.1 hc' with hold | hnew
      · have hlook := h.listed c' hold
        rw [hn, hfree.1] at hlook
        cases hlook
      · rw [List.mem_singleton.1 hnew]
    · rcases List.mem_append.1 hc' with hold | hnew
      · exact h.listed c' hold
      · exact absurd (congrArg Consumption.nonce (List.mem_singleton.1 hnew)) hn

variable (E) in
/-- A record of a consumption that may follow those of the log. -/
def Next (cs : List (Consumption form merchantKey)) (r : List Field) : Prop :=
  ∃ c, r = fields c ∧ (booksOf cs).Free c ∧ E c

variable (E) in
/-- The open store is of some consumptions, all made on evidence. -/
structure Wal.Tracks (wal : Wal α) (cs : List (Consumption form merchantKey)) : Prop where
  holds : wal.toAppendLog.Holds (Next E cs) (log cs)
  refs : wal.usedRefs = (booksOf cs).usedRefs
  nonces : ∀ n, (wal.byNonce.lookup n).map (written form) =
    ((booksOf cs).byNonce.lookup n).map (written form)
  named : ∀ n e, wal.byNonce.lookup n = some e → e.2.nonce = n
  admitted : Admitted cs
  earned : ∀ c ∈ cs, E c

variable (E) in
/-- A file of some consumptions, with at most a part of a record behind them. -/
structure DiskTracks (disk : Bytes) (cs : List (Consumption form merchantKey)) : Prop where
  content : ∃ t, disk = encodeLog (log cs) ++ t ∧ Torn 3 t
  admitted : Admitted cs
  earned : ∀ c ∈ cs, E c

variable (E) in
def Store.Tracks : Store α → List (Consumption form merchantKey) → Prop
  | .down disk, cs => DiskTracks E disk cs
  | .up wal, cs => wal.Tracks E cs

theorem Wal.Tracks.mono (h : wal.Tracks E cs) (hE : ∀ c, E c → E' c) : wal.Tracks E' cs := by
  refine ⟨h.holds.mono ?_, h.refs, h.nonces, h.named, h.admitted, fun c hc => hE c (h.earned c hc)⟩
  rintro _ ⟨c, hr, hfree, hc⟩
  exact ⟨c, hr, hfree, hE c hc⟩

theorem Store.Tracks.mono {s : Store α} (h : s.Tracks E cs) (hE : ∀ c, E c → E' c) :
    s.Tracks E' cs := by
  rcases s with disk | wal
  · exact ⟨h.content, h.admitted, fun c hc => hE c (h.earned c hc)⟩
  · exact Wal.Tracks.mono h hE

/-- The consumptions of a store are admitted, and made on evidence. -/
theorem Store.Tracks.made {s : Store α} (h : s.Tracks E cs) : Admitted cs ∧ ∀ c ∈ cs, E c := by
  rcases s with disk | wal
  · exact ⟨DiskTracks.admitted h, DiskTracks.earned h⟩
  · exact ⟨Wal.Tracks.admitted h, Wal.Tracks.earned h⟩

namespace Wal.Tracks

theorem backed (h : wal.Tracks E cs) (hp : wal.poisoned = false) : Backed wal cs :=
  ⟨hp, h.holds.of_clean hp, h.refs, h.nonces⟩

/-- A consumption whose nonce and references are not in the store is free. -/
theorem free (h : wal.Tracks E cs) {c : Consumption form merchantKey}
    (hnonce : wal.byNonce.lookup c.nonce = none)
    (hrefs : ∀ key ∈ usedRefKeys c.record.paymentRef, key ∉ wal.usedRefs) :
    (booksOf cs).Free c := by
  refine ⟨?_, fun key hkey => h.refs ▸ hrefs key hkey⟩
  have hsame := h.nonces c.nonce
  rw [hnonce, Option.map_none] at hsame
  exact Option.map_eq_none_iff.1 hsame.symm

/-- What the store holds for a nonce is one of the consumptions, written the same. -/
theorem stored (h : wal.Tracks E cs) {n : ByteArr 32} {record : NonceRecord} {receipt : Receipt α}
    (hn : wal.byNonce.lookup n = some (record, receipt)) : ∃ c ∈ cs, c.nonce = n ∧
      c.record = record ∧ form.toJson c.receipt = form.toJson receipt := by
  have hsame := h.nonces n
  rw [hn, Option.map_some] at hsame
  obtain ⟨e, he, hwritten⟩ := Option.map_eq_some_iff.1 hsame.symm
  obtain ⟨c, hc, hnonce, rfl⟩ := booksOf_lookup he
  obtain ⟨hrecord, hjson⟩ := Prod.mk.inj hwritten
  exact ⟨c, hc, hnonce, hrecord, hjson⟩

/-- A free consumption is appended, or the store fails. -/
theorem consume_free (h : wal.Tracks E cs) (hp : wal.poisoned = false)
    {c : Consumption form merchantKey} {receipt : Receipt α}
    (hnone : wal.byNonce.lookup c.nonce = none)
    (hrefs : ∀ key ∈ usedRefKeys c.record.paymentRef, key ∉ wal.usedRefs) (hc : E c)
    (hjson : form.toJson c.receipt = form.toJson receipt) (hname : receipt.nonce = c.nonce)
    {β : Type} (b : β) (io : AppendIo) :
    ∃ wal', wal.consumeNonce form c.nonce c.record (fun b => (receipt, b)) b io =
        (if io.ok then .ok receipt else .error .unavailable, b, wal') ∧
      wal'.Tracks E (if io.ok then cs ++ [c] else cs) := by
  have hfree := h.free hnone hrefs
  rcases hio : io.ok with _ | _
  · have hentry : entry form c.nonce c.record receipt = encodeFields (fields c) := by
      rw [← entry_eq, entry, entry, hjson]
    obtain ⟨herr, hholds, -⟩ := h.holds.append_error hp hio ⟨c, rfl, hfree, hc⟩
    rw [← hentry] at herr hholds
    refine ⟨⟨(wal.toAppendLog.append (entry form c.nonce c.record receipt) io).2, wal.toBooks⟩, ?_,
      hholds, h.refs, h.nonces, h.named, h.admitted, h.earned⟩
    rcases happ : wal.toAppendLog.append (entry form c.nonce c.record receipt) io with ⟨done, log⟩
    rw [happ] at herr
    obtain rfl : done = false := herr
    simpa [Wal.consumeNonce, hp, hnone, happ] using hrefs
  · have hback := (h.backed hp).append c hjson hnone hio
    refine ⟨_, Wal.consumeNonce_new (fun b => (receipt, b)) b hp hnone hrefs hio,
      hback.holds.mono fun _ hfalse => hfalse.elim, hback.refs, hback.nonces, fun n e hn => ?_, ?_,
      fun c' hc' => ?_⟩
    · replace hn : (wal.byNonce.insert c.nonce (c.record, receipt)).lookup n = some e := hn
      rw [HashMap.lookup_insert_ite] at hn
      split_ifs at hn with heq
      · obtain rfl := Option.some.inj hn
        exact hname.trans heq.symm
      · exact h.named n e hn
    · rw [if_pos rfl]
      exact h.admitted.concat hfree
    · rcases List.mem_append.1 hc' with hold | hnew
      · exact h.earned c' hold
      · rw [List.mem_singleton.1 hnew]
        exact hc

end Wal.Tracks

variable (E) in
/-- What a consumption answers, and what the store tracks after it. -/
structure Consumed (cs : List (Consumption form merchantKey)) (nonce : ByteArr 32)
    (record : NonceRecord) (result : Except StoreError (Receipt α)) (wal' : Wal α)
    (cs' : List (Consumption form merchantKey)) : Prop where
  grows : cs <+: cs'
  tracks : wal'.Tracks E cs'
  answer : ∀ receipt, result = .ok receipt → receipt.nonce = nonce ∧ ∃ c ∈ cs', c.nonce = nonce ∧
    c.record = record ∧ form.toJson c.receipt = form.toJson receipt

/-- A consumption on evidence answers with a receipt that is tracked, or with an error. -/
theorem Wal.Tracks.consume (h : wal.Tracks E cs) {nonce : ByteArr 32} {record : NonceRecord}
    {receipt : Receipt α} (hname : receipt.nonce = nonce) {β : Type} (b : β) (io : AppendIo)
    (hc : ∃ c : Consumption form merchantKey, c.nonce = nonce ∧ c.record = record ∧
      form.toJson c.receipt = form.toJson receipt ∧ E c) :
    ∃ result wal' cs', wal.consumeNonce form nonce record (fun b => (receipt, b)) b io =
      (result, b, wal') ∧ Consumed E cs nonce record result wal' cs' := by
  obtain ⟨c, rfl, rfl, hjson, hE⟩ := hc
  have hsame : ∀ {error : StoreError}, Consumed E cs c.nonce c.record (.error error) wal cs :=
    ⟨List.prefix_rfl, h, fun _ hok => by cases hok⟩
  rcases hp : wal.poisoned with _ | _
  · rcases hn : wal.byNonce.lookup c.nonce with _ | ⟨stored, kept⟩
    · by_cases hused : ∀ key ∈ usedRefKeys c.record.paymentRef, key ∉ wal.usedRefs
      · obtain ⟨wal', hrun, htracks⟩ := h.consume_free hp hn hused hE hjson hname b io
        refine ⟨_, wal', _, hrun, ?_, htracks, fun r hr => ?_⟩
        · split_ifs
          · exact List.prefix_append _ _
          · exact List.prefix_rfl
        · split_ifs at hr with hio
          obtain rfl := Except.ok.inj hr
          rw [if_pos hio]
          exact ⟨hname, c, by simp, rfl, rfl, hjson⟩
      · have hany : (usedRefKeys c.record.paymentRef).any (· ∈ wal.usedRefs) = true := by
          simp only [not_forall, not_not] at hused
          obtain ⟨key, hkey, hmem⟩ := hused
          exact List.any_eq_true.2 ⟨key, hkey, by simpa using hmem⟩
        refine ⟨.error .replayed, wal, cs, ?_, hsame⟩
        simp only [Wal.consumeNonce, hp, hn, hany, Bool.false_eq_true, if_false, if_true]
    · by_cases hrecord : stored = c.record
      · subst hrecord
        refine ⟨.ok kept, wal, cs, by simp [Wal.consumeNonce, hp, hn], List.prefix_rfl, h,
          fun r hr => ?_⟩
        obtain rfl := Except.ok.inj hr
        exact ⟨h.named _ _ hn, h.stored hn⟩
      · exact ⟨.error .replayed, wal, cs, by simp [Wal.consumeNonce, hp, hn, hrecord], hsame⟩
  · exact ⟨.error .unavailable, wal, cs, by simp [Wal.consumeNonce, hp], hsame⟩

/-- A crash leaves a file of the consumptions, or of one more that was made on evidence. -/
theorem Wal.Tracks.crash (h : wal.Tracks E cs) :
    ∃ cs', cs <+: cs' ∧ DiskTracks E wal.file.content cs' := by
  obtain ⟨t, hcontent, rfl | ⟨-, -, ⟨c, rfl, hfree, hc⟩, ht⟩⟩ := h.holds.content_eq
  · exact ⟨cs, List.prefix_rfl, ⟨[], hcontent, torn_nil (by norm_num)⟩, h.admitted, h.earned⟩
  · by_cases hwhole : t = encodeFields (fields c)
    · refine ⟨cs ++ [c], List.prefix_append _ _, ⟨[], ?_, torn_nil (by norm_num)⟩,
        h.admitted.concat hfree, fun c' hc' => ?_⟩
      · rw [hcontent, hwhole, log_concat, encodeLog_concat, List.append_nil]
      · rcases List.mem_append.1 hc' with hold | hnew
        · exact h.earned c' hold
        · rw [List.mem_singleton.1 hnew]
          exact hc
    · exact ⟨cs, List.prefix_rfl, ⟨t, hcontent, torn_of_isPrefix ht hwhole⟩, h.admitted, h.earned⟩

/-- A file opens to a store of its consumptions, unless the disk fails. -/
theorem DiskTracks.opens {disk : Bytes} (h : DiskTracks E disk cs) (io : AppendLog.OpenIo) :
    (∃ wal, (openLog form merchantKey disk io).2 = .ok wal ∧ wal.Tracks E cs) ∨
      (∃ e, (openLog form merchantKey disk io).2 = .error e) ∧
        DiskTracks E (openLog form merchantKey disk io).1 cs := by
  obtain ⟨⟨t, rfl, ht⟩, hadmitted, hearned⟩ := h
  obtain ⟨hleft, hopen⟩ := AppendLog.openAt_spec (log cs) t io
  unfold openLog
  rcases io.read with _ | _
  · exact .inr ⟨⟨_, rfl⟩, ⟨t, rfl, ht⟩, hadmitted, hearned⟩
  · rw [if_neg (by decide), replay_torn ht]
    dsimp only
    rcases hres : AppendLog.openAt (encodeLog (log cs) ++ t) (encodeLog (log cs)).length io with
      ⟨disk', _ | l⟩ <;> rw [hres] at hleft hopen
    · refine .inr ⟨⟨_, rfl⟩, ?_, hadmitted, hearned⟩
      rcases hleft with rfl | rfl
      · exact ⟨t, rfl, ht⟩
      · exact ⟨[], by simp, torn_nil (by norm_num)⟩
    · refine .inl ⟨_, rfl, ?_, rfl, fun _ => rfl, fun n e hn => ?_, hadmitted, hearned⟩
      · rw [hopen l rfl]
        exact AppendLog.holds_open _
      · obtain ⟨c, -, rfl, rfl⟩ := booksOf_lookup hn
        exact c.nonce_eq

end MerchantStore

end Paytp
