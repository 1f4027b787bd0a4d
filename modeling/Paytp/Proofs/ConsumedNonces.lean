import Paytp.Proofs.NonceReplay

/-!
# The merchant store over whole runs

A consumption is free in the books when neither its nonce nor any of its references is in them.
Only free consumptions are booked, so a reference stays with one nonce, and `Knows` carries the
books from the open store to its file and back.
-/

namespace Paytp

namespace MerchantStore

variable {α : Type} {form : ReceiptForm α} {merchantKey : ByteArr 32}

/-- Neither the nonce nor a reference of `c` is in the books. -/
def Books.Free (b : Books α) (c : Consumption form merchantKey) : Prop :=
  b.byNonce.lookup c.nonce = none ∧ ∀ r ∈ usedRefKeys c.record.paymentRef, r ∉ b.usedRefs

/-- Every reference of a booked nonce is used, and no two nonces share one. -/
structure Books.Apart (b : Books α) : Prop where
  used : ∀ n e, b.byNonce.lookup n = some e → ∀ r ∈ usedRefKeys e.1.paymentRef, r ∈ b.usedRefs
  apart : ∀ n₁ n₂ e₁ e₂ r, b.byNonce.lookup n₁ = some e₁ → b.byNonce.lookup n₂ = some e₂ →
    r ∈ usedRefKeys e₁.1.paymentRef → r ∈ usedRefKeys e₂.1.paymentRef → n₁ = n₂

theorem apart_empty : (Books.empty : Books α).Apart :=
  ⟨fun _ _ h => by simp [Books.empty] at h, fun _ _ _ _ _ h => by simp [Books.empty] at h⟩

theorem Books.Free.lookup_add {b : Books α} {c : Consumption form merchantKey} (h : b.Free c)
    (n : ByteArr 32) : (b.add c).byNonce.lookup n =
      if n = c.nonce then some (c.record, c.receipt) else b.byNonce.lookup n := by
  rw [Books.add, HashMap.lookup_orInsert, h.1, Option.getD_none]

theorem Books.Apart.add {b : Books α} (hb : b.Apart) {c : Consumption form merchantKey}
    (h : b.Free c) : (b.add c).Apart := by
  constructor
  · intro n e hn r hr
    rw [h.lookup_add] at hn
    simp only [Books.add, Finset.mem_union, List.mem_toFinset]
    split_ifs at hn with hc
    · obtain rfl := Option.some.inj hn
      exact .inr hr
    · exact .inl (hb.used n e hn r hr)
  · intro n₁ n₂ e₁ e₂ r h₁ h₂ hr₁ hr₂
    rw [h.lookup_add] at h₁ h₂
    split_ifs at h₁ h₂ with hc₁ hc₂ hc₂
    · rw [hc₁, hc₂]
    · obtain rfl := Option.some.inj h₁
      exact absurd (hb.used n₂ e₂ h₂ r hr₂) (h.2 r hr₁)
    · obtain rfl := Option.some.inj h₂
      exact absurd (hb.used n₁ e₁ h₁ r hr₁) (h.2 r hr₂)
    · exact hb.apart n₁ n₂ e₁ e₂ r h₁ h₂ hr₁ hr₂

variable (form merchantKey) in
/-- A record of a consumption that is free in `b`. -/
def Spare (b : Books α) (r : List Field) : Prop :=
  ∃ c : Consumption form merchantKey, r = fields c ∧ b.Free c

variable (form merchantKey) in
/-- The file holds the books, and the books are apart. -/
def Wal.Sound (wal : Wal α) : Prop :=
  ∃ cs : List (Consumption form merchantKey),
    wal.toAppendLog.Holds (Spare form merchantKey wal.toBooks) (log cs) ∧
      wal.toBooks = booksOf cs ∧ wal.toBooks.Apart

variable (form merchantKey) in
/-- A file of the books `b`, with at most a part of a record behind them. -/
def DiskHolds (disk : Bytes) (b : Books α) : Prop :=
  ∃ (cs : List (Consumption form merchantKey)) (t : Bytes),
    disk = encodeLog (log cs) ++ t ∧ Torn 3 t ∧ b = booksOf cs ∧ b.Apart

variable (form merchantKey) in
/-- The store is sound and its books are `b`. -/
def Knows : Store α → Books α → Prop
  | .down disk, b => DiskHolds form merchantKey disk b
  | .up wal, b => wal.toBooks = b ∧ wal.Sound form merchantKey

theorem DiskHolds.replay {disk : Bytes} {b : Books α} (h : DiskHolds form merchantKey disk b) :
    ∃ len, replay form merchantKey disk = .ok (b, len) := by
  obtain ⟨cs, t, rfl, ht, rfl, -⟩ := h
  exact ⟨_, replay_torn ht cs⟩

theorem Knows.books {s : Store α} {b : Books α} (h : Knows form merchantKey s b) :
    s.books form merchantKey = .ok b := by
  rcases s with disk | wal
  · obtain ⟨len, hrep⟩ := DiskHolds.replay h
    simp [Store.books, hrep, Except.map]
  · rw [Store.books, h.1]

theorem Knows.apart {s : Store α} {b : Books α} (h : Knows form merchantKey s b) : b.Apart := by
  rcases s with disk | wal
  · obtain ⟨cs, t, -, -, -, hb⟩ := h
    exact hb
  · obtain ⟨rfl, cs, -, -, hb⟩ := h
    exact hb

variable (form merchantKey) in
theorem knows_empty : Knows form merchantKey (.down []) Books.empty :=
  ⟨[], [], rfl, torn_nil (by norm_num), rfl, apart_empty⟩

variable (form merchantKey) in
/-- The books grew by at most one free consumption. -/
def Grows (b b' : Books α) : Prop :=
  b' = b ∨ ∃ c : Consumption form merchantKey, b.Free c ∧ b' = b.add c

theorem Grows.lookup {b b' : Books α} (h : Grows form merchantKey b b') {n : ByteArr 32}
    {e : NonceRecord × Receipt α} (hn : b.byNonce.lookup n = some e) :
    b'.byNonce.lookup n = some e := by
  rcases h with rfl | ⟨c, hfree, rfl⟩
  · exact hn
  · rw [hfree.lookup_add, if_neg]
    · exact hn
    · rintro rfl
      simp [hfree.1] at hn

/-- The books of a file with part of a free consumption's record behind them. -/
theorem diskHolds_prefix {cs : List (Consumption form merchantKey)} {t : Bytes}
    {c : Consumption form merchantKey} (hb : (booksOf cs).Apart) (hc : (booksOf cs).Free c)
    (ht : t <+: encodeFields (fields c)) : ∃ b',
      Grows form merchantKey (booksOf cs) b' ∧
      DiskHolds form merchantKey (encodeLog (log cs) ++ t) b' := by
  by_cases he : t = encodeFields (fields c)
  · refine ⟨(booksOf cs).add c, .inr ⟨c, hc, rfl⟩, cs ++ [c], [], ?_,
      torn_nil (by norm_num), (booksOf_concat cs c).symm, hb.add hc⟩
    rw [he, log_concat, encodeLog_concat, List.append_nil]
  · exact ⟨booksOf cs, .inl rfl, cs, t, rfl, torn_of_isPrefix ht he, rfl, hb⟩

namespace Wal.Sound

variable {wal : Wal α}

theorem disk_clean (h : wal.Sound form merchantKey) (hp : wal.poisoned = false) :
    DiskHolds form merchantKey wal.file.content wal.toBooks := by
  obtain ⟨cs, hcs, hbooks, hb⟩ := h
  refine ⟨cs, [], ?_, torn_nil (by norm_num), hbooks, hb⟩
  rw [hcs.content_of_clean hp, List.append_nil]

theorem disk (h : wal.Sound form merchantKey) : ∃ b',
    Grows form merchantKey wal.toBooks b' ∧
    DiskHolds form merchantKey wal.file.content b' := by
  obtain ⟨cs, hcs, hbooks, hb⟩ := h
  obtain ⟨t, hcontent, rfl | ⟨-, _, ⟨c, rfl, hfree⟩, ht⟩⟩ := hcs.content_eq
  · exact ⟨_, .inl rfl, cs, [], hcontent, torn_nil (by norm_num), hbooks, hb⟩
  · rw [hbooks] at hfree hb
    rw [hbooks, hcontent]
    exact diskHolds_prefix hb hfree ht

end Wal.Sound

theorem any_usedRefs_iff {b : Books α} {keys : List String} :
    keys.any (· ∈ b.usedRefs) = false ↔ ∀ r ∈ keys, r ∉ b.usedRefs := by
  simp

variable (form merchantKey) in
/-- What `consumeNonce` does to a sound store: its result, the runs of the builder and the store
after it. -/
inductive Consumes (wal : Wal α) (c : Consumption form merchantKey) (io : AppendIo) :
    Except StoreError (Receipt α) → ℕ → Wal α → Prop
  | poisoned (hp : wal.poisoned = true) : Consumes wal c io (.error .unavailable) 0 wal
  | retry {receipt : Receipt α} (hp : wal.poisoned = false)
    (hk : wal.byNonce.lookup c.nonce = some (c.record, receipt)) :
    Consumes wal c io (.ok receipt) 0 wal
  | conflict {e : NonceRecord × Receipt α} (hp : wal.poisoned = false)
    (hk : wal.byNonce.lookup c.nonce = some e) (hne : e.1 ≠ c.record) :
    Consumes wal c io (.error .replayed) 0 wal
  | reused {r : String} (hp : wal.poisoned = false) (hk : wal.byNonce.lookup c.nonce = none)
    (hr : r ∈ usedRefKeys c.record.paymentRef) (hu : r ∈ wal.usedRefs) :
    Consumes wal c io (.error .replayed) 0 wal
  | consumed {wal' : Wal α} (hp : wal.poisoned = false) (hfree : wal.toBooks.Free c)
    (hio : io.ok = true) (hs : wal'.Sound form merchantKey)
    (hb : wal'.toBooks = wal.toBooks.add c) : Consumes wal c io (.ok c.receipt) 1 wal'
  | failed {wal' : Wal α} (hp : wal.poisoned = false) (hfree : wal.toBooks.Free c)
    (hio : io.ok = false) (hs : wal'.Sound form merchantKey)
    (hb : wal'.toBooks = wal.toBooks) : Consumes wal c io (.error .unavailable) 1 wal'

theorem Wal.Sound.consume_free {wal : Wal α} (h : wal.Sound form merchantKey)
    (hp : wal.poisoned = false) {c : Consumption form merchantKey} (hfree : wal.toBooks.Free c)
    (io : AppendIo) : ∃ result wal', wal.consumeNonce form c.nonce c.record c.build 0 io =
      (result, 1, wal') ∧ Consumes form merchantKey wal c io result 1 wal' := by
  obtain ⟨cs, hcs, hbooks, hb⟩ := h
  have hany : (usedRefKeys c.record.paymentRef).any (· ∈ wal.usedRefs) = false :=
    any_usedRefs_iff.2 hfree.2
  cases hio : io.ok with
  | true =>
    obtain ⟨hdone, hclean, hholds⟩ := hcs.append_ok hp (fields c) hio
    rw [← entry_eq] at hdone hclean hholds
    rcases happ : wal.toAppendLog.append (entry form c.nonce c.record c.receipt) io with ⟨b, l⟩
    rw [happ] at hdone hclean hholds
    obtain rfl : b = true := hdone
    refine ⟨.ok c.receipt, ⟨l, ⟨wal.byNonce.insert c.nonce (c.record, c.receipt),
      wal.usedRefs ∪ (usedRefKeys c.record.paymentRef).toFinset⟩⟩, ?_, ?_⟩
    · simp only [Wal.consumeNonce, hp, hfree.1, hany, Consumption.build, happ,
        Bool.false_eq_true, if_false, Nat.zero_add]
    · have hadd : (⟨wal.byNonce.insert c.nonce (c.record, c.receipt),
          wal.usedRefs ∪ (usedRefKeys c.record.paymentRef).toFinset⟩ : Books α) =
          wal.toBooks.add c := by
        rw [Books.add, HashMap.orInsert_of_none _ hfree.1]
      rw [hadd]
      refine .consumed hp hfree hio ⟨cs ++ [c], ?_, ?_, hb.add hfree⟩ rfl
      · rw [log_concat]
        refine ⟨hholds.len_eq, ?_, hholds.cursor_eq⟩
        exact ⟨[], by rw [hholds.content_of_clean hclean, List.append_nil], .inl rfl⟩
      · rw [booksOf_concat, hbooks]
  | false =>
    obtain ⟨herr, hholds, -⟩ := hcs.append_error hp hio ⟨c, rfl, hfree⟩
    rw [← entry_eq] at herr hholds
    rcases happ : wal.toAppendLog.append (entry form c.nonce c.record c.receipt) io with ⟨b, l⟩
    rw [happ] at herr hholds
    obtain rfl : b = false := herr
    refine ⟨.error .unavailable, ⟨l, wal.toBooks⟩, ?_, ?_⟩
    · simp only [Wal.consumeNonce, hp, hfree.1, hany, Consumption.build, happ,
        Bool.false_eq_true, if_false, Nat.zero_add]
    · exact .failed hp hfree hio ⟨cs, hholds, hbooks, hb⟩ rfl

theorem Wal.Sound.consume {wal : Wal α} (h : wal.Sound form merchantKey)
    (c : Consumption form merchantKey) (io : AppendIo) :
    ∃ result runs wal', wal.consumeNonce form c.nonce c.record c.build 0 io =
      (result, runs, wal') ∧ Consumes form merchantKey wal c io result runs wal' := by
  cases hp : wal.poisoned with
  | true => exact ⟨_, 0, wal, by simp [Wal.consumeNonce, hp], .poisoned hp⟩
  | false =>
    rcases hk : wal.byNonce.lookup c.nonce with _ | ⟨stored, receipt⟩
    · by_cases hany : ∃ r ∈ usedRefKeys c.record.paymentRef, r ∈ wal.usedRefs
      · obtain ⟨r, hr, hu⟩ := hany
        have hany : (usedRefKeys c.record.paymentRef).any (· ∈ wal.usedRefs) = true :=
          List.any_eq_true.2 ⟨r, hr, by simpa using hu⟩
        exact ⟨_, 0, wal, by simp only [Wal.consumeNonce, hp, hk, hany, Bool.false_eq_true,
          if_false, if_true], .reused hp hk hr hu⟩
      · have hfree : wal.toBooks.Free c := ⟨hk, fun r hr hu => hany ⟨r, hr, hu⟩⟩
        obtain ⟨result, wal', heq, hcase⟩ := h.consume_free hp hfree io
        exact ⟨result, 1, wal', heq, hcase⟩
    · by_cases he : stored = c.record
      · subst he
        exact ⟨_, 0, wal, by simp [Wal.consumeNonce, hp, hk], .retry hp hk⟩
      · exact ⟨_, 0, wal, by simp [Wal.consumeNonce, hp, hk, he], .conflict hp hk he⟩

/-! ## Events -/

theorem Wal.Sound.crashIn {wal : Wal α} (h : wal.Sound form merchantKey)
    (c : Consumption form merchantKey) (landed : ℕ) : ∃ b',
    Grows form merchantKey wal.toBooks b' ∧
      DiskHolds form merchantKey (wal.crashIn form c.nonce c.record c.receipt landed) b' := by
  unfold Wal.crashIn
  split_ifs with hskip
  · exact h.disk
  · simp only [Bool.or_eq_true, not_or, Bool.not_eq_true, Option.isSome_eq_false_iff,
      Option.isNone_iff_eq_none] at hskip
    obtain ⟨⟨hp, hk⟩, hany⟩ := hskip
    have hfree : wal.toBooks.Free c := ⟨hk, any_usedRefs_iff.1 hany⟩
    obtain ⟨cs, hcs, hbooks, hb⟩ := h
    have hcrash := hcs.crashIn hp (fields c) landed
    rw [entry_eq, hcrash]
    rw [hbooks] at hfree hb ⊢
    exact diskHolds_prefix hb hfree (List.take_prefix _ _)

/-- Opening a file of the books `b` gives a clean store with them, or leaves a file of them. -/
theorem step_reopen {disk : Bytes} {b : Books α} (h : DiskHolds form merchantKey disk b)
    (io : AppendLog.OpenIo) :
    (∃ wal, step (.down disk) (.reopen io : Event form merchantKey) = (.up wal, none) ∧
        Knows form merchantKey (.up wal) b) ∨
      ∃ disk', step (.down disk) (.reopen io : Event form merchantKey) = (.down disk', none) ∧
        DiskHolds form merchantKey disk' b ∧ (io = .good → False) := by
  obtain ⟨len, hrep⟩ := h.replay
  obtain ⟨cs, t, rfl, ht, rfl, hb⟩ := h
  have hlen : len = (encodeLog (log cs)).length := by
    rw [replay_torn ht] at hrep
    exact (Prod.ext_iff.1 (Except.ok.inj hrep)).2.symm
  subst hlen
  obtain ⟨hleft, hopen⟩ := AppendLog.openAt_spec (log cs) t io
  cases hread : io.read with
  | false =>
    refine .inr ⟨encodeLog (log cs) ++ t, by simp [step, openLog, hread],
      ⟨cs, t, rfl, ht, rfl, hb⟩, ?_⟩
    rintro rfl
    simp [AppendLog.OpenIo.good] at hread
  | true =>
    rcases hres : AppendLog.openAt (encodeLog (log cs) ++ t) (encodeLog (log cs)).length io with
      ⟨disk', none | l⟩ <;> rw [hres] at hleft hopen
    · refine .inr ⟨disk', by simp [step, openLog, hread, hrep, hres], ?_, ?_⟩
      · rcases hleft with rfl | rfl
        · exact ⟨cs, t, rfl, ht, rfl, hb⟩
        · exact ⟨cs, [], by simp, torn_nil (by norm_num), rfl, hb⟩
      · rintro rfl
        have hgood := AppendLog.openAt_good (encodeLog (log cs) ++ t) (encodeLog (log cs)).length
        simp [hres] at hgood
    · refine .inl ⟨⟨l, booksOf cs⟩, by simp [step, openLog, hread, hrep, hres], rfl, cs, ?_, rfl,
        hb⟩
      rw [hopen l rfl]
      exact AppendLog.holds_open _

/-- Every event keeps the store sound, and its books grow by at most one free consumption. -/
theorem step_knows {s : Store α} {b : Books α} (e : Event form merchantKey)
    (h : Knows form merchantKey s b) :
    ∃ b', Grows form merchantKey b b' ∧ Knows form merchantKey (step s e).1 b' := by
  rcases s with disk | wal <;> rcases e with ⟨c, io⟩ | _ | ⟨c, landed⟩ | io
  case down.reopen =>
    rcases step_reopen h io with ⟨wal, hs, hk⟩ | ⟨disk', hs, hk, -⟩ <;> rw [hs]
    · exact ⟨b, .inl rfl, hk⟩
    · exact ⟨b, .inl rfl, hk⟩
  case up.consume =>
    obtain ⟨rfl, hs⟩ := h
    obtain ⟨result, runs, wal', heq, hcase⟩ := hs.consume c io
    have hstep : (step (.up wal) (.consume c io)).1 = .up wal' := by simp only [step, heq]
    rw [hstep]
    cases hcase with
    | poisoned => exact ⟨_, .inl rfl, rfl, hs⟩
    | retry => exact ⟨_, .inl rfl, rfl, hs⟩
    | conflict => exact ⟨_, .inl rfl, rfl, hs⟩
    | reused => exact ⟨_, .inl rfl, rfl, hs⟩
    | consumed _ hfree _ hs' hb => exact ⟨_, .inr ⟨c, hfree, rfl⟩, hb, hs'⟩
    | failed _ _ _ hs' hb => exact ⟨_, .inl rfl, hb, hs'⟩
  case up.crash =>
    obtain ⟨rfl, hs⟩ := h
    exact hs.disk
  case up.crashIn =>
    obtain ⟨rfl, hs⟩ := h
    exact hs.crashIn c landed
  all_goals exact ⟨b, .inl rfl, h⟩

/-- A run keeps the store sound, and what its books hold for a nonce. -/
theorem exec_knows : ∀ {s : Store α} {b : Books α} (es : List (Event form merchantKey)),
    Knows form merchantKey s b → ∃ b', Knows form merchantKey (exec step s es) b' ∧
      ∀ n e, b.byNonce.lookup n = some e → b'.byNonce.lookup n = some e
  | _, b, [], h => ⟨b, h, fun _ _ hn => hn⟩
  | _, _, e :: es, h => by
    obtain ⟨b₁, hgrows, h₁⟩ := step_knows e h
    obtain ⟨b₂, h₂, hkeep⟩ := exec_knows es h₁
    exact ⟨b₂, h₂, fun n x hn => hkeep n x (hgrows.lookup hn)⟩

/-- Attempts to reopen leave the books as they are. -/
theorem exec_reopens : ∀ {disk : Bytes} {b : Books α} (ios : List AppendLog.OpenIo),
    DiskHolds form merchantKey disk b → Knows form merchantKey
      (exec step (.down disk) (ios.map fun io => (.reopen io : Event form merchantKey))) b
  | _, _, [], h => h
  | disk, b, io :: ios, h => by
    rw [List.map_cons, exec_cons]
    rcases step_reopen h io with ⟨wal, hs, hk⟩ | ⟨disk', hs, hk, -⟩ <;> rw [hs]
    · have hup : ∀ ios : List AppendLog.OpenIo, exec step (.up wal)
          (ios.map fun io => (.reopen io : Event form merchantKey)) = .up wal := by
        intro ios
        induction ios with
        | nil => rfl
        | cons io ios ih => exact ih
      rw [hup]
      exact hk
    · exact exec_reopens ios hk

/-! ## Exactly once -/

/-- Over any run on a new file: a booked nonce keeps its record and receipt for ever, and no
reference is used by two nonces. A store that is not poisoned answers an identical retry with
the stored receipt and a conflicting one with `replayed`, running no builder and changing
nothing, and reopens to the books it had. A poisoned one refuses everything. -/
theorem consumeNonce_exactly_once (es : List (Event form merchantKey)) :
    ∃ b, (exec step (.down []) es).books form merchantKey = .ok b ∧
      (∀ nonce bound, b.byNonce.lookup nonce = some bound → ∀ es', ∃ b',
        (exec step (.down []) (es ++ es')).books form merchantKey = .ok b' ∧
          b'.byNonce.lookup nonce = some bound) ∧
      (∀ n₁ n₂ e₁ e₂ ref, b.byNonce.lookup n₁ = some e₁ → b.byNonce.lookup n₂ = some e₂ →
        ref ∈ usedRefKeys e₁.1.paymentRef → ref ∈ usedRefKeys e₂.1.paymentRef → n₁ = n₂) ∧
      ∀ wal, exec step (.down []) es = .up wal →
        (wal.poisoned = true → ∀ (c : Consumption form merchantKey) io,
          step (.up wal) (.consume c io) = (.up wal, some (.error .unavailable, 0))) ∧
        (wal.poisoned = false →
          (∀ (c : Consumption form merchantKey) io receipt,
            wal.byNonce.lookup c.nonce = some (c.record, receipt) →
            step (.up wal) (.consume c io) = (.up wal, some (.ok receipt, 0))) ∧
          (∀ (c : Consumption form merchantKey) io,
            ((∃ e, wal.byNonce.lookup c.nonce = some e ∧ e.1 ≠ c.record) ∨
              wal.byNonce.lookup c.nonce = none ∧
                ∃ r ∈ usedRefKeys c.record.paymentRef, r ∈ wal.usedRefs) →
            step (.up wal) (.consume c io) = (.up wal, some (.error .replayed, 0))) ∧
          (∀ (ios : List AppendLog.OpenIo) wal', exec step (.up wal)
            (.crash :: ios.map fun io => (.reopen io : Event form merchantKey)) = .up wal' →
            wal'.toBooks = wal.toBooks) ∧
          ∃ wal', exec step (.up wal) [.crash, (.reopen .good : Event form merchantKey)] =
            .up wal') := by
  obtain ⟨b, hknows, -⟩ := exec_knows es (knows_empty form merchantKey)
  refine ⟨b, hknows.books, fun nonce bound hn es' => ?_, hknows.apart.apart, fun wal hwal => ?_⟩
  · obtain ⟨b', hknows', hkeep⟩ := exec_knows es' hknows
    rw [exec_append]
    exact ⟨b', hknows'.books, hkeep nonce bound hn⟩
  · rw [hwal] at hknows
    obtain ⟨rfl, hs⟩ := hknows
    refine ⟨fun hp c io => by simp [step, Wal.consumeNonce, hp], fun hp => ⟨?_, ?_, ?_, ?_⟩⟩
    · intro c io receipt hk
      simp [step, Wal.consumeNonce, hp, hk]
    · rintro c io (⟨⟨stored, receipt⟩, hk, hne⟩ | ⟨hk, r, hr, hu⟩)
      · simp [step, Wal.consumeNonce, hp, hk, show ¬stored = c.record from hne]
      · have hany : (usedRefKeys c.record.paymentRef).any (· ∈ wal.usedRefs) = true :=
          List.any_eq_true.2 ⟨r, hr, by simpa using hu⟩
        simp only [step, Wal.consumeNonce, hp, hk, hany, Bool.false_eq_true, if_false, if_true]
    · intro ios wal' hrun
      have hk := exec_reopens ios (hs.disk_clean hp)
      rw [exec_cons, step] at hrun
      rw [hrun] at hk
      exact hk.1
    · rw [exec_cons, exec_cons, exec_nil, step]
      rcases step_reopen (hs.disk_clean hp) .good with ⟨wal', hstep, -⟩ | ⟨-, -, -, hgood⟩
      · exact ⟨wal', by rw [hstep]⟩
      · exact (hgood rfl).elim

/-- Receipts written as one letter for the first nonce and another for the second. -/
def letterForm : ReceiptForm Unit where
  toJson r := Bytes.ofString (if r.nonce = .replicate 32 1 then "a" else "b")
  parseVerify s _ := some ⟨if s = "a" then .replicate 32 1 else .replicate 32 2, [], "", ()⟩

def firstConsumption : Consumption letterForm (.replicate 32 0) where
  nonce := .replicate 32 1
  record := ⟨"x", [], "", .replicate 64 0⟩
  receipt := ⟨.replicate 32 1, [], "", ()⟩
  nonce_eq := rfl
  idem_eq := rfl
  resource_eq := rfl
  parses := by rw [letterForm, Bytes.toString?_ofString]; rfl
  short_record := by decide
  short_receipt := by decide

def secondConsumption : Consumption letterForm (.replicate 32 0) where
  nonce := .replicate 32 2
  record := ⟨"y", [], "", .replicate 64 0⟩
  receipt := ⟨.replicate 32 2, [], "", ()⟩
  nonce_eq := rfl
  idem_eq := rfl
  resource_eq := rfl
  parses := by rw [letterForm, Bytes.toString?_ofString]; rfl
  short_record := by decide
  short_receipt := by decide

/-- The second append fails and its cut fails too: the identical retry of the first consumption
is refused, although its receipt is stored. -/
theorem poisoned_refuses_retry :
    answers step (.down []) [.reopen .good, .consume firstConsumption .good,
      .consume secondConsumption ⟨none, false, false, true⟩, .consume firstConsumption .good] =
    [none, some (.ok firstConsumption.receipt, 1), some (.error .unavailable, 1),
      some (.error .unavailable, 0)] := by
  rfl

end MerchantStore

end Paytp
