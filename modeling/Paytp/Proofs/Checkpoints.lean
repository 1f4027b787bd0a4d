import Paytp.CheckpointWire
import Paytp.Proofs.Overflows
import Paytp.Proofs.SettleMessages

/-!
# Checkpoints, read and written

A checkpoint parses from what it encodes to where it is canonical. What a channel builds is
canonical by the order its numbers are kept in, but for what it does not check: how far the
accruals went, the events it is handed and how long the lists are.
-/

namespace Paytp

open Tlv

theorem Leb128.length_encodeGroups_le : ∀ fuel v : ℕ, (encodeGroups fuel v).length ≤ fuel
  | 0, _ => le_rfl
  | fuel + 1, v => by
    rw [encodeGroups]
    split_ifs
    · simp
    · rw [List.length_cons]
      have hrest := length_encodeGroups_le fuel (v / 128)
      omega

/-- A list of short items takes no more than ten bytes and its items. -/
theorem Tlv.length_counted_le {α : Type} (enc : α → Bytes) {k : ℕ} {items : List α}
    (h : ∀ a ∈ items, (enc a).length ≤ k) :
    (buildCountPrefixed (items.map enc)).length ≤ 10 + items.length * k := by
  have hflat : (items.map enc).flatten.length ≤ items.length * k := by
    rw [List.length_flatten, List.map_map]
    have hsum := List.sum_le_card_nsmul (items.map (List.length ∘ enc)) k (by simpa using h)
    simpa using hsum
  have hcount := Leb128.length_encodeGroups_le 10 (items.map enc).length
  rw [buildCountPrefixed, List.length_append, Leb128.encode]
  omega

/-- Roles that ascend are no more than there are. -/
theorem length_rolesAscending {entries : List (UInt8 × ℕ)} (h : rolesAscending entries = true) :
    entries.length ≤ 256 := by
  have hroles : (entries.map fun e => e.1.toNat).Nodup := by
    have hlt : (entries.map fun e => e.1.toNat).Pairwise (· < ·) := by
      have hpair := of_decide_eq_true h
      rw [List.pairwise_map] at hpair ⊢
      exact hpair.imp fun hab => UInt8.lt_iff_toNat_lt.1 hab
    exact hlt.imp fun hab => hab.ne
  have hsub : (entries.map fun e => e.1.toNat) ⊆ List.range 256 := by
    intro n hn
    obtain ⟨e, -, rfl⟩ := List.mem_map.1 hn
    exact List.mem_range.2 e.1.toNat_lt
  simpa using (hroles.subperm hsub).length_le

theorem length_roleItem {e : UInt8 × ℕ} (h : e.2 ≤ VALUE_MAX) : (roleItem e).length ≤ 27 := by
  have hnum : (encodeUint e.2).length ≤ max 1 16 :=
    length_encodeUint_le (by unfold VALUE_MAX at h; omega)
  have hlen := Leb128.length_encodeGroups_le 10 (encodeUint e.2).length
  rw [roleItem, List.length_cons, pushLp, List.length_append, Leb128.encode]
  omega

theorem length_accruals {entries : List (UInt8 × ℕ)} (hroles : rolesAscending entries = true)
    (h : ∀ e ∈ entries, e.2 ≤ VALUE_MAX) :
    (buildCountPrefixed (entries.map roleItem)).length ≤ Leb128.MAX := by
  have hitems := length_counted_le roleItem fun e he => length_roleItem (h e he)
  have hcount := length_rolesAscending hroles
  unfold Leb128.MAX
  omega

theorem length_encodeSint {n : ℤ} (h : n.natAbs ≤ VALUE_MAX) :
    (encodeSint n).length ≤ Leb128.MAX := by
  have hmin := encodeSint_minimal n
  by_contra hlong
  refine hmin.least 17 (by decide) ?_ ?_
  · unfold Leb128.MAX at hlong
    omega
  · unfold Fits
    unfold VALUE_MAX at h
    norm_num
    omega

namespace Checkpoint

def rangeItem (r : Range) : Bytes := toBE 8 r.lo ++ toBE 8 r.hi

def eventItem (e : CkptEvent) : Bytes := e.kind :: pushLp e.reference

theorem parseRange_delimits :
    Delimits (fun r => r.lo ≤ r.hi ∧ r.hi ≤ SEQ_MAX) rangeItem parseRange := by
  have h : Delimits _ _ parseRange :=
    (((readBE_delimits 8).both (readBE_delimits 8)).mapItem
      (g := fun r : Range => (r.lo, r.hi)) (fun _ => rfl) (fun _ _ => rfl)).onlyItem
      (fun r : Range => decide (r.lo ≤ r.hi) && decide (r.hi ≤ SEQ_MAX)) WireError.fieldDomain
  intro bs r n
  rw [h bs r n]
  simp only [Bool.and_eq_true, decide_eq_true_eq]
  constructor
  · rintro ⟨⟨-, hdom⟩, hrest⟩
    exact ⟨hdom, hrest⟩
  · rintro ⟨hdom, hrest⟩
    have hfit : SEQ_MAX < 256 ^ 8 := by decide
    exact ⟨⟨⟨by omega, by omega⟩, hdom⟩, hrest⟩

theorem parseEvent_delimits : Delimits
    (fun e => isEventKind e.kind = true ∧ e.reference.length ≤ Leb128.MAX) eventItem
    parseEvent := by
  have h : Delimits _ _ parseEvent :=
    ((readByte_delimits.onlyItem isEventKind WireError.fieldDomain).both
      readLp_delimits).mapItem (g := fun e : CkptEvent => (e.kind, e.reference)) (fun _ => rfl)
      (fun _ _ => rfl)
  intro bs e n
  rw [h bs e n]
  simp only [true_and]
  rfl

theorem rangeItem_ne_nil (r : Range) : rangeItem r ≠ [] := by
  intro h
  have hlen := congrArg List.length h
  simp [rangeItem] at hlen

theorem eventItem_ne_nil (e : CkptEvent) : eventItem e ≠ [] := List.cons_ne_nil _ _

/-- The balance that a magnitude and a sign are. -/
def signed (bal : ℕ × Bool) : ℤ := if bal.2 then -bal.1 else bal.1

theorem decodeBalance_reads : Reads
    (fun bal : ℕ × Bool => bal.1 ≤ VALUE_MAX ∧ (bal.2 = true → bal.1 ≠ 0))
    (fun bal => encodeSint (signed bal)) decodeBalance := by
  rintro value ⟨mag, negative⟩
  unfold decodeBalance signed
  simp only [bind_eq_ok, require_eq_ok, pure_eq_ok, decodeSint_iff, decide_eq_true_eq,
    Prod.mk.injEq]
  constructor
  · rintro ⟨n, rfl, -, hle, rfl, rfl⟩
    refine ⟨⟨hle, fun hneg => ?_⟩, ?_⟩
    · have hlt := of_decide_eq_true hneg
      omega
    · congr 1
      split_ifs with hneg
      · have hlt := of_decide_eq_true hneg
        omega
      · have hge := of_decide_eq_false (Bool.eq_false_iff.2 hneg)
        omega
  · rintro ⟨⟨hle, hne⟩, rfl⟩
    refine ⟨_, rfl, ⟨⟩, ?_⟩
    rcases negative with _ | _
    · simpa using hle
    · have hpos := hne rfl
      simp only [if_true, Int.natAbs_neg, Int.natAbs_natCast]
      exact ⟨hle, trivial, by simp; omega⟩

theorem decodeLastSeq_reads : Reads (· ≤ SEQ_MAX) (toBE 8) decodeLastSeq := by
  intro value seq
  unfold decodeLastSeq
  simp only [bind_eq_ok, require_eq_ok, pure_eq_ok, fixed_reads _ _ _, true_and, decide_eq_true_eq]
  constructor
  · rintro ⟨a, rfl, -, hle, rfl⟩
    have hback := toBE_ofBE a.toList
    rw [a.toList_length] at hback
    exact ⟨hle, hback.symm⟩
  · rintro ⟨hle, rfl⟩
    have hfit : SEQ_MAX < 256 ^ 8 := by decide
    have hval : ofBE (toBE 8 seq) = seq := ofBE_toBE (by omega)
    exact ⟨⟨toBE 8 seq, length_toBE 8 seq⟩, rfl, ⟨⟩, by rwa [← hval] at hle, hval⟩

/-! ## The codec -/

def slots (cp : Checkpoint) : List (UInt8 × Option Bytes) :=
  [(0x00, some cp.channelId.toList),
    (0x01, some (encodeSint (signed (cp.balance, cp.balanceNegative)))),
    (0x02, some (encodeUint cp.cumTotal)),
    (0x03, some (buildCountPrefixed (cp.accruals.map roleItem))), (0x04, some (toBE 8 cp.lastSeq)),
    (0x05, some (buildCountPrefixed (cp.ranges.map rangeItem))), (0x06, some cp.transcript.toList),
    (0x07, some (buildCountPrefixed (cp.events.map eventItem))),
    (0x08, some (encodeUint cp.timestamp)), (0x09, some cp.prevRef.toList),
    (0x70, cp.sigPayer.map List.Vector.toList), (0x71, cp.sigMerchant.map List.Vector.toList)]

theorem slots_typed (cp : Checkpoint) : Typed (cp.slots.map Prod.fst) := by
  show Typed [0x00, 0x01, 0x02, 0x03, 0x04, 0x05, 0x06, 0x07, 0x08, 0x09, 0x70, 0x71]
  decide

theorem encode_eq (cp : Checkpoint) : cp.encode = Tlv.encode (row cp.slots) := by
  have hcontent : cp.contentFields = row [(0x00, some cp.channelId.toList),
      (0x01, some (encodeSint (signed (cp.balance, cp.balanceNegative)))),
      (0x02, some (encodeUint cp.cumTotal)),
      (0x03, some (buildCountPrefixed (cp.accruals.map roleItem))),
      (0x04, some (toBE 8 cp.lastSeq)),
      (0x05, some (buildCountPrefixed (cp.ranges.map rangeItem))),
      (0x06, some cp.transcript.toList),
      (0x07, some (buildCountPrefixed (cp.events.map eventItem))),
      (0x08, some (encodeUint cp.timestamp)), (0x09, some cp.prevRef.toList)] := rfl
  rw [encode, hcontent, optional_array, optional_array]
  simp [slots, row]

/-- What the parser asks for. -/
structure Canonical (cp : Checkpoint) : Prop where
  balance : cp.balance ≤ VALUE_MAX
  sign : cp.balanceNegative = true → cp.balance ≠ 0
  cumTotal : cp.cumTotal ≤ VALUE_MAX
  accruals : ∀ e ∈ cp.accruals, e.2 ≤ VALUE_MAX
  roles : rolesAscending cp.accruals = true
  lastSeq : cp.lastSeq ≤ SEQ_MAX
  ranges : ∀ r ∈ cp.ranges, r.lo ≤ r.hi ∧ r.hi ≤ SEQ_MAX
  apart : rangesApart cp.ranges = true
  kinds : ∀ e ∈ cp.events, isEventKind e.kind = true
  ascending : eventsAscending cp.events = true
  timestamp : cp.timestamp ≤ 2 ^ 53 - 1
  rangesLength : (buildCountPrefixed (cp.ranges.map rangeItem)).length ≤ Leb128.MAX
  eventsLength : (buildCountPrefixed (cp.events.map eventItem)).length ≤ Leb128.MAX

theorem Canonical.short {cp : Checkpoint} (h : cp.Canonical) : Short cp.slots := by
  have htime := h.timestamp
  have hbalance : (signed (cp.balance, cp.balanceNegative)).natAbs ≤ VALUE_MAX := by
    unfold signed
    split_ifs
    · simpa using h.balance
    · simpa using h.balance
  unfold slots
  simp only [short_cons, short_some, List.Vector.toList_length, length_toBE]
  exact ⟨by decide, length_encodeSint hbalance, length_encodeUint h.cumTotal,
    length_accruals h.roles h.accruals, by decide, h.rangesLength, by decide, h.eventsLength,
    length_encodeUint (by omega), by decide, short_array _ (by decide), short_array _ (by decide),
    List.forall_mem_nil _⟩

theorem parse_eq_ok {b : Bytes} {cp : Checkpoint} :
    parse b = .ok cp ↔ cp.Canonical ∧ b = cp.encode := by
  unfold parse
  simp only [bind_eq_ok, pure_eq_ok, require_eq_ok, required_eq_ok (fixed_reads _),
    required_eq_ok decodeBalance_reads, required_eq_ok (decodeUintMax_reads _),
    required_eq_ok decodeLastSeq_reads,
    required_eq_ok (parseCountPrefixed_reads parseRoleItem_delimits fun e _ => roleItem_ne_nil e),
    required_eq_ok (parseCountPrefixed_reads parseRange_delimits fun r _ => rangeItem_ne_nil r),
    required_eq_ok (parseCountPrefixed_reads parseEvent_delimits fun e _ => eventItem_ne_nil e),
    optional_eq_ok (fixed_reads _), decodeUintU128, decodeUintTime]
  constructor
  · intro h
    obtain ⟨o, hparse, u, hvalid, cid, ⟨-, hcid⟩, ⟨mag, neg⟩, ⟨⟨hmag, hneg⟩, hbal⟩, total,
      ⟨htotal, hcum⟩, accruals, ⟨⟨-, hdom⟩, haccruals⟩, -, hroles, h⟩ := h
    obtain ⟨seq, ⟨hseq, hlast⟩, ranges, ⟨⟨-, hbounds⟩, hranges⟩, -, hapart, head, ⟨-, hhead⟩,
      events, ⟨⟨-, hkinds⟩, hevents⟩, -, hasc, h⟩ := h
    obtain ⟨time, ⟨htime, hstamp⟩, prev, ⟨-, hprev⟩, payer, ⟨-, hpayer⟩, merchant,
      ⟨-, hmerchant⟩, rfl⟩ := h
    obtain ⟨hshort, hb, -⟩ := (parse_row_iff (slots_typed ⟨cid, mag, neg, total, accruals, seq,
      ranges, head, events, time, prev, payer, merchant⟩)).1 ⟨hparse, hvalid, by
        simp only [slots, List.forall_mem_cons]
        exact ⟨hcid, hbal, hcum, haccruals, hlast, hranges, hhead, hevents, hstamp, hprev, hpayer,
          hmerchant, List.forall_mem_nil _⟩⟩
    simp only [slots, short_cons, short_some] at hshort
    obtain ⟨-, -, -, -, -, hsRanges, -, hsEvents, -⟩ := hshort
    exact ⟨⟨hmag, hneg, htotal, hdom, hroles, hseq, hbounds, hapart, fun e he => (hkinds e he).1,
      hasc, htime, hsRanges, hsEvents⟩, hb.trans (encode_eq _).symm⟩
  · rintro ⟨h, hb⟩
    obtain ⟨o, hparse, hvalid, hget⟩ := parse_of_row (slots_typed cp) h.short
      (hb.trans (encode_eq cp))
    simp only [slots, List.forall_mem_cons] at hget
    obtain ⟨hcid, hbal, hcum, haccruals, hlast, hranges, hhead, hevents, hstamp, hprev, hpayer,
      hmerchant, -⟩ := hget
    have hroles := (length_rolesAscending h.roles).trans (by decide : 256 ≤ Leb128.MAX)
    obtain ⟨hcountRanges, -⟩ := length_le_counted rangeItem
      fun r (_ : r ∈ cp.ranges) => rangeItem_ne_nil r
    obtain ⟨hcountEvents, hitems⟩ := length_le_counted eventItem
      fun e (_ : e ∈ cp.events) => eventItem_ne_nil e
    refine ⟨o, hparse, _, hvalid, _, ⟨⟨⟩, hcid⟩, (_, _), ⟨⟨h.balance, h.sign⟩, hbal⟩, _,
      ⟨h.cumTotal, hcum⟩, _, ⟨⟨hroles, h.accruals⟩, haccruals⟩, ⟨⟩, h.roles, _,
      ⟨h.lastSeq, hlast⟩, _, ⟨⟨hcountRanges.trans h.rangesLength, h.ranges⟩, hranges⟩, ⟨⟩, h.apart,
      _, ⟨⟨⟩, hhead⟩, _, ⟨⟨hcountEvents.trans h.eventsLength, fun e he => ⟨h.kinds e he, ?_⟩⟩,
      hevents⟩, ⟨⟩, h.ascending, _, ⟨h.timestamp, hstamp⟩, _, ⟨⟨⟩, hprev⟩, _,
      ⟨fun _ _ => ⟨⟩, hpayer⟩, _, ⟨fun _ _ => ⟨⟩, hmerchant⟩, rfl⟩
    have hitem := (hitems e he).trans h.eventsLength
    have hle := length_le_pushLp e.reference
    rw [eventItem, List.length_cons] at hitem
    omega

end Checkpoint

namespace CheckpointRequest

def slots (request : CheckpointRequest) : List (UInt8 × Option Bytes) :=
  [(0x00, some request.proposed.encode), (0x70, request.sig.map List.Vector.toList)]

theorem slots_typed (request : CheckpointRequest) : Typed (request.slots.map Prod.fst) := by
  show Typed [0x00, 0x70]
  decide

theorem encode_eq (request : CheckpointRequest) :
    request.encode = Tlv.encode (row request.slots) := by
  rw [encode, contentFields, optional_array]
  simp [slots, row, Tlv.Field.optional]

theorem parse_eq_ok {b : Bytes} {request : CheckpointRequest} : parse b = .ok request ↔
    request.proposed.Canonical ∧ request.proposed.encode.length ≤ Leb128.MAX ∧
      b = request.encode := by
  have hreads : Reads Checkpoint.Canonical Checkpoint.encode Checkpoint.parse :=
    fun value cp => Checkpoint.parse_eq_ok
  unfold parse
  simp only [bind_eq_ok, pure_eq_ok, required_eq_ok hreads, optional_eq_ok (fixed_reads _)]
  constructor
  · rintro ⟨o, hparse, u, hvalid, proposed, ⟨hcanonical, hproposed⟩, sig, ⟨-, hsig⟩, rfl⟩
    obtain ⟨hshort, hb, -⟩ := (parse_row_iff (slots_typed ⟨proposed, sig⟩)).1 ⟨hparse, hvalid, by
      simp only [slots, List.forall_mem_cons]
      exact ⟨hproposed, hsig, List.forall_mem_nil _⟩⟩
    simp only [slots, short_cons, short_some] at hshort
    exact ⟨hcanonical, hshort.1, hb.trans (encode_eq _).symm⟩
  · rintro ⟨hcanonical, hle, hb⟩
    have hshort : Short request.slots := by
      unfold slots
      simp only [short_cons, short_some]
      exact ⟨hle, short_array _ (by decide), List.forall_mem_nil _⟩
    obtain ⟨o, hparse, hvalid, hget⟩ :=
      parse_of_row (slots_typed request) hshort (hb.trans (encode_eq request))
    simp only [slots, List.forall_mem_cons] at hget
    obtain ⟨hproposed, hsig, -⟩ := hget
    exact ⟨o, hparse, _, hvalid, _, ⟨hcanonical, hproposed⟩, _, ⟨fun _ _ => ⟨⟩, hsig⟩, rfl⟩

end CheckpointRequest

/-! ## What a channel builds -/

namespace ChannelState

variable {crypto : Crypto}

/-- The runs of ascending numbers are apart, and the first one begins where it was begun. -/
theorem runsFrom_apart : ∀ {rest : List ℕ} {lo hi : ℕ}, lo ≤ hi → hi ≤ SEQ_MAX →
    (hi :: rest).Pairwise (· < ·) → (∀ k ∈ rest, k ≤ SEQ_MAX) →
    (∀ r ∈ runsFrom lo hi rest, r.lo ≤ r.hi ∧ r.hi ≤ SEQ_MAX) ∧
      (runsFrom lo hi rest).IsChain (fun a b => a.hi + 1 < b.lo) ∧
      ∃ r more, runsFrom lo hi rest = r :: more ∧ r.lo = lo
  | [], lo, hi, hle, hmax, _, _ =>
    ⟨by simpa [runsFrom] using ⟨hle, hmax⟩, .singleton _, ⟨lo, hi⟩, [], rfl, rfl⟩
  | k :: rest, lo, hi, hle, hmax, hasc, hrest => by
    obtain ⟨hbelow, htail⟩ := List.pairwise_cons.1 hasc
    obtain ⟨hk, hrest⟩ := List.forall_mem_cons.1 hrest
    have hlt := hbelow k List.mem_cons_self
    rw [runsFrom]
    split_ifs with hnext
    · exact runsFrom_apart (by omega) hk htail hrest
    · -- a gap: the run ends, and the next one begins past it
      obtain ⟨hbounds, hchain, r, more, hrun, hlo⟩ := runsFrom_apart (le_refl k) hk htail hrest
      refine ⟨List.forall_mem_cons.2 ⟨⟨hle, hmax⟩, hbounds⟩, ?_, ⟨lo, hi⟩, _, rfl, rfl⟩
      rw [hrun] at hchain ⊢
      refine List.isChain_cons.2 ⟨fun r' hr' => ?_, hchain⟩
      obtain rfl : r = r' := by simpa using hr'
      dsimp only
      omega

theorem WellFormed.accounted_le {s : ChannelState} (h : s.WellFormed) :
    ∀ k ∈ s.accounted.keys, k ≤ SEQ_MAX := by
  intro k hk
  rw [h.keys_eq] at hk
  obtain ⟨e, he, rfl⟩ := List.mem_map.1 hk
  rw [h.key_eq e he]
  exact e.2.seq_le

theorem WellFormed.rangesUpto_apart {s : ChannelState} (h : s.WellFormed) (cutoff : ℕ) :
    (∀ r ∈ s.rangesUpto cutoff, r.lo ≤ r.hi ∧ r.hi ≤ SEQ_MAX) ∧
      (s.rangesUpto cutoff).IsChain fun a b => a.hi + 1 < b.lo := by
  have hle : ∀ k ∈ (s.accounted.upto cutoff).keys, k ≤ SEQ_MAX := fun k hk =>
    h.accounted_le k (OrdMap.mem_keys_upto.1 hk).1
  have hasc := (s.accounted.upto cutoff).sorted_keys
  unfold rangesUpto
  rcases hkeys : (s.accounted.upto cutoff).keys with _ | ⟨first, rest⟩
  · exact ⟨by simp, .nil⟩
  · rw [hkeys] at hle hasc
    obtain ⟨hfirst, hrest⟩ := List.forall_mem_cons.1 hle
    obtain ⟨hbounds, hchain, -⟩ := runsFrom_apart (le_refl first) hfirst hasc hrest
    exact ⟨hbounds, hchain⟩

/-- The last number up to a cut is one that was accounted, or the floor. -/
theorem WellFormed.lastSeq_le {s : ChannelState} (h : s.WellFormed) (hfloor : s.floor ≤ SEQ_MAX)
    (cutoff : ℕ) : ((s.accounted.upto cutoff).keys.getLast?).getD s.floor ≤ SEQ_MAX := by
  rcases hlast : (s.accounted.upto cutoff).keys.getLast? with _ | k
  · exact hfloor
  · exact h.accounted_le k (OrdMap.mem_keys_upto.1 (List.mem_of_getLast? hlast)).1

/-- No operation takes the floor past the numbers that a sender can mint. -/
theorem step_floor_le {s : ChannelState} (h : s.WellFormed) (hfloor : s.floor ≤ SEQ_MAX) (op : Op) :
    (step crypto s op).1.floor ≤ SEQ_MAX := by
  cases op with
  | acceptSlice slice =>
    have hcases := acceptSlice_cases crypto s slice
    simp only [step]
    generalize s.acceptSlice crypto slice = r at hcases
    cases hcases <;> exact hfloor
  | acceptBatch slices =>
    simp only [step, acceptBatch]
    rcases heach : s.acceptEach crypto slices with ⟨e | ⟨⟩, s'⟩
    · dsimp only
      split_ifs <;> exact hfloor
    · rw [(acceptEach_taken h heach).floor_eq]
      exact hfloor
  | countersign proposed =>
    simp only [step]
    split_ifs with hrec
    · simp only [recomputes, Bool.and_eq_true, beq_iff_eq] at hrec
      have hlast := h.lastSeq_le hfloor proposed.lastSeq
      rw [← hrec.1.1.2]
      exact hlast
    · exact hfloor
  | checkpoint =>
    show (s.accounted.keys.getLast?).getD s.floor ≤ SEQ_MAX
    rcases hlast : s.accounted.keys.getLast? with _ | k
    · exact hfloor
    · exact h.accounted_le k (List.mem_of_getLast? hlast)
  | creditFunding credited => exact hfloor
  | applySettlementRound gross =>
    simp only [step, applySettlementRound]
    split_ifs <;> exact hfloor
  | beginSettling =>
    simp only [step, beginSettling]
    split_ifs <;> exact hfloor
  | close => exact hfloor

theorem exec_floor_le : ∀ {s : ChannelState} (ops : List Op), s.WellFormed → s.floor ≤ SEQ_MAX →
    (exec (step crypto) s ops).floor ≤ SEQ_MAX
  | _, [], _, hfloor => hfloor
  | _, op :: ops, h, hfloor =>
    exec_floor_le ops (step_counts crypto (.refl h) op).1.wellFormed (step_floor_le h hfloor op)

theorem floor_born {s : ChannelState} (h : Born crypto s) : s.floor = 0 := by
  cases h with
  | fresh => rfl
  | imported hcum h =>
    unfold newImported at h
    dsimp only at h
    split_ifs at h
    cases h
    rfl

/-- What is built of the balance lies in the domain. -/
theorem WellFormed.histBalance_le {s : ChannelState} (h : s.WellFormed) (cutoff : ℕ) :
    (s.balance - amounts (s.window.past cutoff).values).natAbs ≤ VALUE_MAX := by
  have hpast := (amounts_past_le s.window cutoff).trans h.amounts_le
  unfold WINDOW_MAX SEQ_MAX at hpast
  obtain ⟨hlo, hhi⟩ := h.balance_mem
  unfold I128_MIN at hlo
  unfold I128_MAX at hhi
  unfold VALUE_MAX
  omega

/-- The checkpoint of a state, in the slots that were signed. -/
def built (crypto : Crypto) (s : ChannelState) (cutoff timestamp : ℕ) (prevRef : ByteArr 32)
    (events : List CkptEvent) (sigPayer sigMerchant : Option (ByteArr 64)) : Checkpoint :=
  { s.buildCheckpointAt crypto cutoff timestamp prevRef events with sigPayer, sigMerchant }

/-- What the builder leaves to its caller and to how long the channel ran. -/
structure Domains (cp : Checkpoint) : Prop where
  accruals : ∀ e ∈ cp.accruals, e.2 ≤ VALUE_MAX
  kinds : ∀ e ∈ cp.events, Checkpoint.isEventKind e.kind = true
  ascending : Checkpoint.eventsAscending cp.events = true
  rangesLength :
    (buildCountPrefixed (cp.ranges.map Checkpoint.rangeItem)).length ≤ Leb128.MAX
  eventsLength :
    (buildCountPrefixed (cp.events.map Checkpoint.eventItem)).length ≤ Leb128.MAX

variable (crypto) in
theorem built_canonical_iff {s : ChannelState} (h : s.WellFormed) (hfloor : s.floor ≤ SEQ_MAX)
    (hvector : (s.vector.map Prod.fst).Pairwise (· < ·)) (cutoff : ℕ) {timestamp : ℕ}
    (htime : timestamp ≤ 2 ^ 53 - 1) (prevRef : ByteArr 32) (events : List CkptEvent)
    (sigPayer sigMerchant : Option (ByteArr 64)) :
    (built crypto s cutoff timestamp prevRef events sigPayer sigMerchant).Canonical ↔
      Domains (built crypto s cutoff timestamp prevRef events sigPayer sigMerchant) := by
  constructor
  · intro hc
    exact ⟨hc.accruals, hc.kinds, hc.ascending, hc.rangesLength, hc.eventsLength⟩
  · intro hd
    obtain ⟨hbounds, hchain⟩ := h.rangesUpto_apart cutoff
    have hroles : rolesAscending (built crypto s cutoff timestamp prevRef events sigPayer
        sigMerchant).accruals = true := by
      refine decide_eq_true ?_
      show (((s.vector.zip s.accruals).map _).map Prod.fst).Pairwise (· < ·)
      rw [List.map_map]
      have hzip : (s.vector.zip s.accruals).map (fun p => p.1.1) = s.vector.map Prod.fst := by
        have hfst : (s.vector.zip s.accruals).map Prod.fst = s.vector :=
          List.map_fst_zip h.aligned.ge
        calc (s.vector.zip s.accruals).map (fun p => p.1.1)
            = ((s.vector.zip s.accruals).map Prod.fst).map Prod.fst := by rw [List.map_map]; rfl
          _ = s.vector.map Prod.fst := by rw [hfst]
      exact hzip ▸ hvector
    refine ⟨h.histBalance_le cutoff, fun hneg hzero => ?_, (Nat.sub_le _ _).trans h.cum_le,
      hd.accruals, hroles, h.lastSeq_le hfloor cutoff, hbounds, decide_eq_true hchain, hd.kinds,
      hd.ascending, htime, hd.rangesLength, hd.eventsLength⟩
    have hlt := of_decide_eq_true hneg
    rw [Int.natAbs_eq_zero.1 hzero] at hlt
    exact absurd hlt (lt_irrefl 0)

/-- What is parsed encodes to the bytes it was parsed from. What a channel with ascending seats
builds, signed or not, is read back where its accruals are in their domain, the events are of known
kinds and ascend, and the lists are not too long to be written. -/
theorem checkpoint_codec (crypto : Crypto) :
    (∀ b cp, Checkpoint.parse b = .ok cp → cp.encode = b) ∧
    (∀ b request, CheckpointRequest.parse b = .ok request → request.encode = b) ∧
    ∀ {s₀ : ChannelState}, Born crypto s₀ → (s₀.vector.map Prod.fst).Pairwise (· < ·) →
      ∀ (ops : List Op) (cutoff timestamp : ℕ) (prevRef : ByteArr 32) (events : List CkptEvent)
        (sigPayer sigMerchant : Option (ByteArr 64)), timestamp ≤ 2 ^ 53 - 1 →
        let cp := built crypto (exec (step crypto) s₀ ops) cutoff timestamp prevRef events sigPayer
          sigMerchant
        (Checkpoint.parse cp.encode = .ok cp ↔ Domains cp) := by
  refine ⟨fun b cp h => (Checkpoint.parse_eq_ok.1 h).2.symm,
    fun b request h => (CheckpointRequest.parse_eq_ok.1 h).2.2.symm, ?_⟩
  intro s₀ hborn hvector ops cutoff timestamp prevRef events sigPayer sigMerchant htime cp
  have hw := wellFormed_born hborn
  have hcounts : Counts s₀ (answers (step crypto) s₀ ops).flatten (exec (step crypto) s₀ ops) :=
    (exec_counts ops (.refl hw)).1
  have hfloor : (exec (step crypto) s₀ ops).floor ≤ SEQ_MAX :=
    exec_floor_le ops hw (by rw [floor_born hborn]; exact Nat.zero_le _)
  rw [Checkpoint.parse_eq_ok]
  have hiff := built_canonical_iff crypto hcounts.wellFormed hfloor
    (hcounts.vector ▸ hvector) cutoff htime prevRef events sigPayer sigMerchant
  constructor
  · rintro ⟨hcanonical, -⟩
    exact hiff.1 hcanonical
  · intro hd
    exact ⟨hiff.2 hd, rfl⟩

/-- The postpay channel of one seat that accepted a slice of 7 builds what is read back. -/
theorem checkpoint_codec_postpay :
    let s := exec (step plainCrypto)
      (new plainCrypto (.replicate 8 0) (.replicate 32 0) .postpay 100 100 [(0x10, 50)])
      [.acceptSlice (plainSlice 1 7 (by decide) (by decide))]
    let cp := built plainCrypto s U64_MAX 1000 (.replicate 32 0) [] none none
    cp.cumTotal = 7 ∧ Checkpoint.parse cp.encode = .ok cp := by
  refine ⟨by decide, ((checkpoint_codec plainCrypto).2.2 (.fresh _ _ _ _ _ _) (by decide) _ _ _ _ _
    _ _ (by decide)).2 ?_⟩
  exact ⟨by decide +kernel, by decide, by decide, by decide +kernel, by decide⟩

/-- A successor whose accruals stand below 2¹²⁸ accepts one more unit, and what it builds is
refused. -/
theorem accrual_past_domain_refused :
    ((newImported plainCrypto (.replicate 8 0) (.replicate 32 0) .postpay 100 100 [(0x10, 50)]
        6805647338418769269267492148635364229 [340282366920938463463374607431768211450]
        0).toOption.map fun s₀ =>
      let s := exec (step plainCrypto) s₀
        [.acceptSlice (plainSlice 1 1 (by decide) (by decide))]
      Checkpoint.parse (built plainCrypto s U64_MAX 1000 (.replicate 32 0) [] none none).encode) =
      some (.error .fieldDomain) := by
  decide +kernel

end ChannelState

end Paytp
