import Paytp.Proofs.Slots
import Paytp.Snapshot

/-!
# Snapshots, read and written

A snapshot is a row of fields, one of them there on a revocation only. The row its fields are
sorted into is what its encoding parses to, so what the foundation signs reads back, and what is
read is written back as the bytes it arrived as, if every field that arrived is known.
-/

namespace Paytp

open Tlv

theorem forM_eq_ok {ε α : Type} {f : α → Except ε PUnit} {u : PUnit} : ∀ {l : List α},
    l.forM f = .ok u ↔ ∀ a ∈ l, f a = .ok ⟨⟩
  | [] => by simp
  | a :: l => by
    have hcons : (a :: l).forM f = (f a >>= fun _ => l.forM f) := rfl
    rw [hcons, bind_eq_ok, List.forall_mem_cons]
    constructor
    · rintro ⟨_, ha, hl⟩
      exact ⟨ha, forM_eq_ok.1 hl⟩
    · rintro ⟨ha, hl⟩
      exact ⟨⟨⟩, ha, forM_eq_ok.2 hl⟩

namespace Tlv

/-! ## Objects that admit other fields -/

/-- Where every type is known, what an open object admits a closed one does. -/
theorem validate_open {types : List UInt8} {o : Object} {u : PUnit}
    (hknown : ∀ f ∈ o.fields, f.typeNum ∈ types) :
    o.validate ⟨.open, types.map fun t => (t, false)⟩ = .ok u ↔
      o.validate (.closed types) = .ok u := by
  unfold Object.validate
  rw [forM_eq_ok, forM_eq_ok]
  have hadmits : ∀ f ∈ o.fields, Schema.admits ⟨.open, types.map fun t => (t, false)⟩ f =
      (Schema.closed types).admits f := by
    intro f hf
    obtain ⟨c, hc⟩ : ∃ c, (types.map fun t => (t, false)).lookup f.typeNum = some c := by
      rw [← Option.isSome_iff_exists, List.lookup_isSome_iff]
      exact ⟨(f.typeNum, false), List.mem_map.2 ⟨_, hknown f hf, rfl⟩, beq_self_eq_true _⟩
    simp only [Schema.admits, Schema.closed, hc]
  constructor
  · intro h f hf
    rw [← hadmits f hf]
    exact h f hf
  · intro h f hf
    rw [hadmits f hf]
    exact h f hf

theorem Ascending.eq_of_typeNum {fields : List Field} (h : Ascending fields) {f g : Field}
    (hf : f ∈ fields) (hg : g ∈ fields) (heq : f.typeNum = g.typeNum) : f = g := by
  have hnodup : (fields.map Field.typeNum).Nodup := by
    unfold List.Nodup
    rw [List.pairwise_map]
    refine h.imp fun {f g} hlt heq => ?_
    rw [heq] at hlt
    exact UInt8.lt_irrefl _ hlt
  exact List.inj_on_of_nodup_map hnodup hf hg heq

theorem Ascending.lt_of_mem_zip : ∀ {fields : List Field}, Ascending fields →
    ∀ w ∈ fields.zip fields.tail, w.1.typeNum < w.2.typeNum
  | [], _, w, hw => by simp at hw
  | [f], _, w, hw => by simp at hw
  | f :: g :: fields, h, w, hw => by
    rw [ascending_cons_cons] at h
    rw [List.tail_cons, List.zip_cons_cons, List.mem_cons] at hw
    rcases hw with rfl | hw
    · exact h.1
    · exact h.2.lt_of_mem_zip w hw

/-- Fields that are pushed in another order are sorted into the row. -/
theorem fromFields_eq {fields sorted : List Field} (hperm : fields.Perm sorted)
    (hasc : Ascending sorted) : Object.fromFields fields = .ok ⟨sorted⟩ := by
  have hle : sorted.Pairwise fun f g => decide (f.typeNum ≤ g.typeNum) = true :=
    hasc.imp fun hlt => decide_eq_true (UInt8.le_of_lt hlt)
  have htrans : ∀ a b c : Field, decide (a.typeNum ≤ b.typeNum) = true →
      decide (b.typeNum ≤ c.typeNum) = true → decide (a.typeNum ≤ c.typeNum) = true := by
    intro a b c hab hbc
    exact decide_eq_true (UInt8.le_trans (of_decide_eq_true hab) (of_decide_eq_true hbc))
  have htotal : ∀ a b : Field,
      (decide (a.typeNum ≤ b.typeNum) || decide (b.typeNum ≤ a.typeNum)) = true := by
    intro a b
    simpa using UInt8.le_total a.typeNum b.typeNum
  have hsorted : (fields.mergeSort fun f g => decide (f.typeNum ≤ g.typeNum)) = sorted := by
    have hp := (List.mergeSort_perm fields fun f g => decide (f.typeNum ≤ g.typeNum)).trans hperm
    refine hp.eq_of_pairwise (fun a b ha hb hab hba => ?_)
      (List.pairwise_mergeSort htrans htotal fields) hle
    exact hasc.eq_of_typeNum (hp.mem_iff.1 ha) hb
      (UInt8.le_antisymm (of_decide_eq_true hab) (of_decide_eq_true hba))
  have hdistinct : ((sorted.zip sorted.tail).any fun w => w.1.typeNum == w.2.typeNum) = false := by
    rw [List.any_eq_false]
    intro w hw heq
    have hlt := hasc.lt_of_mem_zip w hw
    rw [beq_iff_eq.1 heq] at hlt
    exact UInt8.lt_irrefl _ hlt
  unfold Object.fromFields
  simp only [hsorted, hdistinct]
  rfl

/-- No value of an object that parses is longer than a length can say. -/
theorem length_of_get {buf : Bytes} {o : Object} {t : UInt8} {v : Bytes}
    (hparse : Object.parse buf = .ok o) (hget : o.get t = some v) : v.length ≤ Leb128.MAX := by
  obtain ⟨hcanonical, -⟩ := Object.parse_eq_ok.1 hparse
  obtain ⟨f, hf, rfl⟩ := Option.map_eq_some_iff.1 hget
  exact (hcanonical.fields f (List.mem_of_find?_eq_some hf)).length_le

theorem coveredBytes_append {fields : List Field} {f : Field}
    (hauth : f.isAuthenticator [] = true) :
    (⟨fields ++ [f]⟩ : Object).coveredBytes [] = (⟨fields⟩ : Object).coveredBytes [] := by
  rw [Object.coveredBytes_eq, Object.coveredBytes_eq, List.filter_append]
  simp [hauth]

end Tlv

namespace Snapshot

variable {suite : Suite}

/-! ## Values -/

theorem parseIdValue_delimits :
    Delimits (fun item : String × String => ShortText item.1 ∧ ShortText item.2) encodeIdValue
      parseIdValue := by
  have htext := readLp_delimits.inside decodeUtf8_reads
  intro bs item n
  rw [parseIdValue, (htext.both htext) bs item n]
  simp only [true_and]
  rfl

theorem encodeIdValue_ne_nil (item : String × String) : encodeIdValue item ≠ [] := by
  unfold encodeIdValue
  simp [pushLp_ne_nil]

/-- The texts of a list are shorter than what the list is written as. -/
theorem shortText_items {items : List (String × String)}
    (h : (buildCountPrefixed (items.map encodeIdValue)).length ≤ Leb128.MAX) :
    items.length ≤ Leb128.MAX ∧ ∀ item ∈ items, ShortText item.1 ∧ ShortText item.2 := by
  obtain ⟨hcount, hitems⟩ := length_le_counted encodeIdValue
    fun item (_ : item ∈ items) => encodeIdValue_ne_nil item
  refine ⟨hcount.trans h, fun item hitem => ?_⟩
  have hle := (hitems item hitem).trans h
  have hid := length_le_pushLp (Bytes.ofString item.1)
  have hvalue := length_le_pushLp (Bytes.ofString item.2)
  rw [encodeIdValue, List.length_append] at hle
  exact ⟨by unfold ShortText; omega, by unfold ShortText; omega⟩

theorem decodeKind_reads : Reads (fun _ : Kind => True) encodeKind decodeKind := by
  intro value kind
  unfold decodeKind
  split
  · cases kind <;> simp [encodeKind]
  · cases kind <;> simp [encodeKind]
  · rename_i h0 h1
    cases kind
    · simpa [encodeKind] using h0
    · simpa [encodeKind] using h1

theorem version_delimits : Delimits (· ≤ 2 ^ 32 - 1) Leb128.encode
    (onlyItem (fun v => decide (v ≤ 2 ^ 32 - 1)) WireError.fieldDomain Leb128.decode) := by
  intro bs v n
  rw [(Leb128.delimits.onlyItem _ _) bs v n]
  simp [Leb128.MAX]

theorem decodeRevoked_reads : Reads
    (fun versions : List ℕ => versions.length ≤ Leb128.MAX ∧ (∀ v ∈ versions, v ≤ 2 ^ 32 - 1) ∧
      versions.IsChain (· < ·))
    (fun versions => buildCountPrefixed (versions.map Leb128.encode)) decodeRevoked := by
  have hlist := parseCountPrefixed_reads version_delimits fun v _ => encode_ne_nil v
  intro value versions
  unfold decodeRevoked
  simp only [bind_eq_ok, require_eq_ok, pure_eq_ok, hlist _ _, decide_eq_true_eq]
  constructor
  · rintro ⟨_, ⟨⟨hlen, hdom⟩, rfl⟩, -, hchain, rfl⟩
    exact ⟨⟨hlen, hdom, hchain⟩, rfl⟩
  · rintro ⟨⟨hlen, hdom, hchain⟩, rfl⟩
    exact ⟨_, ⟨⟨hlen, hdom⟩, rfl⟩, ⟨⟩, hchain, rfl⟩

theorem parseRevoked_eq_ok {o : Object} {kind : Kind} {versions : List ℕ} :
    parseRevoked o kind = .ok versions ↔ (kind = .rotation → versions = []) ∧
      (versions.length ≤ Leb128.MAX ∧ (∀ v ∈ versions, v ≤ 2 ^ 32 - 1) ∧
        versions.IsChain (· < ·)) ∧
      o.get 0x05 = if kind = .revocation then
        some (buildCountPrefixed (versions.map Leb128.encode)) else none := by
  unfold parseRevoked
  rcases hget : o.get 0x05 with _ | value
  · simp only [bind_eq_ok, require_eq_ok, pure_eq_ok]
    cases kind
    · constructor
      · rintro ⟨-, -, rfl⟩
        exact ⟨fun _ => rfl, ⟨Nat.zero_le _, List.forall_mem_nil _, .nil⟩, rfl⟩
      · rintro ⟨hnil, -, -⟩
        exact ⟨⟨⟩, rfl, (hnil rfl).symm⟩
    · simp
  · simp only [bind_eq_ok, require_eq_ok, decodeRevoked_reads _ _]
    cases kind
    · simp
    · constructor
      · rintro ⟨-, -, hdom, rfl⟩
        exact ⟨fun h => Kind.noConfusion h, hdom, rfl⟩
      · rintro ⟨-, hdom, hvalue⟩
        exact ⟨⟨⟩, rfl, hdom, Option.some.inj hvalue⟩

/-! ## The codec -/

def contentSlots (s : Snapshot) : List (UInt8 × Option Bytes) :=
  [(0x00, some (encodeUint s.version)), (0x01, some (encodeKind s.kind)),
    (0x02, some (encodeUint s.issued)), (0x03, some (encodeUint s.windowFloor)),
    (0x04, some (buildCountPrefixed (s.osRecipients.map encodeIdValue))),
    (0x05, if s.kind = .revocation then some (buildCountPrefixed (s.revoked.map Leb128.encode))
      else none),
    (0x06, some (buildCountPrefixed (s.rateSources.map encodeIdValue)))]

def slots (s : Snapshot) : List (UInt8 × Option Bytes) :=
  s.contentSlots ++ [(0x70, some s.sig.toList)]

theorem slots_types (s : Snapshot) : s.slots.map Prod.fst = knownTypes := rfl

theorem slots_typed (s : Snapshot) : Typed (s.slots.map Prod.fst) := by
  rw [slots_types]
  decide

theorem row_slots (s : Snapshot) :
    row s.slots = row s.contentSlots ++ [(⟨0x70, false, s.sig.toList⟩ : Tlv.Field)] := by
  rw [row, slots, List.flatMap_append]
  rfl

theorem contentFields_perm (s : Snapshot) : s.contentFields.Perm (row s.contentSlots) := by
  unfold contentFields contentSlots
  simp only [row_cons, optional_some]
  split_ifs
  · exact List.Perm.append_left [_, _, _, _, _] (List.Perm.swap _ _ [])
  · exact List.Perm.refl _

/-- The object is sorted into the row, with the signature or without it. -/
theorem toObject_eq (s : Snapshot) : s.toObject true = .ok ⟨row s.slots⟩ ∧
    s.toObject false = .ok ⟨row s.contentSlots⟩ := by
  have hasc := row_ascending s.slots_typed.1
  have hcontent : Ascending (row s.contentSlots) := by
    rw [row_slots] at hasc
    exact (List.pairwise_append.1 hasc).1
  constructor
  · refine fromFields_eq ?_ hasc
    rw [row_slots]
    exact s.contentFields_perm.append (List.Perm.refl _)
  · refine fromFields_eq ?_ hcontent
    have hp := s.contentFields_perm.append (List.Perm.refl [])
    rwa [List.append_nil (row _)] at hp

theorem encode_eq_ok {s : Snapshot} {b : Bytes} :
    s.encode = .ok b ↔ b = Tlv.encode (row s.slots) := by
  unfold encode
  rw [(toObject_eq s).1, bind_eq_ok]
  simp only [Except.ok.injEq, exists_eq_left', pure_eq_ok, encode_row]
  exact eq_comm

/-- What is signed is the row without the signature, which no signature changes. -/
theorem coveredBytes_slots (s : Snapshot) :
    coveredBytes ⟨row s.slots⟩ = coveredBytes ⟨row s.contentSlots⟩ := by
  unfold coveredBytes
  rw [row_slots, coveredBytes_append rfl]

/-- The fields of a snapshot are what the protocol asks for. -/
structure WellFormed (suite : Suite) (s : Snapshot) : Prop where
  version_le : s.version ≤ 2 ^ 32 - 1
  windowFloor_le : s.windowFloor ≤ 2 ^ 32 - 1
  issued_le : s.issued ≤ 2 ^ 53 - 1
  recipients_ascending : checkAscendingIds s.osRecipients = true
  recipient_ids : ∀ item ∈ s.osRecipients, validateIdentifier item.1 = true
  recipient_dests : ∀ item ∈ s.osRecipients, suite.parsePointer item.2 = some true
  sources_ascending : checkAscendingIds s.rateSources = true
  source_ids : ∀ item ∈ s.rateSources, validateIdentifier item.1 = true
  source_uris : ∀ item ∈ s.rateSources, suite.validateText item.2 = true
  revoked_ascending : s.revoked.IsChain (· < ·)
  revoked_le : ∀ v ∈ s.revoked, v ≤ 2 ^ 32 - 1
  revoked_only : s.kind = .rotation → s.revoked = []

/-- The lists are no longer than a length can say. -/
structure Writable (s : Snapshot) : Prop where
  recipients : (buildCountPrefixed (s.osRecipients.map encodeIdValue)).length ≤ Leb128.MAX
  sources : (buildCountPrefixed (s.rateSources.map encodeIdValue)).length ≤ Leb128.MAX
  revoked : (buildCountPrefixed (s.revoked.map Leb128.encode)).length ≤ Leb128.MAX

theorem Writable.short {s : Snapshot} (h : s.Writable) (hw : s.WellFormed suite) :
    Short s.slots := by
  have hversion := hw.version_le
  have hfloor := hw.windowFloor_le
  have hissued := hw.issued_le
  have hkind : (encodeKind s.kind).length ≤ Leb128.MAX := by
    cases s.kind <;> decide
  have hrevoked : ∀ v ∈ (if s.kind = .revocation then
      some (buildCountPrefixed (s.revoked.map Leb128.encode)) else none),
      v.length ≤ Leb128.MAX := by
    split_ifs
    · simpa using h.revoked
    · simp
  unfold slots contentSlots
  simp only [List.cons_append, List.nil_append, short_cons, short_some, List.Vector.toList_length]
  exact ⟨length_encodeUint (by omega), hkind, length_encodeUint (by omega),
    length_encodeUint (by omega), h.recipients, hrevoked, h.sources, by decide,
    List.forall_mem_nil _⟩

/-- What an object is read as: its fields are those of a snapshot that is well formed. -/
theorem ofObject_reads {o : Object} {s : Snapshot} (h : ofObject suite o = .ok s) :
    o.validate snapshotSchema = .ok ⟨⟩ ∧ s.WellFormed suite ∧
      ∀ slot ∈ s.slots, o.get slot.1 = slot.2 := by
  unfold ofObject at h
  simp only [bind_eq_ok, pure_eq_ok, require_eq_ok, required_eq_ok (decodeUintMax_reads _),
    required_eq_ok decodeKind_reads, required_eq_ok (fixed_reads _),
    required_eq_ok (parseCountPrefixed_reads parseIdValue_delimits
      fun item _ => encodeIdValue_ne_nil item),
    forM_eq_ok, parseRevoked_eq_ok, decodeUintU32, decodeUintTime, checkRecipient,
    checkRateSource, beq_iff_eq] at h
  obtain ⟨_, hvalid, version, ⟨hversion, h0⟩, kind, ⟨-, h1⟩, issued, ⟨hissued, h2⟩, floor,
    ⟨hfloor, h3⟩, recipients, ⟨-, h4⟩, -, hrasc, -, hr, h⟩ := h
  obtain ⟨versions, ⟨hnil, ⟨-, hdom, hchain⟩, h5⟩, sources, ⟨-, h6⟩, -, hsasc, -, hs, sig,
    ⟨-, h7⟩, rfl⟩ := h
  refine ⟨hvalid, ⟨hversion, hfloor, hissued, hrasc, fun item hi => ?_, fun item hi => ?_, hsasc,
    fun item hi => ?_, fun item hi => ?_, hchain, hdom, hnil⟩, ?_⟩
  · obtain ⟨-, hid, -⟩ := hr item hi
    exact hid
  · obtain ⟨-, -, hdest⟩ := hr item hi
    exact hdest
  · obtain ⟨-, hid, -⟩ := hs item hi
    exact hid
  · obtain ⟨-, -, huri⟩ := hs item hi
    exact huri
  · simp only [slots, contentSlots, List.cons_append, List.nil_append, List.forall_mem_cons]
    exact ⟨h0, h1, h2, h3, h4, h5, h6, h7, List.forall_mem_nil _⟩

/-- An object with the fields of a snapshot that is well formed and can be written. -/
theorem ofObject_of_slots {o : Object} {s : Snapshot} (hvalid : o.validate snapshotSchema = .ok ⟨⟩)
    (hw : s.WellFormed suite) (hs : s.Writable) (hget : ∀ slot ∈ s.slots, o.get slot.1 = slot.2) :
    ofObject suite o = .ok s := by
  simp only [slots, contentSlots, List.cons_append, List.nil_append, List.forall_mem_cons] at hget
  obtain ⟨h0, h1, h2, h3, h4, h5, h6, h7, -⟩ := hget
  obtain ⟨hcount, hlength⟩ := length_le_counted Leb128.encode
    fun v (_ : v ∈ s.revoked) => encode_ne_nil v
  unfold ofObject
  simp only [bind_eq_ok, pure_eq_ok, require_eq_ok, required_eq_ok (decodeUintMax_reads _),
    required_eq_ok decodeKind_reads, required_eq_ok (fixed_reads _),
    required_eq_ok (parseCountPrefixed_reads parseIdValue_delimits
      fun item _ => encodeIdValue_ne_nil item),
    forM_eq_ok, parseRevoked_eq_ok, decodeUintU32, decodeUintTime, checkRecipient,
    checkRateSource, beq_iff_eq]
  exact ⟨⟨⟩, hvalid, _, ⟨hw.version_le, h0⟩, _, ⟨⟨⟩, h1⟩, _, ⟨hw.issued_le, h2⟩, _,
    ⟨hw.windowFloor_le, h3⟩, _, ⟨shortText_items hs.recipients, h4⟩, ⟨⟩, hw.recipients_ascending,
    ⟨⟩, fun item hi => ⟨⟨⟩, hw.recipient_ids item hi, hw.recipient_dests item hi⟩, _,
    ⟨hw.revoked_only, ⟨hcount.trans hs.revoked, hw.revoked_le, hw.revoked_ascending⟩, h5⟩, _,
    ⟨shortText_items hs.sources, h6⟩, ⟨⟩, hw.sources_ascending, ⟨⟩,
    fun item hi => ⟨⟨⟩, hw.source_ids item hi, hw.source_uris item hi⟩, _, ⟨⟨⟩, h7⟩, rfl⟩

/-- No field arrived that a snapshot does not know. -/
def Known (buf : Bytes) : Prop :=
  ∀ o, Object.parse buf = .ok o → ∀ f ∈ o.fields, f.typeNum ∈ knownTypes

/-- What is read can be written. -/
theorem writable_of_reads {buf : Bytes} {o : Object} {s : Snapshot}
    (hparse : Object.parse buf = .ok o) (hw : s.WellFormed suite)
    (hget : ∀ slot ∈ s.slots, o.get slot.1 = slot.2) : s.Writable := by
  simp only [slots, contentSlots, List.cons_append, List.nil_append, List.forall_mem_cons] at hget
  obtain ⟨-, -, -, -, hrecipients, hrevoked, hsources, -⟩ := hget
  refine ⟨length_of_get hparse hrecipients, length_of_get hparse hsources, ?_⟩
  rcases hkind : s.kind with _ | _
  · rw [hw.revoked_only hkind]
    decide
  · exact length_of_get hparse (hrevoked.trans (if_pos hkind))

theorem wellFormed_of_parseVerify {buf : Bytes} {key : ByteArr 32} {s : Snapshot}
    (h : parseVerify suite buf key = .ok s) : s.WellFormed suite ∧ s.Writable := by
  unfold parseVerify at h
  simp only [bind_eq_ok, mapError_eq_ok, require_eq_ok, pure_eq_ok] at h
  obtain ⟨o, hparse, s', hs', -, -, rfl⟩ := h
  obtain ⟨-, hw, hget⟩ := ofObject_reads hs'
  exact ⟨hw, writable_of_reads hparse hw hget⟩

/-- What is read with no unknown field is written back as the bytes it arrived as. -/
theorem encode_of_parseVerify {buf : Bytes} {key : ByteArr 32} {s : Snapshot}
    (h : parseVerify suite buf key = .ok s) (hknown : Known buf) : s.encode = .ok buf := by
  unfold parseVerify at h
  simp only [bind_eq_ok, mapError_eq_ok, require_eq_ok, pure_eq_ok] at h
  obtain ⟨o, hparse, s', hs', -, -, rfl⟩ := h
  obtain ⟨hvalid, -, hget⟩ := ofObject_reads hs'
  have hclosed := (validate_open (hknown o hparse)).1 hvalid
  obtain ⟨-, hb, -⟩ := (parse_row_iff s'.slots_typed).1 ⟨hparse, hclosed, hget⟩
  exact encode_eq_ok.2 hb

/-- What a snapshot is written as has no unknown field. -/
theorem known_of_encode {s : Snapshot} {buf : Bytes} (hb : s.encode = .ok buf)
    (hshort : Short s.slots) : Known buf := by
  intro o hparse f hf
  obtain ⟨hrow, hclosed, -⟩ := (parse_row_iff (u := ⟨⟩) s.slots_typed).2
    ⟨hshort, encode_eq_ok.1 hb, rfl⟩
  rw [hrow, Except.ok.injEq] at hparse
  exact (validate_closed.1 hclosed f (hparse ▸ hf)).1

theorem parseVerify_of_encode {s : Snapshot} {key : ByteArr 32} (hw : s.WellFormed suite)
    (hs : s.Writable)
    (hverify : suite.ed25519VerifyStrict key (coveredBytes ⟨row s.contentSlots⟩) s.sig = true)
    {buf : Bytes} (hb : s.encode = .ok buf) : parseVerify suite buf key = .ok s := by
  obtain ⟨hparse, hclosed, hget⟩ := (parse_row_iff (u := ⟨⟩) s.slots_typed).2
    ⟨hs.short hw, encode_eq_ok.1 hb, rfl⟩
  have hknown : ∀ f ∈ (⟨row s.slots⟩ : Object).fields, f.typeNum ∈ knownTypes := fun f hf =>
    (validate_closed.1 hclosed f hf).1
  have hobject := ofObject_of_slots ((validate_open hknown).2 hclosed) hw hs hget
  unfold parseVerify
  simp only [bind_eq_ok, mapError_eq_ok, require_eq_ok, pure_eq_ok]
  exact ⟨_, hparse, _, hobject, ⟨⟩, by rwa [coveredBytes_slots], rfl⟩

theorem sign_eq (s : Snapshot) (sk : ByteArr 32) : s.sign suite sk =
    .ok { s with sig := suite.ed25519Sign sk (coveredBytes ⟨row s.contentSlots⟩) } := by
  unfold sign
  rw [(toObject_eq s).2]
  rfl

/-- A snapshot that is well formed, with lists that can be written, is signed, written and read
back as itself under the key of the foundation. What is read is written back as the bytes it
arrived as, if every field that arrived is known. -/
theorem snapshot_codec (hsigns : suite.Signs) :
    (∀ (s : Snapshot) (sk : ByteArr 32), s.WellFormed suite → s.Writable →
      ∃ signed buf, s.sign suite sk = .ok signed ∧ signed.encode = .ok buf ∧
        signed = { s with sig := signed.sig } ∧
        parseVerify suite buf (suite.ed25519Public sk) = .ok signed) ∧
    ∀ (buf : Bytes) (key : ByteArr 32) (s : Snapshot), parseVerify suite buf key = .ok s →
      Known buf → s.encode = .ok buf := by
  refine ⟨fun s sk hw hs => ?_, fun buf key s h hknown => encode_of_parseVerify h hknown⟩
  let signed : Snapshot :=
    { s with sig := suite.ed25519Sign sk (coveredBytes ⟨row s.contentSlots⟩) }
  have hencode : signed.encode = .ok (Tlv.encode (row signed.slots)) := encode_eq_ok.2 rfl
  have hwf : signed.WellFormed suite :=
    ⟨hw.version_le, hw.windowFloor_le, hw.issued_le, hw.recipients_ascending, hw.recipient_ids,
      hw.recipient_dests, hw.sources_ascending, hw.source_ids, hw.source_uris,
      hw.revoked_ascending, hw.revoked_le, hw.revoked_only⟩
  exact ⟨signed, _, sign_eq s sk, hencode, rfl,
    parseVerify_of_encode hwf ⟨hs.recipients, hs.sources, hs.revoked⟩ (hsigns sk _) hencode⟩

/-- A revocation of versions on both sides of 128. -/
def revocation : Snapshot where
  version := 400
  kind := .revocation
  issued := 1700000000
  windowFloor := 3
  osRecipients := [("apple", "eip155:1:0xApple"), ("google", "eip155:1:0xGoogle")]
  revoked := [127, 128, 256, 400]
  rateSources := [("coinbase", "https://api.example/rates")]
  sig := .replicate 64 0

theorem revocation_wellFormed : revocation.WellFormed keyedSuite := by
  constructor <;> decide

/-- The revocation is read back as it was signed, and what is read is written as what arrived. -/
theorem snapshot_codec_revocation : ∃ signed buf,
    revocation.sign keyedSuite (.ofNat 32 5) = .ok signed ∧
      parseVerify keyedSuite buf (keyedSuite.ed25519Public (.ofNat 32 5)) = .ok signed ∧
      signed.encode = .ok buf := by
  have hs : revocation.Writable := by
    constructor <;> decide
  obtain ⟨signed, buf, hsign, hencode, -, hread⟩ :=
    (snapshot_codec keyedSuite_signs).1 revocation (.ofNat 32 5) revocation_wellFormed hs
  obtain ⟨hw', hs'⟩ := wellFormed_of_parseVerify hread
  exact ⟨signed, buf, hsign, hread, (snapshot_codec keyedSuite_signs).2 buf _ signed hread
    (known_of_encode hencode (hs'.short hw'))⟩

/-! ## Lists that cannot be written -/

theorem length_ofString_replicate (n : ℕ) :
    (Bytes.ofString (String.ofList (List.replicate n 'a'))).length = n := by
  have hbyte : (String.utf8EncodeChar 'a').length = 1 := rfl
  rw [Bytes.ofString_ofList, List.flatMap_replicate, List.length_flatten, List.map_replicate,
    List.sum_replicate, hbyte]
  simp

/-- A text longer than a length can say. -/
def longUri : String := String.ofList (List.replicate (2 ^ 32) 'a')

theorem length_longUri : (Bytes.ofString longUri).length = 2 ^ 32 := length_ofString_replicate _

/-- A snapshot with a rate source that is found at a text. -/
def withUri (uri : String) : Snapshot := { revocation with rateSources := [("coinbase", uri)] }

/-- A snapshot that is well formed, with a text of 2³² bytes, is signed and does not read back. -/
theorem long_uri_refused : (withUri longUri).WellFormed keyedSuite ∧ ∃ signed buf,
    (withUri longUri).sign keyedSuite (.ofNat 32 5) = .ok signed ∧ signed.encode = .ok buf ∧
      parseVerify keyedSuite buf (keyedSuite.ed25519Public (.ofNat 32 5)) ≠ .ok signed := by
  have hlong := length_longUri
  have hne : longUri ≠ "" := by
    intro h
    rw [h] at hlong
    exact absurd hlong (by decide)
  generalize longUri = uri at hlong hne
  refine ⟨?_, _, _, sign_eq _ _, encode_eq_ok.2 rfl, fun hread => ?_⟩
  · have hid : validateIdentifier "coinbase" = true := by decide
    have huri : keyedSuite.validateText uri = true := bne_iff_ne.2 hne
    have hw := revocation_wellFormed
    exact ⟨hw.version_le, hw.windowFloor_le, hw.issued_le, hw.recipients_ascending,
      hw.recipient_ids, hw.recipient_dests, decide_eq_true (.singleton _),
      List.forall_mem_singleton.2 hid, List.forall_mem_singleton.2 huri, hw.revoked_ascending,
      hw.revoked_le, hw.revoked_only⟩
  · have hle := (shortText_items (wellFormed_of_parseVerify hread).2.sources).2 _ List.mem_cons_self
    have hshort : (Bytes.ofString uri).length ≤ Leb128.MAX := hle.2
    rw [hlong] at hshort
    exact absurd hshort (by decide)

end Snapshot

end Paytp
