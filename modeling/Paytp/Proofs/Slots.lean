import Mathlib.Data.Nat.Digits.Lemmas
import Paytp.Proofs.Integers
import Paytp.Proofs.Objects

/-!
# Objects of known types

An object that admits its own types only is the row of the fields that are there, by type. So what
it parses from is the encoding of that row, and each field reads what it was written from.
-/

namespace Paytp

/-- No text is longer than a length can say. -/
def ShortText (s : String) : Prop := (Bytes.ofString s).length ≤ Leb128.MAX

instance (s : String) : Decidable (ShortText s) := Nat.decLe _ _

namespace Tlv

/-! ## Values -/

theorem fixed_reads (n : ℕ) : Reads (fun _ : ByteArr n => True) List.Vector.toList (fixed n) := by
  intro value a
  rw [fixed, okOr_eq_ok, ByteArr.ofBytes?_eq_some, true_and]

theorem decodeText_reads (validateText : String → Bool) :
    Reads (fun s => validateText s = true) Bytes.ofString (decodeText validateText) := by
  intro value s
  unfold decodeText
  simp only [bind_eq_ok, okOr_eq_ok, require_eq_ok, pure_eq_ok, Bytes.toString?_eq_some]
  constructor
  · rintro ⟨s, rfl, -, hs, rfl⟩
    exact ⟨hs, rfl⟩
  · rintro ⟨hs, rfl⟩
    exact ⟨s, rfl, ⟨⟩, hs, rfl⟩

theorem decodeUtf8_reads : Reads (fun _ : String => True) Bytes.ofString decodeUtf8 := by
  intro value s
  rw [decodeUtf8, okOr_eq_ok, Bytes.toString?_eq_some, true_and]

theorem decodeUintBiguint_reads : Reads (fun _ : ℕ => True) encodeUint decodeUintBiguint := by
  intro value n
  rw [decodeUintBiguint_eq_ok, eq_comm (a := value), true_and]

theorem decodeUintMax_reads (max : ℕ) : Reads (· ≤ max) encodeUint (decodeUintMax max) := by
  intro value n
  rw [decodeUintMax_eq_ok, eq_comm (a := value)]

/-- A number of `k` bytes takes no more, but for one. -/
theorem length_encodeUint_le {n k : ℕ} (h : n < 256 ^ k) : (encodeUint n).length ≤ max 1 k := by
  unfold encodeUint
  split_ifs with hn
  · simp
  · rw [List.length_reverse, List.length_map, Nat.digits_length_le_iff (by decide)]
    have hmono : 256 ^ k ≤ 256 ^ max 1 k := Nat.pow_le_pow_right (by decide) (Nat.le_max_right 1 k)
    omega

theorem readByte_delimits : Delimits (fun _ : UInt8 => True) (fun b => [b]) readByte := by
  intro bs b n
  cases bs with
  | nil => simp [readByte]
  | cons b' bs =>
    simp only [readByte, Except.ok.injEq, Prod.mk.injEq, true_and, List.length_singleton,
      List.singleton_append, List.cons.injEq]
    constructor
    · rintro ⟨rfl, rfl⟩
      exact ⟨rfl, bs, rfl, rfl⟩
    · rintro ⟨rfl, -, rfl, -⟩
      exact ⟨rfl, rfl⟩

theorem readBE_delimits (w : ℕ) : Delimits (· < 256 ^ w) (toBE w) (readBE w) := by
  intro bs v n
  unfold readBE
  simp only [bind_eq_ok, require_eq_ok, pure_eq_ok, decide_eq_true_eq]
  constructor
  · rintro ⟨-, hle, heq⟩
    cases heq
    have hlen : (bs.take w).length = w := by rw [List.length_take]; omega
    have hlt := ofBE_lt (bs.take w)
    have hback := toBE_ofBE (bs.take w)
    rw [hlen] at hlt hback
    refine ⟨hlt, (length_toBE _ _).symm, bs.drop w, ?_⟩
    rw [hback, List.take_append_drop]
  · rintro ⟨hlt, rfl, rest, rfl⟩
    have htake : (toBE w v ++ rest).take w = toBE w v := List.take_left' (length_toBE w v)
    refine ⟨⟨⟩, by simp, ?_⟩
    rw [htake, ofBE_toBE hlt, length_toBE]

theorem readLp_delimits : Delimits (fun v : Bytes => v.length ≤ Leb128.MAX) pushLp readLp :=
  Leb128.delimits.lengthPrefixed WireError.lengthOverrun

theorem readLpText_delimits (validateText : String → Bool) :
    Delimits (fun s => validateText s = true ∧ ShortText s)
      (fun s => pushLp (Bytes.ofString s)) (readLpText validateText) :=
  readLp_delimits.inside (decodeText_reads validateText)

theorem length_encodeUint {n : ℕ} (h : n ≤ 2 ^ 128 - 1) : (encodeUint n).length ≤ Leb128.MAX := by
  have hle : (encodeUint n).length ≤ max 1 16 := length_encodeUint_le (by omega)
  exact hle.trans (by decide)

theorem readLpUint_delimits :
    Delimits (· ≤ 2 ^ 128 - 1) (fun n => pushLp (encodeUint n)) readLpUint := by
  intro bs n used
  rw [readLpUint, decodeUintU128, readLp_delimits.inside (decodeUintMax_reads _) bs n used]
  constructor
  · rintro ⟨⟨hle, -⟩, hrest⟩
    exact ⟨hle, hrest⟩
  · rintro ⟨hle, hrest⟩
    exact ⟨⟨hle, length_encodeUint hle⟩, hrest⟩

theorem pushLp_ne_nil (v : Bytes) : pushLp v ≠ [] := by
  unfold pushLp
  simp [encode_ne_nil]

/-- The bytes behind a length are fewer than those with it. -/
theorem length_le_pushLp (v : Bytes) : v.length ≤ (pushLp v).length := by
  rw [pushLp, List.length_append]
  omega

section counted
variable {α : Type} {dom : α → Prop} {enc : α → Bytes}
  {parseItem : Bytes → Except WireError (α × ℕ)}

/-- A counted list that is no longer than a length can say reads as it was written. -/
theorem parseCountPrefixed_reads (h : Delimits dom enc parseItem) (hne : ∀ a, dom a → enc a ≠ []) :
    Reads (fun items : List α => items.length ≤ Leb128.MAX ∧ ∀ a ∈ items, dom a)
      (fun items => buildCountPrefixed (items.map enc))
      (fun value => parseCountPrefixed value parseItem) := by
  intro value items
  rw [parseCountPrefixed_eq_ok h hne, and_assoc]

/-- The items of a list are shorter than the list, and fewer than its bytes. -/
theorem length_le_counted (enc : α → Bytes) {items : List α} (hne : ∀ a ∈ items, enc a ≠ []) :
    items.length ≤ (buildCountPrefixed (items.map enc)).length ∧
      ∀ a ∈ items, (enc a).length ≤ (buildCountPrefixed (items.map enc)).length := by
  have hflat : (items.map enc).flatten.length ≤ (buildCountPrefixed (items.map enc)).length := by
    rw [buildCountPrefixed, List.length_append]
    omega
  refine ⟨?_, fun a ha => ?_⟩
  · have hlen : items.length ≤ (items.flatMap enc).length := length_le_flatMap hne fun a ha => ha
    rw [List.flatMap_def] at hlen
    exact hlen.trans hflat
  · have hsub : (enc a).Sublist (items.map enc).flatten :=
      List.sublist_flatten_of_mem (List.mem_map_of_mem ha)
    exact hsub.length_le.trans hflat

end counted

/-! ## Rows -/

/-- The fields that are there, by type. -/
def row (slots : List (UInt8 × Option Bytes)) : List Field :=
  slots.flatMap fun s => Field.optional (fun v => ⟨s.1, false, v⟩) s.2

theorem row_cons (t : UInt8) (value : Option Bytes) (slots : List (UInt8 × Option Bytes)) :
    row ((t, value) :: slots) = Field.optional (fun v => ⟨t, false, v⟩) value ++ row slots := rfl

theorem optional_some {α : Type} (field : α → Field) (a : α) :
    Field.optional field (some a) = [field a] := rfl

theorem optional_map {α β : Type} (field : β → Field) (enc : α → β) (value : Option α) :
    Field.optional field (value.map enc) = Field.optional (fun a => field (enc a)) value := by
  rw [Field.optional, Option.map_map]
  rfl

theorem optional_array {n : ℕ} (t : UInt8) (a : Option (ByteArr n)) :
    Field.optional (.array t) a =
      Field.optional (fun v => ⟨t, false, v⟩) (a.map List.Vector.toList) :=
  (optional_map (fun v => (⟨t, false, v⟩ : Field)) List.Vector.toList a).symm

theorem Field.text_eq (t : UInt8) : Field.text t = fun s => ⟨t, false, Bytes.ofString s⟩ := rfl

theorem Field.uint_eq (t : UInt8) : Field.uint t = fun n => ⟨t, false, encodeUint n⟩ := rfl

theorem Field.array_eq {n : ℕ} (t : UInt8) :
    (Field.array t : ByteArr n → Field) = fun a => ⟨t, false, a.toList⟩ := rfl

theorem encode_append (fields more : List Field) :
    encode (fields ++ more) = encode fields ++ encode more := by
  simp [encode]

/-- No value is longer than a length can say. -/
def Short (slots : List (UInt8 × Option Bytes)) : Prop :=
  ∀ s ∈ slots, ∀ v ∈ s.2, v.length ≤ Leb128.MAX

theorem short_cons {t : UInt8} {value : Option Bytes} {slots : List (UInt8 × Option Bytes)} :
    Short ((t, value) :: slots) ↔ (∀ v ∈ value, v.length ≤ Leb128.MAX) ∧ Short slots :=
  List.forall_mem_cons

theorem short_some {v : Bytes} : (∀ w ∈ some v, w.length ≤ Leb128.MAX) ↔ v.length ≤ Leb128.MAX := by
  simp

theorem short_array {n : ℕ} (a : Option (ByteArr n)) (hn : n ≤ Leb128.MAX) :
    ∀ v ∈ a.map List.Vector.toList, v.length ≤ Leb128.MAX := by
  intro v hv
  obtain ⟨a, -, rfl⟩ := Option.map_eq_some_iff.1 hv
  rwa [a.toList_length]

/-- The types of an object, ascending and of seven bits each. -/
def Typed (types : List UInt8) : Prop := types.Pairwise (· < ·) ∧ ∀ t ∈ types, t < 0x80

instance (types : List UInt8) : Decidable (Typed types) :=
  @instDecidableAnd _ _ inferInstance (List.decidableBAll _ types)

theorem mem_row {slots : List (UInt8 × Option Bytes)} {f : Field} :
    f ∈ row slots ↔ (f.typeNum, some f.value) ∈ slots ∧ f.critical = false := by
  unfold row Field.optional
  simp only [List.mem_flatMap, Option.mem_toList, Option.map_eq_some_iff]
  constructor
  · rintro ⟨⟨t, _⟩, hmem, v, rfl, rfl⟩
    exact ⟨hmem, rfl⟩
  · rintro ⟨hmem, hcritical⟩
    refine ⟨_, hmem, f.value, rfl, ?_⟩
    rw [← hcritical]

theorem row_ascending : ∀ {slots : List (UInt8 × Option Bytes)},
    (slots.map Prod.fst).Pairwise (· < ·) → Ascending (row slots)
  | [], _ => List.Pairwise.nil
  | (t, value) :: slots, h => by
    rw [List.map_cons, List.pairwise_cons] at h
    have hrest := row_ascending h.2
    have hfirst : ∀ f ∈ row slots, t < f.typeNum := fun f hf =>
      h.1 _ (List.mem_map.2 ⟨_, (mem_row.1 hf).1, rfl⟩)
    cases value with
    | none => exact hrest
    | some v => exact List.pairwise_cons.2 ⟨hfirst, hrest⟩

/-- The value of a type in a row. -/
theorem find?_row : ∀ {slots : List (UInt8 × Option Bytes)},
    (slots.map Prod.fst).Pairwise (· < ·) → ∀ s ∈ slots,
      ((row slots).find? fun f => f.typeNum == s.1).map Field.value = s.2
  | [], _ => nofun
  | (t, value) :: slots, h => by
    rw [List.map_cons, List.pairwise_cons] at h
    intro s hs
    rw [row_cons, List.find?_append]
    rcases List.mem_cons.1 hs with rfl | hs
    · have hnone : (row slots).find? (fun f => f.typeNum == t) = none := by
        rw [List.find?_eq_none]
        intro f hf heq
        have hlt := h.1 _ (List.mem_map.2 ⟨_, (mem_row.1 hf).1, rfl⟩)
        rw [beq_iff_eq.1 heq] at hlt
        exact absurd hlt (UInt8.lt_irrefl t)
      cases value with
      | none => simp [Field.optional, hnone]
      | some v => simp [Field.optional]
    · have hlt := h.1 s.1 (List.mem_map.2 ⟨s, hs, rfl⟩)
      have hne : ¬ t = s.1 := fun heq => UInt8.lt_irrefl t (by rwa [← heq] at hlt)
      have hskip : (Field.optional (fun v => (⟨t, false, v⟩ : Field)) value).find?
          (fun f => f.typeNum == s.1) = none := by
        cases value with
        | none => rfl
        | some v => simp [Field.optional, hne]
      rw [hskip, Option.none_or]
      exact find?_row h.2 s hs

/-- Fields of some types are the row of what is found of each. -/
theorem eq_row : ∀ {slots : List (UInt8 × Option Bytes)} {fields : List Field},
    (slots.map Prod.fst).Pairwise (· < ·) → Ascending fields →
    (∀ f ∈ fields, f.typeNum ∈ slots.map Prod.fst ∧ f.critical = false) →
    (∀ s ∈ slots, (fields.find? fun f => f.typeNum == s.1).map Field.value = s.2) →
    fields = row slots
  | [], [], _, _, _, _ => rfl
  | [], f :: _, _, _, hadmits, _ => absurd (hadmits f List.mem_cons_self).1 (by simp)
  | (t, value) :: slots, fields, hslots, hfields, hadmits, hfind => by
    rw [List.map_cons, List.pairwise_cons] at hslots
    rw [List.forall_mem_cons] at hfind
    dsimp only at hfind
    -- the fields past the first type are those of the other slots
    have hrest : ∀ fields : List Field, Ascending fields →
        (∀ f ∈ fields, f.typeNum ∈ t :: slots.map Prod.fst ∧ f.critical = false) →
        (∀ f ∈ fields, f.typeNum ≠ t) →
        (∀ s ∈ slots, (fields.find? fun f => f.typeNum == s.1).map Field.value = s.2) →
        fields = row slots := fun fields hasc hadmits hne hfind =>
      eq_row hslots.2 hasc (fun f hf =>
        ⟨(List.mem_cons.1 (hadmits f hf).1).resolve_left (hne f hf), (hadmits f hf).2⟩) hfind
    rw [row_cons]
    rcases hfields' : fields with _ | ⟨f, more⟩
    · subst hfields'
      obtain rfl : none = value := hfind.1
      exact hrest [] List.Pairwise.nil nofun nofun hfind.2
    · subst hfields'
      have hasc := List.pairwise_cons.1 hfields
      by_cases hf : f.typeNum = t
      · have hhead : value = some f.value := by
          rw [← hfind.1, List.find?_cons_of_pos (by simpa using hf), Option.map_some]
        have hcritical := (hadmits f List.mem_cons_self).2
        have htail : more = row slots := by
          refine hrest more hasc.2 (fun g hg => hadmits g (List.mem_cons_of_mem f hg))
            (fun g hg he => ?_) fun s hs => ?_
          · have hlt := hasc.1 g hg
            rw [hf, he] at hlt
            exact UInt8.lt_irrefl t hlt
          · have hlt := hslots.1 s.1 (List.mem_map.2 ⟨s, hs, rfl⟩)
            have hne : ¬ f.typeNum = s.1 := fun he => by
              rw [← he, hf] at hlt
              exact UInt8.lt_irrefl t hlt
            rw [← hfind.2 s hs, List.find?_cons_of_neg (by simpa using hne)]
        rw [hhead, htail, ← hf, ← hcritical]
        rfl
      · have hall : ∀ g ∈ f :: more, g.typeNum ≠ t := by
          rw [List.forall_mem_cons]
          refine ⟨hf, fun g hg he => ?_⟩
          have hbelow := hslots.1 f.typeNum
            ((List.mem_cons.1 (hadmits f List.mem_cons_self).1).resolve_left hf)
          have hlt := hasc.1 g hg
          rw [he] at hlt
          exact UInt8.lt_irrefl t (UInt8.lt_trans hbelow hlt)
        have hnone : value = none := by
          rw [← hfind.1, List.find?_eq_none.2 (by simpa using hall), Option.map_none]
        rw [hnone]
        exact hrest _ hfields hadmits hall hfind.2

/-! ## Objects -/

theorem admits_closed {types : List UInt8} {f : Field} {u : Unit} :
    (Schema.closed types).admits f = .ok u ↔ f.typeNum ∈ types ∧ f.critical = false := by
  have hlookup : (types.map fun t => (t, false)).lookup f.typeNum =
      if f.typeNum ∈ types then some false else none := by
    induction types with
    | nil => simp
    | cons t types ih =>
      rw [List.map_cons, List.lookup_cons, ih]
      by_cases ht : f.typeNum = t
      · simp [ht]
      · have hbeq : (f.typeNum == t) = false := by simpa using ht
        simp [hbeq, ht]
  unfold Schema.admits Schema.closed
  rw [hlookup]
  by_cases hmem : f.typeNum ∈ types
  · rw [if_pos hmem]
    simp [hmem]
  · rw [if_neg hmem]
    dsimp only
    rw [if_pos rfl]
    split_ifs <;> simp [hmem]

theorem validate_closed {types : List UInt8} {o : Object} {u : PUnit} :
    o.validate (.closed types) = .ok u ↔
      ∀ f ∈ o.fields, f.typeNum ∈ types ∧ f.critical = false := by
  unfold Object.validate
  induction o.fields with
  | nil => simp
  | cons f fields ih =>
    have hcons : (f :: fields).forM (Schema.closed types).admits =
        ((Schema.closed types).admits f >>= fun _ =>
          fields.forM (Schema.closed types).admits) := rfl
    rw [hcons, bind_eq_ok, List.forall_mem_cons]
    constructor
    · rintro ⟨u, hf, hrest⟩
      exact ⟨admits_closed.1 hf, ih.1 hrest⟩
    · rintro ⟨hf, hrest⟩
      exact ⟨⟨⟩, admits_closed.2 hf, ih.2 hrest⟩

theorem encode_row (fields : List Field) : (⟨fields⟩ : Object).encode = encode fields :=
  Object.encode_eq_flatMap ⟨fields⟩

/-- An object that admits its types only parses from the row of its values, and from nothing
else. -/
theorem parse_row_iff {slots : List (UInt8 × Option Bytes)} (h : Typed (slots.map Prod.fst))
    {b : Bytes} {o : Object} {u : PUnit} :
    (Object.parse b = .ok o ∧ o.validate (.closed (slots.map Prod.fst)) = .ok u ∧
      ∀ s ∈ slots, o.get s.1 = s.2) ↔
      Short slots ∧ b = encode (row slots) ∧ o = ⟨row slots⟩ := by
  rw [Object.parse_eq_ok, validate_closed]
  constructor
  · rintro ⟨⟨hcanonical, rfl⟩, hadmits, hget⟩
    obtain ⟨fields⟩ := o
    have hrow : fields = row slots := eq_row h.1 hcanonical.ascending hadmits hget
    refine ⟨fun s hs v hv => ?_, ?_, by rw [hrow]⟩
    · refine (hcanonical.fields ⟨s.1, false, v⟩ ?_).length_le
      show _ ∈ fields
      rw [hrow, mem_row, ← hv]
      exact ⟨hs, rfl⟩
    · rw [encode_row, hrow]
  · rintro ⟨hshort, rfl, rfl⟩
    refine ⟨⟨⟨row_ascending h.1, fun f hf => ?_⟩, encode_row _⟩, fun f hf => ?_, find?_row h.1⟩
    · obtain ⟨hmem, -⟩ := mem_row.1 hf
      exact ⟨h.2 _ (List.mem_map.2 ⟨_, hmem, rfl⟩), hshort _ hmem _ rfl⟩
    · obtain ⟨hmem, hcritical⟩ := mem_row.1 hf
      exact ⟨List.mem_map.2 ⟨_, hmem, rfl⟩, hcritical⟩

/-- The row of short values parses. -/
theorem parse_of_row {slots : List (UInt8 × Option Bytes)} (h : Typed (slots.map Prod.fst))
    {b : Bytes} (hshort : Short slots) (hb : b = encode (row slots)) : ∃ o, Object.parse b = .ok o ∧
      o.validate (.closed (slots.map Prod.fst)) = .ok ⟨⟩ ∧ ∀ s ∈ slots, o.get s.1 = s.2 :=
  ⟨_, (parse_row_iff h).2 ⟨hshort, hb, rfl⟩⟩

section fields
variable {α : Type} {dom : α → Prop} {enc : α → Bytes} {read : Bytes → Except WireError α}
  {o : Object} {t : UInt8}

theorem required_eq_ok (h : Reads dom enc read) {a : α} :
    o.required t read = .ok a ↔ dom a ∧ o.get t = some (enc a) := by
  unfold Object.required
  simp only [bind_eq_ok, okOr_eq_ok, h _ a]
  constructor
  · rintro ⟨_, hget, hdom, rfl⟩
    exact ⟨hdom, hget⟩
  · rintro ⟨hdom, hget⟩
    exact ⟨_, hget, hdom, rfl⟩

theorem optional_eq_ok (h : Reads dom enc read) {value : Option α} :
    o.optional t read = .ok value ↔ (∀ a ∈ value, dom a) ∧ o.get t = value.map enc := by
  unfold Object.optional
  cases o.get t with
  | none => cases value <;> simp
  | some v =>
    simp only [map_eq_ok, h v]
    constructor
    · rintro ⟨a, ⟨hdom, rfl⟩, rfl⟩
      exact ⟨by simpa using hdom, rfl⟩
    · rintro ⟨hdom, hv⟩
      obtain ⟨a, rfl, rfl⟩ := Option.map_eq_some_iff.1 hv.symm
      exact ⟨a, ⟨hdom a rfl, rfl⟩, rfl⟩

end fields

end Tlv

end Paytp
