import Paytp.Tlv

/-!
# Objects and lists are their bytes

A length has one encoding of at most five groups. So an object, a framed body and a counted list
each decode from exactly the bytes they encode to.
-/

namespace Paytp

/-! ## Groups of seven bits -/

theorem and_0x7f (b : UInt8) : (b &&& 0x7f).toNat = b.toNat % 128 := by
  rw [UInt8.toNat_and]
  exact Nat.and_two_pow_sub_one_eq_mod b.toNat 7

/-- What holds of the 256 bytes. -/
theorem forall_byte {P : UInt8 → Prop} (h : ∀ n : Fin 256, P (UInt8.ofNat n)) (b : UInt8) :
    P b := by
  have hb := h ⟨b.toNat, b.toNat_lt⟩
  rwa [UInt8.ofNat_toNat] at hb

theorem and_0x80_eq_zero : ∀ b : UInt8, b &&& 0x80 = 0 ↔ b.toNat < 128 :=
  forall_byte (by decide +kernel)

namespace Leb128

/-- A group joins the ones below it. -/
theorem or_shiftLeft {result i low : ℕ} (h : result < 128 ^ i) :
    result ||| low <<< (7 * i) = result + low * 128 ^ i := by
  have hpow : (128 : ℕ) ^ i = 2 ^ (7 * i) := by rw [Nat.pow_mul]
  rw [hpow] at h ⊢
  rw [Nat.shiftLeft_eq, Nat.or_comm, Nat.mul_comm, ← Nat.two_pow_add_eq_or_of_lt h, Nat.add_comm]

/-- What the groups of a number decode to behind `i` others. -/
theorem decodeGroups_encodeGroups (rest : Bytes) : ∀ {fuel i v result : ℕ}, v < 128 ^ fuel →
    result < 128 ^ i → (0 < i → 0 < v) → result + v * 128 ^ i ≤ MAX → 0 < fuel →
    decodeGroups i result (encodeGroups fuel v ++ rest) =
      .ok (result + v * 128 ^ i, i + (encodeGroups fuel v).length) := by
  intro fuel
  induction fuel with
  | zero => intro i v result _ _ _ _ hfuel; exact absurd hfuel (lt_irrefl 0)
  | succ fuel ih =>
    intro i v result hv hresult hnonzero hmax _
    have hi : ¬i ≥ 5 := by
      intro hi
      have hpow : 128 ^ 5 ≤ 128 ^ i := Nat.pow_le_pow_right (by decide) hi
      have hlow : 128 ^ i ≤ v * 128 ^ i := Nat.le_mul_of_pos_left _ (hnonzero (by omega))
      unfold MAX at hmax
      omega
    have hsplit := Nat.mod_add_div v 128
    rw [encodeGroups]
    split_ifs with hlast
    · have hv' : v < 128 := by omega
      have hbyte : (UInt8.ofNat (v % 128)).toNat = v := by
        rw [UInt8.toNat_ofNat']
        omega
      have hlow : (UInt8.ofNat (v % 128) &&& 0x7f).toNat = v := by rw [and_0x7f, hbyte]; omega
      have hend : UInt8.ofNat (v % 128) &&& 0x80 = 0 := by rw [and_0x80_eq_zero, hbyte]; exact hv'
      rw [List.singleton_append, decodeGroups, if_neg hi]
      dsimp only
      rw [hlow, or_shiftLeft hresult, if_pos hend, if_neg (by omega), if_neg (by omega)]
      rfl
    · have hbyte : (UInt8.ofNat (v % 128 + 128)).toNat = v % 128 + 128 := by
        rw [UInt8.toNat_ofNat']
        omega
      have hlow : (UInt8.ofNat (v % 128 + 128) &&& 0x7f).toNat = v % 128 := by
        rw [and_0x7f, hbyte]
        omega
      have hmore : ¬UInt8.ofNat (v % 128 + 128) &&& 0x80 = 0 := by
        rw [and_0x80_eq_zero, hbyte]
        omega
      have hnext : result + v % 128 * 128 ^ i + v / 128 * 128 ^ (i + 1) =
          result + v * 128 ^ i := by
        conv_rhs => rw [← hsplit]
        ring
      have hbound : result + v % 128 * 128 ^ i < 128 ^ (i + 1) := by
        have hmod : v % 128 * 128 ^ i ≤ 127 * 128 ^ i := Nat.mul_le_mul_right _ (by omega)
        rw [pow_succ]
        omega
      have hdiv : v / 128 < 128 ^ fuel := by
        rw [pow_succ] at hv
        exact Nat.div_lt_of_lt_mul (by omega)
      have hfuel : 0 < fuel := by
        rcases fuel with _ | fuel
        · simp at hdiv
          omega
        · exact Nat.succ_pos fuel
      rw [List.cons_append, decodeGroups, if_neg hi]
      dsimp only
      rw [hlow, or_shiftLeft hresult, if_neg hmore,
        ih hdiv hbound (fun _ => by omega) (by rwa [hnext]) hfuel, hnext, List.length_cons]
      congr 2
      omega

/-- What decodes is the groups of a number. -/
theorem decodeGroups_eq_ok : ∀ {bs : Bytes} {fuel i result n used : ℕ}, i + fuel = 10 →
    result < 128 ^ i → decodeGroups i result bs = .ok (n, used) →
    ∃ v rest, bs = encodeGroups fuel v ++ rest ∧ n = result + v * 128 ^ i ∧
      used = i + (encodeGroups fuel v).length ∧ (0 < i → 0 < v) ∧ n ≤ MAX := by
  intro bs
  induction bs with
  | nil => intro fuel i result n used _ _ h; simp [decodeGroups] at h
  | cons b bs ih =>
    intro fuel i result n used hfuel hresult h
    have hb := b.toNat_lt
    rw [decodeGroups] at h
    dsimp only at h
    simp only [and_0x80_eq_zero, and_0x7f, or_shiftLeft hresult] at h
    split_ifs at h with hi hend hover hbig
    · cases h
      have hlow : b.toNat % 128 = b.toNat := Nat.mod_eq_of_lt hend
      rw [hlow] at hover hbig ⊢
      obtain ⟨fuel, rfl⟩ : ∃ f, fuel = f + 1 := ⟨fuel - 1, by omega⟩
      have hgroups : encodeGroups (fuel + 1) b.toNat = [b] := by
        rw [encodeGroups, if_pos (by omega), hlow, UInt8.ofNat_toNat]
      refine ⟨b.toNat, bs, by rw [hgroups]; rfl, rfl, by rw [hgroups]; rfl, ?_, by omega⟩
      omega
    · have hbound : result + b.toNat % 128 * 128 ^ i < 128 ^ (i + 1) := by
        have hmod : b.toNat % 128 * 128 ^ i ≤ 127 * 128 ^ i := Nat.mul_le_mul_right _ (by omega)
        rw [pow_succ]
        omega
      obtain ⟨fuel, rfl⟩ : ∃ f, fuel = f + 1 := ⟨fuel - 1, by omega⟩
      obtain ⟨v, rest, rfl, rfl, rfl, hpos, hmax⟩ := ih (show i + 1 + fuel = 10 by omega) hbound h
      have hv := hpos (Nat.succ_pos i)
      have hmod : (b.toNat % 128 + 128 * v) % 128 = b.toNat % 128 := by omega
      have hdiv : (b.toNat % 128 + 128 * v) / 128 = v := by omega
      have hbyte : UInt8.ofNat (b.toNat % 128 + 128) = b := by
        rw [show b.toNat % 128 + 128 = b.toNat by omega, UInt8.ofNat_toNat]
      have hgroups : encodeGroups (fuel + 1) (b.toNat % 128 + 128 * v) =
          b :: encodeGroups fuel v := by
        rw [encodeGroups, hdiv, hmod, hbyte, if_neg (by omega)]
      refine ⟨b.toNat % 128 + 128 * v, rest, by rw [hgroups]; rfl, by ring, ?_, ?_, hmax⟩
      · rw [hgroups, List.length_cons]
        omega
      · omega

/-- The decoder takes exactly the encodings of the numbers below 2³² off the front. -/
theorem delimits : Delimits (· ≤ MAX) encode decode := by
  intro bs n used
  constructor
  · intro h
    obtain ⟨v, rest, rfl, rfl, rfl, -, hle⟩ :=
      decodeGroups_eq_ok (show 0 + 10 = 10 from rfl) (by simp) h
    simp only [pow_zero, Nat.mul_one, Nat.zero_add] at hle ⊢
    exact ⟨hle, rfl, rest, rfl⟩
  · rintro ⟨hle, rfl, rest, rfl⟩
    have hlt : n < 128 ^ 10 := lt_of_le_of_lt hle (by decide)
    have hdec := @decodeGroups_encodeGroups rest 10 0 n 0 hlt (by simp) nofun
      (by simpa using hle) (by decide)
    simpa [decode, encode] using hdec

/-- A redundant last group is rejected, however many stand before it. -/
theorem decodeGroups_overlong (rest : Bytes) : ∀ {more : Bytes} {i result : ℕ},
    (∀ b ∈ more, 0x80 ≤ b.toNat) → (0 < i ∨ more ≠ []) → ∀ n used,
    decodeGroups i result (more ++ 0x00 :: rest) ≠ .ok (n, used) := by
  intro more
  induction more with
  | nil =>
    intro i result _ hi n used h
    have hpos : i > 0 := hi.resolve_right (by simp)
    rw [List.nil_append, decodeGroups] at h
    simp only [hpos, UInt8.zero_and, UInt8.toNat_zero, and_self, if_true] at h
    split_ifs at h
  | cons b more ih =>
    intro i result hmore _ n used h
    obtain ⟨hb, hmore⟩ := List.forall_mem_cons.1 hmore
    have hgo : ¬b &&& 0x80 = 0 := by rw [and_0x80_eq_zero]; omega
    rw [List.cons_append, decodeGroups, if_neg hgo] at h
    split_ifs at h
    exact ih hmore (.inl (Nat.succ_pos i)) n used h

end Leb128

namespace Tlv

/-! ## Fields -/

/-- A type number has seven bits, and the length of a value one encoding. -/
structure Field.Canonical (f : Field) : Prop where
  typeNum_lt : f.typeNum < 0x80
  length_le : f.value.length ≤ Leb128.MAX

theorem typeByte_parts : ∀ t : UInt8, t < 0x80 →
    t &&& 0x7f = t ∧ t &&& 0x80 = 0 ∧ (t ||| 0x80) &&& 0x7f = t ∧ (t ||| 0x80) &&& 0x80 ≠ 0 :=
  forall_byte (by decide +kernel)

theorem typeByte_of_parts : ∀ b : UInt8, b &&& 0x7f < 0x80 ∧
    (if b &&& 0x80 = 0 then b &&& 0x7f else (b &&& 0x7f) ||| 0x80) = b :=
  forall_byte (by decide +kernel)

theorem Field.delimits : Delimits Field.Canonical Field.encode decodeField := by
  intro bs f n
  have hvalue := Leb128.delimits.lengthPrefixed WireError.lengthOverrun
  constructor
  · intro h
    rcases bs with _ | ⟨b, bs⟩
    · simp [decodeField] at h
    · simp only [decodeField, bind_eq_ok, pure_eq_ok] at h
      obtain ⟨⟨value, used⟩, hdec, heq⟩ := h
      cases heq
      obtain ⟨hle, hused, rest, rfl⟩ := (hvalue _ _ _).1 hdec
      obtain ⟨hlt, hbyte⟩ := typeByte_of_parts b
      have htype : Field.typeByte ⟨b &&& 0x7f, b &&& 0x80 != 0, value⟩ = b := by
        conv_rhs => rw [← hbyte]
        by_cases hflag : b &&& 0x80 = 0 <;> simp [Field.typeByte, hflag]
      refine ⟨⟨hlt, hle⟩, ?_, rest, ?_⟩
      · rw [Field.encode, htype, List.length_cons, ← hused]
        omega
      · rw [Field.encode, htype]
        rfl
  · rintro ⟨⟨hlt, hle⟩, rfl, rest, rfl⟩
    obtain ⟨hnum, hflag, hnum', hflag'⟩ := typeByte_parts f.typeNum hlt
    rcases f with ⟨typeNum, critical, value⟩
    simp only [Field.encode, List.cons_append, decodeField, bind_eq_ok, pure_eq_ok]
    refine ⟨(value, _), hvalue.dec_enc hle rest, ?_⟩
    rw [List.length_cons, Nat.add_comm]
    rcases critical with _ | _
    · simp [Field.typeByte, hnum, hflag]
    · simp [Field.typeByte, hnum', hflag']

theorem Field.encode_ne_nil (f : Field) : f.encode ≠ [] := by simp [Field.encode]

/-! ## Objects -/

/-- The fields of an object stand in ascending order of their types, no type twice. -/
def Ascending (fields : List Field) : Prop := fields.Pairwise fun f g => f.typeNum < g.typeNum

theorem ascending_cons_cons {f g : Field} {fields : List Field} :
    Ascending (f :: g :: fields) ↔ f.typeNum < g.typeNum ∧ Ascending (g :: fields) := by
  unfold Ascending
  rw [List.pairwise_cons, List.forall_mem_cons]
  constructor
  · exact fun h => ⟨h.1.1, h.2⟩
  · rintro ⟨hlt, h⟩
    refine ⟨⟨hlt, fun k hk => ?_⟩, h⟩
    exact UInt8.lt_trans hlt (List.rel_of_pairwise_cons h hk)

theorem checkOrder_eq_ok {fields : List Field} {f : Field} {u : Unit} :
    checkOrder fields f = .ok u ↔ ∀ prev ∈ fields.getLast?, prev.typeNum < f.typeNum := by
  unfold checkOrder
  rcases fields.getLast? with _ | prev
  · simp
  · simp only [Option.mem_def, Option.some.injEq, forall_eq']
    split_ifs with heq hlt
    all_goals
      simp only [UInt8.lt_iff_toNat_lt, ← UInt8.toNat_inj, true_iff, false_iff] at *
      omega

theorem acceptedAfter_checkOrder : ∀ (more : List Field) (fields : List Field),
    AcceptedAfter checkOrder fields more ↔ Ascending (fields.getLast?.toList ++ more)
  | [], fields => by
    rcases h : fields.getLast? with _ | prev <;> simp [AcceptedAfter, Ascending]
  | f :: more, fields => by
    rw [AcceptedAfter, acceptedAfter_checkOrder more (fields ++ [f]), checkOrder_eq_ok]
    rcases h : fields.getLast? with _ | prev <;> simp [ascending_cons_cons]

/-- What an object's bytes are the only bytes of. -/
structure Object.Canonical (o : Object) : Prop where
  ascending : Ascending o.fields
  fields : ∀ f ∈ o.fields, f.Canonical

namespace Object

theorem encode_eq_flatMap (o : Object) : o.encode = o.fields.flatMap Field.encode := by
  exact List.flatMap_eq_foldl.symm

theorem parse_eq_ok {b : Bytes} {o : Object} :
    parse b = .ok o ↔ o.Canonical ∧ o.encode = b := by
  unfold parse
  simp only [bind_eq_ok, pure_eq_ok, encode_eq_flatMap,
    consumeAll_eq_ok Field.delimits (fun f _ => f.encode_ne_nil) _ _ le_rfl,
    acceptedAfter_checkOrder]
  constructor
  · rintro ⟨_, ⟨fields, rfl, rfl, hfields, hasc⟩, rfl⟩
    exact ⟨⟨hasc, hfields⟩, rfl⟩
  · rintro ⟨⟨hasc, hfields⟩, rfl⟩
    exact ⟨o.fields, ⟨o.fields, rfl, rfl, hfields, hasc⟩, rfl⟩

/-- What parses behind a row of canonical fields is a row of them, in ascending order. -/
theorem parse_row {fields : List Field} {tail : Bytes} {o : Object}
    (hfields : ∀ f ∈ fields, f.Canonical)
    (h : parse (fields.flatMap Field.encode ++ tail) = .ok o) :
    ∃ more, o.fields = fields ++ more ∧ tail = more.flatMap Field.encode ∧
      (∀ f ∈ more, f.Canonical) ∧ Ascending (fields ++ more) := by
  obtain ⟨⟨hasc, hall⟩, hbytes⟩ := parse_eq_ok.1 h
  rw [encode_eq_flatMap] at hbytes
  obtain ⟨more, hmore, htail⟩ :=
    row_prefix Field.delimits (fun f _ => f.encode_ne_nil) hfields hall hbytes.symm
  rw [hmore] at hasc hall
  exact ⟨more, hmore, htail, fun f hf => hall f (List.mem_append_right _ hf), hasc⟩

/-- The bytes parse as no object. -/
def Rejected (b : Bytes) : Prop := ∀ o, parse b ≠ .ok o

/-- Nothing parses that goes on with bytes no field begins with. -/
theorem parse_rejects {fields : List Field} {tail : Bytes} (hfields : ∀ f ∈ fields, f.Canonical)
    (hne : tail ≠ []) (htail : ∀ f n, decodeField tail ≠ .ok (f, n)) :
    Rejected (fields.flatMap Field.encode ++ tail) := by
  intro o h
  obtain ⟨_ | ⟨f, more⟩, -, rfl, hmore, -⟩ := parse_row hfields h
  · exact hne rfl
  · rw [List.flatMap_cons] at htail
    exact htail f _ (Field.delimits.dec_enc (hmore f List.mem_cons_self) _)

theorem decodeField_overlong {t : UInt8} {more rest : Bytes} (hmore : ∀ b ∈ more, 0x80 ≤ b.toNat)
    (hne : more ≠ []) (f : Field) (n : ℕ) :
    decodeField (t :: (more ++ 0x00 :: rest)) ≠ .ok (f, n) := by
  simp only [decodeField, lengthPrefixed, ne_eq, bind_eq_ok]
  rintro ⟨_, ⟨⟨len, used⟩, hdec, -⟩, -⟩
  exact Leb128.decodeGroups_overlong rest hmore (.inr hne) len used hdec

theorem decodeField_overrun {t : UInt8} {len : ℕ} {value : Bytes} (hle : len ≤ Leb128.MAX)
    (hlt : value.length < len) (f : Field) (n : ℕ) :
    decodeField (t :: (Leb128.encode len ++ value)) ≠ .ok (f, n) := by
  have hcut := lengthPrefixed_overrun Leb128.delimits WireError.lengthOverrun hle hlt
  simp [decodeField, hcut, bind, Except.bind]

theorem coveredBytes_eq (extra : List UInt8) (o : Object) :
    o.coveredBytes extra = encode ⟨o.fields.filter fun f => !f.isAuthenticator extra⟩ := by
  unfold encode coveredBytes
  rw [List.foldl_filter]
  refine congrArg (fun step => o.fields.foldl step []) (funext₂ fun out f => ?_)
  rcases f.isAuthenticator extra <;> rfl

/-- An object and its bytes determine each other: what parses is the encoding of the canonical
object it parses to. So behind any row of fields, a type out of order or repeated, an overlong
length, a length that overruns what is left and bytes that are no fields are rejected. What is
covered is the encoding of the object without its authenticators. -/
theorem parse_encode_bijective :
    (∀ b o, parse b = .ok o → o.Canonical ∧ o.encode = b) ∧
    (∀ o : Object, o.Canonical → parse o.encode = .ok o) ∧
    (∀ (fields : List Field) (tail : Bytes), (∀ f ∈ fields, f.Canonical) →
      (¬Ascending fields → Rejected (fields.flatMap Field.encode ++ tail)) ∧
      (∀ t more rest, more ≠ [] → (∀ b ∈ more, 0x80 ≤ b.toNat) →
        Rejected (fields.flatMap Field.encode ++ t :: (more ++ 0x00 :: rest))) ∧
      (∀ t len, len ≤ Leb128.MAX → tail.length < len →
        Rejected (fields.flatMap Field.encode ++ t :: (Leb128.encode len ++ tail))) ∧
      ((∀ more : List Field, (∀ f ∈ more, f.Canonical) → tail ≠ more.flatMap Field.encode) →
        Rejected (fields.flatMap Field.encode ++ tail))) ∧
    ∀ (extra : List UInt8) (o : Object),
      o.coveredBytes extra = encode ⟨o.fields.filter fun f => !f.isAuthenticator extra⟩ ∧
      (o.Canonical → parse (o.coveredBytes extra) =
        .ok ⟨o.fields.filter fun f => !f.isAuthenticator extra⟩) := by
  refine ⟨fun b o => parse_eq_ok.1, fun o ho => parse_eq_ok.2 ⟨ho, rfl⟩, ?_, ?_⟩
  · intro fields tail hfields
    refine ⟨fun hasc o h => ?_, fun t more rest hne hmore => ?_, fun t len hle hlt => ?_,
      fun htail o h => ?_⟩
    · obtain ⟨more, -, -, -, hall⟩ := parse_row hfields h
      exact hasc (List.pairwise_append.1 hall).1
    · exact parse_rejects hfields (by simp) (decodeField_overlong hmore hne)
    · exact parse_rejects hfields (by simp) (decodeField_overrun hle hlt)
    · obtain ⟨more, -, hmore, hall, -⟩ := parse_row hfields h
      exact htail more hall hmore
  · intro extra o
    refine ⟨coveredBytes_eq extra o, fun ho => ?_⟩
    rw [coveredBytes_eq]
    exact parse_eq_ok.2 ⟨⟨List.Pairwise.filter _ ho.ascending,
      fun f hf => ho.fields f (List.mem_filter.1 hf).1⟩, rfl⟩

end Object

/-! ## Framed bodies -/

theorem frame_delimits : Delimits (fun obj : Bytes => obj.length ≤ Leb128.MAX)
    (fun obj => Leb128.encode obj.length ++ obj) decodeFrame := by
  have hlen : Delimits (· ≤ Leb128.MAX) Leb128.encode
      fun rest => (Leb128.decode rest).mapError fun _ => WireError.framing := by
    intro bs n used
    rw [mapError_eq_ok]
    exact Leb128.delimits bs n used
  exact hlen.lengthPrefixed WireError.framing

theorem frameObjects_eq (objects : List Bytes) :
    frameObjects objects = objects.flatMap fun obj => Leb128.encode obj.length ++ obj :=
  List.flatMap_eq_foldl.symm

theorem encode_ne_nil (n : ℕ) : Leb128.encode n ≠ [] := by
  unfold Leb128.encode Leb128.encodeGroups
  split_ifs <;> simp

theorem acceptedAfter_validate {validate : Bytes → Except WireError Unit} :
    ∀ (more objects : List Bytes),
      AcceptedAfter (fun _ obj => (validate obj).mapError fun _ => WireError.framing) objects more ↔
        ∀ obj ∈ more, validate obj = .ok ()
  | [], _ => by simp [AcceptedAfter]
  | obj :: more, objects => by
    rw [AcceptedAfter, acceptedAfter_validate more, mapError_eq_ok, List.forall_mem_cons]

/-- A body parses exactly if it is the frames of valid objects, which is what it parses to. -/
theorem parseFrames_eq_ok {body : Bytes} {validate : Bytes → Except WireError Unit}
    {objects : List Bytes} :
    parseFrames body validate = .ok objects ↔ (∀ obj ∈ objects, obj.length ≤ Leb128.MAX) ∧
      (∀ obj ∈ objects, validate obj = .ok ()) ∧ body = frameObjects objects := by
  unfold parseFrames
  rw [consumeAll_eq_ok frame_delimits (fun obj _ => by simp [encode_ne_nil]) _ _ le_rfl]
  simp only [acceptedAfter_validate, frameObjects_eq]
  constructor
  · rintro ⟨_, rfl, hbody, hlen, hvalid⟩
    exact ⟨hlen, hvalid, hbody⟩
  · rintro ⟨hlen, hvalid, hbody⟩
    exact ⟨objects, rfl, hbody, hlen, hvalid⟩

/-! ## Counted lists -/

section counted
variable {α : Type} {dom : α → Prop} {enc : α → Bytes}
  {parseItem : Bytes → Except WireError (α × ℕ)}

/-- A counted list parses exactly if it is the count and the encodings of its items. -/
theorem parseCountPrefixed_eq_ok (h : Delimits dom enc parseItem) (hne : ∀ a, dom a → enc a ≠ [])
    {value : Bytes} {items : List α} :
    parseCountPrefixed value parseItem = .ok items ↔ items.length ≤ Leb128.MAX ∧
      (∀ a ∈ items, dom a) ∧ value = buildCountPrefixed (items.map enc) := by
  unfold parseCountPrefixed buildCountPrefixed
  simp only [bind_eq_ok]
  constructor
  · rintro ⟨⟨count, used⟩, hdec, ⟨out, rest⟩, htake, hrest⟩
    dsimp only at htake hrest
    split_ifs at hrest with hleft
    cases hrest
    obtain ⟨hcount, -, hvalue⟩ := Leb128.delimits.drop_eq hdec
    obtain ⟨rfl, hdom, hitems⟩ := (takeCount_eq_ok h hne _).1 htake
    rw [not_not.1 hleft, List.append_nil] at hitems
    refine ⟨hcount, hdom, ?_⟩
    rw [List.length_map, ← List.flatMap_def, ← hitems]
    exact hvalue
  · rintro ⟨hcount, hdom, rfl⟩
    rw [List.length_map]
    refine ⟨(items.length, _), Leb128.delimits.dec_enc hcount _, (items, []), ?_, rfl⟩
    rw [List.drop_left, ← List.flatMap_def]
    exact (takeCount_eq_ok h hne _).2 ⟨rfl, hdom, by simp⟩

theorem length_le_flatMap (hne : ∀ a, dom a → enc a ≠ []) : ∀ {items : List α},
    (∀ a ∈ items, dom a) → items.length ≤ (items.flatMap enc).length
  | [], _ => by simp
  | a :: items, hdom => by
    obtain ⟨ha, hitems⟩ := List.forall_mem_cons.1 hdom
    have hpos := List.length_pos_iff.2 (hne a ha)
    have hrest := length_le_flatMap hne hitems
    rw [List.flatMap_cons, List.length_append, List.length_cons]
    omega

/-- Frames of objects below 2³² bytes and lists of fewer than 2³² items, in any self-delimiting
encoding that takes a byte, parse as what they were built from, and nothing else parses. A count
that what follows cannot hold is rejected. -/
theorem frames_lists_bijective (h : Delimits dom enc parseItem) (hne : ∀ a, dom a → enc a ≠ []) :
    (∀ (validate : Bytes → Except WireError Unit) (objects : List Bytes),
      (∀ obj ∈ objects, obj.length ≤ Leb128.MAX) → (∀ obj ∈ objects, validate obj = .ok ()) →
      parseFrames (frameObjects objects) validate = .ok objects) ∧
    (∀ (validate : Bytes → Except WireError Unit) (body : Bytes) (objects : List Bytes),
      parseFrames body validate = .ok objects →
      body = frameObjects objects ∧ ∀ obj ∈ objects, validate obj = .ok ()) ∧
    (∀ items : List α, items.length ≤ Leb128.MAX → (∀ a ∈ items, dom a) →
      parseCountPrefixed (buildCountPrefixed (items.map enc)) parseItem = .ok items) ∧
    (∀ (value : Bytes) (items : List α), parseCountPrefixed value parseItem = .ok items →
      value = buildCountPrefixed (items.map enc) ∧ (∀ a ∈ items, dom a) ∧
        items.length ≤ value.length) ∧
    ∀ (count : ℕ) (rest : Bytes), count ≤ Leb128.MAX → rest.length < count →
      ∀ items, parseCountPrefixed (Leb128.encode count ++ rest) parseItem ≠ .ok items := by
  refine ⟨fun validate objects hlen hvalid => parseFrames_eq_ok.2 ⟨hlen, hvalid, rfl⟩, ?_, ?_,
    ?_, ?_⟩
  · intro validate body objects hparse
    obtain ⟨-, hvalid, hbody⟩ := parseFrames_eq_ok.1 hparse
    exact ⟨hbody, hvalid⟩
  · exact fun items hcount hdom => (parseCountPrefixed_eq_ok h hne).2 ⟨hcount, hdom, rfl⟩
  · intro value items hparse
    obtain ⟨-, hdom, hvalue⟩ := (parseCountPrefixed_eq_ok h hne).1 hparse
    refine ⟨hvalue, hdom, ?_⟩
    have hlen := length_le_flatMap hne hdom
    rw [hvalue, buildCountPrefixed, ← List.flatMap_def, List.length_append]
    omega
  · intro count rest hcount hlt items hparse
    obtain ⟨hitems, hdom, hvalue⟩ := (parseCountPrefixed_eq_ok h hne).1 hparse
    rw [buildCountPrefixed, List.length_map, ← List.flatMap_def] at hvalue
    obtain ⟨rfl, rfl⟩ := Leb128.delimits.prefix_free hcount hitems hvalue
    exact absurd (length_le_flatMap hne hdom) (Nat.not_le.2 hlt)

/-- Lists of lengths. -/
theorem frames_lists_bijective_lengths :
    parseCountPrefixed (buildCountPrefixed ([3, 200].map Leb128.encode)) Leb128.decode =
      .ok [3, 200] :=
  (frames_lists_bijective Leb128.delimits fun n _ => encode_ne_nil n).2.2.1 [3, 200] (by decide)
    (by decide)

end counted

/-- An object of 2³² bytes is framed and does not parse. -/
theorem parseFrames_oversized :
    parseFrames (frameObjects [List.replicate (2 ^ 32) 0]) (fun _ => .ok ()) ≠
      .ok [List.replicate (2 ^ 32) 0] := by
  intro h
  have hlen := (parseFrames_eq_ok.1 h).1 _ List.mem_cons_self
  rw [List.length_replicate] at hlen
  exact absurd hlen (by decide)

end Tlv

end Paytp
