import Paytp.Lib.Bytes

/-!
# Length-prefixed frames

A field travels as its length in four big-endian bytes and then its bytes. `readField` takes
one off a byte string at an offset. What was written as a frame reads back, and a frame cut
short anywhere does not read at all, which is what lets a log drop a torn tail.
-/

namespace Paytp

/-- A byte string short enough for its length to fit the prefix. -/
@[ext] structure Field where
  bytes : Bytes
  short : bytes.length < 2 ^ 32
  deriving DecidableEq

/-- The frame of `data`. A length past four bytes is cut to its low ones, as the cast does. -/
def frame (data : Bytes) : Bytes := toBE 4 data.length ++ data

/-- The field at `off` and the offset past it, if a whole one is there. -/
def readField (bytes : Bytes) (off : ℕ) : Option (Bytes × ℕ) :=
  if off + 4 ≤ bytes.length then
    let len := ofBE ((bytes.drop off).take 4)
    if off + 4 + len ≤ bytes.length then
      some ((bytes.drop (off + 4)).take len, off + 4 + len)
    else none
  else none

@[simp] theorem length_frame (d : Bytes) : (frame d).length = 4 + d.length := by
  simp [frame]

/-- A framed field reads back wherever it stands. -/
theorem readField_frame (pre rest : Bytes) (d : Field) :
    readField (pre ++ (frame d.bytes ++ rest)) pre.length =
      some (d.bytes, pre.length + (frame d.bytes).length) := by
  have hlen : ofBE (toBE 4 d.bytes.length) = d.bytes.length :=
    ofBE_toBE (by have := d.short; omega)
  have hdrop : (pre ++ (frame d.bytes ++ rest)).drop (pre.length + 4) = d.bytes ++ rest := by
    rw [List.drop_append]
    simp [frame]
  have htake : ((pre ++ (frame d.bytes ++ rest)).drop pre.length).take 4 =
      toBE 4 d.bytes.length := by
    simp [frame]
  unfold readField
  simp only [htake, hlen, hdrop, List.length_append, length_frame]
  rw [if_pos (by omega), if_pos (by omega)]
  simp [Nat.add_assoc]

/-- A frame cut short does not read. -/
theorem readField_torn {pre t : Bytes} {d : Field} (h : t <+: frame d.bytes)
    (hne : t ≠ frame d.bytes) : readField (pre ++ t) pre.length = none := by
  obtain ⟨u, hu⟩ := h
  have hpos : 0 < u.length := by
    rcases u with _ | ⟨b, u⟩
    · exact absurd (by simpa using hu) hne
    · simp
  have hlt : t.length < 4 + d.bytes.length := by
    have hl := congrArg List.length hu
    simp only [List.length_append, length_frame] at hl
    omega
  unfold readField
  simp only [List.length_append]
  split_ifs with h4 hall
  · exfalso
    have htake : t.take 4 = toBE 4 d.bytes.length := by
      have h4' : 4 ≤ t.length := by omega
      have hp : (t ++ u).take 4 = (frame d.bytes).take 4 := by rw [hu]
      simpa [frame, List.take_append, Nat.sub_eq_zero_of_le h4'] using hp
    have hlen : ofBE ((List.drop pre.length (pre ++ t)).take 4) = d.bytes.length := by
      rw [List.drop_left, htake]
      exact ofBE_toBE (by have := d.short; omega)
    rw [hlen] at hall
    omega
  · rfl
  · rfl

/-- What reads is a frame. -/
theorem exists_of_readField {bytes d : Bytes} {off off' : ℕ}
    (h : readField bytes off = some (d, off')) : ∃ f : Field, f.bytes = d ∧
      bytes = bytes.take off ++ (frame d ++ bytes.drop off') ∧
      off' = (bytes.take off ++ frame d).length := by
  unfold readField at h
  simp only at h
  split_ifs at h with h4 hall
  simp only [Option.some.injEq, Prod.mk.injEq] at h
  obtain ⟨rfl, rfl⟩ := h
  set len := ofBE ((bytes.drop off).take 4) with hlen
  have h4' : ((bytes.drop off).take 4).length = 4 := by
    simp only [List.length_take, List.length_drop]
    omega
  have hlt : len < 256 ^ 4 := by
    have := ofBE_lt ((bytes.drop off).take 4)
    rwa [h4'] at this
  have hd : ((bytes.drop (off + 4)).take len).length = len := by
    simp only [List.length_take, List.length_drop]
    omega
  have hhead : toBE 4 len = (bytes.drop off).take 4 := by
    have := toBE_ofBE ((bytes.drop off).take 4)
    rwa [h4'] at this
  refine ⟨⟨(bytes.drop (off + 4)).take len, by rw [hd]; norm_num at hlt; exact hlt⟩, rfl, ?_, ?_⟩
  · have hbody : (bytes.drop (off + 4)).take len ++ bytes.drop (off + 4 + len) =
        bytes.drop (off + 4) := by
      have hdd : bytes.drop (off + 4 + len) = (bytes.drop (off + 4)).drop len :=
        List.drop_drop.symm
      rw [hdd, List.take_append_drop]
    have hrest : (bytes.drop off).take 4 ++ bytes.drop (off + 4) = bytes.drop off := by
      rw [← List.drop_drop, List.take_append_drop]
    rw [frame, hd, hhead, List.append_assoc, hbody, hrest, List.take_append_drop]
  · simp only [List.length_append, length_frame, hd, List.length_take]
    omega

/-! ## Records of several fields -/

/-- A record is the frames of its fields in a row. -/
def encodeFields (r : List Field) : Bytes := r.flatMap fun d => frame d.bytes

@[simp] theorem encodeFields_nil : encodeFields [] = [] := rfl

@[simp] theorem encodeFields_cons (d : Field) (r : List Field) :
    encodeFields (d :: r) = frame d.bytes ++ encodeFields r := rfl

/-- Read `n` fields in a row. -/
def readFields : ℕ → Bytes → ℕ → Option (List Bytes × ℕ)
  | 0, _, off => some ([], off)
  | n + 1, bytes, off =>
    match readField bytes off with
    | none => none
    | some (d, off) =>
      match readFields n bytes off with
      | none => none
      | some (ds, off) => some (d :: ds, off)

theorem readFields_succ_eq_some {n off off' : ℕ} {bytes : Bytes} {ds : List Bytes} :
    readFields (n + 1) bytes off = some (ds, off') ↔ ∃ d o ds',
      readField bytes off = some (d, o) ∧ readFields n bytes o = some (ds', off') ∧
        ds = d :: ds' := by
  rw [readFields]
  constructor
  · intro h
    split at h
    · simp at h
    · rename_i d o hd
      split at h
      · simp at h
      · rename_i ds' o' hds
        simp only [Option.some.injEq, Prod.mk.injEq] at h
        exact ⟨d, o, ds', hd, by rw [hds, h.2], h.1.symm⟩
  · rintro ⟨d, o, ds', hd, hds, rfl⟩
    simp only [hd, hds]

theorem readFields_encode : ∀ (r : List Field) (pre rest : Bytes),
    readFields r.length (pre ++ (encodeFields r ++ rest)) pre.length =
      some (r.map Field.bytes, pre.length + (encodeFields r).length)
  | [], pre, rest => by simp [readFields]
  | d :: r, pre, rest => by
    have hassoc : pre ++ (encodeFields (d :: r) ++ rest) =
        (pre ++ frame d.bytes) ++ (encodeFields r ++ rest) := by simp
    have hd : readField ((pre ++ frame d.bytes) ++ (encodeFields r ++ rest)) pre.length =
        some (d.bytes, (pre ++ frame d.bytes).length) := by
      rw [List.append_assoc, readField_frame, List.length_append]
    rw [hassoc]
    simp only [List.length_cons, readFields, hd, readFields_encode r]
    simp [Nat.add_assoc]

/-- A prefix of `a ++ b` stops inside `a` or reaches past it. -/
theorem prefix_append_cases {t a b : Bytes} (h : t <+: a ++ b) :
    (t <+: a ∧ t ≠ a) ∨ ∃ u, t = a ++ u ∧ u <+: b := by
  rcases List.prefix_or_prefix_of_prefix h (List.prefix_append a b) with hta | ⟨u, rfl⟩
  · by_cases he : t = a
    · exact .inr ⟨[], by simpa using he, List.nil_prefix⟩
    · exact .inl ⟨hta, he⟩
  · exact .inr ⟨u, rfl, (List.prefix_append_right_inj a).1 h⟩

/-- A record cut short does not read. -/
theorem readFields_torn : ∀ (r : List Field) (pre t : Bytes), t <+: encodeFields r →
    t ≠ encodeFields r → readFields r.length (pre ++ t) pre.length = none
  | [], pre, t, h, hne => absurd (by simpa using h) hne
  | d :: r, pre, t, h, hne => by
    rw [encodeFields_cons] at h hne
    simp only [List.length_cons, readFields]
    rcases prefix_append_cases h with ⟨hd, hde⟩ | ⟨u, rfl, hu⟩
    · rw [readField_torn hd hde]
    · have hread : readField (pre ++ (frame d.bytes ++ u)) pre.length =
          some (d.bytes, (pre ++ frame d.bytes).length) := by
        rw [readField_frame, List.length_append]
      have hr : readFields r.length ((pre ++ frame d.bytes) ++ u)
          (pre ++ frame d.bytes).length = none :=
        readFields_torn r _ u hu fun he => hne (by rw [he])
      rw [List.append_assoc] at hr
      simp only [hread, hr]

/-- The log of a list of records. -/
def encodeLog (rs : List (List Field)) : Bytes := rs.flatMap encodeFields

@[simp] theorem encodeLog_nil : encodeLog [] = [] := rfl

@[simp] theorem encodeLog_cons (r : List Field) (rs : List (List Field)) :
    encodeLog (r :: rs) = encodeFields r ++ encodeLog rs := rfl

theorem encodeLog_append (rs ss : List (List Field)) :
    encodeLog (rs ++ ss) = encodeLog rs ++ encodeLog ss := List.flatMap_append

theorem encodeLog_concat (rs : List (List Field)) (r : List Field) :
    encodeLog (rs ++ [r]) = encodeLog rs ++ encodeFields r := by
  simp [encodeLog_append]

end Paytp
