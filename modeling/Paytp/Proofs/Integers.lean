import Mathlib.Data.Nat.Digits.Lemmas
import Paytp.Proofs.Objects

/-!
# Minimal integers

A minimal unsigned integer begins with no zero byte, a minimal signed one with no byte that only
repeats the sign of the next. So each number has one minimal encoding, of the least width that
holds it, and the decoders accept no other.
-/

namespace Paytp

theorem ofBE_concat (bs : Bytes) (b : UInt8) : ofBE (bs ++ [b]) = ofBE bs * 256 + b.toNat := by
  simp [ofBE]

theorem ofBE_reverse (digits : Bytes) :
    ofBE digits.reverse = Nat.ofDigits 256 (digits.map UInt8.toNat) := by
  induction digits with
  | nil => rfl
  | cons b digits ih =>
    rw [List.reverse_cons, ofBE_concat, ih, List.map_cons, Nat.ofDigits_cons]
    ring

theorem ofBE_zero_cons (bs : Bytes) : ofBE (0x00 :: bs) = ofBE bs := by
  rw [ofBE_cons]
  simp

/-- Byte strings of one length and one value are equal. -/
theorem eq_of_ofBE {bs bs' : Bytes} (hlen : bs.length = bs'.length) (hval : ofBE bs = ofBE bs') :
    bs = bs' := by
  rw [← toBE_ofBE bs, ← toBE_ofBE bs', hlen, hval]

namespace Tlv

/-! ## Unsigned integers -/

/-- Zero is one byte, and every other number begins with one that is not zero. -/
def MinimalUint (bs : Bytes) : Prop := bs = [0x00] ∨ ∃ b rest, bs = b :: rest ∧ b ≠ 0x00

theorem validateMinimalUint_eq_ok {bs : Bytes} {u : Unit} :
    validateMinimalUint bs = .ok u ↔ MinimalUint bs := by
  unfold validateMinimalUint MinimalUint
  split
  · simp
  · simp
  · rename_i rest hrest
    refine ⟨nofun, ?_⟩
    rintro (h | ⟨b, rest', h, hb⟩)
    · exact absurd (List.cons.inj h).2 hrest
    · exact absurd (List.cons.inj h).1.symm hb
  · rename_i hnil _ hzero
    rcases bs with _ | ⟨b, rest⟩
    · exact absurd rfl hnil
    · refine ⟨fun _ => .inr ⟨b, rest, rfl, ?_⟩, fun _ => rfl⟩
      rintro rfl
      exact hzero rest rfl

theorem le_ofBE_cons {b : UInt8} {rest : Bytes} (hb : b ≠ 0x00) :
    256 ^ rest.length ≤ ofBE (b :: rest) := by
  have hpos : 0 < b.toNat := Nat.pos_of_ne_zero fun h => hb (UInt8.toNat_inj.1 h)
  rw [ofBE_cons]
  exact (Nat.le_mul_of_pos_left _ hpos).trans (Nat.le_add_right _ _)

/-- A number has one minimal encoding. -/
theorem MinimalUint.unique {bs bs' : Bytes} (h : MinimalUint bs) (h' : MinimalUint bs')
    (hval : ofBE bs = ofBE bs') : bs = bs' := by
  -- the longer of two encodings that begin with a byte other than zero has the greater value
  have hshort : ∀ {bs bs' : Bytes}, MinimalUint bs' → ofBE bs = ofBE bs' → 0 < bs.length →
      bs'.length ≤ bs.length := by
    rintro bs _ (rfl | ⟨b, rest, rfl, hb⟩) hval hpos
    · exact hpos
    · have hle := (le_ofBE_cons hb).trans (hval ▸ (ofBE_lt bs).le)
      by_contra hlen
      rw [List.length_cons] at hlen
      have hpow : 256 ^ bs.length ≤ 256 ^ rest.length := Nat.pow_le_pow_right (by decide) (by omega)
      have hlt := ofBE_lt bs
      have hge := @le_ofBE_cons b rest hb
      omega
  have hpos : ∀ {bs : Bytes}, MinimalUint bs → 0 < bs.length := by
    rintro _ (rfl | ⟨b, rest, rfl, -⟩) <;> simp
  exact eq_of_ofBE (Nat.le_antisymm (hshort h hval.symm (hpos h')) (hshort h' hval (hpos h))) hval

theorem encodeUint_spec (n : ℕ) : MinimalUint (encodeUint n) ∧ ofBE (encodeUint n) = n := by
  unfold encodeUint
  split_ifs with hzero
  · exact ⟨.inl rfl, by rw [hzero]; rfl⟩
  · have hne : Nat.digits 256 n ≠ [] := Nat.digits_ne_nil_iff_ne_zero.2 hzero
    have hlt : ∀ d ∈ Nat.digits 256 n, d < 256 := fun d hd => Nat.digits_lt_base (by decide) hd
    have hback : ((Nat.digits 256 n).map UInt8.ofNat).map UInt8.toNat = Nat.digits 256 n := by
      rw [List.map_map, List.map_congr_left (g := id) fun d hd => ?_, List.map_id]
      exact (UInt8.toNat_ofNat').trans (Nat.mod_eq_of_lt (hlt d hd))
    refine ⟨.inr ?_, ?_⟩
    · have hlast := Nat.getLast_digit_ne_zero 256 hzero
      have hbyte := hlt _ (List.getLast_mem hne)
      refine ⟨UInt8.ofNat ((Nat.digits 256 n).getLast hne),
        ((Nat.digits 256 n).dropLast.map UInt8.ofNat).reverse, ?_, fun h => hlast ?_⟩
      · conv_lhs => rw [← List.dropLast_append_getLast hne, List.map_append, List.reverse_append]
        rfl
      · have hval := congrArg UInt8.toNat h
        rw [UInt8.toNat_ofNat', Nat.mod_eq_of_lt hbyte] at hval
        exact hval
    · rw [ofBE_reverse, hback, Nat.ofDigits_digits]

theorem decodeUintBiguint_eq_ok {bs : Bytes} {n : ℕ} :
    decodeUintBiguint bs = .ok n ↔ encodeUint n = bs := by
  obtain ⟨hmin, hval⟩ := encodeUint_spec n
  unfold decodeUintBiguint
  simp only [bind_eq_ok, validateMinimalUint_eq_ok, pure_eq_ok]
  constructor
  · rintro ⟨-, hbs, rfl⟩
    exact hmin.unique hbs hval
  · rintro rfl
    exact ⟨⟨⟩, hmin, hval⟩

theorem decodeUintMax_eq_ok {max : ℕ} {bs : Bytes} {n : ℕ} :
    decodeUintMax max bs = .ok n ↔ n ≤ max ∧ encodeUint n = bs := by
  unfold decodeUintMax
  simp only [bind_eq_ok, decodeUintBiguint_eq_ok]
  constructor
  · rintro ⟨v, rfl, h⟩
    split_ifs at h with hle
    cases h
    exact ⟨hle, rfl⟩
  · rintro ⟨hle, rfl⟩
    exact ⟨n, rfl, by rw [if_pos hle]; rfl⟩

theorem ofBE_dropWhile (bs : Bytes) : ofBE (bs.dropWhile (· == 0)) = ofBE bs := by
  induction bs with
  | nil => rfl
  | cons b bs ih =>
    by_cases hb : b = 0
    · subst hb
      rw [List.dropWhile_cons_of_pos (by simp), ih, ofBE_zero_cons]
    · rw [List.dropWhile_cons_of_neg (by simpa using hb)]

/-- Both encoders of unsigned integers write the same bytes. -/
theorem encodeUintU128_eq {n : ℕ} (hn : n < 2 ^ 128) : encodeUintU128 n = encodeUint n := by
  have hval : ofBE (toBE 16 n) = n := ofBE_toBE (hn.trans_eq (by decide))
  obtain ⟨hmin, hself⟩ := encodeUint_spec n
  unfold encodeUintU128
  split_ifs with hzero
  · rw [hzero]
    rfl
  · refine MinimalUint.unique ?_ hmin (by rw [ofBE_dropWhile, hval, hself])
    have hne : (toBE 16 n).dropWhile (· == 0) ≠ [] := by
      intro h
      have := ofBE_dropWhile (toBE 16 n)
      rw [h, hval] at this
      exact hzero this.symm
    obtain ⟨b, rest, hrest⟩ := List.exists_cons_of_ne_nil hne
    refine .inr ⟨b, rest, hrest, fun hb => ?_⟩
    have hhead := List.head_dropWhile_not (· == 0) hne
    simp [hrest, hb] at hhead

/-! ## Signed integers -/

/-- What the width `w` holds in two's complement. -/
def Fits (w : ℕ) (n : ℤ) : Prop := -(128 * 256 ^ (w - 1)) ≤ n ∧ n < 128 * 256 ^ (w - 1)

theorem Fits.mono {w w' : ℕ} {n : ℤ} (hle : w ≤ w') (h : Fits w n) : Fits w' n := by
  have hpow : (256 : ℤ) ^ (w - 1) ≤ 256 ^ (w' - 1) :=
    pow_le_pow_right₀ (by norm_num) (by omega)
  unfold Fits at h ⊢
  omega

/-- The two's complement that the bytes are. -/
def sintValue : Bytes → ℤ
  | [] => 0
  | b :: rest =>
    if b.toNat < 128 then ofBE (b :: rest) else ofBE (b :: rest) - 256 ^ (rest.length + 1)

theorem sintValue_cons (b : UInt8) (rest : Bytes) :
    sintValue (b :: rest) = (if b.toNat < 128 then b.toNat else b.toNat - 256 : ℤ) *
      256 ^ rest.length + ofBE rest := by
  rw [sintValue, ofBE_cons]
  split_ifs <;> push_cast <;> ring

theorem sintValue_fits (b : UInt8) (rest : Bytes) :
    Fits (rest.length + 1) (sintValue (b :: rest)) := by
  have hb := b.toNat_lt
  have hlt : (ofBE rest : ℤ) < 256 ^ rest.length := by exact_mod_cast ofBE_lt rest
  have hpos : (0 : ℤ) < 256 ^ rest.length := by positivity
  rw [sintValue_cons]
  unfold Fits
  rw [Nat.add_sub_cancel]
  generalize (256 : ℤ) ^ rest.length = p at hlt hpos ⊢
  split_ifs with hsign
  · constructor <;> nlinarith
  · constructor <;> nlinarith

/-- The first byte only repeats the sign of the second. -/
def Redundant (first second : UInt8) : Prop :=
  first = 0x00 ∧ second.toNat < 128 ∨ first = 0xff ∧ ¬second.toNat < 128

instance (first second : UInt8) : Decidable (Redundant first second) :=
  inferInstanceAs (Decidable (_ ∨ _))

/-- A redundant first byte is one the number does not need. -/
theorem redundant_iff (first second : UInt8) (rest : Bytes) :
    Redundant first second ↔ Fits (rest.length + 1) (sintValue (first :: second :: rest)) := by
  have hf := first.toNat_lt
  have hs := second.toNat_lt
  have hlt : (ofBE rest : ℤ) < 256 ^ rest.length := by exact_mod_cast ofBE_lt rest
  have hpos : (0 : ℤ) < 256 ^ rest.length := by positivity
  have hzero : first = 0x00 ↔ first.toNat = 0 := by rw [← UInt8.toNat_inj]; rfl
  have hff : first = 0xff ↔ first.toNat = 255 := by rw [← UInt8.toNat_inj]; rfl
  rw [sintValue_cons, ofBE_cons, List.length_cons, pow_succ]
  unfold Fits Redundant
  rw [Nat.add_sub_cancel, hzero, hff]
  push_cast
  have hnonneg : (0 : ℤ) ≤ ofBE rest := Int.natCast_nonneg _
  have hsecond : (second.toNat : ℤ) ≤ 255 := by omega
  generalize (256 : ℤ) ^ rest.length = p at hlt hpos ⊢
  generalize (ofBE rest : ℤ) = v at hlt hnonneg ⊢
  constructor
  · rintro (⟨hfirst, hsmall⟩ | ⟨hfirst, hlarge⟩)
    · have hle : (second.toNat : ℤ) ≤ 127 := by omega
      rw [if_pos (by omega), hfirst]
      constructor <;> push_cast <;> nlinarith
    · have hle : (128 : ℤ) ≤ second.toNat := by omega
      rw [if_neg (by omega), hfirst]
      constructor <;> push_cast <;> nlinarith
  · intro h
    split_ifs at h with hsign
    · have hfirst : first.toNat = 0 := by
        by_contra hne
        have hle : (1 : ℤ) ≤ first.toNat := by omega
        nlinarith [h.2, mul_le_mul_of_nonneg_right hle hpos.le]
      rw [hfirst] at h
      refine .inl ⟨hfirst, ?_⟩
      by_contra hlarge
      have hle : (128 : ℤ) ≤ second.toNat := by omega
      nlinarith [h.2]
    · have hfirst : first.toNat = 255 := by
        by_contra hne
        have hle : (first.toNat : ℤ) - 256 ≤ -2 := by omega
        nlinarith [h.1, mul_le_mul_of_nonneg_right hle hpos.le]
      rw [hfirst] at h
      refine .inr ⟨hfirst, fun hsmall => ?_⟩
      have hle : (second.toNat : ℤ) ≤ 127 := by omega
      push_cast at h
      nlinarith [h.1]

/-- A minimal encoding of `n`: it is `n`, and no shorter width holds it. -/
structure MinimalSint (bs : Bytes) (n : ℤ) : Prop where
  ne_nil : bs ≠ []
  value : sintValue bs = n
  least : ∀ w, 0 < w → w < bs.length → ¬Fits w n

theorem MinimalSint.fits {bs : Bytes} {n : ℤ} (h : MinimalSint bs n) : Fits bs.length n := by
  obtain ⟨hne, rfl, -⟩ := h
  obtain ⟨b, rest, rfl⟩ := List.exists_cons_of_ne_nil hne
  exact sintValue_fits b rest

/-- A number has one minimal encoding. -/
theorem MinimalSint.unique {bs bs' : Bytes} {n : ℤ} (h : MinimalSint bs n)
    (h' : MinimalSint bs' n) : bs = bs' := by
  have hlen : bs.length = bs'.length := by
    rcases lt_trichotomy bs.length bs'.length with hlt | heq | hlt
    · exact absurd h.fits (h'.least _ (List.length_pos_iff.2 h.ne_nil) hlt)
    · exact heq
    · exact absurd h'.fits (h.least _ (List.length_pos_iff.2 h'.ne_nil) hlt)
  refine eq_of_ofBE hlen ?_
  obtain ⟨b, rest, rfl⟩ := List.exists_cons_of_ne_nil h.ne_nil
  obtain ⟨b', rest', rfl⟩ := List.exists_cons_of_ne_nil h'.ne_nil
  have hval : sintValue (b :: rest) = sintValue (b' :: rest') := h.value.trans h'.value.symm
  have hrest : rest.length = rest'.length := by simpa using hlen
  have hlt : (ofBE (b :: rest) : ℤ) < 256 ^ (rest.length + 1) := by exact_mod_cast ofBE_lt _
  have hlt' : (ofBE (b' :: rest') : ℤ) < 256 ^ (rest'.length + 1) := by exact_mod_cast ofBE_lt _
  rw [sintValue, sintValue] at hval
  rw [hrest] at hval hlt
  split_ifs at hval <;> omega

theorem sintValue_eq (b : UInt8) (rest : Bytes) :
    sintValue (b :: rest) = if b &&& 0x80 ≠ 0
      then (ofBE (b :: rest) : ℤ) - 2 ^ (8 * (b :: rest).length) else ofBE (b :: rest) := by
  have hpow : (2 : ℤ) ^ (8 * (b :: rest).length) = 256 ^ (rest.length + 1) := by
    rw [pow_mul, List.length_cons]
    norm_num
  rw [sintValue, hpow]
  simp only [ne_eq, and_0x80_eq_zero, ite_not]

theorem decodeSint_cons_cons (first second : UInt8) (rest : Bytes) :
    decodeSint (first :: second :: rest) =
      if Redundant first second then .error .nonMinimalSignedInt
      else .ok (sintValue (first :: second :: rest)) := by
  have hred : ((first == 0x00 && second &&& 0x80 == 0) ||
      (first == 0xff && second &&& 0x80 != 0)) = true ↔ Redundant first second := by
    simp only [Redundant, Bool.or_eq_true, Bool.and_eq_true, beq_iff_eq, bne_iff_ne, ne_eq,
      and_0x80_eq_zero]
  unfold decodeSint
  dsimp only
  rw [sintValue_eq]
  simp only [hred]
  split_ifs <;> rfl

theorem decodeSint_singleton (b : UInt8) : decodeSint [b] = .ok (sintValue [b]) := by
  unfold decodeSint
  dsimp only
  rw [sintValue_eq]
  split_ifs <;> first | rfl | contradiction

theorem decodeSint_eq_ok {bs : Bytes} {n : ℤ} : decodeSint bs = .ok n ↔ MinimalSint bs n := by
  rcases bs with _ | ⟨first, _ | ⟨second, rest⟩⟩
  · exact ⟨nofun, fun h => absurd rfl h.ne_nil⟩
  · rw [decodeSint_singleton, Except.ok.injEq]
    refine ⟨fun h => ⟨by simp, h, fun w hpos hlt => ?_⟩, fun h => h.value⟩
    simp at hlt
    omega
  · rw [decodeSint_cons_cons]
    split_ifs with hred
    · refine ⟨nofun, fun h => ?_⟩
      have hfits := (redundant_iff first second rest).1 hred
      rw [h.value] at hfits
      exact absurd hfits (h.least _ (by omega) (by simp))
    · rw [Except.ok.injEq]
      refine ⟨?_, fun h => h.value⟩
      rintro rfl
      refine ⟨by simp, rfl, fun w _ hlt hfits => hred ((redundant_iff first second rest).2 ?_)⟩
      exact hfits.mono (by simpa using hlt)

/-- The least width, in bytes, that holds a number below zero. -/
theorem sintWidth_spec {n : ℤ} : ∀ {fuel k : ℕ}, -2 ^ (8 * (k + fuel) - 1) ≤ n →
    k ≤ sintWidth n fuel k ∧ -2 ^ (8 * sintWidth n fuel k - 1) ≤ n ∧
      ∀ w, k ≤ w → w < sintWidth n fuel k → n < -2 ^ (8 * w - 1)
  | 0, k, h => ⟨le_rfl, h, fun w hk hlt => absurd hlt (Nat.not_lt.2 hk)⟩
  | fuel + 1, k, h => by
    rw [sintWidth]
    split_ifs with hk
    · exact ⟨le_rfl, hk, fun w hkw hlt => absurd hlt (Nat.not_lt.2 hkw)⟩
    · have hnext : -2 ^ (8 * (k + 1 + fuel) - 1) ≤ n := by
        rwa [Nat.add_right_comm, Nat.add_assoc]
      obtain ⟨hle, hfits, hleast⟩ := sintWidth_spec hnext
      refine ⟨by omega, hfits, fun w hkw hlt => ?_⟩
      rcases Nat.eq_or_lt_of_le hkw with rfl | hkw
      · exact not_le.1 hk
      · exact hleast w hkw hlt

theorem pow_sign {w : ℕ} (hw : 0 < w) : (2 : ℤ) ^ (8 * w - 1) = 128 * 256 ^ (w - 1) := by
  obtain ⟨w, rfl⟩ : ∃ v, w = v + 1 := ⟨w - 1, by omega⟩
  have hexp : 8 * (w + 1) - 1 = 7 + 8 * w := by omega
  rw [hexp, pow_add, pow_mul, Nat.add_sub_cancel]
  norm_num

theorem encodeSint_pos {n : ℤ} (hn : 0 < n) : MinimalSint (encodeSint n) n := by
  obtain ⟨hmin, hval⟩ := encodeUint_spec n.natAbs
  unfold encodeSint
  rw [if_neg hn.ne', if_pos hn]
  generalize encodeUint n.natAbs = be at hmin hval ⊢
  obtain rfl | ⟨b, rest, rfl, hb⟩ := hmin
  · exact absurd hval (by simp [ofBE]; omega)
  · have hbelow := @le_ofBE_cons b rest hb
    have hn' : (ofBE (b :: rest) : ℤ) = n := by omega
    have hbelow' : (256 : ℤ) ^ rest.length ≤ n := by
      rw [← hn']
      exact_mod_cast hbelow
    simp only [List.headD_cons, UInt8.le_iff_toNat_le, UInt8.reduceToNat]
    split_ifs with hsign
    · -- the sign of the leading byte would make the number negative
      refine ⟨by simp, ?_, fun w _ hlt hfits => ?_⟩
      · rw [sintValue, if_pos (by decide), ofBE_zero_cons, hn']
      · have hwide := hfits.mono (Nat.le_of_lt_succ hlt)
        have hbound : (128 : ℤ) * 256 ^ rest.length ≤ n := by
          rw [← hn', ofBE_cons]
          push_cast
          have hpos : (0 : ℤ) < 256 ^ rest.length := by positivity
          have hle : (128 : ℤ) ≤ b.toNat := by exact_mod_cast hsign
          nlinarith
        exact absurd hwide.2 (not_lt.2 (by simpa using hbound))
    · refine ⟨by simp, ?_, fun w hpos hlt hfits => ?_⟩
      · rw [sintValue, if_pos (by omega), hn']
      · have hwide := (hfits.mono (Nat.le_of_lt_succ hlt)).2
        obtain ⟨k, hk⟩ : ∃ k, rest.length = k + 1 :=
          ⟨rest.length - 1, by rw [List.length_cons] at hlt; omega⟩
        rw [hk, Nat.add_sub_cancel] at hwide
        rw [hk, pow_succ] at hbelow'
        have hpos : (0 : ℤ) < 256 ^ k := by positivity
        omega

theorem encodeSint_neg {n : ℤ} (hn : n < 0) : MinimalSint (encodeSint n) n := by
  have hwide : -2 ^ (8 * (1 + n.natAbs) - 1) ≤ n := by
    have hself : n.natAbs < 2 ^ n.natAbs := Nat.lt_two_pow_self
    have hmono : 2 ^ n.natAbs ≤ 2 ^ (8 * (1 + n.natAbs) - 1) :=
      Nat.pow_le_pow_right (by decide) (by omega)
    have hlt : (n.natAbs : ℤ) < 2 ^ (8 * (1 + n.natAbs) - 1) := by
      exact_mod_cast hself.trans_le hmono
    omega
  obtain ⟨hle, hfits, hleast⟩ := sintWidth_spec hwide
  unfold encodeSint
  rw [if_neg hn.ne, if_neg (by omega)]
  dsimp only
  generalize sintWidth n n.natAbs 1 = k at hle hfits hleast
  obtain ⟨k, rfl⟩ : ∃ j, k = j + 1 := ⟨k - 1, by omega⟩
  rw [pow_sign hle, Nat.add_sub_cancel] at hfits
  have hpow : (2 : ℤ) ^ (8 * (k + 1)) = 256 ^ k * 256 := by
    rw [pow_mul, pow_succ]
    norm_num
  rw [hpow]
  have hpos : (0 : ℤ) < 256 ^ k := by positivity
  obtain ⟨m, hm⟩ : ∃ m : ℕ, 256 ^ k * 256 + n = m := ⟨(256 ^ k * 256 + n).toNat, by omega⟩
  rw [hm, Int.toNat_natCast]
  have hmlt : m < 256 ^ (k + 1) := by
    have : (m : ℤ) < 256 ^ k * 256 := by omega
    rw [pow_succ]
    exact_mod_cast this
  have hmge : 128 * 256 ^ k ≤ m := by
    have : (128 : ℤ) * 256 ^ k ≤ m := by omega
    exact_mod_cast this
  have hhead : (UInt8.ofNat (m / 256 ^ k)).toNat = m / 256 ^ k := by
    rw [UInt8.toNat_ofNat', Nat.mod_eq_of_lt]
    rw [pow_succ] at hmlt
    exact Nat.div_lt_of_lt_mul hmlt
  have hsign : ¬(UInt8.ofNat (m / 256 ^ k)).toNat < 128 := by
    rw [hhead, Nat.not_lt]
    exact (Nat.le_div_iff_mul_le (by positivity)).2 hmge
  have hval : ofBE (toBE (k + 1) m) = m := ofBE_toBE hmlt
  refine ⟨by simp [toBE], ?_, fun w hw hlt hfits' => ?_⟩
  · rw [toBE] at hval ⊢
    rw [sintValue, if_neg hsign, hval, length_toBE, pow_succ]
    omega
  · rw [length_toBE] at hlt
    have hcut := hleast w hw hlt
    rw [pow_sign hw] at hcut
    exact absurd hfits'.1 (not_le.2 hcut)

theorem encodeSint_minimal (n : ℤ) : MinimalSint (encodeSint n) n := by
  rcases lt_trichotomy n 0 with hn | rfl | hn
  · exact encodeSint_neg hn
  · refine ⟨by decide, by decide, fun w hpos hlt => ?_⟩
    have hone : w < 1 := hlt
    omega
  · exact encodeSint_pos hn

/-! ## The codecs -/

/-- A signed string decodes to the number it is the encoding of. -/
theorem decodeSint_iff {bs : Bytes} {n : ℤ} : decodeSint bs = .ok n ↔ encodeSint n = bs := by
  rw [decodeSint_eq_ok]
  constructor
  · exact fun h => (encodeSint_minimal n).unique h
  · rintro rfl
    exact encodeSint_minimal n

theorem decodeSintI128_eq_ok {bs : Bytes} {n : ℤ} : decodeSintI128 bs = .ok n ↔
    (-2 ^ 127 ≤ n ∧ n < 2 ^ 127) ∧ encodeSintI128 n = bs := by
  unfold decodeSintI128 encodeSintI128
  simp only [bind_eq_ok, decodeSint_iff]
  constructor
  · rintro ⟨v, rfl, h⟩
    split_ifs at h with hrange
    cases h
    exact ⟨hrange, rfl⟩
  · rintro ⟨hrange, rfl⟩
    exact ⟨n, rfl, by rw [if_pos hrange]; rfl⟩

/-- The decoders of unsigned integers that stop at a bound. -/
def boundedDecoders : List ((Bytes → Except WireError ℕ) × ℕ) :=
  [(decodeUintU128, 2 ^ 128 - 1), (decodeUintU64, 2 ^ 64 - 1), (decodeUintU32, 2 ^ 32 - 1),
    (decodeUintTime, 2 ^ 53 - 1)]

theorem boundedDecoders_eq {decode : Bytes → Except WireError ℕ} {max : ℕ}
    (h : (decode, max) ∈ boundedDecoders) : decode = decodeUintMax max := by
  simp only [boundedDecoders, List.mem_cons, Prod.mk.injEq, List.not_mem_nil, or_false] at h
  rcases h with ⟨rfl, rfl⟩ | ⟨rfl, rfl⟩ | ⟨rfl, rfl⟩ | ⟨rfl, rfl⟩ <;> rfl

/-- The integer codecs: each number in range decodes from its encoding, what decodes is the
encoding of a number in range, and an empty string, a redundant leading byte and a number out of
range are rejected. -/
theorem integers_bijective :
    (∀ n, decodeUintBiguint (encodeUint n) = .ok n) ∧
    (∀ bs n, decodeUintBiguint bs = .ok n → encodeUint n = bs) ∧
    (∀ n < 2 ^ 128, encodeUintU128 n = encodeUint n) ∧
    (∀ decode max, (decode, max) ∈ boundedDecoders →
      (∀ n ≤ max, decode (encodeUint n) = .ok n) ∧
      (∀ bs n, decode bs = .ok n → n ≤ max ∧ encodeUint n = bs) ∧
      (∀ n > max, decode (encodeUint n) = .error .fieldDomain) ∧
      decode [] = .error .nonMinimalInt ∧
      ∀ bs, bs ≠ [] → decode (0x00 :: bs) = .error .nonMinimalInt) ∧
    decodeUintBiguint [] = .error .nonMinimalInt ∧
    (∀ bs, bs ≠ [] → decodeUintBiguint (0x00 :: bs) = .error .nonMinimalInt) ∧
    (∀ n, decodeSint (encodeSint n) = .ok n) ∧
    (∀ bs n, decodeSint bs = .ok n → encodeSint n = bs) ∧
    (∀ n, -2 ^ 127 ≤ n ∧ n < 2 ^ 127 → decodeSintI128 (encodeSintI128 n) = .ok n) ∧
    (∀ bs n, decodeSintI128 bs = .ok n →
      (-2 ^ 127 ≤ n ∧ n < 2 ^ 127) ∧ encodeSintI128 n = bs) ∧
    (∀ n, ¬(-2 ^ 127 ≤ n ∧ n < 2 ^ 127) →
      decodeSintI128 (encodeSintI128 n) = .error .fieldDomain) ∧
    decodeSint [] = .error .nonMinimalSignedInt ∧
    ∀ first second rest, Redundant first second →
      decodeSint (first :: second :: rest) = .error .nonMinimalSignedInt := by
  have hzero : ∀ bs : Bytes, bs ≠ [] → decodeUintBiguint (0x00 :: bs) = .error .nonMinimalInt := by
    rintro (_ | ⟨b, bs⟩) hne
    · exact absurd rfl hne
    · rfl
  refine ⟨fun n => decodeUintBiguint_eq_ok.2 rfl, fun bs n => decodeUintBiguint_eq_ok.1,
    fun n => encodeUintU128_eq, ?_, rfl, hzero, fun n => decodeSint_iff.2 rfl,
    fun bs n => decodeSint_iff.1, fun n hn => decodeSintI128_eq_ok.2 ⟨hn, rfl⟩,
    fun bs n => decodeSintI128_eq_ok.1, ?_, rfl, ?_⟩
  · intro decode max hmem
    rw [boundedDecoders_eq hmem]
    refine ⟨fun n hn => decodeUintMax_eq_ok.2 ⟨hn, rfl⟩, fun bs n => decodeUintMax_eq_ok.1,
      fun n hn => ?_, rfl, fun bs hne => ?_⟩
    · have hdec : decodeUintBiguint (encodeUint n) = .ok n := decodeUintBiguint_eq_ok.2 rfl
      simp only [decodeUintMax, hdec, bind, Except.bind]
      rw [if_neg (by omega)]
      rfl
    · simp only [decodeUintMax, hzero bs hne, bind, Except.bind]
  · intro n hn
    have hdec : decodeSint (encodeSint n) = .ok n := decodeSint_iff.2 rfl
    simp only [decodeSintI128, encodeSintI128, hdec, bind, Except.bind]
    rw [if_neg hn]
    rfl
  · intro first second rest hred
    rw [decodeSint_cons_cons, if_pos hred]

end Tlv

end Paytp
