import Mathlib.Data.List.Basic
import Mathlib.Data.Vector.Basic
import Mathlib.Data.Nat.Init
import Mathlib.Tactic.Ring
import Mathlib.Tactic.Linarith

/-!
# Big-endian byte strings

`toBE w n` writes the low `w` bytes of `n`, most significant first, and `ofBE` reads such a
string back: a number that fits its width survives the trip. `Bytes.ofString` and
`Bytes.toString?` are UTF-8, and `ByteArr n` holds exactly `n` bytes.
-/

namespace Paytp

abbrev Bytes := List UInt8

/-- A byte string of length `n`. -/
abbrev ByteArr (n : ℕ) := List.Vector UInt8 n

/-- The byte string as an array of `n`, if it has that length. -/
def ByteArr.ofBytes? (n : ℕ) (bs : Bytes) : Option (ByteArr n) :=
  if h : bs.length = n then some ⟨bs, h⟩ else none

theorem ByteArr.ofBytes?_toList {n : ℕ} (a : ByteArr n) :
    ByteArr.ofBytes? n a.toList = some a := dif_pos a.toList_length

theorem ByteArr.ofBytes?_eq_some {n : ℕ} {bs : Bytes} {a : ByteArr n} :
    ByteArr.ofBytes? n bs = some a ↔ bs = a.toList := by
  constructor
  · intro h
    unfold ByteArr.ofBytes? at h
    split_ifs at h
    cases h
    rfl
  · rintro rfl
    exact ByteArr.ofBytes?_toList a

/-- The UTF-8 bytes of a string. -/
def Bytes.ofString (s : String) : Bytes := s.toByteArray.data.toList

/-- The string of some UTF-8 bytes. -/
def Bytes.toString? (bs : Bytes) : Option String := String.fromUTF8? ⟨bs.toArray⟩

theorem Bytes.toString?_ofString (s : String) : Bytes.toString? (Bytes.ofString s) = some s := by
  have hba : (⟨s.toByteArray.data.toList.toArray⟩ : ByteArray) = s.toByteArray := rfl
  rw [Bytes.toString?, Bytes.ofString, hba, String.fromUTF8?, dif_pos s.isValidUTF8]
  rfl

theorem Bytes.toString?_eq_some {bs : Bytes} {s : String} :
    Bytes.toString? bs = some s ↔ bs = Bytes.ofString s := by
  constructor
  · intro h
    unfold Bytes.toString? String.fromUTF8? at h
    split_ifs at h
    cases h
    rfl
  · rintro rfl
    exact Bytes.toString?_ofString s

theorem Bytes.ofString_injective : Function.Injective Bytes.ofString := fun s t h =>
  Option.some.inj (by rw [← Bytes.toString?_ofString s, h, Bytes.toString?_ofString])

/-- Each character is encoded by itself. -/
theorem Bytes.ofString_ofList (cs : List Char) :
    Bytes.ofString (String.ofList cs) = cs.flatMap String.utf8EncodeChar := by
  unfold Bytes.ofString
  rw [String.toByteArray_ofList]
  unfold List.utf8Encode
  simp

/-- The low `w` bytes of `n`, most significant first. -/
def toBE : ℕ → ℕ → Bytes
  | 0, _ => []
  | w + 1, n => UInt8.ofNat (n / 256 ^ w) :: toBE w n

def ofBE (bs : Bytes) : ℕ := bs.foldl (fun acc b => acc * 256 + b.toNat) 0

@[simp] theorem length_toBE : ∀ w n : ℕ, (toBE w n).length = w
  | 0, _ => rfl
  | w + 1, n => by simp [toBE, length_toBE w n]

theorem foldl_toBE : ∀ w n acc : ℕ,
    (toBE w n).foldl (fun acc b => acc * 256 + b.toNat) acc = acc * 256 ^ w + n % 256 ^ w
  | 0, n, acc => by simp [toBE, Nat.mod_one]
  | w + 1, n, acc => by
    have hsplit : n % 256 ^ (w + 1) = n % 256 ^ w + 256 ^ w * (n / 256 ^ w % 256) := by
      rw [pow_succ, Nat.mod_mul]
    simp only [toBE, List.foldl_cons, foldl_toBE w, UInt8.toNat_ofNat']
    rw [hsplit]
    ring

theorem ofBE_toBE_mod (w n : ℕ) : ofBE (toBE w n) = n % 256 ^ w := by
  simp [ofBE, foldl_toBE]

theorem ofBE_toBE {w n : ℕ} (h : n < 256 ^ w) : ofBE (toBE w n) = n := by
  rw [ofBE_toBE_mod, Nat.mod_eq_of_lt h]

theorem foldl_ofBE : ∀ (bs : Bytes) (acc : ℕ),
    bs.foldl (fun acc b => acc * 256 + b.toNat) acc = acc * 256 ^ bs.length + ofBE bs
  | [], acc => by simp [ofBE]
  | b :: bs, acc => by
    have hself : ofBE (b :: bs) = (0 * 256 + b.toNat) * 256 ^ bs.length + ofBE bs :=
      foldl_ofBE bs (0 * 256 + b.toNat)
    rw [hself, List.foldl_cons, foldl_ofBE bs, List.length_cons, pow_succ]
    ring

theorem ofBE_cons (b : UInt8) (bs : Bytes) :
    ofBE (b :: bs) = b.toNat * 256 ^ bs.length + ofBE bs := by
  have h : ofBE (b :: bs) = (0 * 256 + b.toNat) * 256 ^ bs.length + ofBE bs :=
    foldl_ofBE bs (0 * 256 + b.toNat)
  rw [h, Nat.zero_mul, Nat.zero_add]

theorem ofBE_lt : ∀ bs : Bytes, ofBE bs < 256 ^ bs.length
  | [] => by simp [ofBE]
  | b :: bs => by
    have hb : b.toNat < 256 := b.toNat_lt
    have hbs := ofBE_lt bs
    rw [ofBE_cons, List.length_cons, pow_succ]
    nlinarith

/-- `toBE w` reads its number modulo `256 ^ w` only. -/
theorem toBE_congr : ∀ {w n m : ℕ}, n % 256 ^ w = m % 256 ^ w → toBE w n = toBE w m
  | 0, _, _, _ => rfl
  | w + 1, n, m, h => by
    have hlow : n % 256 ^ w = m % 256 ^ w := by
      have hd : 256 ^ w ∣ 256 ^ (w + 1) := pow_dvd_pow 256 (Nat.le_succ w)
      rw [← Nat.mod_mod_of_dvd n hd, ← Nat.mod_mod_of_dvd m hd, h]
    have hhigh : n / 256 ^ w % 256 = m / 256 ^ w % 256 := by
      rw [pow_succ, Nat.mod_mul, Nat.mod_mul, hlow] at h
      exact Nat.eq_of_mul_eq_mul_left (by positivity) (Nat.add_left_cancel h)
    have hbyte : UInt8.ofNat (n / 256 ^ w) = UInt8.ofNat (m / 256 ^ w) := by
      rw [← UInt8.toNat_inj, UInt8.toNat_ofNat', UInt8.toNat_ofNat']
      exact hhigh
    rw [toBE, toBE, hbyte, toBE_congr hlow]

theorem toBE_ofBE : ∀ bs : Bytes, toBE bs.length (ofBE bs) = bs
  | [] => rfl
  | b :: bs => by
    have hpos : 0 < 256 ^ bs.length := by positivity
    have hdiv : (b.toNat * 256 ^ bs.length + ofBE bs) / 256 ^ bs.length = b.toNat := by
      rw [Nat.mul_comm, Nat.mul_add_div hpos, Nat.div_eq_of_lt (ofBE_lt bs), Nat.add_zero]
    have htail : toBE bs.length (b.toNat * 256 ^ bs.length + ofBE bs) =
        toBE bs.length (ofBE bs) := toBE_congr (Nat.mul_add_mod' _ _ _)
    rw [List.length_cons, toBE, ofBE_cons, hdiv, UInt8.ofNat_toNat, htail, toBE_ofBE bs]

end Paytp
