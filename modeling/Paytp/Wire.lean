import Mathlib.Data.Nat.Digits.Defs
import Paytp.Slice

/-!
# Wire values

Minimal integers, length-prefixed strings and counted lists, as the values of object fields.
-/

namespace Paytp

namespace Tlv

/-- A minimal unsigned big-endian integer. -/
def encodeUint (v : ℕ) : Bytes :=
  if v = 0 then [0x00] else ((Nat.digits 256 v).map UInt8.ofNat).reverse

/-- The least width from `k` on whose two's complement holds the negative `n`. -/
def sintWidth (n : ℤ) : ℕ → ℕ → ℕ
  | 0, k => k
  | fuel + 1, k => if n ≥ -2 ^ (8 * k - 1) then k else sintWidth n fuel (k + 1)

/-- A minimal two's-complement integer. -/
def encodeSint (n : ℤ) : Bytes :=
  if n = 0 then [0x00]
  else if n > 0 then
    let be := encodeUint n.natAbs
    if 0x80 ≤ be.headD 0 then 0x00 :: be else be
  else
    let k := sintWidth n n.natAbs 1
    toBE k (2 ^ (8 * k) + n).toNat

def buildCountPrefixed (items : List Bytes) : Bytes := Leb128.encode items.length ++ items.flatten

/-- A string of bytes behind its length. -/
def pushLp (bytes : Bytes) : Bytes := Leb128.encode bytes.length ++ bytes

/-- A field holding the bytes of a string. -/
def Field.text (typeNum : UInt8) (s : String) : Field := ⟨typeNum, false, Bytes.ofString s⟩

/-- A field holding a minimal unsigned integer. -/
def Field.uint (typeNum : UInt8) (v : ℕ) : Field := ⟨typeNum, false, encodeUint v⟩

/-- A field holding an array. -/
def Field.array {n : ℕ} (typeNum : UInt8) (a : ByteArr n) : Field := ⟨typeNum, false, a.toList⟩

/-- A field that is there when its value is. -/
def Field.optional {α : Type} (field : α → Field) (value : Option α) : List Field :=
  (value.map field).toList

example : encodeSint (-129) = [0xff, 0x7f] := by decide

end Tlv

end Paytp
