import Paytp.Crypto

/-!
# Metering slices

A slice is a sequence number, an amount and a tag over both. Its transcript is the hash chain of
the slices accepted, in the order of their numbers.
-/

namespace Paytp

namespace Leb128

/-- The groups of seven bits from the lowest on; ten of them hold any 64-bit number. -/
def encodeGroups : ℕ → ℕ → Bytes
  | 0, _ => []
  | fuel + 1, v =>
    let byte := v % 128
    if v / 128 = 0 then [UInt8.ofNat byte]
    else UInt8.ofNat (byte + 128) :: encodeGroups fuel (v / 128)

def encode (n : ℕ) : Bytes := encodeGroups 10 n

end Leb128

namespace Tlv

structure Field where
  typeNum : UInt8
  critical : Bool
  value : Bytes
  deriving DecidableEq

def Field.typeByte (f : Field) : UInt8 := if f.critical then f.typeNum ||| 0x80 else f.typeNum

def Field.encode (f : Field) : Bytes :=
  f.typeByte :: (Leb128.encode f.value.length ++ f.value)

/-- The fields of an object, in ascending order of their types, as bytes. -/
def encode (fields : List Field) : Bytes := fields.flatMap Field.encode

end Tlv

/-- The highest sequence number a sender may mint. -/
def SEQ_MAX : ℕ := 2 ^ 63

/-- A slice as it is sealed or parsed: the number and the amount are in their domains. -/
structure Slice where
  seq : ℕ
  amtMicro : ℕ
  tag : ByteArr 16
  seq_le : seq ≤ SEQ_MAX
  amt_lt : amtMicro < 2 ^ 48
  deriving DecidableEq

namespace Slice

def contentFields (seq amtMicro : ℕ) : List Tlv.Field :=
  [⟨0x00, false, toBE 8 seq⟩, ⟨0x01, false, toBE 6 amtMicro⟩]

def coveredBytes (seq amtMicro : ℕ) : Bytes :=
  covered .slice (Tlv.encode (contentFields seq amtMicro))

def encode (s : Slice) : Bytes :=
  Tlv.encode (contentFields s.seq s.amtMicro ++ [⟨0x02, false, s.tag.toList⟩])

def verify (crypto : Crypto) (s : Slice) (kSession : ByteArr 32) : Bool :=
  crypto.sliceTagVerify (crypto.sliceSubkey kSession s.seq) (coveredBytes s.seq s.amtMicro) s.tag

end Slice

namespace Transcript

def head0 (crypto : Crypto) (channelId : ByteArr 8) : ByteArr 32 :=
  crypto.sha256 (Bytes.ofString "PayTPv1-transcript" ++ 0 :: channelId.toList)

def advance (crypto : Crypto) (prevHead : ByteArr 32) (sliceBytes : Bytes) : ByteArr 32 :=
  crypto.sha256 (prevHead.toList ++ sliceBytes)

end Transcript

end Paytp
