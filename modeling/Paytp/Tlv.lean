import Paytp.Lib.Codec
import Paytp.Wire

/-!
# Decoding

The decoders of the wire values: lengths, objects, integers, counted lists and framed bodies. A
deviation from the canonical form is rejected, never repaired.
-/

namespace Paytp

/-- `Error`, as far as the wire values raise it. The errors of texts are one, and so are those of
identifiers and pointers. -/
inductive WireError
  | lebTruncated
  | lebTooLarge
  | lebOverlong
  | trailingBytes
  | lengthOverrun
  | duplicateType
  | typeOrder
  | nonMinimalInt
  | nonMinimalSignedInt
  | fieldDomain
  | countMismatch
  | framing
  | missingField
  | wrongWidth
  | textInvalid
  | grammar
  | wrongCriticality
  | unknownAuthenticator
  | unknownCritical
  | unexpectedType
  deriving DecidableEq, Repr

namespace Leb128

def MAX : ℕ := 2 ^ 32 - 1

/-- The groups from the `i`-th on, `result` being what the ones before it add up to. -/
def decodeGroups : ℕ → ℕ → Bytes → Except WireError (ℕ × ℕ)
  | _, _, [] => .error .lebTruncated
  | i, result, b :: rest =>
    if i ≥ 5 then .error .lebTooLarge
    else
      let low := (b &&& 0x7f).toNat
      let result := result ||| low <<< (7 * i)
      if b &&& 0x80 = 0 then
        if i > 0 ∧ low = 0 then .error .lebOverlong
        else if result > MAX then .error .lebTooLarge
        else .ok (result, i + 1)
      else decodeGroups (i + 1) result rest

def decode (buf : Bytes) : Except WireError (ℕ × ℕ) := decodeGroups 0 0 buf

end Leb128

namespace Tlv

/-! ## Objects -/

/-- A field off the front: its type byte, the length and the value. The length is below 2³², so
that its end does not overflow. -/
def decodeField : Bytes → Except WireError (Field × ℕ)
  | [] => .error .lengthOverrun
  | typeByte :: buf => do
    let critical := typeByte &&& 0x80 != 0
    let typeNum := typeByte &&& 0x7f
    let (value, used) ← lengthPrefixed Leb128.decode .lengthOverrun buf
    return (⟨typeNum, critical, value⟩, 1 + used)

/-- The order of a field after the ones before it. -/
def checkOrder (fields : List Field) (field : Field) : Except WireError Unit :=
  match fields.getLast? with
  | none => .ok ()
  | some prev =>
    if field.typeNum = prev.typeNum then .error .duplicateType
    else if field.typeNum < prev.typeNum then .error .typeOrder
    else .ok ()

/-- `0x70` to `0x7f`, and what the object names beyond them. -/
def Field.isAuthenticator (extra : List UInt8) (field : Field) : Bool :=
  (0x70 ≤ field.typeNum && field.typeNum ≤ 0x7f) || extra.contains field.typeNum

structure Object where
  fields : List Field
  deriving DecidableEq

namespace Object

/-- Sort the fields and refuse two of one type. -/
def fromFields (fields : List Field) : Except WireError Object :=
  let fields := fields.mergeSort fun f g => f.typeNum ≤ g.typeNum
  if (fields.zip fields.tail).any fun w => w.1.typeNum == w.2.typeNum then .error .duplicateType
  else .ok ⟨fields⟩

/-- Fields until the bytes are used up. -/
def parse (buf : Bytes) : Except WireError Object := do
  return ⟨← consumeAll decodeField checkOrder .lengthOverrun buf.length [] buf⟩

def encode (o : Object) : Bytes := o.fields.foldl (fun out f => out ++ f.encode) []

/-- The fields that no authenticator holds. -/
def coveredBytes (extra : List UInt8) (o : Object) : Bytes :=
  o.fields.foldl (fun out f => if f.isAuthenticator extra then out else out ++ f.encode) []

end Object

/-! ## Schemas -/

inductive Openness
  | «open»
  | closed
  deriving DecidableEq

/-- The types an object knows, and which of them are critical. -/
structure Schema where
  openness : Openness
  known : List (UInt8 × Bool)

/-- The schema of an object that admits these types only, none of them critical. -/
def Schema.closed (types : List UInt8) : Schema := ⟨.closed, types.map fun t => (t, false)⟩

def Schema.admits (schema : Schema) (field : Field) : Except WireError Unit :=
  match schema.known.lookup field.typeNum with
  | some critical => require (critical == field.critical) .wrongCriticality
  | none =>
    if 0x70 ≤ field.typeNum ∧ field.typeNum ≤ 0x7f then .error .unknownAuthenticator
    else if field.critical then .error .unknownCritical
    else if schema.openness = .closed then .error .unexpectedType
    else .ok ()

namespace Object

def validate (o : Object) (schema : Schema) : Except WireError Unit := o.fields.forM schema.admits

/-- The value of the field of a type. -/
def get (o : Object) (typeNum : UInt8) : Option Bytes :=
  (o.fields.find? fun f => f.typeNum == typeNum).map Field.value

/-- Read a field that has to be there. -/
def required {α : Type} (o : Object) (typeNum : UInt8) (read : Bytes → Except WireError α) :
    Except WireError α := do
  read (← okOr (o.get typeNum) .missingField)

/-- Read a field that may be there. -/
def optional {α : Type} (o : Object) (typeNum : UInt8) (read : Bytes → Except WireError α) :
    Except WireError (Option α) :=
  match o.get typeNum with
  | none => .ok none
  | some value => some <$> read value

end Object

/-! ## Texts and arrays -/

def fixed (n : ℕ) (value : Bytes) : Except WireError (ByteArr n) :=
  okOr (ByteArr.ofBytes? n value) .wrongWidth

/-- The text that bytes are. -/
def decodeUtf8 (value : Bytes) : Except WireError String :=
  okOr (Bytes.toString? value) .textInvalid

/-- The text that bytes are, where it is valid. -/
def decodeText (validateText : String → Bool) (value : Bytes) : Except WireError String := do
  let s ← okOr (Bytes.toString? value) .textInvalid
  require (validateText s) .textInvalid
  return s

/-! ## Integers -/

def validateMinimalUint : Bytes → Except WireError Unit
  | [] => .error .nonMinimalInt
  | [0x00] => .ok ()
  | 0x00 :: _ => .error .nonMinimalInt
  | _ => .ok ()

def decodeUintBiguint (bytes : Bytes) : Except WireError ℕ := do
  validateMinimalUint bytes
  return ofBE bytes

/-- A minimal unsigned integer no greater than `max`. -/
def decodeUintMax (max : ℕ) (bytes : Bytes) : Except WireError ℕ := do
  let v ← decodeUintBiguint bytes
  if v ≤ max then return v else throw .fieldDomain

def decodeUintU128 : Bytes → Except WireError ℕ := decodeUintMax (2 ^ 128 - 1)

def decodeUintU64 : Bytes → Except WireError ℕ := decodeUintMax (2 ^ 64 - 1)

def decodeUintU32 : Bytes → Except WireError ℕ := decodeUintMax (2 ^ 32 - 1)

/-- Times and durations stop at 2⁵³ - 1. -/
def decodeUintTime : Bytes → Except WireError ℕ := decodeUintMax (2 ^ 53 - 1)

/-- The sixteen bytes of a `u128`, from the first that is not zero on. -/
def encodeUintU128 (v : ℕ) : Bytes :=
  if v = 0 then [0x00] else (toBE 16 v).dropWhile (· == 0)

def decodeSint (bytes : Bytes) : Except WireError ℤ :=
  match bytes with
  | [] => .error .nonMinimalSignedInt
  | first :: rest =>
    let redundant := match rest with
      | [] => false
      | second :: _ =>
        (first == 0x00 && second &&& 0x80 == 0) || (first == 0xff && second &&& 0x80 != 0)
    if redundant then .error .nonMinimalSignedInt
    else
      let mag : ℤ := ofBE bytes
      if first &&& 0x80 ≠ 0 then .ok (mag - 2 ^ (8 * bytes.length)) else .ok mag

/-- A signed integer that an `i128` holds. -/
def decodeSintI128 (bytes : Bytes) : Except WireError ℤ := do
  let v ← decodeSint bytes
  if -2 ^ 127 ≤ v ∧ v < 2 ^ 127 then return v else throw .fieldDomain

def encodeSintI128 (v : ℤ) : Bytes := encodeSint v

/-! ## Items off the front -/

def readByte : Bytes → Except WireError (UInt8 × ℕ)
  | [] => .error .countMismatch
  | b :: _ => .ok (b, 1)

/-- A number of `w` bytes. -/
def readBE (w : ℕ) (buf : Bytes) : Except WireError (ℕ × ℕ) := do
  require (w ≤ buf.length) .countMismatch
  return (ofBE (buf.take w), w)

def readLp : Bytes → Except WireError (Bytes × ℕ) := lengthPrefixed Leb128.decode .lengthOverrun

def readLpText (validateText : String → Bool) : Bytes → Except WireError (String × ℕ) :=
  inside readLp (decodeText validateText)

def readLpUint : Bytes → Except WireError (ℕ × ℕ) := inside readLp decodeUintU128

/-! ## Counted lists and framed bodies -/

/-- The count consumes the value exactly. -/
def parseCountPrefixed {α : Type} (value : Bytes) (parseItem : Bytes → Except WireError (α × ℕ)) :
    Except WireError (List α) := do
  let (count, used) ← Leb128.decode value
  let (out, rest) ← takeCount parseItem .countMismatch count (value.drop used)
  if rest ≠ [] then throw .countMismatch else return out

def frameObjects (objects : List Bytes) : Bytes :=
  objects.foldl (fun out obj => out ++ (Leb128.encode obj.length ++ obj)) []

def decodeFrame : Bytes → Except WireError (Bytes × ℕ) :=
  lengthPrefixed (fun rest => (Leb128.decode rest).mapError fun _ => .framing) .framing

/-- Frames until the body is used up, each of a valid object. -/
def parseFrames (body : Bytes) (validate : Bytes → Except WireError Unit) :
    Except WireError (List Bytes) :=
  consumeAll decodeFrame (fun _ obj => (validate obj).mapError fun _ => .framing) .framing
    body.length [] body

end Tlv

end Paytp
