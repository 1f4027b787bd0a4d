import Paytp.Signing
import Paytp.Tlv

/-!
# Registry snapshots

The signed snapshot of the role registry: the open-source recipients, the versions revoked and the
rate sources. How it is signed, written and read under the key of the foundation.
-/

namespace Paytp

/-- A lowercase letter or a digit. -/
def isAlnum (c : UInt8) : Bool := (0x61 ≤ c && c ≤ 0x7a) || (0x30 ≤ c && c ≤ 0x39)

/-- No more than 64 letters, digits, hyphens and points, a letter or a digit at both ends. -/
def validateIdentifier (s : String) : Bool :=
  let b := Bytes.ofString s
  match b.head?, b.getLast? with
  | some first, some last =>
    decide (b.length ≤ 64) && isAlnum first && isAlnum last &&
      b.all fun c => isAlnum c || c == 0x2d || c == 0x2e
  | _, _ => false

inductive Kind
  | rotation
  | revocation
  deriving DecidableEq, Repr

/-- A snapshot does not parse, or its signature does not verify. -/
inductive SnapshotError
  | wire (e : WireError)
  | signature
  deriving DecidableEq, Repr

structure Snapshot where
  version : ℕ
  kind : Kind
  issued : ℕ
  windowFloor : ℕ
  /-- The identifiers of the recipients, ascending, and where each is paid. -/
  osRecipients : List (String × String)
  /-- Ascending; there on a revocation only. -/
  revoked : List ℕ
  /-- The identifiers of the sources, ascending, and where each is found. -/
  rateSources : List (String × String)
  sig : ByteArr 64
  deriving DecidableEq

namespace Snapshot

/-- The types of the fields, none of them critical. -/
def knownTypes : List UInt8 := [0x00, 0x01, 0x02, 0x03, 0x04, 0x05, 0x06, 0x70]

def snapshotSchema : Tlv.Schema := ⟨.open, knownTypes.map fun t => (t, false)⟩

def encodeIdValue (item : String × String) : Bytes :=
  Tlv.pushLp (Bytes.ofString item.1) ++ Tlv.pushLp (Bytes.ofString item.2)

def parseIdValue : Bytes → Except WireError ((String × String) × ℕ) :=
  both (inside Tlv.readLp Tlv.decodeUtf8) (inside Tlv.readLp Tlv.decodeUtf8)

def encodeKind : Kind → Bytes
  | .rotation => [0x00]
  | .revocation => [0x01]

def decodeKind : Bytes → Except WireError Kind
  | [0x00] => .ok .rotation
  | [0x01] => .ok .revocation
  | _ => .error .fieldDomain

/-! ## Writing and signing -/

def coveredBytes (obj : Tlv.Object) : Bytes := covered .registry (obj.coveredBytes [])

/-- The fields in the order they are pushed, the revoked versions last. -/
def contentFields (s : Snapshot) : List Tlv.Field :=
  [.uint 0x00 s.version, ⟨0x01, false, encodeKind s.kind⟩, .uint 0x02 s.issued,
    .uint 0x03 s.windowFloor,
    ⟨0x04, false, Tlv.buildCountPrefixed (s.osRecipients.map encodeIdValue)⟩,
    ⟨0x06, false, Tlv.buildCountPrefixed (s.rateSources.map encodeIdValue)⟩] ++
  (if s.kind = .revocation then
    [⟨0x05, false, Tlv.buildCountPrefixed (s.revoked.map Leb128.encode)⟩]
  else [])

def toObject (s : Snapshot) (includeSig : Bool) : Except WireError Tlv.Object :=
  Tlv.Object.fromFields (s.contentFields ++ if includeSig then [.array 0x70 s.sig] else [])

def sign (suite : Suite) (s : Snapshot) (foundationSk : ByteArr 32) :
    Except WireError Snapshot := do
  let obj ← s.toObject false
  return { s with sig := suite.ed25519Sign foundationSk (coveredBytes obj) }

def encode (s : Snapshot) : Except WireError Bytes := do
  return (← s.toObject true).encode

/-! ## Reading -/

def checkAscendingIds (items : List (String × String)) : Bool :=
  decide (items.IsChain fun a b => Bytes.ofString a.1 < Bytes.ofString b.1)

/-- Revoked versions, each of 32 bits, ascending. -/
def decodeRevoked (value : Bytes) : Except WireError (List ℕ) := do
  let list ← Tlv.parseCountPrefixed value
    (onlyItem (fun v => decide (v ≤ 2 ^ 32 - 1)) .fieldDomain Leb128.decode)
  require (decide (list.IsChain (· < ·))) .typeOrder
  return list

/-- The revoked versions are there on a revocation, and on nothing else. -/
def parseRevoked (obj : Tlv.Object) (kind : Kind) : Except WireError (List ℕ) :=
  match obj.get 0x05 with
  | some value => do
    require (kind == .revocation) .unexpectedType
    decodeRevoked value
  | none => do
    require (kind != .revocation) .missingField
    return []

variable (suite : Suite)

def checkRecipient (item : String × String) : Except WireError Unit := do
  require (validateIdentifier item.1) .grammar
  require (suite.parsePointer item.2 == some true) .grammar

def checkRateSource (item : String × String) : Except WireError Unit := do
  require (validateIdentifier item.1) .grammar
  require (suite.validateText item.2) .textInvalid

/-- The snapshot that an object holds. -/
def ofObject (obj : Tlv.Object) : Except WireError Snapshot := do
  obj.validate snapshotSchema
  let version ← obj.required 0x00 Tlv.decodeUintU32
  let kind ← obj.required 0x01 decodeKind
  let issued ← obj.required 0x02 Tlv.decodeUintTime
  let windowFloor ← obj.required 0x03 Tlv.decodeUintU32
  let osRecipients ← obj.required 0x04 fun value => Tlv.parseCountPrefixed value parseIdValue
  require (checkAscendingIds osRecipients) .typeOrder
  osRecipients.forM (checkRecipient suite)
  let revoked ← parseRevoked obj kind
  let rateSources ← obj.required 0x06 fun value => Tlv.parseCountPrefixed value parseIdValue
  require (checkAscendingIds rateSources) .typeOrder
  rateSources.forM (checkRateSource suite)
  let sig ← obj.required 0x70 (Tlv.fixed 64)
  return { version, kind, issued, windowFloor, osRecipients, revoked, rateSources, sig }

/-- Read a snapshot whose signature verifies over everything that arrived but for the signature. -/
def parseVerify (buf : Bytes) (foundationKey : ByteArr 32) : Except SnapshotError Snapshot := do
  let obj ← (Tlv.Object.parse buf).mapError .wire
  let s ← (ofObject suite obj).mapError .wire
  require (suite.ed25519VerifyStrict foundationKey (coveredBytes obj) s.sig) .signature
  return s

end Snapshot

end Paytp
