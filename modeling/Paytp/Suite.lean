import Mathlib.Data.List.Sort
import Paytp.Wire

/-!
# Signatures, text grammars and derived identifiers

The signature scheme, the seal and the grammars of texts and pointers are given from outside, as
is the registry the governed destinations are looked up in. What is hashed to derive a key, an
address or a record name follows the protocol.
-/

namespace Paytp

/-- The checks on texts and pointers. -/
structure Grammar where
  validateText : String → Bool
  /-- An asset identifier; the flag admits the adapter form. -/
  isAssetId : String → Bool → Bool
  isCaip2 : String → Bool
  isRailId : String → Bool
  /-- Parse a destination pointer: whether it is the chain form. -/
  parsePointer : String → Option Bool

/-- What the registry says about the open-source destination of a vector. -/
structure Registry where
  governanceReady : Bool
  osDestinationAccepted : ℕ → String → Bool
  devFundDest : String

structure Suite extends Crypto, Grammar, Registry where
  ed25519Public : ByteArr 32 → ByteArr 32
  ed25519Sign : ByteArr 32 → Bytes → ByteArr 64
  ed25519VerifyStrict : ByteArr 32 → Bytes → ByteArr 64 → Bool
  x25519KeypairFromSeed : ByteArr 32 → ByteArr 32 × ByteArr 32
  /-- Open a seal with the recipient's secret over the authenticated content. -/
  openSessionSecret : ByteArr 32 → Bytes → Bytes → Option (ByteArr 32)

namespace Suite

variable (suite : Suite)

def hCommit (s : ByteArr 32) : ByteArr 32 :=
  suite.sha256 (Bytes.ofString "PayTPv1-hs" ++ s.toList)

def bindSalt (payerKey merchantKey : ByteArr 32) : ByteArr 32 :=
  suite.sha256 (payerKey.toList ++ merchantKey.toList)

def kSession (s salt : ByteArr 32) (channelId : ByteArr 8) : ByteArr 32 :=
  suite.hkdfSha256 s.toList salt.toList (Bytes.ofString "PayTPv1-slice" ++ channelId.toList)

def labelledHash (label : String) (body : Bytes) : ByteArr 32 :=
  suite.sha256 (Bytes.ofString label ++ 0x00 :: body)

def claimRecordId (seedInstance : ByteArr 32) (channelId : ByteArr 8) (ckptRef : ByteArr 32)
    (p : ℕ) : ByteArr 32 :=
  suite.labelledHash "PayTPv1-entry"
    (seedInstance.toList ++ channelId.toList ++ ckptRef.toList ++ toBE 16 p)

def settlementNetMemo (channelId : ByteArr 8) (ckptRef : ByteArr 32) : ByteArr 32 :=
  suite.labelledHash "PayTPv1-net" (channelId.toList ++ ckptRef.toList)

/-- Verify a signature that may be missing over content that may be refused. -/
def verifySigned (key : ByteArr 32) (label : DomainLabel) (content : Option (List Tlv.Field))
    (sig : Option (ByteArr 64)) : Bool :=
  match content, sig with
  | some fields, some sig =>
    suite.ed25519VerifyStrict key (covered label (Tlv.encode fields)) sig
  | _, _ => false

end Suite

/-- A role of the meed vector, its basis points and where its share goes. -/
structure VectorEntry where
  role : UInt8
  bp : UInt16
  dest : String
  deriving DecidableEq

namespace VectorEntry

def encodeItem (e : VectorEntry) : Bytes :=
  e.role :: (toBE 2 e.bp.toNat ++ Tlv.pushLp (Bytes.ofString e.dest))

/-- A stable sort by role. -/
def sortByRole (vector : List VectorEntry) : List VectorEntry :=
  vector.insertionSort fun a b => a.role ≤ b.role

end VectorEntry

/-- What the address of a split or of a meed instance is derived from. -/
structure AddressInputs where
  merchantKey : ByteArr 32
  asset : String
  schema : ℕ
  vector : List VectorEntry
  contract : ℕ
  merchantNet : Option String
  deriving DecidableEq

namespace AddressInputs

variable (suite : Suite) (inputs : AddressInputs)

def canonicalBytes : Option Bytes :=
  if !suite.validateText inputs.asset then none
  else if !decide ((inputs.vector.map VectorEntry.role).Nodup) then none
  else
    let sorted := VectorEntry.sortByRole inputs.vector
    if !sorted.all (fun e => suite.validateText e.dest) then none
    else if !inputs.merchantNet.all suite.validateText then none
    else some (Tlv.encode (
      [.array 0x00 inputs.merchantKey, .text 0x01 inputs.asset, .uint 0x02 inputs.schema,
        ⟨0x03, false, Tlv.buildCountPrefixed (sorted.map VectorEntry.encodeItem)⟩,
        .uint 0x04 inputs.contract] ++ Tlv.Field.optional (.text 0x05) inputs.merchantNet))

def seedSplit : Option (ByteArr 32) :=
  if inputs.merchantNet.isNone then none
  else (inputs.canonicalBytes suite).map (suite.labelledHash "PayTPv1-split")

def seedInstance : Option (ByteArr 32) :=
  if inputs.merchantNet.isSome then none
  else (inputs.canonicalBytes suite).map (suite.labelledHash "PayTPv1-instance")

end AddressInputs

end Paytp
