import Paytp.Instance
import Paytp.Kit.Program

/-!
# What a name is derived from

The preimages that the host hashes to name a split, a meed instance, a purchase entry, a claim
record and the net leg of a round, and the parts that the program hashes for the same names. A
derivation is a position that is named; two of them are the same if they differ in the order of
the meed vector only.
-/

namespace Paytp

/-! ## The program's derivations -/

namespace Kit

/-- The hash of some parts, one behind the other. -/
def hashv (crypto : Crypto) (parts : List Bytes) : ByteArr 32 := crypto.sha256 parts.flatten

def seedInstanceParts (canonicalBytes : Bytes) : List Bytes :=
  [Bytes.ofString "PayTPv1-instance", [0x00], canonicalBytes]

def deriveSeedInstance (crypto : Crypto) (canonicalBytes : Bytes) : ByteArr 32 :=
  hashv crypto (seedInstanceParts canonicalBytes)

def seedSplitParts (canonicalBytes : Bytes) : List Bytes :=
  [Bytes.ofString "PayTPv1-split", [0x00], canonicalBytes]

def deriveSeedSplit (crypto : Crypto) (canonicalBytes : Bytes) : ByteArr 32 :=
  hashv crypto (seedSplitParts canonicalBytes)

def entryIdParts (seedInstance nonce : ByteArr 32) (amount tOpen tLapse contest : ℕ) :
    List Bytes :=
  [Bytes.ofString "PayTPv1-entry", [0x00], seedInstance.toList, nonce.toList, toBE 16 amount,
    toBE 8 tOpen, toBE 8 tLapse, toBE 8 contest]

def claimRecordIdParts (seedInstance : ByteArr 32) (channelId : ByteArr 8)
    (ckptRef : ByteArr 32) (p : ℕ) : List Bytes :=
  [Bytes.ofString "PayTPv1-entry", [0x00], seedInstance.toList, channelId.toList,
    ckptRef.toList, toBE 16 p]

def deriveClaimRecordId (crypto : Crypto) (seedInstance : ByteArr 32) (channelId : ByteArr 8)
    (ckptRef : ByteArr 32) (p : ℕ) : ByteArr 32 :=
  hashv crypto (claimRecordIdParts seedInstance channelId ckptRef p)

end Kit

/-! ## The host's derivations -/

/-- What `labelledHash` hashes. -/
def labelled (label : String) (body : Bytes) : Bytes := Bytes.ofString label ++ 0x00 :: body

def entryIdBody (seedInstance nonce : ByteArr 32) (amt tOpen tLapse contest : ℕ) : Bytes :=
  seedInstance.toList ++ nonce.toList ++ toBE 16 amt ++ toBE 8 tOpen ++ toBE 8 tLapse ++
    toBE 8 contest

def claimRecordIdBody (seedInstance : ByteArr 32) (channelId : ByteArr 8) (ckptRef : ByteArr 32)
    (p : ℕ) : Bytes :=
  seedInstance.toList ++ channelId.toList ++ ckptRef.toList ++ toBE 16 p

def settlementNetMemoBody (channelId : ByteArr 8) (ckptRef : ByteArr 32) : Bytes :=
  channelId.toList ++ ckptRef.toList

/-- The same inputs, but for the order of the vector. -/
structure AddressInputs.Same (inputs inputs' : AddressInputs) : Prop where
  merchantKey : inputs.merchantKey = inputs'.merchantKey
  asset : inputs.asset = inputs'.asset
  schema : inputs.schema = inputs'.schema
  vector : inputs.vector.Perm inputs'.vector
  contract : inputs.contract = inputs'.contract
  merchantNet : inputs.merchantNet = inputs'.merchantNet

/-- A position that a name is derived for. -/
inductive Derivation
  | split (inputs : AddressInputs)
  | meedInstance (inputs : AddressInputs)
  | entry (seedInstance nonce : ByteArr 32) (amt : Fin (2 ^ 128)) (tOpen tLapse contest : UInt64)
  | claim (seedInstance : ByteArr 32) (channelId : ByteArr 8) (ckptRef : ByteArr 32)
      (p : Fin (2 ^ 128))
  | net (channelId : ByteArr 8) (ckptRef : ByteArr 32)
  deriving DecidableEq

namespace Derivation

def label : Derivation → String
  | split _ => "PayTPv1-split"
  | meedInstance _ => "PayTPv1-instance"
  | entry .. | claim .. => "PayTPv1-entry"
  | net .. => "PayTPv1-net"

variable (suite : Suite)

/-- A split names its merchant's destination, a meed instance has none. -/
def body : Derivation → Option Bytes
  | split inputs => if inputs.merchantNet.isNone then none else inputs.canonicalBytes suite
  | meedInstance inputs => if inputs.merchantNet.isSome then none else inputs.canonicalBytes suite
  | entry seedInstance nonce amt tOpen tLapse contest =>
    some (entryIdBody seedInstance nonce amt tOpen.toNat tLapse.toNat contest.toNat)
  | claim seedInstance channelId ckptRef p =>
    some (claimRecordIdBody seedInstance channelId ckptRef p)
  | net channelId ckptRef => some (settlementNetMemoBody channelId ckptRef)

def preimage (d : Derivation) : Option Bytes := (d.body suite).map (labelled d.label)

/-- The address or the record name. -/
def name (d : Derivation) : Option (ByteArr 32) := (d.preimage suite).map suite.sha256

/-- The same position. -/
def Same : Derivation → Derivation → Prop
  | split inputs, split inputs' => inputs.Same inputs'
  | meedInstance inputs, meedInstance inputs' => inputs.Same inputs'
  | d, d' => d = d'

end Derivation

end Paytp
