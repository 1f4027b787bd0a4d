import Paytp.Establish
import Paytp.Json
import Paytp.Lib.MachineInt

/-!
# Quotes

A signed quote: what a merchant asks for a resource, the vector that divides the meed, and the
offers, each the mirror of an entry of the payment envelope. It is read from the members that
arrived, and its signature is over those.
-/

namespace Paytp

def U32_MAX : ℕ := 2 ^ 32 - 1

def MAX_TIME : ℕ := 2 ^ 53 - 1

/-- An offer is a baseline offer if it has no two-leg terms. -/
structure Offer where
  /-- The mirrored entry of the envelope. -/
  accept : StrictValue
  finality : Option String
  /-- Where the merchant's part of a split goes. -/
  merchantNet : Option String
  twoLeg : Option StrictValue

structure Quote where
  v : String
  resource : String
  nonce : ByteArr 32
  exp : ℕ
  idem : Bytes
  schema : ℕ
  contract : ℕ
  registry : ℕ
  baseline : String
  grace : ℕ
  retry : ℕ
  vector : List VectorEntry
  offers : List Offer
  signature : Option (ByteArr 64)

/-- The names of networks in envelopes, and their chain identifiers. -/
def X402_NETWORKS : List (String × String) :=
  [("solana", "solana:5eykt4UsFv8P8NJdTREpY1vzqKqZKvdp"),
    ("solana-devnet", "solana:EtWTRABZaYq6iMfeYKouRu166VU2xqa1"),
    ("base", "eip155:8453"), ("base-sepolia", "eip155:84532"), ("avalanche", "eip155:43114"),
    ("avalanche-fuji", "eip155:43113"), ("polygon", "eip155:137"),
    ("polygon-amoy", "eip155:80002")]

def x402ToCaip2 (name : String) : Option String :=
  (X402_NETWORKS.find? fun p => p.1 == name).map Prod.snd

namespace Quote

variable (codec : TextCodec) (suite : Suite)

/-! ## Writing and signing -/

def vectorEntryValue (e : VectorEntry) : StrictValue :=
  .object [("role", .string (toString e.role.toNat)), ("bp", .string (toString e.bp.toNat)),
    ("dest", .string e.dest)]

def offerValue (o : Offer) : StrictValue :=
  .object ([("accept", o.accept)] ++
    (o.finality.map fun f => ("finality", .string f)).toList ++
    (o.merchantNet.map fun mn => ("merchantNet", .string mn)).toList ++
    (o.twoLeg.map fun tl => ("twoLeg", tl)).toList)

def toValue (q : Quote) (includeSig : Bool) : StrictValue :=
  .object (
    [("v", .string q.v), ("resource", .string q.resource),
      ("nonce", .string (codec.b64 q.nonce.toList)), ("exp", .string (toString q.exp)),
      ("idem", .string (codec.b64 q.idem)), ("schema", .string (toString q.schema)),
      ("contract", .string (toString q.contract)), ("registry", .string (toString q.registry)),
      ("baseline", .string q.baseline), ("grace", .string (toString q.grace)),
      ("retry", .string (toString q.retry)),
      ("vector", .array (q.vector.map vectorEntryValue)),
      ("offers", .array (q.offers.map offerValue))] ++
    (if includeSig then
      (q.signature.map fun s => ("signature", .string (codec.b64 s.toList))).toList
    else []))

def sign (q : Quote) (merchantSk : ByteArr 32) : Quote :=
  { q with
    signature := some
      (suite.ed25519Sign merchantSk (covered .reqs (Jcs.toJcs (toValue codec q false)))) }

/-- The document of a quote, as its text. -/
def toJson (q : Quote) : String := String.ofList (Jcs.writeJcs (toValue codec q true))

/-! ## Reading -/

/-- A text member that may be missing, but not be anything else. -/
def optionalStr (v : StrictValue) (key : String) : Option (Option String) :=
  match v.member key with
  | some w => w.asStr.map some
  | none => some none

def vectorEntryOf (item : StrictValue) : Option VectorEntry := do
  let role ← (item.memberStr "role").bind (Jcs.parseCanonical 255)
  let bp ← (item.memberStr "bp").bind (Jcs.parseCanonical 65535)
  let dest ← item.memberStr "dest"
  return { role := UInt8.ofNat role, bp := UInt16.ofNat bp, dest }

def offerOf (item : StrictValue) : Option Offer := do
  let accept ← item.member "accept"
  let finality ← optionalStr item "finality"
  let merchantNet ← optionalStr item "merchantNet"
  return { accept, finality, merchantNet, twoLeg := item.member "twoLeg" }

def arrayOf : StrictValue → Option (List StrictValue)
  | .array items => some items
  | _ => none

/-- Read the typed view of a quote. -/
def fromMembers (obj : StrictValue) : Option Quote := do
  let getUint (max : ℕ) (key : String) := (obj.memberStr key).bind (Jcs.parseCanonical max)
  let v ← obj.memberStr "v"
  if v != "1" then none
  let nonce ← ((obj.memberStr "nonce").bind codec.b64Decode).bind (ByteArr.ofBytes? 32)
  let idem ← (obj.memberStr "idem").bind codec.b64Decode
  if idem = [] ∨ idem.length > 64 then none
  let vector ← ((obj.member "vector").bind arrayOf).bind (·.mapM vectorEntryOf)
  let offers ← ((obj.member "offers").bind arrayOf).bind (·.mapM offerOf)
  let signature ← match obj.memberStr "signature" with
    | some s => ((codec.b64Decode s).bind (ByteArr.ofBytes? 64)).map some
    | none => some none
  return {
    v, nonce, idem, vector, offers, signature
    resource := ← obj.memberStr "resource"
    exp := ← getUint MAX_TIME "exp"
    schema := ← getUint U32_MAX "schema"
    contract := ← getUint U32_MAX "contract"
    registry := ← getUint U32_MAX "registry"
    baseline := ← obj.memberStr "baseline"
    grace := ← getUint MAX_TIME "grace"
    retry := ← getUint MAX_TIME "retry" }

/-- The members of a signed object but for its one signature, and the signature. -/
def signedMembers (value : StrictValue) : Option (StrictValue × ByteArr 64) :=
  match value with
  | .object members => do
    if (members.filter fun m => m.1 == "signature").length != 1 then none
    let sig ← ((value.memberStr "signature").bind codec.b64Decode).bind (ByteArr.ofBytes? 64)
    return (.object (members.filter fun m => m.1 != "signature"), sig)
  | _ => none

/-- Read a quote whose signature verifies over the members that arrived but for the signature. -/
def parseVerify (json : String) (merchantPk : ByteArr 32) : Option Quote := do
  let value ← codec.parseStrict json
  let (unsigned, sig) ← signedMembers codec value
  if !suite.ed25519VerifyStrict merchantPk (covered .reqs (Jcs.toJcs unsigned)) sig then none
  fromMembers codec value

variable (q : Quote)

/-- What the quote's split or its instance is derived from. -/
def addressInputs (merchantKey : ByteArr 32) (asset : String) (merchantNet : Option String) :
    AddressInputs where
  merchantKey
  asset
  schema := q.schema
  vector := q.vector
  contract := q.contract
  merchantNet

def validateVectorGoverned : Bool :=
  validateShapeSchema01 suite q.schema q.vector &&
    validateGovernedDestinations suite q.registry q.vector

/-- Every offer is for the quote's resource, and the baseline ones on the quote's network. -/
def validateOfferNetworks : Bool :=
  q.offers.all fun o =>
    o.accept.memberStr "resource" == some q.resource &&
      (o.twoLeg.isSome || (o.accept.memberStr "network").bind x402ToCaip2 == some q.baseline)

/-- Just the baseline offers say where the merchant's part goes. -/
def validateBaselineMerchantNet : Bool :=
  q.offers.all fun o =>
    match o.merchantNet with
    | some mn => o.twoLeg.isNone && suite.validateText mn
    | none => o.twoLeg.isSome

def validateTier0 : Bool :=
  q.validateVectorGoverned suite && q.validateOfferNetworks && q.validateBaselineMerchantNet suite

/-- The last moment at which finality is honoured. -/
def honorDeadline : ℕ := min U64_MAX (q.exp + q.grace)

end Quote

end Paytp
