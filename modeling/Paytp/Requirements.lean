import Paytp.Quote

/-!
# Payment requirements

An entry of the payment envelope: what a plain client is asked to pay. An offer of a signed quote
holds the mirror of one, and the client of a quote executes only entries that an offer mirrors.
-/

namespace Paytp

/-- The name that a chain has in envelopes. -/
def caip2ToX402 (caip2 : String) : Option String :=
  (X402_NETWORKS.find? fun p => p.2 == caip2).map Prod.fst

structure PaymentRequirements where
  scheme : String
  /-- By its name in envelopes. -/
  network : String
  maxAmountRequired : String
  asset : String
  payTo : String
  resource : String
  description : String
  mimeType : String
  maxTimeoutSeconds : ℕ
  /-- The members of what is specific to a scheme. -/
  extra : Option (List (String × StrictValue))

namespace PaymentRequirements

variable (r : PaymentRequirements)

/-- The mirror of an entry, as an offer holds it. -/
def toStrict : StrictValue :=
  .object ([("scheme", .string r.scheme), ("network", .string r.network),
    ("maxAmountRequired", .string r.maxAmountRequired), ("asset", .string r.asset),
    ("payTo", .string r.payTo), ("resource", .string r.resource),
    ("description", .string r.description), ("mimeType", .string r.mimeType),
    ("maxTimeoutSeconds", .number (toString r.maxTimeoutSeconds))] ++
    (r.extra.map fun members => ("extra", .object members)).toList)

/-- A number of 64 bits, which is no text. -/
def timeoutOf : StrictValue → Option ℕ
  | .number text => Jcs.parseCanonical U64_MAX text
  | _ => none

/-- What is specific to a scheme may be missing, but not be anything else than an object. -/
def extraOf (v : StrictValue) : Option (Option (List (String × StrictValue))) :=
  match v.member "extra" with
  | none => some none
  | some (.object members) => some (some members)
  | some _ => none

/-- The entry that a mirror is one of; members that entries do not have are passed over. -/
def fromStrict (v : StrictValue) : Option PaymentRequirements := do
  let scheme ← v.memberStr "scheme"
  let network ← v.memberStr "network"
  let maxAmountRequired ← v.memberStr "maxAmountRequired"
  let asset ← v.memberStr "asset"
  let payTo ← v.memberStr "payTo"
  let resource ← v.memberStr "resource"
  let description ← v.memberStr "description"
  let mimeType ← v.memberStr "mimeType"
  let maxTimeoutSeconds ← (v.member "maxTimeoutSeconds").bind timeoutOf
  let extra ← extraOf v
  return { scheme, network, maxAmountRequired, asset, payTo, resource, description, mimeType
           maxTimeoutSeconds, extra }

/-- The canonical text of what is specific to a scheme, in which the order of members is none. -/
def extraText : Option (List Char) := r.extra.map fun members => Jcs.writeJcs (.object members)

/-- Equality of entries, whatever the order of the members of what is specific to a scheme. -/
def same (a b : PaymentRequirements) : Bool :=
  a.scheme == b.scheme && a.network == b.network &&
    a.maxAmountRequired == b.maxAmountRequired && a.asset == b.asset && a.payTo == b.payTo &&
    a.resource == b.resource && a.description == b.description && a.mimeType == b.mimeType &&
    a.maxTimeoutSeconds == b.maxTimeoutSeconds && a.extraText == b.extraText

end PaymentRequirements

/-- Is the offer's mirror one of the entry? -/
def Offer.mirrors (o : Offer) (entry : PaymentRequirements) : Bool :=
  (PaymentRequirements.fromStrict o.accept).any fun m => m.same entry

/-- The entries of an envelope that an offer mirrors, by their positions, each with the first such
offer. -/
def paytpMirroredAccepts (accepts : List PaymentRequirements) (quote : Quote) :
    List (ℕ × Offer) :=
  accepts.zipIdx.filterMap fun p =>
    (quote.offers.find? fun o => o.mirrors p.1).map fun o => (p.2, o)

end Paytp
