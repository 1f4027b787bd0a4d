import Paytp.Registry

/-!
# Role assertions

The header in which an interaction layer names the destinations and the open-source recipient of a
purchase, how it assembles its own, and which ones it relays.
-/

namespace Paytp

/-- A pointer, or the identifier of a recipient for the open-source role. -/
structure RoleAssertion where
  role : UInt8
  value : String
  deriving DecidableEq

structure Roles where
  items : List RoleAssertion
  deriving DecidableEq

namespace Roles

def encodeItem (a : RoleAssertion) : Bytes := a.role :: Tlv.pushLp (Bytes.ofString a.value)

def encode (r : Roles) : Except WireError Bytes := do
  let obj ← Tlv.Object.fromFields
    [⟨0x00, false, Tlv.buildCountPrefixed (r.items.map encodeItem)⟩]
  return obj.encode

def parseItem : Bytes → Except WireError (RoleAssertion × ℕ) :=
  mapItem (fun (role, value) => { role, value })
    (both Tlv.readByte (inside Tlv.readLp Tlv.decodeUtf8))

/-- Roles that the schema does not price are not looked into. -/
def checkValue (suite : Suite) (a : RoleAssertion) : Except WireError Unit :=
  if a.role = ROLE_INTERACTION_LAYER ∨ a.role = ROLE_WALLET then
    require (suite.parsePointer a.value).isSome .grammar
  else if a.role = ROLE_OS then require (validateIdentifier a.value) .grammar
  else .ok ()

/-- At most one assertion for a role, by ascending role. -/
def parse (suite : Suite) (buf : Bytes) : Except WireError Roles := do
  let obj ← Tlv.Object.parse buf
  obj.validate (.closed [0x00])
  let items ← obj.required 0x00 fun value => Tlv.parseCountPrefixed value parseItem
  require (decide (items.IsChain fun a b => a.role < b.role)) .typeOrder
  items.forM (checkValue suite)
  return { items }

variable (r : Roles)

/-- The value that is asserted for a role. -/
def asserted (role : UInt8) : Option String :=
  (r.items.find? fun a => a.role == role).map RoleAssertion.value

def assertedOs : Option String := r.asserted ROLE_OS

def assertedIl : Option String := r.asserted ROLE_INTERACTION_LAYER

def assertedWallet : Option String := r.asserted ROLE_WALLET

end Roles

/-- What an interaction layer asserts of itself, of its platform and of the wallet it drives. -/
def assembleRoles (ilDest : String) (osIdentifier walletDest : Option String) : Roles where
  items :=
    ([⟨ROLE_INTERACTION_LAYER, ilDest⟩] ++ (osIdentifier.map fun os => ⟨ROLE_OS, os⟩).toList ++
      (walletDest.map fun w => ⟨ROLE_WALLET, w⟩).toList : List RoleAssertion).mergeSort
        fun a b => a.role ≤ b.role

inductive RelayError
  | foreignInteractionLayer
  | osAssertionContradictsPlatform
  deriving DecidableEq, Repr

/-- An interaction layer with its destination, and the platform that it runs on, if it knows it. -/
structure InteractionLayer where
  ilDest : String
  platformOs : Option String
  deriving DecidableEq

namespace InteractionLayer

variable (il : InteractionLayer)

def roles (walletDest : Option String) : Roles := assembleRoles il.ilDest il.platformOs walletDest

def checkItem (a : RoleAssertion) : Except RelayError Unit := do
  require (!(a.role == ROLE_INTERACTION_LAYER && a.value != il.ilDest)) .foreignInteractionLayer
  require (!(a.role == ROLE_OS && il.platformOs != some a.value)) .osAssertionContradictsPlatform

/-- Refuse the destination of another layer, an open-source recipient that is not the platform's,
and an assertion that leaves the platform's out. -/
def validateForRelay (roles : Roles) : Except RelayError Unit := do
  roles.items.forM il.checkItem
  match il.platformOs with
  | some known =>
    require (roles.items.any fun a => a.role == ROLE_OS && a.value == known)
      .osAssertionContradictsPlatform
  | none => .ok ()

end InteractionLayer

end Paytp
