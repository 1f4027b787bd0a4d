import Paytp.Proofs.RegistryStores
import Paytp.Proofs.Snapshots
import Paytp.Client

/-!
# Headers of role assertions

A header parses to a set of assertions exactly if it is the encoding of that set, and the set is
well formed. What an interaction layer relays asserts the open-source recipient of its platform and
no layer but itself, so that the share of the platform goes where the registry lists it.
-/

namespace Paytp

open Tlv

namespace Roles

variable {suite : Suite} {r : Roles}

/-- At most one assertion for a role, by ascending role, each of a value that the role takes. -/
structure WellFormed (suite : Suite) (r : Roles) : Prop where
  ascending : r.items.IsChain fun a b => a.role < b.role
  values : ∀ a ∈ r.items, checkValue suite a = .ok ()

/-- The list is no longer than a length can say. -/
def Writable (r : Roles) : Prop :=
  (buildCountPrefixed (r.items.map encodeItem)).length ≤ Leb128.MAX

instance (r : Roles) : Decidable r.Writable := Nat.decLe _ _

theorem parseItem_delimits :
    Delimits (fun a : RoleAssertion => ShortText a.value) encodeItem parseItem := by
  have htext := readLp_delimits.inside decodeUtf8_reads
  have hitem := (readByte_delimits.both htext).mapItem
    (f := fun p => (⟨p.1, p.2⟩ : RoleAssertion)) (g := fun a => (a.role, a.value))
    (fun _ => rfl) fun _ _ => rfl
  intro bs a n
  rw [parseItem, hitem bs a n]
  simp only [true_and]
  rfl

theorem encodeItem_ne_nil (a : RoleAssertion) : encodeItem a ≠ [] := List.cons_ne_nil _ _

def slots (r : Roles) : List (UInt8 × Option Bytes) :=
  [(0x00, some (buildCountPrefixed (r.items.map encodeItem)))]

theorem slots_typed (r : Roles) : Typed (r.slots.map Prod.fst) := by
  show Typed [0x00]
  decide

theorem encode_eq_ok {b : Bytes} : r.encode = .ok b ↔ b = Tlv.encode (row r.slots) := by
  have hfields : Object.fromFields [⟨0x00, false, buildCountPrefixed (r.items.map encodeItem)⟩] =
      .ok ⟨row r.slots⟩ := fromFields_eq (List.Perm.refl _) (row_ascending r.slots_typed.1)
  unfold encode
  rw [hfields, bind_eq_ok]
  simp only [Except.ok.injEq, exists_eq_left', pure_eq_ok, encode_row]
  exact eq_comm

/-- The texts of a set are shorter than what the set is written as. -/
theorem Writable.shortText (h : r.Writable) :
    r.items.length ≤ Leb128.MAX ∧ ∀ a ∈ r.items, ShortText a.value := by
  obtain ⟨hcount, hitems⟩ := length_le_counted encodeItem
    fun a (_ : a ∈ r.items) => encodeItem_ne_nil a
  refine ⟨hcount.trans h, fun a ha => ?_⟩
  have hle := (hitems a ha).trans h
  have hvalue := length_le_pushLp (Bytes.ofString a.value)
  rw [encodeItem, List.length_cons] at hle
  unfold ShortText
  omega

/-- A header is read as the set that it is the encoding of, if the set is well formed. -/
theorem parse_eq_ok {buf : Bytes} :
    parse suite buf = .ok r ↔ r.WellFormed suite ∧ r.Writable ∧ r.encode = .ok buf := by
  have hlist := parseCountPrefixed_reads parseItem_delimits fun a _ => encodeItem_ne_nil a
  unfold parse
  simp only [bind_eq_ok, pure_eq_ok, require_eq_ok, required_eq_ok hlist, forM_eq_ok,
    decide_eq_true_eq, encode_eq_ok]
  constructor
  · rintro ⟨o, hparse, ⟨⟩, hvalid, items, ⟨-, hget⟩, -, hasc, -, hvalues, rfl⟩
    have hslots : ∀ s ∈ slots { items }, o.get s.1 = s.2 := List.forall_mem_singleton.2 hget
    obtain ⟨-, hbuf, -⟩ := (parse_row_iff (slots_typed { items })).1 ⟨hparse, hvalid, hslots⟩
    exact ⟨⟨hasc, hvalues⟩, length_of_get hparse hget, hbuf⟩
  · rintro ⟨hw, hwritable, hbuf⟩
    have hshort : Short r.slots := by
      unfold slots
      rw [short_cons, short_some]
      exact ⟨hwritable, List.forall_mem_nil _⟩
    obtain ⟨o, hparse, hvalid, hget⟩ := parse_of_row r.slots_typed hshort hbuf
    exact ⟨o, hparse, ⟨⟩, hvalid, r.items,
      ⟨hwritable.shortText, hget _ (List.mem_singleton_self _)⟩, ⟨⟩, hw.ascending, ⟨⟩, hw.values,
      rfl⟩

/-- What is asserted for a role, where nothing is asserted twice. -/
theorem asserted_eq_some (h : r.items.IsChain fun a b => a.role < b.role) {role : UInt8}
    {v : String} : r.asserted role = some v ↔ ⟨role, v⟩ ∈ r.items := by
  have hroles : (r.items.map RoleAssertion.role).IsChain (· < ·) := (List.isChain_map _).2 h
  have hnodup : (r.items.map RoleAssertion.role).Nodup :=
    (List.isChain_iff_pairwise.1 hroles).imp fun hlt heq => UInt8.ne_of_lt hlt heq
  unfold asserted
  simp only [Option.map_eq_some_iff, Keyed.find?_key (fun _ => beq_iff_eq) hnodup]
  constructor
  · rintro ⟨⟨role, v⟩, ⟨hmem, rfl⟩, rfl⟩
    exact hmem
  · exact fun h => ⟨⟨role, v⟩, ⟨h, rfl⟩, rfl⟩

end Roles

open Roles

variable {suite : Suite}

/-- The set is put together in the order of the roles. -/
theorem assembleRoles_items (ilDest : String) (os wallet : Option String) :
    (assembleRoles ilDest os wallet).items = [⟨ROLE_INTERACTION_LAYER, ilDest⟩] ++
      (os.map fun os => ⟨ROLE_OS, os⟩).toList ++ (wallet.map fun w => ⟨ROLE_WALLET, w⟩).toList := by
  unfold assembleRoles
  refine List.mergeSort_of_pairwise ?_
  rcases os with _ | os <;> rcases wallet with _ | wallet <;>
    simp [ROLE_INTERACTION_LAYER, ROLE_OS, ROLE_WALLET]

theorem assembleRoles_ascending (ilDest : String) (os wallet : Option String) :
    (assembleRoles ilDest os wallet).items.IsChain fun a b => a.role < b.role := by
  rw [assembleRoles_items]
  rcases os with _ | os <;> rcases wallet with _ | wallet <;>
    simp [ROLE_INTERACTION_LAYER, ROLE_OS, ROLE_WALLET]

theorem mem_assembleRoles {ilDest : String} {os wallet : Option String} {a : RoleAssertion} :
    a ∈ (assembleRoles ilDest os wallet).items ↔ a = ⟨ROLE_INTERACTION_LAYER, ilDest⟩ ∨
      (∃ v, os = some v ∧ a = ⟨ROLE_OS, v⟩) ∨ ∃ v, wallet = some v ∧ a = ⟨ROLE_WALLET, v⟩ := by
  rw [assembleRoles_items]
  simp only [List.mem_append, List.mem_singleton, Option.mem_toList, Option.map_eq_some_iff,
    eq_comm (b := a), or_assoc]

/-- The set is well formed if the layer, the platform and the wallet are named as they are to be. -/
theorem assembleRoles_wellFormed {ilDest : String} {os wallet : Option String} :
    (assembleRoles ilDest os wallet).WellFormed suite ↔
      (suite.parsePointer ilDest).isSome = true ∧ (∀ id ∈ os, validateIdentifier id = true) ∧
        ∀ w ∈ wallet, (suite.parsePointer w).isSome = true := by
  have hlayer : ∀ v, checkValue suite ⟨ROLE_INTERACTION_LAYER, v⟩ = .ok () ↔
      (suite.parsePointer v).isSome = true := by
    intro v
    simp [checkValue, ROLE_INTERACTION_LAYER]
  have hos : ∀ v, checkValue suite ⟨ROLE_OS, v⟩ = .ok () ↔ validateIdentifier v = true := by
    intro v
    simp [checkValue, ROLE_INTERACTION_LAYER, ROLE_OS, ROLE_WALLET]
  have hwallet : ∀ v, checkValue suite ⟨ROLE_WALLET, v⟩ = .ok () ↔
      (suite.parsePointer v).isSome = true := by
    intro v
    simp [checkValue, ROLE_INTERACTION_LAYER, ROLE_WALLET]
  constructor
  · rintro ⟨-, hvalues⟩
    refine ⟨(hlayer _).1 (hvalues _ (mem_assembleRoles.2 (.inl rfl))), fun id hid => ?_,
      fun w hw => ?_⟩
    · exact (hos id).1 (hvalues _ (mem_assembleRoles.2 (.inr (.inl ⟨id, hid, rfl⟩))))
    · exact (hwallet w).1 (hvalues _ (mem_assembleRoles.2 (.inr (.inr ⟨w, hw, rfl⟩))))
  · rintro ⟨hil, hplatform, hw⟩
    refine ⟨assembleRoles_ascending _ _ _, fun a ha => ?_⟩
    rcases mem_assembleRoles.1 ha with rfl | ⟨id, hid, rfl⟩ | ⟨w, hwallets, rfl⟩
    · exact (hlayer _).2 hil
    · exact (hos id).2 (hplatform id hid)
    · exact (hwallet w).2 (hw w hwallets)

namespace InteractionLayer

variable {il : InteractionLayer} {r : Roles}

theorem checkItem_eq_ok {a : RoleAssertion} : il.checkItem a = .ok () ↔
    (a.role = ROLE_INTERACTION_LAYER → a.value = il.ilDest) ∧
      (a.role = ROLE_OS → il.platformOs = some a.value) := by
  unfold checkItem
  simp only [bind_eq_ok, require_eq_ok, Bool.not_eq_true', Bool.and_eq_false_iff,
    beq_eq_false_iff_ne, bne_eq_false_iff_eq, exists_const]
  rw [imp_iff_not_or, imp_iff_not_or]

/-- A set is relayed if it asserts the recipient of the platform, and no layer but this one. -/
theorem validateForRelay_eq_ok (h : r.items.IsChain fun a b => a.role < b.role) :
    il.validateForRelay r = .ok () ↔
      (∀ v, r.assertedIl = some v → v = il.ilDest) ∧ r.assertedOs = il.platformOs := by
  have hitems : r.items.forM il.checkItem = .ok () ↔ (∀ v, r.assertedIl = some v → v = il.ilDest) ∧
      ∀ v, r.assertedOs = some v → il.platformOs = some v := by
    simp only [forM_eq_ok, checkItem_eq_ok, assertedIl, assertedOs, asserted_eq_some h]
    constructor
    · intro hall
      exact ⟨fun v hv => (hall _ hv).1 rfl, fun v hv => (hall _ hv).2 rfl⟩
    · rintro ⟨hlayer, hos⟩ ⟨role, v⟩ ha
      refine ⟨?_, ?_⟩
      · rintro rfl
        exact hlayer v ha
      · rintro rfl
        exact hos v ha
  unfold validateForRelay
  rw [bind_eq_ok]
  simp only [exists_const, hitems, and_assoc, and_congr_right_iff]
  intro hlayer
  rcases hplatform : il.platformOs with _ | known
  · simp [Option.eq_none_iff_forall_ne_some]
  · have hany : (r.items.any fun a => a.role == ROLE_OS && a.value == known) = true ↔
        r.assertedOs = some known := by
      rw [assertedOs, asserted_eq_some h, List.any_eq_true]
      constructor
      · rintro ⟨⟨role, v⟩, ha, heq⟩
        rw [Bool.and_eq_true, beq_iff_eq, beq_iff_eq] at heq
        obtain ⟨rfl, rfl⟩ := heq
        exact ha
      · exact fun ha => ⟨_, ha, by simp⟩
    simp only [require_eq_ok, hany]
    constructor
    · rintro ⟨-, hos⟩
      exact hos
    · intro hos
      exact ⟨fun v hv => hos.symm.trans hv, hos⟩

/-- What a layer assembles of itself asserts just what it was given. -/
theorem roles_asserted (il : InteractionLayer) (wallet : Option String) :
    ((il.roles wallet).items.IsChain fun a b => a.role < b.role) ∧
      (il.roles wallet).assertedIl = some il.ilDest ∧
      (il.roles wallet).assertedOs = il.platformOs ∧
      (il.roles wallet).assertedWallet = wallet := by
  have hasc : (il.roles wallet).items.IsChain fun a b => a.role < b.role :=
    assembleRoles_ascending il.ilDest il.platformOs wallet
  have hmem : ∀ a, a ∈ (il.roles wallet).items ↔ a = ⟨ROLE_INTERACTION_LAYER, il.ilDest⟩ ∨
      (∃ v, il.platformOs = some v ∧ a = ⟨ROLE_OS, v⟩) ∨
        ∃ v, wallet = some v ∧ a = ⟨ROLE_WALLET, v⟩ := fun _ => mem_assembleRoles
  refine ⟨hasc, (asserted_eq_some hasc).2 ((hmem _).2 (.inl rfl)), ?_, ?_⟩
  · ext id
    rw [assertedOs, asserted_eq_some hasc, hmem]
    simp [ROLE_INTERACTION_LAYER, ROLE_OS, ROLE_WALLET]
  · ext w
    rw [assertedWallet, asserted_eq_some hasc, hmem]
    simp [ROLE_INTERACTION_LAYER, ROLE_OS, ROLE_WALLET]

theorem validateForRelay_roles (il : InteractionLayer) (wallet : Option String) :
    il.validateForRelay (il.roles wallet) = .ok () := by
  obtain ⟨hasc, hlayer, hos, -⟩ := roles_asserted il wallet
  refine (validateForRelay_eq_ok hasc).2 ⟨fun v hv => ?_, hos⟩
  rw [hlayer] at hv
  exact (Option.some.inj hv).symm

/-- What a layer relays of a header that parsed cannot take the share of the platform away. A header
parses to a set exactly if it is the set's encoding, and the set is well formed. It is relayed
exactly if it asserts the recipient of the platform and no layer but this one. And wherever the
share is then looked up to go, it goes to the platform's own recipient as the snapshot lists it, or
to the independent fund. The set that a layer assembles of itself is always relayed, and is well
formed if it, the platform and the wallet are named as they are to be. -/
theorem relayed_roles (suite : Suite) (il : InteractionLayer) (wallet : Option String) (buf : Bytes)
    (r : Roles) :
    (Roles.parse suite buf = .ok r ↔ r.WellFormed suite ∧ r.Writable ∧ r.encode = .ok buf) ∧
    (Roles.parse suite buf = .ok r → (il.validateForRelay r = .ok () ↔
      (∀ v, r.assertedIl = some v → v = il.ilDest) ∧ r.assertedOs = il.platformOs)) ∧
    (Roles.parse suite buf = .ok r → il.validateForRelay r = .ok () →
      ∀ (store : SnapshotStore) (demo : Bool) (version : ℕ) (dest : String),
        store.resolveOsDestination demo version r.assertedOs = .ok dest →
        dest = INDEPENDENT_OS_FUND_DEST_PLACEHOLDER ∨ ∃ id snap, il.platformOs = some id ∧
          store.atVersion version = some snap ∧ (id, dest) ∈ snap.osRecipients) ∧
    il.validateForRelay (il.roles wallet) = .ok () ∧
    (il.roles wallet).assertedIl = some il.ilDest ∧ (il.roles wallet).assertedOs = il.platformOs ∧
    (il.roles wallet).assertedWallet = wallet ∧
    ((il.roles wallet).WellFormed suite ↔ (suite.parsePointer il.ilDest).isSome = true ∧
      (∀ id ∈ il.platformOs, validateIdentifier id = true) ∧
      ∀ w ∈ wallet, (suite.parsePointer w).isSome = true) := by
  obtain ⟨-, hlayer, hos, hwallet⟩ := roles_asserted il wallet
  have hrelayed : ∀ r, Roles.parse suite buf = .ok r → (il.validateForRelay r = .ok () ↔
      (∀ v, r.assertedIl = some v → v = il.ilDest) ∧ r.assertedOs = il.platformOs) :=
    fun r hparse => validateForRelay_eq_ok (parse_eq_ok.1 hparse).1.ascending
  refine ⟨parse_eq_ok, hrelayed r, fun hparse hrelay store demo version dest hdest => ?_,
    validateForRelay_roles il wallet, hlayer, hos, hwallet, assembleRoles_wellFormed⟩
  obtain ⟨-, -, snap, hsnap, hfund | ⟨id, hid, hlisted⟩⟩ :=
    SnapshotStore.resolveOsDestination_ok hdest
  · exact .inl hfund
  · exact .inr ⟨id, snap, ((hrelayed r hparse).1 hrelay).2.symm.trans hid, hsnap, hlisted⟩

end InteractionLayer

namespace Shop

/-- A layer on a platform that the registry lists. -/
def layer : InteractionLayer where
  ilDest := "layer"
  platformOs := some "linux"

/-- The header that the layer sends. -/
def layerHeader : Bytes := Tlv.encode (row (layer.roles none).slots)

theorem layer_writable : (layer.roles none).Writable := by
  have hitems : (layer.roles none).items =
      [⟨ROLE_INTERACTION_LAYER, "layer"⟩, ⟨ROLE_OS, "linux"⟩] :=
    assembleRoles_items "layer" (some "linux") none
  unfold Writable
  rw [hitems]
  decide +kernel

theorem relayed_roles_shop :
    layer.validateForRelay (layer.roles none) = .ok () ∧
    "eip155:8453:linux" ∈ listing.osRecipients.map Prod.snd := by
  obtain ⟨hparse, -, hresolved, hrelayed, -, hos, -, hwellFormed⟩ :=
    InteractionLayer.relayed_roles keyedSuite layer none layerHeader (layer.roles none)
  have hw := hwellFormed.2 ⟨by decide, by decide, by decide⟩
  have hread := hparse.2 ⟨hw, layer_writable, encode_eq_ok.2 rfl⟩
  rw [hos] at hresolved
  refine ⟨hrelayed, ?_⟩
  rcases hresolved hread hrelayed (.ofList [listing]) true 1 "eip155:8453:linux" (by decide +kernel)
    with hfund | ⟨id, snap, -, hsnap, hlisted⟩
  · exact absurd hfund (by decide +kernel)
  · obtain rfl : listing = snap := by simpa [SnapshotStore.atVersion_ofList, listing] using hsnap
    exact List.mem_map.2 ⟨_, hlisted, rfl⟩

end Shop

end Paytp
