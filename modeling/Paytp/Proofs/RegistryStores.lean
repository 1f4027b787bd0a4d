import Paytp.Registry

/-!
# Parties with their own snapshots agree

Every party retains the snapshots that reached it. The order in which they arrive does not matter,
what one party looks up another one accepts if both have the snapshot that is named, and a version
that is revoked stays refused.
-/

namespace Paytp

namespace SnapshotStore

variable {store : SnapshotStore} {s : Snapshot} {demo : Bool} {version : ℕ} {dest : String}

@[simp] theorem atVersion_insert : (store.insert s).atVersion version =
    if version = s.version then some s else store.atVersion version :=
  OrdMap.get?_insert _ _ _ _

@[ext] theorem ext_atVersion {store' : SnapshotStore}
    (h : ∀ version, store.atVersion version = store'.atVersion version) : store = store' := by
  obtain ⟨byVersion, hnamed⟩ := store
  obtain ⟨byVersion', hnamed'⟩ := store'
  obtain rfl : byVersion = byVersion' := OrdMap.ext_get? h
  rfl

/-- Snapshots of two versions are kept in any order. -/
theorem insert_comm {s' : Snapshot} (h : s.version ≠ s'.version) :
    (store.insert s).insert s' = (store.insert s').insert s := by
  ext version
  rw [atVersion_insert, atVersion_insert, atVersion_insert, atVersion_insert]
  split_ifs with hs' hs
  · exact absurd (hs.symm.trans hs') h
  · rfl
  · rfl
  · rfl

theorem foldl_insert_perm {snapshots snapshots' : List Snapshot}
    (hperm : snapshots.Perm snapshots') : (snapshots.map Snapshot.version).Nodup →
    ∀ store : SnapshotStore, snapshots.foldl insert store = snapshots'.foldl insert store := by
  induction hperm with
  | nil => intros; rfl
  | cons s hperm ih => exact fun hnodup store => ih (List.nodup_cons.1 hnodup).2 (store.insert s)
  | swap s s' rest =>
    intro hnodup store
    have hne : s.version ≠ s'.version := by
      rintro heq
      rw [List.map_cons, List.map_cons, heq] at hnodup
      exact (List.nodup_cons.1 hnodup).1 List.mem_cons_self
    rw [List.foldl_cons, List.foldl_cons, List.foldl_cons, List.foldl_cons, insert_comm hne]
  | trans hfirst hsecond ih ih' =>
    intro hnodup store
    exact (ih hnodup store).trans (ih' ((hfirst.map _).nodup_iff.1 hnodup) store)

/-- What is retained of a version is the last snapshot of it that arrived. -/
theorem atVersion_foldl (snapshots : List Snapshot) : ∀ store : SnapshotStore,
    (snapshots.foldl insert store).atVersion version =
      (snapshots.reverse.find? fun s => decide (s.version = version)).or
        (store.atVersion version) := by
  induction snapshots with
  | nil => intro store; rfl
  | cons s rest ih =>
    intro store
    have hlast : ([s].find? fun s => decide (s.version = version)).or (store.atVersion version) =
        if version = s.version then some s else store.atVersion version := by
      by_cases h : version = s.version
      · simp [h]
      · simp [h, Ne.symm h]
    rw [List.foldl_cons, ih, atVersion_insert, List.reverse_cons, List.find?_append,
      Option.or_assoc, hlast]

theorem atVersion_ofList (snapshots : List Snapshot) : (ofList snapshots).atVersion version =
    snapshots.reverse.find? fun s => decide (s.version = version) := by
  unfold ofList
  rw [atVersion_foldl]
  exact Option.or_none

theorem mem_values : s ∈ store.byVersion.values ↔ store.atVersion s.version = some s := by
  unfold OrdMap.values atVersion
  rw [OrdMap.get?_eq_some, List.mem_map]
  constructor
  · rintro ⟨e, he, rfl⟩
    rwa [store.named e he]
  · exact fun h => ⟨_, h, rfl⟩

theorem not_accepted_of_revoked (hs : store.atVersion s.version = some s)
    (hrevoked : version ∈ s.revoked) : store.versionAccepted version = false := by
  unfold versionAccepted
  rcases store.tip with _ | tip
  · rfl
  · dsimp only
    split_ifs
    · rfl
    · rw [Bool.not_eq_false', List.any_eq_true]
      exact ⟨s, mem_values.2 hs, by simpa using hrevoked⟩

theorem tip_isSome (h : store.atVersion version = some s) : store.tip.isSome = true := by
  unfold tip
  rw [Option.isSome_map]
  by_contra hnone
  rw [Option.not_isSome_iff_eq_none, OrdMap.last?_eq_none] at hnone
  have hmem := OrdMap.get?_eq_some.1 h
  rw [hnone] at hmem
  exact List.not_mem_nil hmem

/-- A share goes to the fund, or where the recipient that is asserted is listed. -/
theorem resolveOsDestination_ok {os : Option String}
    (h : store.resolveOsDestination demo version os = .ok dest) :
    ensureGovernanceReady demo = .ok () ∧ store.versionAccepted version = true ∧
      ∃ snap, store.atVersion version = some snap ∧
        (dest = INDEPENDENT_OS_FUND_DEST_PLACEHOLDER ∨
          ∃ id, os = some id ∧ (id, dest) ∈ snap.osRecipients) := by
  unfold resolveOsDestination at h
  simp only [bind_eq_ok, okOr_eq_ok, require_eq_ok, pure_eq_ok] at h
  obtain ⟨⟨⟩, hready, ⟨⟩, haccepted, snap, hsnap, rfl⟩ := h
  refine ⟨hready, haccepted, snap, hsnap, ?_⟩
  rcases hfound : os.bind snap.resolveOs with _ | d
  · exact .inl rfl
  · obtain ⟨id, hos, hlisted⟩ := Option.bind_eq_some_iff.1 hfound
    obtain ⟨r, hr, rfl⟩ := Option.map_eq_some_iff.1 hlisted
    obtain rfl : r.1 = id := by simpa using List.find?_some hr
    exact .inr ⟨r.1, hos, List.mem_of_find?_eq_some hr⟩

theorem osDestinationAccepted_eq_ok : store.osDestinationAccepted demo version dest = .ok () ↔
    ensureGovernanceReady demo = .ok () ∧
      (store.tip.isSome = true → store.versionAccepted version = true) ∧
      (dest = INDEPENDENT_OS_FUND_DEST_PLACEHOLDER ∨ ∃ snap, store.atVersion version = some snap ∧
        (snap.osRecipients.any fun r => r.2 == dest) = true) := by
  have hguard : (!(store.tip.isSome && !store.versionAccepted version)) = true ↔
      (store.tip.isSome = true → store.versionAccepted version = true) := by
    rcases store.tip.isSome <;> rcases store.versionAccepted version <;> simp
  unfold osDestinationAccepted
  simp only [bind_eq_ok, require_eq_ok, hguard]
  split_ifs with hfund
  · constructor
    · rintro ⟨⟨⟩, hready, ⟨⟩, hversion, -⟩
      exact ⟨hready, hversion, .inl hfund⟩
    · rintro ⟨hready, hversion, -⟩
      exact ⟨(), hready, (), hversion, rfl⟩
  · simp only [bind_eq_ok, okOr_eq_ok, require_eq_ok]
    constructor
    · rintro ⟨⟨⟩, hready, ⟨⟩, hversion, hlisted⟩
      exact ⟨hready, hversion, .inr hlisted⟩
    · rintro ⟨hready, hversion, hdest⟩
      exact ⟨(), hready, (), hversion, hdest.resolve_left hfund⟩

/-- Two parties judge the destinations of a vector alike, if they retain the same snapshot of the
version that it names and both accept the version or neither does. -/
theorem validateGovernedDestinations_agree {suite : Suite} {store' : SnapshotStore}
    (hstore : store.atVersion version = some s) (hstore' : store'.atVersion version = some s)
    (haccepted : store.versionAccepted version = store'.versionAccepted version)
    (vector : List VectorEntry) :
    validateGovernedDestinations { suite with toRegistry := store.registry demo } version vector =
      validateGovernedDestinations { suite with toRegistry := store'.registry demo } version
        vector := by
  have hdest : (store.registry demo).osDestinationAccepted version =
      (store'.registry demo).osDestinationAccepted version := by
    funext dest
    dsimp only [registry]
    unfold osDestinationAccepted
    rw [tip_isSome hstore, tip_isSome hstore', haccepted, hstore, hstore']
  unfold validateGovernedDestinations
  dsimp only
  rw [hdest]
  rfl

/-- The parties of a purchase need no common history of the registry. Snapshots of different
versions may reach them in any order. Where one of them looks up a share to go, the others accept
it to go if they retain the same snapshot of the version that is named and accept the version. What
anybody accepts is the independent fund or listed in a snapshot of just that version. And a version
that some snapshot revokes is refused for good, while nobody publishes that snapshot's own version
again. -/
theorem os_destinations_agree (snapshots others : List Snapshot) (demo : Bool) (version : ℕ)
    (dest : String) :
    (snapshots.Perm others → (snapshots.map Snapshot.version).Nodup →
      ofList snapshots = ofList others) ∧
    (∀ os, (ofList snapshots).resolveOsDestination demo version os = .ok dest →
      (ofList others).atVersion version = (ofList snapshots).atVersion version →
      (ofList others).versionAccepted version = true →
      (ofList others).osDestinationAccepted demo version dest = .ok ()) ∧
    ((ofList snapshots).osDestinationAccepted demo version dest = .ok () →
      dest = INDEPENDENT_OS_FUND_DEST_PLACEHOLDER ∨
        (ofList snapshots).versionAccepted version = true ∧
          ∃ s ∈ snapshots, s.version = version ∧ dest ∈ s.osRecipients.map Prod.snd) ∧
    (∀ s ∈ snapshots, version ∈ s.revoked →
      (∀ s' ∈ snapshots ++ others, s'.version = s.version → s' = s) →
      (ofList (snapshots ++ others)).osDestinationAccepted demo version dest ≠ .ok () ∧
        ∀ os, (ofList (snapshots ++ others)).resolveOsDestination demo version os ≠ .ok dest) := by
  refine ⟨fun hperm hnodup => foldl_insert_perm hperm hnodup new,
    fun os hresolve hsame haccepted => ?_, fun haccept => ?_, fun s hs hrevoked hunique => ?_⟩
  · obtain ⟨hready, -, snap, hsnap, hdest⟩ := resolveOsDestination_ok hresolve
    refine osDestinationAccepted_eq_ok.2 ⟨hready, fun _ => haccepted, ?_⟩
    rcases hdest with hfund | ⟨id, -, hlisted⟩
    · exact .inl hfund
    · exact .inr ⟨snap, hsame.trans hsnap, List.any_eq_true.2 ⟨_, hlisted, beq_self_eq_true dest⟩⟩
  · obtain ⟨-, hversion, hfund | ⟨snap, hsnap, hlisted⟩⟩ := osDestinationAccepted_eq_ok.1 haccept
    · exact .inl hfund
    · have hfound := hsnap
      rw [atVersion_ofList] at hfound
      obtain ⟨r, hr, hdest⟩ := List.any_eq_true.1 hlisted
      exact .inr ⟨hversion (tip_isSome hsnap), snap,
        List.mem_reverse.1 (List.mem_of_find?_eq_some hfound),
        by simpa using List.find?_some hfound, List.mem_map.2 ⟨r, hr, by simpa using hdest⟩⟩
  · have hkept : (ofList (snapshots ++ others)).atVersion s.version = some s := by
      rw [atVersion_ofList]
      rcases hfound : (snapshots ++ others).reverse.find? fun s' => decide (s'.version = s.version)
        with _ | s'
      · have hnone := List.find?_eq_none.1 hfound s
          (List.mem_reverse.2 (List.mem_append_left _ hs))
        simp at hnone
      · rw [hfound, hunique s' (List.mem_reverse.1 (List.mem_of_find?_eq_some hfound))
          (by simpa using List.find?_some hfound)]
    have hrefused := not_accepted_of_revoked hkept hrevoked
    refine ⟨fun haccept => ?_, fun os hresolve => ?_⟩
    · have hversion := (osDestinationAccepted_eq_ok.1 haccept).2.1 (tip_isSome hkept)
      rw [hrefused] at hversion
      cases hversion
    · have hversion := (resolveOsDestination_ok hresolve).2.1
      rw [hrefused] at hversion
      cases hversion

end SnapshotStore

namespace Shop

open SnapshotStore

/-- The first snapshot, with one recipient. -/
def listing : Snapshot where
  version := 1
  kind := .rotation
  issued := 1000000000
  windowFloor := 0
  osRecipients := [("linux", "eip155:8453:linux")]
  revoked := []
  rateSources := []
  sig := .replicate 64 0

/-- The next one, under which nothing before the first one counts. -/
def revocation : Snapshot := { listing with version := 2, kind := .revocation, revoked := [0] }

theorem os_destinations_agree_shop :
    ofList [listing, revocation] = ofList [revocation, listing] ∧
    (ofList [revocation, listing]).osDestinationAccepted true 1 "eip155:8453:linux" = .ok () ∧
    "eip155:8453:linux" ∈ listing.osRecipients.map Prod.snd ∧
    (ofList ([listing, revocation] ++ [listing])).osDestinationAccepted true 0
      INDEPENDENT_OS_FUND_DEST_PLACEHOLDER ≠ .ok () := by
  obtain ⟨horder, hagree, hlisted, -⟩ := os_destinations_agree [listing, revocation]
    [revocation, listing] true 1 "eip155:8453:linux"
  obtain ⟨-, -, -, hrevoked⟩ := os_destinations_agree [listing, revocation] [listing] true 0
    INDEPENDENT_OS_FUND_DEST_PLACEHOLDER
  have haccepted :=
    hagree (some "linux") (by decide +kernel) (by decide +kernel) (by decide +kernel)
  refine ⟨horder (.swap _ _ _) (by decide), haccepted, ?_,
    (hrevoked revocation (by decide) (by decide) (by decide +kernel)).1⟩
  rcases hlisted (by decide +kernel) with hfund | ⟨-, s, hs, hversion, hmem⟩
  · exact absurd hfund (by decide +kernel)
  · obtain rfl | rfl : s = listing ∨ s = revocation := by simpa using hs
    · exact hmem
    · exact absurd hversion (by decide)

end Shop

end Paytp
