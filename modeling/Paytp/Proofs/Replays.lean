import Paytp.Proofs.Guards
import Paytp.Proofs.Retention

/-!
# Replaying a store

A store that is built on lists its records in some order. A restart replays them into the references
and the dispositions that they are of, and into nothing else.
-/

namespace Paytp

/-! ## Records -/

theorem fundKey_inj {r r' : String} : fundKey r = fundKey r' ↔ r = r' := by
  refine ⟨fun h => ?_, fun h => by rw [h]⟩
  simp only [fundKey, storeKey, List.flatten_cons, List.flatten_nil, List.append_nil,
    List.append_cancel_left_eq] at h
  have hread := Bytes.toString?_ofString r
  rw [h, Bytes.toString?_ofString] at hread
  exact (Option.some_inj.1 hread).symm

theorem head_fundKey (r : String) : (fundKey r).head? = some 102 :=
  head_storeKey "fund:" 102 [117, 110, 100, 58] (by decide) _

theorem dropPrefix?_fund (cid : ByteArr 8) :
    (dispKey cid).dropPrefix? (Bytes.ofString "fund:") = none := by
  have hfund : Bytes.ofString "fund:" = [102, 117, 110, 100, 58] := by decide
  have hdisp : Bytes.ofString "disp:" = [100, 105, 115, 112, 58] := by decide
  rw [dispKey, storeKey, hfund, hdisp]
  rfl

theorem dropPrefix?_disp (cid : ByteArr 8) :
    (dispKey cid).dropPrefix? (Bytes.ofString "disp:") = some cid.toList := by
  rw [List.dropPrefix?_eq_some_iff]
  exact ⟨Bytes.ofString "disp:", by simp [dispKey, storeKey], by simp⟩

theorem dropPrefix?_fundKey (r : String) :
    (fundKey r).dropPrefix? (Bytes.ofString "fund:") = some (Bytes.ofString r) := by
  rw [List.dropPrefix?_eq_some_iff]
  exact ⟨Bytes.ofString "fund:", by simp [fundKey, storeKey], by simp⟩

/-- A key of another name space. -/
theorem dropPrefix?_of_head {key : Bytes} {b b' : UInt8} {ns bs : Bytes} (h : key.head? = some b)
    (hns : ns = b' :: bs) (hne : b ≠ b') : key.dropPrefix? ns = none := by
  subst hns
  cases key with
  | nil => rfl
  | cons a key =>
    obtain rfl := Option.some_inj.1 h
    rw [List.dropPrefix?, if_neg (by simpa using hne)]

/-- A record that replays: of a reference, of a disposition or of what no guard is replayed
from, where a channel that was accepted is named whole. -/
inductive Clean : Bytes × Bytes → Prop
  | fund (r : String) : Clean (fundKey r, [])
  | disp (cid : ByteArr 8) {d : ChainState} (hd : d.Terminal) : Clean (dispKey cid, encodeDisp d)
  | other {key value : Bytes} (hfund : key.dropPrefix? (Bytes.ofString "fund:") = none)
    (hdisp : key.dropPrefix? (Bytes.ofString "disp:") = none)
    (hopen : ∀ cid, key.dropPrefix? (Bytes.ofString "chopen:") = some cid → cid.length = 8) :
    Clean (key, value)

theorem Guards.Other.clean {key : Bytes} (h : Guards.Other key) (value : Bytes) :
    Clean (key, value) := by
  have hfund : Bytes.ofString "fund:" = 102 :: [117, 110, 100, 58] := by decide
  have hdisp : Bytes.ofString "disp:" = 100 :: [105, 115, 112, 58] := by decide
  have hchopen : Bytes.ofString "chopen:" = 99 :: [104, 111, 112, 101, 110, 58] := by decide
  have hrefund : key.head? = some 114 → Clean (key, value) := fun hhead =>
    .other (dropPrefix?_of_head hhead hfund (by decide))
      (dropPrefix?_of_head hhead hdisp (by decide))
      fun cid h => by
        rw [dropPrefix?_of_head hhead hchopen (by decide)] at h
        cases h
  cases h with
  | chopen cid =>
    have hhead := head_storeKey "chopen:" 99 [104, 111, 112, 101, 110, 58] hchopen [cid.toList]
    refine .other (dropPrefix?_of_head hhead hfund (by decide))
      (dropPrefix?_of_head hhead hdisp (by decide)) fun bs h => ?_
    obtain ⟨p, hkey, hp⟩ := List.dropPrefix?_eq_some_iff.1 h
    rw [Retention.chopenKey_eq, beq_iff_eq.1 hp, List.append_cancel_left_eq] at hkey
    rw [← hkey, cid.toList_length]
  | refundReserve cid ckptRef =>
    exact hrefund (head_storeKey "rfnd:" 114 [102, 110, 100, 58] (by decide) _)
  | refundRef cid ckptRef =>
    exact hrefund (head_storeKey "rref:" 114 [114, 101, 102, 58] (by decide) _)

namespace DecisionStore

variable {store : DecisionStore} {entries : List (Bytes × Bytes)}

/-- The disposition that a store records of a channel. -/
def recorded (store : DecisionStore) (cid : ByteArr 8) : Option ChainState :=
  (store.lookup (dispKey cid)).bind decodeDisp

/-- The entries of a store, in whichever order it iterates them. -/
def Lists (store : DecisionStore) (entries : List (Bytes × Bytes)) : Prop :=
  store.entries = entries.map fun e => (⟨e.1, e.2⟩ : Sigma fun _ : Bytes => Bytes)

theorem lists_nil : Lists ∅ [] := rfl

theorem Lists.mem_iff (h : store.Lists entries) {key value : Bytes} :
    (key, value) ∈ entries ↔ store.lookup key = some value := by
  rw [← Option.mem_def, Finmap.mem_lookup_iff, h, Multiset.mem_coe, List.mem_map]
  constructor
  · intro he
    exact ⟨_, he, rfl⟩
  · rintro ⟨e, he, heq⟩
    cases heq
    exact he

theorem Lists.nodup (h : store.Lists entries) : (entries.map Prod.fst).Nodup := by
  have hkeys := store.nodupKeys
  rw [h, Multiset.coe_nodupKeys, List.NodupKeys, List.keys, List.map_map] at hkeys
  exact hkeys

/-- What is bound after inserting was inserted, or else bound before. -/
theorem mem_of_lookup_foldl : ∀ (entries : List (Bytes × Bytes)) (store : DecisionStore)
    {key value : Bytes},
    (entries.foldl (fun store e => store.insert e.1 e.2) store).lookup key = some value →
      (key, value) ∈ entries ∨ store.lookup key = some value
  | [], _, _, _, h => .inr h
  | e :: entries, store, key, value, h => by
    rw [List.foldl_cons] at h
    rcases mem_of_lookup_foldl entries _ h with hmem | hlookup
    · exact .inl (List.mem_cons_of_mem e hmem)
    · rw [HashMap.lookup_insert_ite] at hlookup
      split_ifs at hlookup with hkey
      · rw [hkey, ← Option.some_inj.1 hlookup]
        exact .inl List.mem_cons_self
      · exact .inr hlookup

/-- Inserting distinct keys binds each of them. -/
theorem lookup_foldl_insert : ∀ (entries : List (Bytes × Bytes)) (store : DecisionStore),
    (entries.map Prod.fst).Nodup → ∀ key value,
      (entries.foldl (fun store e => store.insert e.1 e.2) store).lookup key = some value ↔
        (key, value) ∈ entries ∨ key ∉ entries.map Prod.fst ∧ store.lookup key = some value
  | [], store, _, key, value => by simp
  | e :: entries, store, hnodup, key, value => by
    rw [List.map_cons, List.nodup_cons] at hnodup
    rw [List.foldl_cons, lookup_foldl_insert entries _ hnodup.2, HashMap.lookup_insert_ite]
    by_cases hk : key = e.1
    · subst hk
      have hnot : (e.1, value) ∉ entries := fun he =>
        hnodup.1 (List.mem_map.2 ⟨_, he, rfl⟩)
      simp only [hnot, hnodup.1, if_true, List.mem_cons, List.map_cons, not_true_eq_false,
        false_and, or_false, false_or, not_false_eq_true, true_and, Option.some_inj]
      constructor
      · rintro rfl
        rfl
      · intro he
        rw [← he]
    · have hne : (key, value) ≠ e := fun he => hk (by rw [← he])
      rw [if_neg hk]
      simp only [List.mem_cons, List.map_cons, hk, hne, false_or]

/-- Replaying the entries builds the store they are of. -/
theorem Lists.foldl_insert (h : store.Lists entries) :
    entries.foldl (fun store e => store.insert e.1 e.2) ∅ = store := by
  refine Finmap.ext_lookup fun key => Option.ext fun value => ?_
  rw [lookup_foldl_insert entries ∅ h.nodup, h.mem_iff]
  simp

end DecisionStore

/-! ## Replaying -/

namespace Guards

/-- Guards that are exactly what a store records. -/
structure Rebuilt (g : Guards) (store : DecisionStore) : Prop where
  consumed : ∀ r, r ∈ g.consumedFunding ↔ store.lookup (fundKey r) = some []
  dispositions : ∀ cid, g.chainState.lookup cid = store.recorded cid

end Guards

namespace Carriage

variable {ρ : Type} {s s' : Carriage ρ} {strict : Bool} {key value : Bytes}
  {store : DecisionStore}

theorem replayGuard_fund (strict : Bool) (s : Carriage ρ) (r : String) :
    replayGuard strict s (fundKey r, []) =
      some { s with consumedFunding := insert r s.consumedFunding } := by
  unfold replayGuard
  dsimp only
  rw [dropPrefix?_fundKey]
  dsimp only
  rw [Bytes.toString?_ofString]
  rfl

theorem replayGuard_disp (strict : Bool) (s : Carriage ρ) (cid : ByteArr 8) {d : ChainState}
    (hd : d.Terminal) : replayGuard strict s (dispKey cid, encodeDisp d) =
      some { s with chainState := s.chainState.insert cid d } := by
  unfold replayGuard
  dsimp only
  rw [dropPrefix?_fund, dropPrefix?_disp]
  dsimp only
  rw [ByteArr.ofBytes?_toList, decodeDisp_encodeDisp hd]

theorem replayGuard_other (strict : Bool) (s : Carriage ρ)
    (hfund : key.dropPrefix? (Bytes.ofString "fund:") = none)
    (hdisp : key.dropPrefix? (Bytes.ofString "disp:") = none) :
    replayGuard strict s (key, value) = some s := by
  unfold replayGuard
  dsimp only
  rw [hfund, hdisp]

/-- A record that replays is of a reference, of a disposition, or of nothing that is guarded; the
last is corrupt or of other keys, and a strict replay takes it of other keys only. -/
theorem replayGuard_inv (h : replayGuard strict s (key, value) = some s') :
    (∃ r, key = fundKey r ∧ value = [] ∧
      s' = { s with consumedFunding := insert r s.consumedFunding }) ∨
    (∃ cid d, key = dispKey cid ∧ decodeDisp value = some d ∧
      s' = { s with chainState := s.chainState.insert cid d }) ∨
    s' = s ∧ (∀ r, key = fundKey r → value ≠ []) ∧
      (∀ cid, key = dispKey cid → decodeDisp value = none) ∧
      (strict = true → key.dropPrefix? (Bytes.ofString "fund:") = none ∧
        key.dropPrefix? (Bytes.ofString "disp:") = none) := by
  unfold replayGuard at h
  dsimp only at h
  split at h
  · rename_i canonical hfund
    obtain ⟨p, hkey, hp⟩ := List.dropPrefix?_eq_some_iff.1 hfund
    have hdisp : ∀ cid, key ≠ dispKey cid := by
      rintro cid rfl
      rw [dropPrefix?_fund] at hfund
      cases hfund
    cases hr : Bytes.toString? canonical with
    | some r =>
      rw [hr] at h
      dsimp only at h
      have hfundKey : key = fundKey r := by
        rw [hkey, beq_iff_eq.1 hp, Bytes.toString?_eq_some.1 hr, fundKey, storeKey]
        simp
      by_cases hempty : value.isEmpty = true
      · rw [if_pos hempty] at h
        exact .inl ⟨r, hfundKey, List.isEmpty_iff.1 hempty, (Option.some_inj.1 h).symm⟩
      · rw [if_neg hempty] at h
        split_ifs at h with hstrict
        exact .inr (.inr ⟨(Option.some_inj.1 h).symm,
          fun _ _ hval => hempty (List.isEmpty_iff.2 hval), fun cid he => absurd he (hdisp cid),
          fun hs => absurd hs hstrict⟩)
    | none =>
      rw [hr] at h
      dsimp only at h
      split_ifs at h with hstrict
      refine .inr (.inr ⟨(Option.some_inj.1 h).symm, fun r he => ?_,
        fun cid he => absurd he (hdisp cid), fun hs => absurd hs hstrict⟩)
      rw [he, dropPrefix?_fundKey, Option.some_inj] at hfund
      rw [← hfund, Bytes.toString?_ofString] at hr
      cases hr
  · rename_i cidBytes hfund hdisp
    obtain ⟨p, hkey, hp⟩ := List.dropPrefix?_eq_some_iff.1 hdisp
    have hfundKey : ∀ r, key ≠ fundKey r := by
      rintro r rfl
      rw [dropPrefix?_fundKey] at hfund
      cases hfund
    split at h
    · rename_i cid d hcid hd
      refine .inr (.inl ⟨cid, d, ?_, hd, (Option.some_inj.1 h).symm⟩)
      rw [hkey, beq_iff_eq.1 hp, ByteArr.ofBytes?_eq_some.1 hcid, dispKey, storeKey]
      simp
    · rename_i hcorrupt
      split_ifs at h with hstrict
      refine .inr (.inr ⟨(Option.some_inj.1 h).symm, fun r he => absurd he (hfundKey r),
        fun cid he => ?_, fun hs => absurd hs hstrict⟩)
      rw [he, dropPrefix?_disp, Option.some_inj] at hdisp
      rw [Option.eq_none_iff_forall_ne_some]
      intro d hd
      exact hcorrupt cid d (by rw [← hdisp, ByteArr.ofBytes?_toList]) hd
  · rename_i hfund hdisp
    refine .inr (.inr ⟨(Option.some_inj.1 h).symm, fun r he => ?_, fun cid he => ?_,
      fun _ => ⟨hfund, hdisp⟩⟩)
    · rw [he, dropPrefix?_fundKey] at hfund
      cases hfund
    · rw [he, dropPrefix?_disp] at hdisp
      cases hdisp

theorem recorded_insert_of_ne (store : DecisionStore) (value : Bytes) {cid : ByteArr 8}
    (h : dispKey cid ≠ key) :
    DecisionStore.recorded (store.insert key value) cid = store.recorded cid := by
  rw [DecisionStore.recorded, DecisionStore.recorded, Finmap.lookup_insert_of_ne store h]

theorem recorded_insert (store : DecisionStore) (value : Bytes) (cid : ByteArr 8) :
    DecisionStore.recorded (store.insert (dispKey cid) value) cid = decodeDisp value := by
  rw [DecisionStore.recorded, Finmap.lookup_insert, Option.bind_some]

/-- Replaying a record keeps the guards what the records so far say. A lenient replay could
forget a record that a later one of the same key hides; a store has no such. -/
theorem replayGuard_rebuilt (h : replayGuard strict s (key, value) = some s')
    (hnew : strict = true ∨ store.lookup key = none) (hs : s.guards.Rebuilt store) :
    s'.guards.Rebuilt (store.insert key value) := by
  rcases replayGuard_inv h with ⟨r, rfl, rfl, rfl⟩ | ⟨cid, d, rfl, hd, rfl⟩ |
    ⟨rfl, hfund, hdisp, hclean⟩
  · refine ⟨fun r' => ?_, fun cid => ?_⟩
    · show r' ∈ insert r s.consumedFunding ↔ _
      rw [HashMap.lookup_insert_ite, Finset.mem_insert]
      split_ifs with hkey
      · simp [fundKey_inj.1 hkey]
      · have hr : r' ≠ r := fun hr => hkey (by rw [hr])
        have hold : r' ∈ s.consumedFunding ↔ _ := hs.consumed r'
        simpa [hr] using hold
    · rw [recorded_insert_of_ne store _ (fundKey_ne r cid).symm]
      exact hs.dispositions cid
  · refine ⟨fun r => ?_, fun cid' => ?_⟩
    · rw [Finmap.lookup_insert_of_ne store (fundKey_ne r cid)]
      exact hs.consumed r
    · show (s.chainState.insert cid d).lookup cid' = _
      rw [HashMap.lookup_insert_ite]
      split_ifs with hcid
      · rw [hcid, recorded_insert, hd]
      · rw [recorded_insert_of_ne store _ fun he => hcid (dispKey_inj.1 he)]
        exact hs.dispositions cid'
  · refine ⟨fun r => ?_, fun cid => ?_⟩
    · rw [HashMap.lookup_insert_ite, hs.consumed r]
      split_ifs with hkey
      · subst hkey
        have hnone : store.lookup (fundKey r) = none := by
          refine hnew.resolve_left fun hstrict => ?_
          have hother := (hclean hstrict).1
          rw [dropPrefix?_fundKey] at hother
          cases hother
        rw [hnone, Option.some_inj]
        exact ⟨nofun, fun hval => absurd hval (hfund r rfl)⟩
      · rfl
    · rw [hs.dispositions cid]
      by_cases hkey : dispKey cid = key
      · subst hkey
        have hnone : store.lookup (dispKey cid) = none := by
          refine hnew.resolve_left fun hstrict => ?_
          have hother := (hclean hstrict).2
          rw [dropPrefix?_disp] at hother
          cases hother
        rw [recorded_insert, hdisp cid rfl, DecisionStore.recorded, hnone, Option.bind_none]
      · rw [recorded_insert_of_ne store _ hkey]

theorem foldlM_rebuilt : ∀ {entries : List (Bytes × Bytes)} {s s' : Carriage ρ}
    {store : DecisionStore}, entries.foldlM (replayGuard strict) s = some s' →
    strict = true ∨ (entries.map Prod.fst).Nodup ∧ (∀ e ∈ entries, store.lookup e.1 = none) →
    s.guards.Rebuilt store →
    s'.guards.Rebuilt (entries.foldl (fun store e => store.insert e.1 e.2) store)
  | [], s, s', store, h, _, hs => by
    cases h
    exact hs
  | (key, value) :: entries, s, s', store, h, hnew, hs => by
    rw [List.foldlM_cons] at h
    obtain ⟨s₁, h₁, h⟩ := Option.bind_eq_some_iff.1 h
    have hs₁ := replayGuard_rebuilt h₁ (hnew.imp_right fun hn => hn.2 (key, value) (by simp)) hs
    rw [List.foldl_cons]
    refine foldlM_rebuilt h (hnew.imp_right fun hn => ?_) hs₁
    rw [List.map_cons, List.nodup_cons] at hn
    refine ⟨hn.1.2, fun e he => ?_⟩
    have hne : e.1 ≠ key := fun hk => hn.1.1 (List.mem_map.2 ⟨e, he, hk⟩)
    rw [Finmap.lookup_insert_of_ne store hne]
    exact hn.2 e (by simp [he])

theorem rebuilt_empty (driver : ChannelDriver) (profile : Profile) (rail : Option ρ) :
    ({ (empty driver profile : Carriage ρ) with rail } : Carriage ρ).guards.Rebuilt ∅ :=
  ⟨fun _ => ⟨nofun, nofun⟩, fun _ => rfl⟩

/-- A replay of a store builds exactly the guards that are recorded. -/
theorem replayGuards_rebuilt {entries : List (Bytes × Bytes)}
    (h : replayGuards strict s entries = some s') (hlists : store.Lists entries)
    (hs : s.guards.Rebuilt ∅) : s'.decisions = some store ∧ s'.guards.Rebuilt store := by
  obtain ⟨s₁, hfold, rfl⟩ := Option.map_eq_some_iff.1 h
  have hrebuilt := foldlM_rebuilt hfold (.inr ⟨hlists.nodup, fun _ _ => rfl⟩) hs
  rw [hlists.foldl_insert] at hrebuilt ⊢
  exact ⟨rfl, hrebuilt.consumed, hrebuilt.dispositions⟩

/-- A record that is clean replays, strictly or not. -/
theorem replayGuard_isSome {entry : Bytes × Bytes} (h : Clean entry) (s : Carriage ρ) :
    (replayGuard strict s entry).isSome = true := by
  cases h with
  | fund r => rw [replayGuard_fund, Option.isSome_some]
  | disp cid hd => rw [replayGuard_disp strict s cid hd, Option.isSome_some]
  | other hfund hdisp _ => rw [replayGuard_other strict s hfund hdisp, Option.isSome_some]

/-- A lenient replay takes every record. -/
theorem replayGuard_lenient (entry : Bytes × Bytes) (s : Carriage ρ) :
    (replayGuard false s entry).isSome = true := by
  unfold replayGuard
  dsimp only
  split
  · split
    · split
      · rfl
      · rfl
    · rfl
  · split <;> rfl
  · rfl

theorem replayGuards_isSome (s : Carriage ρ) : ∀ {entries : List (Bytes × Bytes)},
    (∀ e ∈ entries, ∀ s : Carriage ρ, (replayGuard strict s e).isSome = true) →
    (replayGuards strict s entries).isSome = true := by
  intro entries h
  rw [replayGuards, Option.isSome_map]
  induction entries generalizing s with
  | nil => rfl
  | cons e entries ih =>
    rw [List.forall_mem_cons] at h
    obtain ⟨s₁, h₁⟩ := Option.isSome_iff_exists.1 (h.1 s)
    rw [List.foldlM_cons, h₁]
    exact ih s₁ h.2

theorem foldlM_clean : ∀ {entries : List (Bytes × Bytes)} {s s' : Carriage ρ},
    entries.foldlM (replayGuard true) s = some s' →
    (∀ e ∈ entries, ∀ cid, e.1.dropPrefix? (Bytes.ofString "chopen:") = some cid →
      cid.length = 8) → ∀ e ∈ entries, Clean e
  | [], _, _, _, _ => nofun
  | (key, value) :: entries, s, s', h, hopen => by
    rw [List.foldlM_cons] at h
    obtain ⟨s₁, h₁, h⟩ := Option.bind_eq_some_iff.1 h
    rw [List.forall_mem_cons] at hopen ⊢
    refine ⟨?_, foldlM_clean h hopen.2⟩
    rcases replayGuard_inv h₁ with ⟨r, rfl, rfl, -⟩ | ⟨cid, d, rfl, hd, -⟩ | ⟨-, -, -, hother⟩
    · exact .fund r
    · obtain ⟨hterminal, rfl⟩ := decodeDisp_eq_some.1 hd
      exact .disp cid hterminal
    · exact .other (hother rfl).1 (hother rfl).2 hopen.1

theorem mapM_isSome {α β : Type} {f : α → Option β} : ∀ {xs : List α},
    (xs.mapM f).isSome = true ↔ ∀ x ∈ xs, (f x).isSome = true
  | [] => by simp
  | x :: xs => by
    rw [List.forall_mem_cons, ← mapM_isSome, List.mapM_cons]
    cases f x with
    | none => simp
    | some y => cases xs.mapM f <;> simp

theorem tombstonesOf_isSome {entries : List (Bytes × Bytes)} :
    (tombstonesOf entries).isSome = true ↔ ∀ e ∈ entries, ∀ cid,
      e.1.dropPrefix? (Bytes.ofString "chopen:") = some cid → cid.length = 8 := by
  rw [tombstonesOf, Option.isSome_map, mapM_isSome]
  simp only [List.mem_filterMap]
  constructor
  · intro h e he cid hcid
    have hsome := h cid ⟨e, he, hcid⟩
    unfold ByteArr.ofBytes? at hsome
    by_contra hlen
    rw [dif_neg hlen] at hsome
    cases hsome
  · rintro h cid ⟨e, he, hcid⟩
    unfold ByteArr.ofBytes?
    rw [dif_pos (h e he cid hcid)]
    rfl

end Carriage

end Paytp
