import Mathlib.Data.List.Sort
import Mathlib.Algebra.BigOperators.Group.List.Basic
import Paytp.Lib.Keyed

/-!
# Ordered maps

An ordered map is the list of its entries by ascending key, as a B-tree iterates it. Two maps
with the same entries are equal, and a map falls into its entries up to a key and those past
it, in this order.
-/

namespace Paytp

universe u v

/-- The entries of an ordered map, by strictly ascending key. -/
@[ext] structure OrdMap (K : Type u) (V : Type v) [LinearOrder K] where
  entries : List (K × V)
  sorted : entries.Pairwise (fun a b => a.1 < b.1)

namespace OrdMap

variable {K : Type u} {V : Type v} [LinearOrder K]

instance [DecidableEq V] : DecidableEq (OrdMap K V) := fun m m' =>
  decidable_of_iff (m.entries = m'.entries) OrdMap.ext_iff.symm

def empty : OrdMap K V := ⟨[], .nil⟩

def keys (m : OrdMap K V) : List K := m.entries.map Prod.fst

def values (m : OrdMap K V) : List V := m.entries.map Prod.snd

/-- Keep the entries whose key meets `p`. -/
def retain (m : OrdMap K V) (p : K → Bool) : OrdMap K V where
  entries := m.entries.filter fun e => p e.1
  sorted := m.sorted.filter _

/-- The entries with keys up to `c`. -/
def upto (m : OrdMap K V) (c : K) : OrdMap K V := m.retain fun k => decide (k ≤ c)

/-- The entries with keys past `c`. -/
def past (m : OrdMap K V) (c : K) : OrdMap K V := m.retain fun k => decide (c < k)

def insert (m : OrdMap K V) (k : K) (v : V) : OrdMap K V where
  entries := (m.retain fun k' => decide (k' < k)).entries ++ (k, v) ::
    (m.retain fun k' => decide (k < k')).entries
  sorted := by
    refine List.pairwise_append.2 ⟨(m.retain _).sorted, List.pairwise_cons.2
      ⟨fun e he => ?_, (m.retain _).sorted⟩, fun a ha b hb => ?_⟩
    · simpa using (List.mem_filter.1 he).2
    · have hak : a.1 < k := by simpa using (List.mem_filter.1 ha).2
      rcases List.mem_cons.1 hb with rfl | hb
      · exact hak
      · exact hak.trans (by simpa using (List.mem_filter.1 hb).2)

variable {m m' : OrdMap K V}

theorem nodup_keys (m : OrdMap K V) : m.keys.Nodup :=
  List.pairwise_map.2 (m.sorted.imp fun h => h.ne)

theorem sorted_keys (m : OrdMap K V) : m.keys.Pairwise (· < ·) := List.pairwise_map.2 m.sorted

theorem mem_retain {p : K → Bool} {e : K × V} :
    e ∈ (m.retain p).entries ↔ e ∈ m.entries ∧ p e.1 = true := List.mem_filter

theorem mem_keys_retain {p : K → Bool} {k : K} :
    k ∈ (m.retain p).keys ↔ k ∈ m.keys ∧ p k = true := by
  simp only [keys, List.mem_map, mem_retain]
  constructor
  · rintro ⟨e, ⟨he, hp⟩, rfl⟩
    exact ⟨⟨e, he, rfl⟩, hp⟩
  · rintro ⟨⟨e, he, rfl⟩, hp⟩
    exact ⟨e, ⟨he, hp⟩, rfl⟩

/-- Maps with permuted entries are equal. -/
theorem eq_of_perm (h : m.entries.Perm m'.entries) : m = m' := by
  refine OrdMap.ext (h.eq_of_pairwise (fun a b _ _ hab hba => ?_) m.sorted m'.sorted)
  exact absurd (hab.trans hba) (lt_irrefl _)

/-- A map falls into the entries up to a key and those past it. -/
theorem upto_append_past (m : OrdMap K V) (c : K) :
    (m.upto c).entries ++ (m.past c).entries = m.entries := by
  have hsorted : ((m.upto c).entries ++ (m.past c).entries).Pairwise
      (fun a b => a.1 < b.1) := by
    refine List.pairwise_append.2 ⟨(m.upto c).sorted, (m.past c).sorted, fun a ha b hb => ?_⟩
    have hac : a.1 ≤ c := by simpa using (List.mem_filter.1 ha).2
    exact hac.trans_lt (by simpa using (List.mem_filter.1 hb).2)
  have hperm : ((m.upto c).entries ++ (m.past c).entries).Perm m.entries := by
    have hnot : (m.past c).entries = m.entries.filter fun e => !decide (e.1 ≤ c) := by
      simp only [past, retain, ← not_le, decide_not]
    rw [hnot]
    exact List.filter_append_perm _ _
  refine hperm.eq_of_pairwise (fun a b _ _ hab hba => ?_) hsorted m.sorted
  exact absurd (hab.trans hba) (lt_irrefl _)

theorem keys_upto_append_past (m : OrdMap K V) (c : K) :
    (m.upto c).keys ++ (m.past c).keys = m.keys := by
  simp only [keys, ← List.map_append, upto_append_past]

theorem insert_perm {k : K} (h : k ∉ m.keys) (v : V) :
    (m.insert k v).entries.Perm ((k, v) :: m.entries) := by
  have hpast : (m.retain fun k' => decide (k < k')).entries =
      m.entries.filter fun e => !decide (e.1 < k) := by
    refine List.filter_congr fun e he => ?_
    have hne : e.1 ≠ k := fun hk => h (hk ▸ List.mem_map_of_mem he)
    simp [← not_le, hne.le_iff_lt]
  simp only [insert, hpast]
  exact List.perm_middle.trans ((List.filter_append_perm _ _).cons _)

theorem mem_insert {k : K} (h : k ∉ m.keys) {v : V} {e : K × V} :
    e ∈ (m.insert k v).entries ↔ e = (k, v) ∨ e ∈ m.entries := by
  rw [(insert_perm h v).mem_iff, List.mem_cons]

theorem keys_retain (m : OrdMap K V) (p : K → Bool) : (m.retain p).keys = m.keys.filter p := by
  rw [keys, keys, List.filter_map]
  rfl

theorem keys_insert (m : OrdMap K V) (k : K) (v : V) : (m.insert k v).keys =
    (m.keys.filter fun k' => decide (k' < k)) ++ k :: m.keys.filter fun k' => decide (k < k') := by
  rw [keys, insert, List.map_append, List.map_cons, ← keys_retain, ← keys_retain]
  rfl

theorem mem_keys_insert {k k' : K} {v : V} :
    k' ∈ (m.insert k v).keys ↔ k' = k ∨ k' ∈ m.keys := by
  rw [keys_insert, List.mem_append, List.mem_cons, List.mem_filter, List.mem_filter,
    decide_eq_true_eq, decide_eq_true_eq]
  rcases lt_trichotomy k' k with hlt | rfl | hgt
  · simp [hlt, hlt.ne, hlt.not_gt]
  · simp
  · simp [hgt, hgt.ne', hgt.not_gt]

theorem mem_keys_past {c k : K} : k ∈ (m.past c).keys ↔ k ∈ m.keys ∧ c < k := by
  rw [past, mem_keys_retain, decide_eq_true_eq]

theorem mem_keys_upto {c k : K} : k ∈ (m.upto c).keys ↔ k ∈ m.keys ∧ k ≤ c := by
  rw [upto, mem_keys_retain, decide_eq_true_eq]

/-! ## Looking up -/

/-- The value of a key. -/
def get? (m : OrdMap K V) (k : K) : Option V :=
  (m.entries.find? fun e => decide (e.1 = k)).map Prod.snd

theorem get?_eq_some {k : K} {v : V} : m.get? k = some v ↔ (k, v) ∈ m.entries := by
  unfold get?
  simp only [Option.map_eq_some_iff, Keyed.find?_key (fun _ => decide_eq_true_iff) m.nodup_keys]
  constructor
  · rintro ⟨⟨k', v'⟩, ⟨hmem, rfl⟩, rfl⟩
    exact hmem
  · exact fun h => ⟨(k, v), ⟨h, rfl⟩, rfl⟩

theorem ext_get? (h : ∀ k, m.get? k = m'.get? k) : m = m' := by
  have hmem : ∀ e, e ∈ m.entries ↔ e ∈ m'.entries := fun e => by
    rw [← Prod.eta e, ← get?_eq_some, ← get?_eq_some, h]
  have hnodup : ∀ m : OrdMap K V, m.entries.Nodup := fun m => .of_map Prod.fst m.nodup_keys
  exact eq_of_perm ((List.perm_ext_iff_of_nodup (hnodup m) (hnodup m')).2 hmem)

/-- A key is bound to what was inserted last. -/
theorem mem_insert_iff {k : K} {v : V} {e : K × V} :
    e ∈ (m.insert k v).entries ↔ e = (k, v) ∨ e ∈ m.entries ∧ e.1 ≠ k := by
  simp only [insert, List.mem_append, List.mem_cons, mem_retain, decide_eq_true_eq]
  rcases lt_trichotomy e.1 k with hlt | heq | hgt
  · simp [hlt, hlt.ne, hlt.not_gt, or_comm]
  · have hirrefl := lt_irrefl k
    simp [heq]
  · simp [hgt, hgt.ne', hgt.not_gt]

theorem get?_insert (m : OrdMap K V) (k k' : K) (v : V) :
    (m.insert k v).get? k' = if k' = k then some v else m.get? k' := by
  ext w
  rw [get?_eq_some, mem_insert_iff]
  split_ifs with h
  · simp [h, eq_comm]
  · simp [h, get?_eq_some]

/-- The entry of the highest key. -/
def last? (m : OrdMap K V) : Option (K × V) := m.entries.getLast?

theorem last?_eq_none : m.last? = none ↔ m.entries = [] := List.getLast?_eq_none_iff

end OrdMap

end Paytp
