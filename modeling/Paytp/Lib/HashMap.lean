import Mathlib.Data.Finmap

/-!
# Hash maps

A hash map is a finite map: two of them with the same lookups are equal, whatever the order
of their insertions.
-/

namespace Paytp

universe u v

abbrev HashMap (K : Type u) (V : Type v) := Finmap fun _ : K => V

namespace HashMap

variable {K : Type u} {V : Type v} [DecidableEq K]

/-- Insert unless the key is there already, as `entry(k).or_insert(v)`. -/
def orInsert (m : HashMap K V) (k : K) (v : V) : HashMap K V :=
  if (m.lookup k).isSome then m else m.insert k v

theorem lookup_insert_ite (m : HashMap K V) (k k' : K) (v : V) :
    (m.insert k v).lookup k' = if k' = k then some v else m.lookup k' := by
  split_ifs with h
  · rw [h, Finmap.lookup_insert]
  · exact Finmap.lookup_insert_of_ne m h

/-- What is bound already may be inserted again. -/
theorem insert_of_lookup {m : HashMap K V} {k : K} {v : V} (h : m.lookup k = some v) :
    m.insert k v = m := by
  refine Finmap.ext_lookup fun k' => ?_
  rw [lookup_insert_ite]
  split_ifs with hk
  · rw [hk, h]
  · rfl

theorem keys_insert (m : HashMap K V) (k : K) (v : V) : (m.insert k v).keys = insert k m.keys := by
  ext k'
  simp [Finmap.mem_keys]

theorem orInsert_of_none {m : HashMap K V} {k : K} (v : V) (h : m.lookup k = none) :
    m.orInsert k v = m.insert k v := by
  simp [orInsert, h]

theorem lookup_orInsert (m : HashMap K V) (k k' : K) (v : V) :
    (m.orInsert k v).lookup k' =
      if k' = k then some ((m.lookup k).getD v) else m.lookup k' := by
  unfold orInsert
  cases hk : m.lookup k with
  | none => simp [lookup_insert_ite]
  | some w =>
    simp only [Option.isSome_some, if_true, Option.getD_some]
    split_ifs with h
    · rw [h, hk]
    · rfl

/-- What is bound stays bound when another key is inserted where there was none. -/
theorem lookup_orInsert_of_some {m : HashMap K V} {k k' : K} {v w : V}
    (h : m.lookup k' = some w) : (m.orInsert k v).lookup k' = some w := by
  rw [lookup_orInsert]
  split_ifs with he
  · rw [← he, h, Option.getD_some]
  · exact h

end HashMap

end Paytp
