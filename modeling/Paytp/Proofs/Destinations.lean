import Paytp.Proofs.EntryEscrow
import Paytp.Proofs.HostShares

/-!
# One schema on both sides

The rail names a destination by a string and the chain by a key. While the roles that share a
destination on the one side share it on the other, both sides give a destination the same points,
so what it is due of a total is the same.
-/

namespace Paytp

open Kit

/-- The shares of the schema's roles at the destinations that the roles name. -/
def schemaShares (strs : Fin 4 → String) : List MeedShare :=
  List.ofFn fun i => { dest := strs i, bp := SCHEMA_01_BP i }

/-- The roles that share a destination on the rail share it on the chain. -/
def SamePattern (strs : Fin 4 → String) (dests : Fin 4 → Pubkey) : Prop :=
  ∀ i j, strs i = strs j ↔ dests i = dests j

/-- The shares of a schema, put together by destination. -/
def schemaMeed (strs : Fin 4 → String) : List MeedShare :=
  (schemaShares strs).foldl MeedInstance.addShare []

section schema
variable (strs : Fin 4 → String) {dests : Fin 4 → Pubkey}

theorem schemaShares_bp : ((schemaShares strs).map MeedShare.bp).sum = SCHEMA_01_BP_TOTAL := by
  unfold schemaShares
  rw [List.map_ofFn]
  rfl

theorem schemaMeed_shares : MeedInstance.OneShare (schemaMeed strs) ∧
    (∀ dest, pointsOf (schemaMeed strs) dest = pointsOf (schemaShares strs) dest) ∧
    ((schemaMeed strs).map MeedShare.bp).sum = SCHEMA_01_BP_TOTAL := by
  have hbp := schemaShares_bp strs
  obtain ⟨hone, hpoints, hsum⟩ := MeedInstance.foldl_addShare (schemaShares strs) []
    List.nodup_nil (by rw [hbp]; decide)
  refine ⟨hone, fun dest => (hpoints dest).trans (Nat.zero_add _), ?_⟩
  rw [schemaMeed, hsum, hbp]
  rfl

theorem mem_foldl_addShare {P : String → Prop} {meed agg : List MeedShare}
    (hagg : ∀ r ∈ agg, P r.dest) (hmeed : ∀ r ∈ meed, P r.dest) :
    ∀ r ∈ meed.foldl MeedInstance.addShare agg, P r.dest := by
  induction meed generalizing agg with
  | nil => exact hagg
  | cons r meed ih =>
    obtain ⟨hr, hrest⟩ := List.forall_mem_cons.1 hmeed
    refine ih (fun a ha => ?_) hrest
    unfold MeedInstance.addShare at ha
    split_ifs at ha
    · have hdests := MeedInstance.map_add_dests agg r
      have ha := List.mem_map_of_mem (f := MeedShare.dest) ha
      rw [hdests] at ha
      obtain ⟨b, hb, hba⟩ := List.mem_map.1 ha
      rw [← hba]
      exact hagg b hb
    · rcases List.mem_append.1 ha with ha | ha
      · exact hagg a ha
      · rw [List.mem_singleton.1 ha]
        exact hr

/-- Every destination of a schema's vector is that of a role. -/
theorem schemaMeed_dests : ∀ r ∈ schemaMeed strs, ∃ i, r.dest = strs i :=
  @mem_foldl_addShare (fun d => ∃ i, d = strs i) _ [] nofun fun r hr => by
    obtain ⟨i, rfl⟩ := List.mem_ofFn.1 hr
    exact ⟨i, rfl⟩

/-- What a role's destination is due on the chain, at the points of the roles that share it. -/
theorem entitlement_canonical (dests : Fin 4 → Pubkey) (position : ℕ) (i : Fin 4) :
    (entryShares dests).entitlement position (canonical dests i) =
      position * (∑ j with dests j = dests i, SCHEMA_01_BP j) / SCHEMA_01_BP_TOTAL := by
  have hslots : (Finset.univ.filter fun j => dests j = dests i) =
      Finset.univ.filter fun j => canonical dests j = canonical dests i :=
    Finset.filter_congr fun j _ => (canonical_eq_iff dests).symm
  rw [hslots]
  rfl

variable {strs}

theorem pointsOf_schemaShares (h : SamePattern strs dests) (i : Fin 4) :
    pointsOf (schemaShares strs) (strs i) =
      (entryShares dests).weight (canonical dests i) := by
  have hweight : (entryShares dests).weight (canonical dests i) =
      ∑ j, if strs j = strs i then SCHEMA_01_BP j else 0 := by
    rw [← Finset.sum_filter]
    have hslots : (Finset.univ.filter fun j => strs j = strs i) =
        Finset.univ.filter fun j => canonical dests j = canonical dests i :=
      Finset.filter_congr fun j _ => (h j i).trans (canonical_eq_iff dests).symm
    rw [hslots]
    rfl
  rw [hweight, pointsOf, schemaShares, List.map_ofFn, List.sum_ofFn]
  rfl

/-- A role's destination is due the same of a total on both sides. -/
theorem dueOf_schemaMeed (h : SamePattern strs dests) (total : ℕ) (i : Fin 4) :
    dueOf total SCHEMA_01_BP_TOTAL (schemaMeed strs) (strs i) =
      (entryShares dests).entitlement total (canonical dests i) := by
  obtain ⟨hone, hpoints, -⟩ := schemaMeed_shares strs
  rw [MeedInstance.dueOf_eq total _ _ hone, hpoints, pointsOf_schemaShares h]
  rfl

/-- What the shares of a vector come to, by the first roles of their destinations. -/
theorem sum_by_destination (h : SamePattern strs dests) (f : MeedShare → ℕ) {meed : List MeedShare}
    (hmeed : ∀ r ∈ meed, ∃ i, r.dest = strs i) : (meed.map f).sum =
      ∑ c with canonical dests c = c,
        (meed.map fun r => if r.dest = strs c then f r else 0).sum := by
  induction meed with
  | nil => simp
  | cons r meed ih =>
    obtain ⟨⟨i, hi⟩, hrest⟩ := List.forall_mem_cons.1 hmeed
    have hone : (∑ c with canonical dests c = c, if r.dest = strs c then f r else 0) = f r := by
      rw [Finset.sum_eq_single (canonical dests i)]
      · rw [if_pos (hi.trans ((h i (canonical dests i)).2 (canonical_dest dests i).symm))]
      · intro c hc hne
        refine if_neg fun heq => hne ?_
        rw [← (Finset.mem_filter.1 hc).2]
        exact canonical_congr dests ((h c i).1 (heq.symm.trans hi))
      · intro hc
        exact (hc (Finset.mem_filter.2 ⟨Finset.mem_univ _, canonical_idem dests i⟩)).elim
    simp only [List.map_cons, List.sum_cons, Finset.sum_add_distrib]
    rw [hone, ih hrest]

/-- All destinations together are due the same of a total on both sides. -/
theorem sum_schemaMeed (h : SamePattern strs dests) (total : ℕ) :
    ((schemaMeed strs).map fun r => total * r.bp / SCHEMA_01_BP_TOTAL).sum =
      ∑ i, (entryShares dests).entitlement total i := by
  rw [sum_by_destination h _ (schemaMeed_dests strs)]
  calc _ = ∑ c with canonical dests c = c, (entryShares dests).entitlement total c := by
        refine Finset.sum_congr rfl fun c hc => (dueOf_schemaMeed h total c).trans ?_
        rw [(Finset.mem_filter.1 hc).2]
    _ = ∑ i, (entryShares dests).entitlement total i := by
        refine Finset.sum_filter_of_ne fun c _ hne => ?_
        by_contra hc
        exact hne (Shares.entitlement_of_absent _ (fun i hi => hc (by
          rw [← hi, canonical_idem])) total)

end schema

end Paytp
