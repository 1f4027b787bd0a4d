import Mathlib.Algebra.Order.BigOperators.Group.List
import Paytp.Rail

/-!
# Shares by destination

A meed vector puts the shares of one destination together, and while they do not pass the bound
of a share each destination keeps the points that its shares give it. What is divided by the
vector then brings each destination to the floor of its part, whatever it was divided in.
-/

namespace Paytp

/-- The points a vector gives a destination. -/
def pointsOf (meed : List MeedShare) (dest : String) : ℕ :=
  (meed.map fun r => if r.dest = dest then r.bp else 0).sum

/-- What a list of payouts pays a destination. -/
def paidOut (payouts : List Payout) (dest : String) : ℕ :=
  (payouts.map fun p => if p.dest = dest then p.amount else 0).sum

/-- What a destination of a vector is due of a total. -/
def dueOf (total bpTotal : ℕ) (meed : List MeedShare) (dest : String) : ℕ :=
  (meed.map fun r => if r.dest = dest then total * r.bp / bpTotal else 0).sum

namespace MeedInstance

/-! ## Putting shares together -/

/-- One share a destination. -/
def OneShare (meed : List MeedShare) : Prop := (meed.map MeedShare.dest).Nodup

@[simp] theorem pointsOf_cons (r : MeedShare) (meed : List MeedShare) (dest : String) :
    pointsOf (r :: meed) dest = (if r.dest = dest then r.bp else 0) + pointsOf meed dest := by
  simp [pointsOf]

theorem pointsOf_absent {meed : List MeedShare} {dest : String}
    (h : ∀ r ∈ meed, r.dest ≠ dest) : pointsOf meed dest = 0 := by
  unfold pointsOf
  rw [List.map_congr_left fun r hr => if_neg (h r hr)]
  simp

theorem map_add_absent {agg : List MeedShare} {r : MeedShare} (h : ∀ a ∈ agg, a.dest ≠ r.dest) :
    (agg.map fun a => if a.dest = r.dest then { a with bp := min 65535 (a.bp + r.bp) } else a) =
      agg := by
  rw [List.map_congr_left fun a ha => if_neg (h a ha)]
  exact List.map_id' agg

/-- The share of a destination that is there grows by the points of another one for it. -/
theorem map_add_present {r : MeedShare} (dest : String) : ∀ {agg : List MeedShare}, OneShare agg →
    (∃ a ∈ agg, a.dest = r.dest) → (∀ a ∈ agg, a.bp + r.bp ≤ 65535) →
    pointsOf (agg.map fun a =>
        if a.dest = r.dest then { a with bp := min 65535 (a.bp + r.bp) } else a) dest =
      pointsOf agg dest + (if r.dest = dest then r.bp else 0) ∧
    ((agg.map fun a => if a.dest = r.dest then { a with bp := min 65535 (a.bp + r.bp) } else a).map
        MeedShare.bp).sum = (agg.map MeedShare.bp).sum + r.bp
  | [], _, h, _ => by simp at h
  | a :: agg, hone, h, hbound => by
    obtain ⟨ha, hagg⟩ := List.nodup_cons.1 (show (a.dest :: agg.map MeedShare.dest).Nodup from hone)
    obtain ⟨hhead, hrest⟩ := List.forall_mem_cons.1 hbound
    rw [List.map_cons, pointsOf_cons, pointsOf_cons, List.map_cons, List.map_cons, List.sum_cons,
      List.sum_cons]
    by_cases heq : a.dest = r.dest
    · have habsent : ∀ b ∈ agg, b.dest ≠ r.dest := fun b hb hbr =>
        ha (List.mem_map.2 ⟨b, hb, hbr.trans heq.symm⟩)
      rw [if_pos heq, map_add_absent habsent]
      dsimp only
      rw [heq, min_eq_right hhead]
      split_ifs <;> omega
    · have hpresent : ∃ b ∈ agg, b.dest = r.dest := by
        obtain ⟨b, hb, hbr⟩ := h
        rcases List.mem_cons.1 hb with rfl | hb
        · exact absurd hbr heq
        · exact ⟨b, hb, hbr⟩
      obtain ⟨hpoints, hsum⟩ := map_add_present dest hagg hpresent hrest
      rw [if_neg heq, hpoints, hsum]
      omega

theorem map_add_dests (agg : List MeedShare) (r : MeedShare) :
    (agg.map fun a => if a.dest = r.dest then { a with bp := min 65535 (a.bp + r.bp) } else a).map
      MeedShare.dest = agg.map MeedShare.dest := by
  rw [List.map_map]
  refine List.map_congr_left fun a _ => ?_
  by_cases h : a.dest = r.dest <;> simp [h]

/-- What the shares of a vector give each destination, they give it together. -/
theorem foldl_addShare : ∀ (meed agg : List MeedShare), OneShare agg →
    (agg.map MeedShare.bp).sum + (meed.map MeedShare.bp).sum ≤ 65535 →
    OneShare (meed.foldl addShare agg) ∧
      (∀ dest, pointsOf (meed.foldl addShare agg) dest = pointsOf agg dest + pointsOf meed dest) ∧
      ((meed.foldl addShare agg).map MeedShare.bp).sum =
        (agg.map MeedShare.bp).sum + (meed.map MeedShare.bp).sum
  | [], agg, hone, _ => ⟨hone, fun dest => by simp [pointsOf], by simp⟩
  | r :: meed, agg, hone, hbound => by
    rw [List.map_cons, List.sum_cons] at hbound
    have hstep : OneShare (addShare agg r) ∧
        (∀ dest, pointsOf (addShare agg r) dest =
          pointsOf agg dest + (if r.dest = dest then r.bp else 0)) ∧
        ((addShare agg r).map MeedShare.bp).sum = (agg.map MeedShare.bp).sum + r.bp := by
      unfold addShare
      split_ifs with hany
      · have hpresent : ∃ a ∈ agg, a.dest = r.dest := by simpa using hany
        have hsmall : ∀ a ∈ agg, a.bp + r.bp ≤ 65535 := fun a ha => by
          have := List.single_le_sum (fun n _ => Nat.zero_le n) a.bp (List.mem_map_of_mem ha)
          omega
        refine ⟨?_, fun dest => (map_add_present dest hone hpresent hsmall).1,
          (map_add_present "" hone hpresent hsmall).2⟩
        unfold OneShare
        rw [map_add_dests]
        exact hone
      · have habsent : ∀ a ∈ agg, a.dest ≠ r.dest := by simpa using hany
        refine ⟨?_, fun dest => by simp [pointsOf], by simp⟩
        unfold OneShare
        rw [List.map_append, List.map_singleton]
        refine List.nodup_append.2 ⟨hone, List.nodup_singleton _, ?_⟩
        intro d hd e he
        obtain ⟨a, ha, rfl⟩ := List.mem_map.1 hd
        rw [List.mem_singleton.1 he]
        exact habsent a ha
    obtain ⟨hone', hpoints, hsum⟩ := hstep
    obtain ⟨hall, hpoints', hsum'⟩ := foldl_addShare meed _ hone' (by omega)
    refine ⟨hall, fun dest => ?_, ?_⟩
    · rw [List.foldl_cons, hpoints', hpoints, pointsOf_cons, Nat.add_assoc]
    · rw [List.foldl_cons, hsum', hsum, List.map_cons, List.sum_cons, Nat.add_assoc]

/-! ## Dividing by a vector -/

/-- Each destination that was paid its floor of a total is paid up to its floor of a greater one. -/
theorem entitle_floors {total total' bpTotal : ℕ} (hle : total ≤ total') (dest : String) :
    ∀ meed : List MeedShare,
    (entitle total' bpTotal meed (meed.map fun r => total * r.bp / bpTotal)).2 =
        meed.map (fun r => total' * r.bp / bpTotal) ∧
      paidOut (entitle total' bpTotal meed (meed.map fun r => total * r.bp / bpTotal)).1 dest +
        dueOf total bpTotal meed dest = dueOf total' bpTotal meed dest
  | [] => ⟨rfl, rfl⟩
  | r :: meed => by
    obtain ⟨hpaid, hout⟩ := @entitle_floors total total' bpTotal hle dest meed
    have hmono : total * r.bp / bpTotal ≤ total' * r.bp / bpTotal :=
      Nat.div_le_div_right (Nat.mul_le_mul_right _ hle)
    unfold paidOut dueOf at hout ⊢
    simp only [List.map_cons, entitle, List.sum_cons]
    by_cases hmore : total' * r.bp / bpTotal > total * r.bp / bpTotal
    · rw [if_pos hmore, hpaid, List.map_cons, List.sum_cons]
      refine ⟨rfl, ?_⟩
      dsimp only
      split_ifs <;> omega
    · rw [if_neg hmore, hpaid, List.cons.injEq]
      refine ⟨⟨by omega, rfl⟩, ?_⟩
      dsimp only
      split_ifs <;> omega

/-- Shares of a whole are floored to no more than what is divided. -/
theorem sum_floors_le_of_le (total : ℕ) {d : ℕ} {meed : List MeedShare}
    (hle : (meed.map MeedShare.bp).sum ≤ d) :
    (meed.map fun r => total * r.bp / d).sum ≤ total := by
  have hfloors : (meed.map fun r => total * r.bp / d).sum ≤
      total * (meed.map MeedShare.bp).sum / d := by
    clear hle
    induction meed with
    | nil => simp
    | cons r meed ih =>
      simp only [List.map_cons, List.sum_cons, Nat.mul_add]
      have hdiv : total * r.bp / d + total * (meed.map MeedShare.bp).sum / d ≤
          (total * r.bp + total * (meed.map MeedShare.bp).sum) / d := Nat.div_add_div_le_add_div
      omega
  refine hfloors.trans (Nat.div_le_of_le_mul ?_)
  rw [Nat.mul_comm d]
  exact Nat.mul_le_mul_left total hle

theorem sum_floors_le (total : ℕ) (meed : List MeedShare) :
    (meed.map fun r => total * r.bp / (meed.map MeedShare.bp).sum).sum ≤ total :=
  sum_floors_le_of_le total (Nat.le_refl _)

/-- Shares that are a whole together leave less than a unit each when they are floored. -/
theorem lt_sum_floors (total : ℕ) {d : ℕ} (hd : 0 < d) {meed : List MeedShare}
    (hsum : (meed.map MeedShare.bp).sum = d) :
    total < (meed.map fun r => total * r.bp / d).sum + meed.length := by
  have hbound : ∀ rs : List MeedShare, total * (rs.map MeedShare.bp).sum + rs.length ≤
      d * ((rs.map fun r => total * r.bp / d).sum + rs.length) := by
    intro rs
    induction rs with
    | nil => simp
    | cons r rs ih =>
      have hdiv := Nat.div_add_mod (total * r.bp) d
      have hmod := Nat.mod_lt (total * r.bp) hd
      simp only [List.map_cons, List.sum_cons, List.length_cons, Nat.mul_add, Nat.mul_one] at ih ⊢
      omega
  have hne : 0 < meed.length := by
    rcases meed with _ | ⟨r, meed⟩
    · rw [List.map_nil, List.sum_nil] at hsum
      omega
    · exact Nat.succ_pos _
  have hall := hbound meed
  rw [hsum, Nat.mul_comm total] at hall
  have hlt : d * total < d * ((meed.map fun r => total * r.bp / d).sum + meed.length) := by omega
  exact Nat.lt_of_mul_lt_mul_left hlt

/-- With one share a destination, it is due the floor of its points of a total. -/
theorem dueOf_eq (total bpTotal : ℕ) (dest : String) : ∀ {meed : List MeedShare}, OneShare meed →
    dueOf total bpTotal meed dest = total * pointsOf meed dest / bpTotal
  | [], _ => by simp [dueOf, pointsOf]
  | r :: meed, hone => by
    obtain ⟨hr, hmeed⟩ := List.nodup_cons.1
      (show (r.dest :: meed.map MeedShare.dest).Nodup from hone)
    have ih := dueOf_eq total bpTotal dest hmeed
    have hcons : dueOf total bpTotal (r :: meed) dest =
        (if r.dest = dest then total * r.bp / bpTotal else 0) + dueOf total bpTotal meed dest := by
      simp [dueOf]
    rw [hcons, ih, pointsOf_cons]
    by_cases heq : r.dest = dest
    · have habsent : pointsOf meed dest = 0 :=
        pointsOf_absent fun a ha hda => hr (List.mem_map.2 ⟨a, ha, hda.trans heq.symm⟩)
      simp [heq, habsent]
    · simp [heq]

end MeedInstance

end Paytp
