import Paytp.Carriage.Settlement
import Paytp.Proofs.Division

/-!
# What is listed for the roles

A table lists an amount for each role it names, no role twice. Settling a round adds its table to
what is settled, role by role. The division of what is outstanding gives each role a part of what
it has, and the parts make up whole units.
-/

namespace Paytp

variable {t t' : List (UInt8 × ℕ)} {role : UInt8}

/-- No role is listed twice. -/
def Distinct (t : List (UInt8 × ℕ)) : Prop := (t.map Prod.fst).Nodup

@[simp] theorem ofRole_nil : ofRole [] role = 0 := rfl

theorem ofRole_cons (e : UInt8 × ℕ) : ofRole (e :: t) role =
    if e.1 = role then e.2 else ofRole t role := by
  unfold ofRole
  rw [List.find?_cons]
  by_cases h : e.1 = role
  · simp [h]
  · simp [h, beq_eq_false_iff_ne.2 h]

theorem ofRole_of_not_mem (h : role ∉ t.map Prod.fst) : ofRole t role = 0 := by
  induction t with
  | nil => rfl
  | cons e t ih =>
    rw [List.map_cons, List.mem_cons, not_or] at h
    rw [ofRole_cons, if_neg (Ne.symm h.1), ih h.2]

theorem ofRole_of_mem (hd : Distinct t) {n : ℕ} (h : (role, n) ∈ t) : ofRole t role = n := by
  induction t with
  | nil => simp at h
  | cons e t ih =>
    rw [Distinct, List.map_cons, List.nodup_cons] at hd
    rw [ofRole_cons]
    rcases List.mem_cons.1 h with rfl | hmem
    · exact if_pos rfl
    · rw [if_neg, ih hd.2 hmem]
      intro he
      exact hd.1 (List.mem_map.2 ⟨_, hmem, he.symm⟩)

theorem Distinct.perm (h : Distinct t) (hp : t.Perm t') : Distinct t' := (hp.map _).nodup h

theorem ofRole_perm (hd : Distinct t) (hp : t.Perm t') : ofRole t role = ofRole t' role := by
  by_cases hmem : role ∈ t.map Prod.fst
  · obtain ⟨⟨_, n⟩, he, rfl⟩ := List.mem_map.1 hmem
    rw [ofRole_of_mem hd he, ofRole_of_mem (hd.perm hp) (hp.mem_iff.1 he)]
  · rw [ofRole_of_not_mem hmem, ofRole_of_not_mem fun h => hmem ((hp.map _).mem_iff.2 h)]

@[simp] theorem sumOf_nil : sumOf [] = 0 := rfl

@[simp] theorem sumOf_cons (e : UInt8 × ℕ) : sumOf (e :: t) = e.2 + sumOf t := by
  simp [sumOf]

theorem sumOf_perm (hp : t.Perm t') : sumOf t = sumOf t' := (hp.map _).sum_eq

/-- A table sums to what it lists for any roles that include its own. -/
theorem sumOf_eq : ∀ {t : List (UInt8 × ℕ)} {roles : List UInt8}, Distinct t → roles.Nodup →
    (∀ e ∈ t, e.1 ∈ roles) → sumOf t = (roles.map (ofRole t)).sum
  | [], roles, _, _, _ => by
    have hzero : roles.map (ofRole []) = roles.map fun _ => 0 := rfl
    rw [hzero, sumOf_nil]
    simp
  | e :: t, roles, hd, hn, hsub => by
    rw [Distinct, List.map_cons, List.nodup_cons] at hd
    have hmem : e.1 ∈ roles := hsub e List.mem_cons_self
    have hperm := List.perm_cons_erase hmem
    have hrest : ∀ e' ∈ t, e'.1 ∈ roles.erase e.1 := by
      intro e' he'
      refine (List.mem_erase_of_ne ?_).2 (hsub e' (List.mem_cons_of_mem _ he'))
      intro heq
      exact hd.1 (heq ▸ List.mem_map_of_mem he')
    have hsame : (roles.erase e.1).map (ofRole (e :: t)) = (roles.erase e.1).map (ofRole t) := by
      refine List.map_congr_left fun r hr => ?_
      rw [ofRole_cons, if_neg]
      rintro rfl
      exact (hn.mem_erase_iff.1 hr).1 rfl
    rw [sumOf_cons, sumOf_eq hd.2 (hn.erase _) hrest, (hperm.map _).sum_eq, List.map_cons,
      List.sum_cons, hsame, ofRole_cons, if_pos rfl]

/-! ## Settling -/

/-- Add one role's amount, as a round is settled. -/
def addRole (acc : List (UInt8 × ℕ)) (e : UInt8 × ℕ) : List (UInt8 × ℕ) :=
  if acc.any fun a => a.1 == e.1 then
    acc.map fun a => if a.1 = e.1 then (a.1, a.2 + e.2) else a
  else acc ++ [e]

theorem addSettled_eq (settledR eR : List (UInt8 × ℕ)) : Carriage.addSettled settledR eR =
    (eR.foldl addRole settledR).insertionSort fun a b => a.1 ≤ b.1 := rfl

section addRole
variable {e : UInt8 × ℕ}

theorem map_fst_bump (t : List (UInt8 × ℕ)) (e : UInt8 × ℕ) :
    (t.map fun a => if a.1 = e.1 then (a.1, a.2 + e.2) else a).map Prod.fst = t.map Prod.fst := by
  rw [List.map_map]
  refine List.map_congr_left fun a _ => ?_
  simp only [Function.comp]
  split_ifs <;> rfl

theorem ofRole_bump (t : List (UInt8 × ℕ)) (h : e.1 ∈ t.map Prod.fst) (role : UInt8) :
    ofRole (t.map fun a => if a.1 = e.1 then (a.1, a.2 + e.2) else a) role =
      ofRole t role + if e.1 = role then e.2 else 0 := by
  induction t with
  | nil => simp at h
  | cons a t ih =>
    rw [List.map_cons, ofRole_cons, ofRole_cons]
    by_cases ha : a.1 = e.1
    · rw [if_pos ha]
      by_cases hr : a.1 = role
      · simp [hr, ha.symm.trans hr]
      · have hne : e.1 ≠ role := fun he => hr (ha.trans he)
        simp only [if_neg hr, if_neg hne, Nat.add_zero]
        by_cases hmem : e.1 ∈ t.map Prod.fst
        · rw [ih hmem, if_neg hne, Nat.add_zero]
        · congr 1
          refine (List.map_congr_left fun b hb => ?_).trans (List.map_id t)
          rw [if_neg]
          · rfl
          · rintro hbe
            exact hmem (hbe ▸ List.mem_map_of_mem hb)
    · rw [if_neg ha]
      have hmem : e.1 ∈ t.map Prod.fst := by
        rw [List.map_cons, List.mem_cons] at h
        exact h.resolve_left (Ne.symm ha)
      by_cases hr : a.1 = role
      · have hne : e.1 ≠ role := fun he => ha (hr.trans he.symm)
        simp [hr, hne]
      · simp only [if_neg hr]
        exact ih hmem

theorem sumOf_bump (t : List (UInt8 × ℕ)) (hd : Distinct t) (h : e.1 ∈ t.map Prod.fst) :
    sumOf (t.map fun a => if a.1 = e.1 then (a.1, a.2 + e.2) else a) = sumOf t + e.2 := by
  induction t with
  | nil => simp at h
  | cons a t ih =>
    rw [Distinct, List.map_cons, List.nodup_cons] at hd
    rw [List.map_cons, sumOf_cons, sumOf_cons]
    by_cases ha : a.1 = e.1
    · have hsame : (t.map fun a => if a.1 = e.1 then (a.1, a.2 + e.2) else a) = t := by
        refine (List.map_congr_left fun b hb => ?_).trans (List.map_id t)
        rw [if_neg]
        · rfl
        · rintro hbe
          exact hd.1 (ha ▸ hbe ▸ List.mem_map_of_mem hb)
      rw [hsame, if_pos ha]
      omega
    · have hmem : e.1 ∈ t.map Prod.fst := by
        rw [List.map_cons, List.mem_cons] at h
        exact h.resolve_left (Ne.symm ha)
      rw [ih hd.2 hmem, if_neg ha]
      omega

end addRole

/-- `t'` is `t` with the amounts of `added` on top. -/
structure Adds (added t t' : List (UInt8 × ℕ)) : Prop where
  distinct : Distinct t'
  ofRole_eq : ∀ role, ofRole t' role = ofRole t role + ofRole added role
  sumOf_eq : sumOf t' = sumOf t + sumOf added
  roles : ∀ role ∈ t'.map Prod.fst, role ∈ t.map Prod.fst ∨ role ∈ added.map Prod.fst

theorem addRole_adds (hd : Distinct t) (e : UInt8 × ℕ) : Adds [e] t (addRole t e) := by
  have hone : ∀ role, ofRole [e] role = if e.1 = role then e.2 else 0 := fun role => by
    rw [ofRole_cons, ofRole_nil]
  unfold addRole
  by_cases h : (t.any fun a => a.1 == e.1) = true
  · obtain ⟨a, ha, hae⟩ := List.any_eq_true.1 h
    have hmem : e.1 ∈ t.map Prod.fst := beq_iff_eq.1 hae ▸ List.mem_map_of_mem ha
    rw [if_pos h]
    constructor
    · rwa [Distinct, map_fst_bump]
    · intro role
      rw [ofRole_bump t hmem, hone]
    · rw [sumOf_bump t hd hmem, sumOf_cons, sumOf_nil, Nat.add_zero]
    · intro role hr
      rw [map_fst_bump] at hr
      exact .inl hr
  · have hmem : e.1 ∉ t.map Prod.fst := by
      intro hm
      obtain ⟨a, ha, hae⟩ := List.mem_map.1 hm
      exact h (List.any_eq_true.2 ⟨a, ha, beq_iff_eq.2 hae⟩)
    have hperm : (t ++ [e]).Perm (e :: t) := List.perm_append_singleton e t
    have hcons : Distinct (e :: t) := by
      rw [Distinct, List.map_cons, List.nodup_cons]
      exact ⟨hmem, hd⟩
    rw [if_neg h]
    constructor
    · exact hcons.perm hperm.symm
    · intro role
      rw [ofRole_perm (hcons.perm hperm.symm) hperm, ofRole_cons, hone]
      by_cases hr : e.1 = role
      · rw [if_pos hr, if_pos hr, ofRole_of_not_mem (hr ▸ hmem), Nat.zero_add]
      · rw [if_neg hr, if_neg hr, Nat.add_zero]
    · rw [sumOf_perm hperm, sumOf_cons, sumOf_cons, sumOf_nil, Nat.add_zero, Nat.add_comm]
    · intro role hr
      rw [List.map_append, List.mem_append] at hr
      exact hr

theorem foldl_addRole_adds : ∀ {eR t : List (UInt8 × ℕ)}, Distinct t → Distinct eR →
    Adds eR t (eR.foldl addRole t)
  | [], t, hd, _ => ⟨hd, fun _ => rfl, rfl, fun _ hr => .inl hr⟩
  | e :: eR, t, hd, he => by
    rw [Distinct, List.map_cons, List.nodup_cons] at he
    have hone := addRole_adds hd e
    have hrest := foldl_addRole_adds hone.distinct he.2
    rw [List.foldl_cons]
    constructor
    · exact hrest.distinct
    · intro role
      rw [hrest.ofRole_eq, hone.ofRole_eq, ofRole_cons, ofRole_cons, ofRole_nil]
      by_cases hr : e.1 = role
      · have hzero : ofRole eR role = 0 := ofRole_of_not_mem (hr ▸ he.1)
        rw [if_pos hr, if_pos hr, hzero, Nat.add_zero]
      · rw [if_neg hr, if_neg hr, Nat.add_zero]
    · rw [hrest.sumOf_eq, hone.sumOf_eq, sumOf_cons, sumOf_cons, sumOf_nil, Nat.add_zero,
        Nat.add_assoc]
    · intro role hr
      rcases hrest.roles role hr with hr | hr
      · rcases hone.roles role hr with hr | hr
        · exact .inl hr
        · exact .inr (List.mem_cons.2 (.inl (List.mem_singleton.1 hr)))
      · exact .inr (List.mem_cons_of_mem _ hr)

/-- Settling a round adds its table. -/
theorem addSettled_adds (hd : Distinct t) {eR : List (UInt8 × ℕ)} (he : Distinct eR) :
    Adds eR t (Carriage.addSettled t eR) := by
  have hfold := foldl_addRole_adds hd he
  rw [addSettled_eq]
  have hperm := List.perm_insertionSort (fun a b : UInt8 × ℕ => a.1 ≤ b.1) (eR.foldl addRole t)
  constructor
  · exact hfold.distinct.perm hperm.symm
  · intro role
    rw [ofRole_perm (hfold.distinct.perm hperm.symm) hperm, hfold.ofRole_eq]
  · rw [sumOf_perm hperm, hfold.sumOf_eq]
  · intro role hr
    exact hfold.roles role ((hperm.map _).mem_iff.1 hr)

/-! ## What is outstanding -/

/-- What each role of a table has outstanding. -/
def outstanding (t settledR : List (UInt8 × ℕ)) : List ℕ :=
  t.map fun e => e.2 - ofRole settledR e.1

theorem outstandingMeedPerRole_eq_ok {accrued settled outs : List ℕ} :
    Fee.Reconcile.outstandingMeedPerRole accrued settled = .ok outs ↔
      accrued.length = settled.length ∧ (∀ p ∈ accrued.zip settled, p.2 ≤ p.1) ∧
        outs = (accrued.zip settled).map fun p => p.1 - p.2 := by
  unfold Fee.Reconcile.outstandingMeedPerRole
  split_ifs with hlen
  · exact ⟨nofun, fun h => absurd h.1 hlen⟩
  · rw [mapM_eq_ok (p := fun p : ℕ × ℕ => p.2 ≤ p.1) (g := fun p => p.1 - p.2)]
    · simp only [not_not.1 hlen, true_and]
    · rintro ⟨a, s⟩ b
      dsimp only
      split_ifs with h
      · exact ⟨nofun, fun hle => absurd hle.1 (Nat.not_le.2 h)⟩
      · rw [Except.ok.injEq]
        exact ⟨fun hb => ⟨Nat.le_of_not_lt h, hb.symm⟩, fun hb => hb.2.symm⟩

theorem u256FromBiguint_eq_ok {n m : ℕ} :
    Fee.u256FromBiguint n = .ok m ↔ n ≤ Fee.U256_MAX ∧ m = n := by
  unfold Fee.u256FromBiguint
  split_ifs with h <;> simp [h, eq_comm]

section divide
variable {accruals settledR : List (UInt8 × ℕ)}

/-- No role has settled more than it accrued. -/
def Covers (accruals settledR : List (UInt8 × ℕ)) : Prop :=
  ∀ e ∈ accruals, ofRole settledR e.1 ≤ e.2

/-- What is outstanding divides exactly if its table covers what is settled and is in the domain. -/
theorem divideOutstanding_eq_ok {d : Fee.RoundDivision} :
    divideOutstanding accruals settledR = .ok d ↔
      (∀ e ∈ accruals, e.2 ≤ Fee.U256_MAX) ∧ Covers accruals settledR ∧
        Fee.divideRound (outstanding accruals settledR) Fee.unity = .ok d := by
  have hzip : (accruals.map Prod.snd).zip (accruals.map fun e => ofRole settledR e.1) =
      accruals.map fun e => (e.2, ofRole settledR e.1) := List.zip_map'
  have hcovers : (∀ p ∈ accruals.map fun e => (e.2, ofRole settledR e.1), p.2 ≤ p.1) ↔
      Covers accruals settledR := List.forall_mem_map
  have hout : (accruals.map fun e => (e.2, ofRole settledR e.1)).map (fun p => p.1 - p.2) =
      outstanding accruals settledR := List.map_map
  unfold divideOutstanding
  simp only [bind_eq_ok, Fee.rateNew_one, Except.ok.injEq, outstandingMeedPerRole_eq_ok,
    mapM_eq_ok fun _ _ => u256FromBiguint_eq_ok]
  constructor
  · rintro ⟨_, ⟨hmax, rfl⟩, _, ⟨-, rfl⟩, _, ⟨-, hle, rfl⟩, _, rfl, h⟩
    rw [hzip] at hle h
    rw [hout] at h
    exact ⟨hmax, hcovers.1 hle, h⟩
  · rintro ⟨hmax, hle, h⟩
    refine ⟨_, ⟨hmax, rfl⟩, _, ⟨fun e he => (hle e he).trans (hmax e he), rfl⟩, _,
      ⟨by simp, ?_, rfl⟩, _, rfl, ?_⟩
    · rw [hzip]
      exact hcovers.2 hle
    · rw [hzip, hout]
      exact h

/-- A round of what is outstanding: whole units of the sum, no role more than it has. -/
structure Round (accruals settledR : List (UInt8 × ℕ)) (d : Fee.RoundDivision) : Prop where
  p_eq : d.p = (outstanding accruals settledR).sum / 10000
  leg_iff : d.leg = true ↔ 0 < d.p
  distinct : Distinct ((accruals.map Prod.fst).zip d.eR)
  roles : ((accruals.map Prod.fst).zip d.eR).map Prod.fst = accruals.map Prod.fst
  sumOf_eq : sumOf ((accruals.map Prod.fst).zip d.eR) = d.p * 10000
  le : ∀ role ∈ accruals.map Prod.fst,
    ofRole settledR role + ofRole ((accruals.map Prod.fst).zip d.eR) role ≤ ofRole accruals role

theorem ofRole_zip_le : ∀ {accruals : List (UInt8 × ℕ)} {eR : List ℕ},
    List.Forall₂ (· ≤ ·) eR (outstanding accruals settledR) → Covers accruals settledR →
    ∀ role ∈ accruals.map Prod.fst,
      ofRole settledR role + ofRole ((accruals.map Prod.fst).zip eR) role ≤ ofRole accruals role
  | [], _, _, _, role, hr => by simp at hr
  | e :: accruals, x :: eR, .cons hx hrest, hc, role, hr => by
    obtain ⟨he, hc⟩ := List.forall_mem_cons.1 hc
    rw [List.map_cons, List.zip_cons_cons, ofRole_cons, ofRole_cons]
    split_ifs with heq
    · subst heq
      have hle : x ≤ e.2 - ofRole settledR e.1 := hx
      dsimp only
      omega
    · rw [List.map_cons, List.mem_cons] at hr
      exact ofRole_zip_le hrest hc role (hr.resolve_left (Ne.symm heq))

theorem divideOutstanding_round (hd : Distinct accruals) {d : Fee.RoundDivision}
    (h : divideOutstanding accruals settledR = .ok d) : Round accruals settledR d := by
  obtain ⟨-, hcovers, hdiv⟩ := divideOutstanding_eq_ok.1 h
  have hd' := Fee.divideRound_unity hdiv
  have hlen : (accruals.map Prod.fst).length = d.eR.length := by
    rw [hd'.attributes.le.length_eq, outstanding, List.length_map, List.length_map]
  have hroles : ((accruals.map Prod.fst).zip d.eR).map Prod.fst = accruals.map Prod.fst :=
    List.map_fst_zip hlen.le
  refine ⟨hd'.p_eq, hd'.leg_iff, ?_, hroles, ?_, ofRole_zip_le hd'.attributes.le hcovers⟩
  · rwa [Distinct, hroles]
  · rw [sumOf, List.map_snd_zip hlen.ge]
    exact hd'.attributes.sum_eq

/-- Outstanding numerators in the domain divide. -/
theorem divideOutstanding_isOk (hlen : accruals.length ≤ Fee.MAX_ROLES)
    (hmax : ∀ e ∈ accruals, e.2 ≤ Fee.U256_MAX) (hcovers : Covers accruals settledR)
    (hlt : ∀ e ∈ accruals, e.2 - ofRole settledR e.1 < 2 ^ 128) :
    ∃ d, divideOutstanding accruals settledR = .ok d := by
  obtain ⟨d, hd⟩ := Fee.divideRound_isOk (outstanding accruals settledR)
    (by rwa [outstanding, List.length_map]) (List.forall_mem_map.2 hlt)
  exact ⟨d, divideOutstanding_eq_ok.2 ⟨hmax, hcovers, hd⟩⟩

/-- What is outstanding and what is settled make up what is accrued. -/
theorem outstanding_sum (ha : Distinct accruals) (hs : Distinct settledR)
    (hsub : ∀ e ∈ settledR, e.1 ∈ accruals.map Prod.fst) (hcovers : Covers accruals settledR) :
    (outstanding accruals settledR).sum + sumOf settledR = sumOf accruals := by
  have hsum : ∀ l : List (UInt8 × ℕ), (∀ e ∈ l, ofRole settledR e.1 ≤ e.2) →
      (outstanding l settledR).sum + ((l.map Prod.fst).map (ofRole settledR)).sum = sumOf l := by
    intro l
    induction l with
    | nil => simp [outstanding]
    | cons e l ih =>
      intro hle
      obtain ⟨he, hle⟩ := List.forall_mem_cons.1 hle
      have hrest := ih hle
      simp only [outstanding, List.map_cons, List.sum_cons, sumOf_cons] at hrest ⊢
      omega
  rw [sumOf_eq hs ha hsub]
  exact hsum accruals hcovers

end divide

end Paytp
