import Mathlib.Algebra.Order.BigOperators.Group.List
import Mathlib.Tactic.Ring
import Paytp.Carriage.State

/-!
# The division of a round

At the unity rate a round pays the whole units its outstanding numerators hold and extinguishes
exactly what it pays for, no role by more than it has outstanding. The division of numerators in
the settlement domain never fails.
-/

namespace Paytp

namespace Fee

/-! ## Sums in the domain -/

theorem sum_eq_min (values : List ℕ) : sum values = min U256_MAX values.sum := by
  have hfold : ∀ (vs : List ℕ) (acc : ℕ), acc ≤ U256_MAX →
      vs.foldl (fun acc v => min U256_MAX (acc + v)) acc = min U256_MAX (acc + vs.sum) := by
    intro vs
    induction vs with
    | nil => intro acc hacc; simp [hacc]
    | cons v vs ih =>
      intro acc hacc
      rw [List.foldl_cons, ih _ (min_le_left _ _), List.sum_cons]
      omega
  have hall := hfold values 0 (Nat.zero_le _)
  rwa [Nat.zero_add] at hall

theorem sum_eq_of_le {values : List ℕ} (h : values.sum ≤ U256_MAX) : sum values = values.sum := by
  rw [sum_eq_min, min_eq_right h]

theorem checkDomain_eq_ok {nR : List ℕ} {u : Unit} :
    checkDomain nR = .ok u ↔ nR.length ≤ MAX_ROLES ∧ ∀ nr ∈ nR, nr < 2 ^ 128 := by
  unfold checkDomain
  split_ifs with h
  · exact ⟨fun _ => h, fun _ => rfl⟩
  · exact ⟨nofun, fun h' => absurd h' h⟩

theorem sum_lt_of_domain {nR : List ℕ} (hlen : nR.length ≤ MAX_ROLES)
    (hlt : ∀ nr ∈ nR, nr < 2 ^ 128) : nR.sum < 2 ^ 135 := by
  have hle : nR.sum ≤ nR.length * 2 ^ 128 := by
    have := List.sum_le_card_nsmul nR (2 ^ 128) fun nr hnr => (hlt nr hnr).le
    simpa using this
  have hmax : nR.length * 2 ^ 128 ≤ MAX_ROLES * 2 ^ 128 := Nat.mul_le_mul_right _ hlen
  unfold MAX_ROLES at hmax
  omega

/-! ## Placing the shortfall -/

/-- A sweep places units on roles below their caps and keeps the caps. -/
theorem sweep_spec : ∀ (shortfall : ℕ) (roles : List (ℕ × ℕ)), (∀ r ∈ roles, r.1 ≤ r.2) →
    (sweep shortfall roles).1 ≤ shortfall ∧
      ((sweep shortfall roles).2.map Prod.fst).sum + (sweep shortfall roles).1 =
        (roles.map Prod.fst).sum + shortfall ∧
      (sweep shortfall roles).2.map Prod.snd = roles.map Prod.snd ∧
      ∀ r ∈ (sweep shortfall roles).2, r.1 ≤ r.2
  | shortfall, [], _ => by simp [sweep]
  | shortfall, (er, nr) :: rest, hle => by
    have hrest : ∀ r ∈ rest, r.1 ≤ r.2 := fun r hr => hle r (List.mem_cons_of_mem _ hr)
    have hhead : er ≤ nr := hle (er, nr) List.mem_cons_self
    rw [sweep]
    split_ifs with hzero hlt
    · subst hzero
      exact ⟨le_rfl, rfl, rfl, hle⟩
    · obtain ⟨hleft, hsum, hcaps, hcap⟩ := sweep_spec (shortfall - 1) rest hrest
      refine ⟨by dsimp only; omega, ?_, by simp [hcaps], ?_⟩
      · simp only [List.map_cons, List.sum_cons]
        omega
      · intro r hr
        rcases List.mem_cons.1 hr with rfl | hr
        · exact hlt
        · exact hcap r hr
    · obtain ⟨hleft, hsum, hcaps, hcap⟩ := sweep_spec shortfall rest hrest
      refine ⟨hleft, ?_, by simp [hcaps], ?_⟩
      · simp only [List.map_cons, List.sum_cons]
        omega
      · intro r hr
        rcases List.mem_cons.1 hr with rfl | hr
        · exact hhead
        · exact hcap r hr

/-- A sweep that has units to place and places none finds every role at its cap. -/
theorem sweep_stuck : ∀ {shortfall : ℕ} {roles : List (ℕ × ℕ)}, (∀ r ∈ roles, r.1 ≤ r.2) →
    0 < shortfall → (sweep shortfall roles).1 = shortfall → ∀ r ∈ roles, r.1 = r.2
  | _, [], _, _, _ => by simp
  | shortfall, (er, nr) :: rest, hle, hpos, heq => by
    have hrest : ∀ r ∈ rest, r.1 ≤ r.2 := fun r hr => hle r (List.mem_cons_of_mem _ hr)
    have hhead : er ≤ nr := hle (er, nr) List.mem_cons_self
    rw [sweep, if_neg hpos.ne'] at heq
    split_ifs at heq with hlt
    · have hleft := (sweep_spec (shortfall - 1) rest hrest).1
      dsimp only at heq
      omega
    · intro r hr
      rcases List.mem_cons.1 hr with rfl | hr
      · exact Nat.le_antisymm hhead (Nat.le_of_not_lt hlt)
      · exact sweep_stuck hrest hpos heq r hr

/-- A sweep gives each role below its cap a unit, while there are units. -/
theorem sweep_left : ∀ (shortfall : ℕ) (roles : List (ℕ × ℕ)),
    (sweep shortfall roles).1 = shortfall - roles.countP fun r => r.1 < r.2
  | shortfall, [] => by simp [sweep]
  | shortfall, (er, nr) :: rest => by
    rw [sweep]
    split_ifs with hzero hlt
    · subst hzero
      simp
    · rw [List.countP_cons_of_pos (by simpa using hlt)]
      dsimp only
      rw [sweep_left (shortfall - 1) rest]
      omega
    · rw [List.countP_cons_of_neg (by simpa using hlt)]
      exact sweep_left shortfall rest

/-- No sweep lowers a role: what each has at least it keeps. -/
theorem sweep_ge : ∀ {shortfall : ℕ} {lows : List ℕ} {roles : List (ℕ × ℕ)},
    List.Forall₂ (fun low r => low ≤ r.1) lows roles →
    List.Forall₂ (fun low r => low ≤ r.1) lows (sweep shortfall roles).2
  | _, _, [], h => by simpa [sweep] using h
  | shortfall, low :: lows, (er, nr) :: rest, .cons hlow hlows => by
    rw [sweep]
    split_ifs with hzero hlt
    · exact .cons hlow hlows
    · exact .cons (hlow.trans (Nat.le_succ er)) (sweep_ge hlows)
    · exact .cons hlow (sweep_ge hlows)

theorem placeShortfall_ge : ∀ {fuel shortfall : ℕ} {lows : List ℕ} {roles roles' : List (ℕ × ℕ)},
    List.Forall₂ (fun low r => low ≤ r.1) lows roles →
    placeShortfall fuel shortfall roles = .ok roles' →
    List.Forall₂ (fun low r => low ≤ r.1) lows roles'
  | 0, shortfall, _, roles, roles', hlows, h => by
    rw [placeShortfall] at h
    split_ifs at h
    cases h
    exact hlows
  | fuel + 1, shortfall, _, roles, roles', hlows, h => by
    rw [placeShortfall] at h
    split_ifs at h
    · cases h
      exact hlows
    · dsimp only at h
      split_ifs at h
      exact placeShortfall_ge (sweep_ge hlows) h

/-- Where as many roles are below their caps as there are units to place, one sweep places them,
whatever further sweeps are allowed. -/
theorem placeShortfall_of_room {shortfall : ℕ} {roles : List (ℕ × ℕ)}
    (hroom : shortfall ≤ roles.countP fun r => r.1 < r.2) :
    placeShortfall shortfall shortfall roles = placeShortfall 1 shortfall roles := by
  rcases shortfall with _ | fuel
  · simp [placeShortfall]
  · have hleft : (sweep (fuel + 1) roles).1 = 0 := by rw [sweep_left]; omega
    have hdone : placeShortfall fuel 0 (sweep (fuel + 1) roles).2 =
        .ok (sweep (fuel + 1) roles).2 := by
      rcases fuel with _ | fuel <;> simp [placeShortfall]
    simp [placeShortfall, hleft, hdone]

theorem placeShortfall_spec : ∀ {fuel shortfall : ℕ} {roles roles' : List (ℕ × ℕ)},
    (∀ r ∈ roles, r.1 ≤ r.2) → placeShortfall fuel shortfall roles = .ok roles' →
    (roles'.map Prod.fst).sum = (roles.map Prod.fst).sum + shortfall ∧
      roles'.map Prod.snd = roles.map Prod.snd ∧ ∀ r ∈ roles', r.1 ≤ r.2
  | 0, shortfall, roles, roles', hle, h => by
    rw [placeShortfall] at h
    split_ifs at h with hzero
    cases h
    exact ⟨by omega, rfl, hle⟩
  | fuel + 1, shortfall, roles, roles', hle, h => by
    rw [placeShortfall] at h
    split_ifs at h with hzero
    · cases h
      exact ⟨by omega, rfl, hle⟩
    · obtain ⟨-, hsum, hcaps, hcap⟩ := sweep_spec shortfall roles hle
      dsimp only at h
      split_ifs at h
      obtain ⟨hsum', hcaps', hcap'⟩ := placeShortfall_spec hcap h
      exact ⟨by omega, hcaps'.trans hcaps, hcap'⟩

/-- The shortfall is placed where the caps leave room for it. -/
theorem placeShortfall_isOk : ∀ {fuel shortfall : ℕ} {roles : List (ℕ × ℕ)},
    (∀ r ∈ roles, r.1 ≤ r.2) → shortfall ≤ fuel →
    (roles.map Prod.fst).sum + shortfall ≤ (roles.map Prod.snd).sum →
    ∃ roles', placeShortfall fuel shortfall roles = .ok roles'
  | 0, shortfall, roles, _, hfuel, _ => ⟨roles, by rw [placeShortfall, if_pos (by omega)]⟩
  | fuel + 1, shortfall, roles, hle, hfuel, hroom => by
    rw [placeShortfall]
    split_ifs with hzero
    · exact ⟨roles, rfl⟩
    · obtain ⟨hleft, hsum, hcaps, hcap⟩ := sweep_spec shortfall roles hle
      dsimp only
      have hmoved : (sweep shortfall roles).1 ≠ shortfall := by
        intro heq
        have hcapped := sweep_stuck hle (Nat.pos_of_ne_zero hzero) heq
        have hmap : roles.map Prod.fst = roles.map Prod.snd := List.map_congr_left hcapped
        rw [hmap] at hroom
        omega
      rw [if_neg hmoved]
      exact placeShortfall_isOk hcap (by omega) (by rw [hcaps]; omega)

/-! ## The attribution -/

theorem floors_sum_le {e n : ℕ} (nR : List ℕ) :
    (nR.map fun nr => e * nr / n).sum ≤ e * nR.sum / n := by
  induction nR with
  | nil => simp
  | cons nr nR ih =>
    simp only [List.map_cons, List.sum_cons, Nat.mul_add]
    have hdiv : e * nr / n + e * nR.sum / n ≤ (e * nr + e * nR.sum) / n :=
      Nat.div_add_div_le_add_div
    omega

/-- What is extinguished adds up to `e`, no role gives up more than it has. -/
structure Attributes (e : ℕ) (nR eR : List ℕ) : Prop where
  sum_eq : eR.sum = e
  le : List.Forall₂ (· ≤ ·) eR nR

theorem forall₂_of_caps : ∀ {roles : List (ℕ × ℕ)}, (∀ r ∈ roles, r.1 ≤ r.2) →
    List.Forall₂ (· ≤ ·) (roles.map Prod.fst) (roles.map Prod.snd)
  | [], _ => .nil
  | r :: _, h =>
    .cons (h r List.mem_cons_self) (forall₂_of_caps fun r' hr' => h r' (List.mem_cons_of_mem _ hr'))

theorem forall₂_zero (nR : List ℕ) : List.Forall₂ (· ≤ ·) (nR.map fun _ => 0) nR := by
  induction nR with
  | nil => exact .nil
  | cons nr nR ih => exact .cons (Nat.zero_le nr) ih

section extinguish
variable {e : ℕ} {nR : List ℕ}

/-- The floors start below the caps. -/
theorem floors_le (he : e ≤ nR.sum) :
    ∀ r ∈ (nR.map fun nr => e * nr / nR.sum).zip nR, r.1 ≤ r.2 := by
  intro r hr
  rw [← List.map_prod_right_eq_zip] at hr
  obtain ⟨nr, -, rfl⟩ := List.mem_map.1 hr
  exact Nat.div_le_of_le_mul (Nat.mul_le_mul_right nr he)

theorem floors_sum_le_self (hn : 0 < nR.sum) :
    (nR.map fun nr => e * nr / nR.sum).sum ≤ e := by
  have hfloors := floors_sum_le (e := e) (n := nR.sum) nR
  rwa [Nat.mul_div_cancel _ hn] at hfloors

/-- The attribution of a part of the whole: what `extinguishPerRole` makes of it. -/
theorem extinguishPerRole_cases {eR : List ℕ} (h : extinguishPerRole e nR = .ok eR) :
    nR.length ≤ MAX_ROLES ∧ (∀ nr ∈ nR, nr < 2 ^ 128) ∧
      (nR.sum = 0 ∧ e = 0 ∧ eR = nR.map (fun _ => 0) ∨
        0 < nR.sum ∧ e ≤ nR.sum ∧ ∃ roles, eR = roles.map Prod.fst ∧
          placeShortfall (e - (nR.map fun nr => e * nr / nR.sum).sum)
            (e - (nR.map fun nr => e * nr / nR.sum).sum)
            ((nR.map fun nr => e * nr / nR.sum).zip nR) = .ok roles) := by
  unfold extinguishPerRole at h
  simp only [bind_eq_ok, checkDomain_eq_ok] at h
  obtain ⟨⟨⟩, ⟨hlen, hlt⟩, h⟩ := h
  have hsum : sum nR = nR.sum :=
    sum_eq_of_le ((sum_lt_of_domain hlen hlt).le.trans (by decide))
  refine ⟨hlen, hlt, ?_⟩
  rw [hsum] at h
  split_ifs at h with hzero he hgt
  · cases h
    exact .inl ⟨hzero, not_not.1 he, rfl⟩
  · have hle : e ≤ nR.sum := Nat.le_of_not_lt hgt
    have hfloor : (nR.map fun nr => e * nr / nR.sum).sum ≤ nR.sum := by
      exact (floors_sum_le_self (Nat.pos_of_ne_zero hzero)).trans hle
    have hmax : sum (nR.map fun nr => e * nr / nR.sum) = (nR.map fun nr => e * nr / nR.sum).sum :=
      sum_eq_of_le (hfloor.trans ((sum_lt_of_domain hlen hlt).le.trans (by decide)))
    simp only [bind_eq_ok, pure_eq_ok] at h
    obtain ⟨roles, hplace, rfl⟩ := h
    rw [hmax] at hplace
    exact .inr ⟨Nat.pos_of_ne_zero hzero, hle, roles, rfl, hplace⟩

theorem extinguishPerRole_spec {eR : List ℕ} (h : extinguishPerRole e nR = .ok eR) :
    Attributes e nR eR := by
  obtain ⟨-, -, ⟨-, rfl, rfl⟩ | ⟨hn, he, roles, rfl, hplace⟩⟩ := extinguishPerRole_cases h
  · exact ⟨by simp, forall₂_zero nR⟩
  · obtain ⟨hsum, hcaps, hcap⟩ := placeShortfall_spec (floors_le he) hplace
    have hfst : ((nR.map fun nr => e * nr / nR.sum).zip nR).map Prod.fst =
        nR.map fun nr => e * nr / nR.sum := List.map_fst_zip (by simp)
    have hsnd : ((nR.map fun nr => e * nr / nR.sum).zip nR).map Prod.snd = nR :=
      List.map_snd_zip (by simp)
    have hle := floors_sum_le_self (e := e) hn
    have hall := forall₂_of_caps hcap
    rw [hcaps, hsnd] at hall
    rw [hfst] at hsum
    exact ⟨by omega, hall⟩

theorem extinguishPerRole_isOk (hlen : nR.length ≤ MAX_ROLES) (hlt : ∀ nr ∈ nR, nr < 2 ^ 128)
    (he : e ≤ nR.sum) : ∃ eR, extinguishPerRole e nR = .ok eR := by
  have hsum : sum nR = nR.sum :=
    sum_eq_of_le ((sum_lt_of_domain hlen hlt).le.trans (by decide))
  unfold extinguishPerRole
  simp only [bind_eq_ok, checkDomain_eq_ok, hsum]
  by_cases hzero : nR.sum = 0
  · have hnone : e = 0 := by omega
    refine ⟨nR.map fun _ => 0, ⟨⟩, ⟨hlen, hlt⟩, ?_⟩
    rw [if_pos hzero, if_neg (not_not.2 hnone)]
    rfl
  · have hn : 0 < nR.sum := Nat.pos_of_ne_zero hzero
    have hle := floors_sum_le_self (e := e) hn
    have hmax : sum (nR.map fun nr => e * nr / nR.sum) = (nR.map fun nr => e * nr / nR.sum).sum :=
      sum_eq_of_le ((hle.trans he).trans ((sum_lt_of_domain hlen hlt).le.trans (by decide)))
    have hroom : (((nR.map fun nr => e * nr / nR.sum).zip nR).map Prod.fst).sum +
        (e - (nR.map fun nr => e * nr / nR.sum).sum) ≤
          (((nR.map fun nr => e * nr / nR.sum).zip nR).map Prod.snd).sum := by
      rw [List.map_fst_zip (by simp), List.map_snd_zip (by simp)]
      omega
    obtain ⟨roles, hroles⟩ := placeShortfall_isOk (floors_le he) le_rfl hroom
    refine ⟨roles.map Prod.fst, ⟨⟩, ⟨hlen, hlt⟩, ?_⟩
    rw [if_neg hzero, if_neg (Nat.not_lt.2 he), hmax]
    simp only [bind_eq_ok, pure_eq_ok]
    exact ⟨roles, hroles, rfl⟩

end extinguish

/-! ## How the shortfall is placed -/

section oneSweep
variable {e : ℕ} {nR : List ℕ}

/-- A role whose share has a remainder has its floor below its cap. -/
theorem floor_lt_of_mod_pos {n nr : ℕ} (he : e ≤ n) (hmod : 0 < e * nr % n) :
    e * nr / n < nr := by
  have hdiv := Nat.div_add_mod (e * nr) n
  have hmul : e * nr ≤ n * nr := Nat.mul_le_mul_right nr he
  exact lt_of_mul_lt_mul_left (by omega : n * (e * nr / n) < n * nr) (Nat.zero_le n)

/-- The remainders of the shares add up to whole units of the sum, each less than one: what the
floors and as many units as there are roles below their caps cover. -/
theorem remainders_le {n : ℕ} (hn : 0 < n) (he : e ≤ n) : ∀ nR : List ℕ,
    e * nR.sum ≤ n * (nR.map fun nr => e * nr / n).sum +
      n * ((nR.map fun nr => e * nr / n).zip nR).countP fun r => r.1 < r.2
  | [] => by simp
  | nr :: nR => by
    have ih := remainders_le hn he nR
    have hdiv := Nat.div_add_mod (e * nr) n
    have hlt := Nat.mod_lt (e * nr) hn
    simp only [List.map_cons, List.sum_cons, List.zip_cons_cons, Nat.mul_add]
    by_cases hmod : 0 < e * nr % n
    · rw [List.countP_cons_of_pos (by simpa using floor_lt_of_mod_pos he hmod), Nat.mul_succ]
      omega
    · have hmono : n * ((nR.map fun nr => e * nr / n).zip nR).countP (fun r => r.1 < r.2) ≤
          n * ((e * nr / n, nr) :: (nR.map fun nr => e * nr / n).zip nR).countP
            (fun r => r.1 < r.2) :=
        Nat.mul_le_mul_left n (by rw [List.countP_cons]; omega)
      omega

/-- What the floors leave to place is at most a unit for each role below its cap. -/
theorem shortfall_le_room (he : e ≤ nR.sum) :
    e - (nR.map fun nr => e * nr / nR.sum).sum ≤
      ((nR.map fun nr => e * nr / nR.sum).zip nR).countP fun r => r.1 < r.2 := by
  by_cases hzero : nR.sum = 0
  · omega
  · have hn : 0 < nR.sum := Nat.pos_of_ne_zero hzero
    have hcover := remainders_le hn he nR
    rw [Nat.mul_comm e, ← Nat.mul_add] at hcover
    have := Nat.le_of_mul_le_mul_left hcover hn
    omega

theorem floors_low (floors : List ℕ) : ∀ nR : List ℕ, floors.length = nR.length →
    List.Forall₂ (fun low r => low ≤ r.1) floors (floors.zip nR) := by
  induction floors with
  | nil => intro nR _; simp
  | cons f floors ih =>
    rintro (_ | ⟨nr, nR⟩) hlen
    · simp at hlen
    · exact .cons le_rfl (ih nR (by simpa using hlen))

/-- Every role gives up its share rounded down, at least. -/
theorem extinguishPerRole_ge {eR : List ℕ} (h : extinguishPerRole e nR = .ok eR) :
    List.Forall₂ (· ≤ ·) (nR.map fun nr => e * nr / nR.sum) eR := by
  obtain ⟨-, -, ⟨hn, rfl, rfl⟩ | ⟨-, -, roles, rfl, hplace⟩⟩ := extinguishPerRole_cases h
  · simp [hn]
  · have hlow := placeShortfall_ge (floors_low _ nR (by simp)) hplace
    exact List.forall₂_map_right_iff.2 hlow

theorem narrow_floor {nr : ℕ} (hlt : nr < 2 ^ 128) (he : e ≤ nR.sum) :
    narrow (e * nr / nR.sum) = some (e * nr / nR.sum) := by
  have hle : e * nr / nR.sum ≤ nr := Nat.div_le_of_le_mul (Nat.mul_le_mul_right nr he)
  unfold narrow U256_MAX
  rw [if_pos (by omega)]

/-- An attribution takes one sweep at most. -/
theorem extinguishPerRole_oneSweep {eR : List ℕ} (h : extinguishPerRole e nR = .ok eR) :
    ∃ roles, placeShortfall 1 (e - sum (nR.map fun nr => e * nr / sum nR))
      ((nR.map fun nr => e * nr / sum nR).zip nR) = .ok roles ∧ eR = roles.map Prod.fst := by
  obtain ⟨hlen, hlt, hcases⟩ := extinguishPerRole_cases h
  have hsmall : nR.sum ≤ U256_MAX := (sum_lt_of_domain hlen hlt).le.trans (by decide)
  rw [sum_eq_of_le hsmall]
  rcases hcases with ⟨hn, rfl, rfl⟩ | ⟨hn, he, roles, rfl, hplace⟩
  · refine ⟨(nR.map fun _ => 0).zip nR, by simp [placeShortfall, hn], ?_⟩
    rw [List.map_fst_zip (by simp)]
  · have hfloors := (floors_sum_le_self (e := e) hn).trans he
    rw [sum_eq_of_le (hfloors.trans hsmall)]
    rw [placeShortfall_of_room (shortfall_le_room he)] at hplace
    exact ⟨roles, hplace, rfl⟩

/-- The attribution of a part of the outstanding numerators succeeds and adds up to that part,
each role giving up at least its share rounded down and at most all it has. At most one sweep
places what the floors leave, and no quotient passes 256 bits. -/
theorem extinguishPerRole_exact (e : ℕ) (nR : List ℕ) (hdomain : checkDomain nR = .ok ())
    (he : e ≤ nR.sum) :
    ∃ eR, extinguishPerRole e nR = .ok eR ∧ eR.sum = e ∧
      List.Forall₂ (fun nr er => e * nr / nR.sum ≤ er ∧ er ≤ nr) nR eR ∧
      (∃ roles, placeShortfall 1 (e - sum (nR.map fun nr => e * nr / sum nR))
        ((nR.map fun nr => e * nr / sum nR).zip nR) = .ok roles ∧ eR = roles.map Prod.fst) ∧
      ∀ nr ∈ nR, narrow (e * nr / sum nR) = some (e * nr / sum nR) := by
  obtain ⟨hlen, hlt⟩ := checkDomain_eq_ok.1 hdomain
  have hsum : sum nR = nR.sum := sum_eq_of_le ((sum_lt_of_domain hlen hlt).le.trans (by decide))
  obtain ⟨eR, heR⟩ := extinguishPerRole_isOk hlen hlt he
  obtain ⟨htotal, hle⟩ := extinguishPerRole_spec heR
  have hge := List.forall₂_map_left_iff.1 (extinguishPerRole_ge heR)
  refine ⟨eR, heR, htotal, hge.mp (fun _ _ hlow hcap => ⟨hlow, hcap⟩) hle.flip,
    extinguishPerRole_oneSweep heR, ?_⟩
  rw [hsum]
  exact fun nr hnr => narrow_floor (hlt nr hnr) he

/-- Three roles, one with nothing, that give up all but one of their units. -/
theorem extinguishPerRole_exact_partial :
    ∃ eR, extinguishPerRole 9 [5, 0, 5] = .ok eR ∧ eR.sum = 9 :=
  have hdomain : checkDomain [5, 0, 5] = .ok () := by decide
  have hle : 9 ≤ [5, 0, 5].sum := by decide
  let ⟨eR, hok, htotal, _⟩ := extinguishPerRole_exact 9 [5, 0, 5] hdomain hle
  ⟨eR, hok, htotal⟩

end oneSweep

/-! ## The unity rate -/

/-- What a round at the unity rate divides its outstanding numerators into. -/
structure Divides (nR : List ℕ) (d : RoundDivision) : Prop where
  p_eq : d.p = nR.sum / BP_DENOM
  attributes : Attributes (d.p * BP_DENOM) nR d.eR
  leg_iff : d.leg = true ↔ 0 < d.p

/-- The unity rate. -/
def unity : Rate := ⟨1, 1, by decide, by decide, by decide, by decide⟩

theorem rateNew_one : Rate.new 1 1 = .ok unity := rfl

theorem computeP_unity {n : ℕ} (hn : n < 2 ^ 135) : computeP n unity = .ok (n / BP_DENOM) := by
  have hmul : checkedMul n unity.p = .ok n := by
    unfold checkedMul U256_MAX
    rw [if_pos (by show n * 1 ≤ _; omega)]
    exact congrArg Except.ok (Nat.mul_one n)
  have hlt : n / (unity.q * BP_DENOM) < 2 ^ 128 := by
    show n / (1 * 10000) < 2 ^ 128
    omega
  unfold computeP
  simp only [bind_eq_ok]
  refine ⟨n, hmul, ?_⟩
  rw [if_pos hlt]
  show Except.ok (n / (1 * BP_DENOM)) = _
  rw [Nat.one_mul]

theorem computeE_unity {p : ℕ} (hp : p < 2 ^ 135) : computeE p unity = .ok (p * BP_DENOM) := by
  have hq : checkedMul p unity.q = .ok p := by
    unfold checkedMul U256_MAX
    rw [if_pos (by show p * 1 ≤ _; omega)]
    exact congrArg Except.ok (Nat.mul_one p)
  have hmul : checkedMul p BP_DENOM = .ok (p * BP_DENOM) := by
    unfold checkedMul U256_MAX BP_DENOM
    rw [if_pos (by omega)]
  unfold computeE
  simp only [bind_eq_ok, pure_eq_ok]
  refine ⟨p, hq, p * BP_DENOM, hmul, ?_⟩
  show p * BP_DENOM / 1 = _
  rw [Nat.div_one]

/-- A round at the unity rate: its domain, and the attribution of the whole units. -/
theorem divideRound_unity_iff {nR : List ℕ} {d : RoundDivision} :
    divideRound nR unity = .ok d ↔ (nR.length ≤ MAX_ROLES ∧ ∀ nr ∈ nR, nr < 2 ^ 128) ∧
      ∃ eR, extinguishPerRole (nR.sum / BP_DENOM * BP_DENOM) nR = .ok eR ∧
        d = { p := nR.sum / BP_DENOM, e := nR.sum / BP_DENOM * BP_DENOM, eR
              leg := carriesLeg (nR.sum / BP_DENOM * BP_DENOM) } := by
  unfold divideRound
  simp only [bind_eq_ok, checkDomain_eq_ok]
  constructor
  · rintro ⟨⟨⟩, ⟨hlen, hlt⟩, h⟩
    have hsmall := sum_lt_of_domain hlen hlt
    have hsum : sum nR = nR.sum := sum_eq_of_le (hsmall.le.trans (by decide))
    have hp : nR.sum / BP_DENOM < 2 ^ 135 := (Nat.div_le_self _ _).trans_lt hsmall
    have he : ¬nR.sum / BP_DENOM * BP_DENOM > nR.sum := Nat.not_lt.2 (Nat.div_mul_le_self _ _)
    simp only [hsum, computeP_unity hsmall, Except.ok.injEq] at h
    obtain ⟨_, rfl, _, h, hd⟩ := h
    cases (computeE_unity hp).symm.trans h
    rw [if_neg he] at hd
    simp only [bind_eq_ok, pure_eq_ok] at hd
    obtain ⟨eR, heR, rfl⟩ := hd
    exact ⟨⟨hlen, hlt⟩, eR, heR, rfl⟩
  · rintro ⟨⟨hlen, hlt⟩, eR, heR, rfl⟩
    have hsmall := sum_lt_of_domain hlen hlt
    have hsum : sum nR = nR.sum := sum_eq_of_le (hsmall.le.trans (by decide))
    have hp : nR.sum / BP_DENOM < 2 ^ 135 := (Nat.div_le_self _ _).trans_lt hsmall
    have he : ¬nR.sum / BP_DENOM * BP_DENOM > nR.sum := Nat.not_lt.2 (Nat.div_mul_le_self _ _)
    refine ⟨⟨⟩, ⟨hlen, hlt⟩, _, by rw [hsum, computeP_unity hsmall], _, computeE_unity hp, ?_⟩
    rw [hsum, if_neg he]
    simp only [bind_eq_ok, pure_eq_ok]
    exact ⟨eR, heR, rfl⟩

theorem divideRound_unity {nR : List ℕ} {d : RoundDivision} (h : divideRound nR unity = .ok d) :
    Divides nR d := by
  obtain ⟨-, eR, heR, rfl⟩ := divideRound_unity_iff.1 h
  refine ⟨rfl, extinguishPerRole_spec heR, ?_⟩
  show (nR.sum / 10000 * 10000 != 0) = true ↔ 0 < nR.sum / 10000
  rw [bne_iff_ne]
  omega

/-- Numerators in the settlement domain divide at the unity rate. -/
theorem divideRound_isOk (nR : List ℕ) (hlen : nR.length ≤ MAX_ROLES)
    (hlt : ∀ nr ∈ nR, nr < 2 ^ 128) : ∃ d, divideRound nR unity = .ok d := by
  obtain ⟨eR, heR⟩ := extinguishPerRole_isOk hlen hlt (Nat.div_mul_le_self nR.sum BP_DENOM)
  exact ⟨_, divideRound_unity_iff.2 ⟨⟨hlen, hlt⟩, eR, heR, rfl⟩⟩

end Fee

end Paytp
