import Paytp.Proofs.Roles
import Paytp.Rounds

/-!
# The rounds of a channel

However accruals and rounds alternate, no role settles more than it accrued, and a round with a
leg leaves less outstanding: at any rate the rounds come to one without a leg. At the unity rate
they carve together what one round over everything they settled carves.
-/

namespace Paytp

namespace Fee

/-! ## A round at any rate -/

section rate
variable {nR : List ℕ} {rate : Rate}

/-- What the payment of a round covers is no more than what it was made of. -/
theorem covered_le (n : ℕ) (rate : Rate) :
    n * rate.p / (rate.q * BP_DENOM) * rate.q * BP_DENOM / rate.p ≤ n := by
  have hpay := Nat.div_mul_le_self (n * rate.p) (rate.q * BP_DENOM)
  rw [Nat.mul_assoc]
  exact Nat.div_le_of_le_mul (hpay.trans (Nat.mul_comm _ _).le)

theorem checkedMul_eq_ok {a b m : ℕ} : checkedMul a b = .ok m ↔ a * b ≤ U256_MAX ∧ m = a * b := by
  unfold checkedMul
  split_ifs with h <;> simp [h, eq_comm]

theorem computeP_eq_ok {n p : ℕ} (hn : n < 2 ^ 135) :
    computeP n rate = .ok p ↔ p < 2 ^ 128 ∧ p = n * rate.p / (rate.q * BP_DENOM) := by
  have hmul : n * rate.p ≤ U256_MAX := by
    have hle : n * rate.p ≤ 2 ^ 135 * 2 ^ 64 := Nat.mul_le_mul hn.le rate.p_lt.le
    exact hle.trans (by decide)
  unfold computeP
  simp only [bind_eq_ok, checkedMul_eq_ok]
  constructor
  · rintro ⟨_, ⟨-, rfl⟩, h⟩
    split_ifs at h with hlt
    cases h
    exact ⟨hlt, rfl⟩
  · rintro ⟨hlt, rfl⟩
    exact ⟨_, ⟨hmul, rfl⟩, by rw [if_pos hlt]; rfl⟩

theorem computeE_of_lt {p : ℕ} (hp : p < 2 ^ 128) :
    computeE p rate = .ok (p * rate.q * BP_DENOM / rate.p) := by
  have hq : p * rate.q ≤ 2 ^ 128 * 2 ^ 64 := Nat.mul_le_mul hp.le rate.q_lt.le
  have hmul : p * rate.q * BP_DENOM ≤ 2 ^ 128 * 2 ^ 64 * BP_DENOM := Nat.mul_le_mul_right _ hq
  unfold computeE
  simp only [bind_eq_ok, checkedMul_eq_ok, pure_eq_ok]
  exact ⟨_, ⟨hq.trans (by decide), rfl⟩, _, ⟨hmul.trans (by decide), rfl⟩, rfl⟩

/-- A round at any rate: its domain, the bound on its payment, and the attribution of what the
payment covers. -/
theorem divideRound_eq_ok {d : RoundDivision} :
    divideRound nR rate = .ok d ↔ checkDomain nR = .ok () ∧ d.p < 2 ^ 128 ∧
      d.p = nR.sum * rate.p / (rate.q * BP_DENOM) ∧ d.e = d.p * rate.q * BP_DENOM / rate.p ∧
      d.leg = carriesLeg d.e ∧ extinguishPerRole d.e nR = .ok d.eR := by
  unfold divideRound
  simp only [bind_eq_ok]
  constructor
  · rintro ⟨⟨⟩, hdomain, h⟩
    obtain ⟨hlen, hlt⟩ := checkDomain_eq_ok.1 hdomain
    have hsmall := sum_lt_of_domain hlen hlt
    rw [sum_eq_of_le (hsmall.le.trans (by decide))] at h
    obtain ⟨p, hp, e, he, h⟩ := h
    obtain ⟨hplt, rfl⟩ := (computeP_eq_ok hsmall).1 hp
    cases (computeE_of_lt hplt).symm.trans he
    rw [if_neg (Nat.not_lt.2 (covered_le _ _))] at h
    simp only [bind_eq_ok, pure_eq_ok] at h
    obtain ⟨eR, heR, rfl⟩ := h
    exact ⟨hdomain, hplt, rfl, rfl, rfl, heR⟩
  · rcases d with ⟨p, e, eR, leg⟩
    rintro ⟨hdomain, hplt, hp, he, hleg, heR⟩
    dsimp only at hplt hp he hleg heR
    subst he hleg
    obtain ⟨hlen, hlt⟩ := checkDomain_eq_ok.1 hdomain
    have hsmall := sum_lt_of_domain hlen hlt
    refine ⟨⟨⟩, hdomain, p, ?_, _, computeE_of_lt hplt, ?_⟩
    · rw [sum_eq_of_le (hsmall.le.trans (by decide)), computeP_eq_ok hsmall]
      exact ⟨hplt, hp⟩
    · rw [sum_eq_of_le (hsmall.le.trans (by decide)),
        if_neg (Nat.not_lt.2 (hp ▸ covered_le nR.sum rate))]
      simp only [bind_eq_ok, pure_eq_ok]
      exact ⟨eR, heR, rfl⟩

end rate

end Fee

namespace Settlement

open Fee

/-! ## One round -/

theorem roles_aligned {accrued settled : List (UInt8 × ℕ)} :
    (accrued.length == settled.length &&
        !(accrued.zip settled).any fun p => p.1.1 != p.2.1) = true ↔
      accrued.map Prod.fst = settled.map Prod.fst := by
  induction accrued generalizing settled with
  | nil => rcases settled with _ | ⟨e, settled⟩ <;> simp
  | cons a accrued ih =>
    rcases settled with _ | ⟨e, settled⟩
    · simp
    · simp only [Bool.and_eq_true, beq_iff_eq, Bool.not_eq_true', List.length_cons,
        Nat.add_right_cancel_iff, List.zip_cons_cons, List.any_cons, Bool.or_eq_false_iff,
        bne_eq_false_iff_eq, List.map_cons, List.cons.injEq] at ih ⊢
      rw [← ih]
      tauto

/-- What a round of `accrued` over `settled` divides. -/
def outstandingOf (accrued settled : List (UInt8 × ℕ)) : List ℕ :=
  List.zipWith (· - ·) (accrued.map Prod.snd) (settled.map Prod.snd)

theorem Round.compute_eq_ok {accrued settled : List (UInt8 × ℕ)} {rate : Rate} {r : Round} :
    Round.compute accrued settled rate = .ok r ↔
      accrued.map Prod.fst = settled.map Prod.fst ∧
      (∀ n ∈ accrued.map Prod.snd ++ settled.map Prod.snd, n < 2 ^ 128) ∧
      List.Forall₂ (· ≤ ·) (settled.map Prod.snd) (accrued.map Prod.snd) ∧
      r.roles = accrued.map Prod.fst ∧
      divideRound (outstandingOf accrued settled) rate = .ok r.division := by
  have hbig : ∀ n < 2 ^ 128, n ≤ U256_MAX := fun n hn => hn.le.trans (by decide)
  have hdomain : ∀ l : List ℕ, (!l.any fun v => v ≥ 2 ^ 128) = true ↔ ∀ n ∈ l, n < 2 ^ 128 := by
    simp
  unfold Round.compute
  simp only [bind_eq_ok, require_eq_ok, roles_aligned, hdomain,
    mapM_eq_ok fun _ _ => u256FromBiguint_eq_ok, outstandingMeedPerRole_eq_ok, pure_eq_ok,
    List.map_id', outstandingOf]
  constructor
  · rintro ⟨-, halign, _, ⟨-, rfl⟩, _, ⟨-, rfl⟩, -, hlt, _, ⟨hlen, hle, rfl⟩, d, hd, rfl⟩
    refine ⟨halign, hlt, ?_, rfl, ?_⟩
    · exact (List.forall₂_iff_zip.2 ⟨hlen, fun h => hle _ h⟩).flip
    · rwa [List.map_zip_eq_zipWith] at hd
  · rintro ⟨halign, hlt, hle, hroles, hd⟩
    have hle' := List.forall₂_iff_zip.1 hle.flip
    refine ⟨⟨⟩, halign, _, ⟨fun n hn => hbig n (hlt n (List.mem_append_left _ hn)), rfl⟩, _,
      ⟨fun n hn => hbig n (hlt n (List.mem_append_right _ hn)), rfl⟩, ⟨⟩, hlt, _,
      ⟨hle'.1, fun p hp => hle'.2 hp, rfl⟩, r.division, ?_, ?_⟩
    · rwa [List.map_zip_eq_zipWith]
    · rw [← hroles]

/-! ## The lists of a history -/

theorem map_fst_addPerRole {entries : List (UInt8 × ℕ)} {amounts : List ℕ}
    (hlen : amounts.length = entries.length) :
    (addPerRole entries amounts).map Prod.fst = entries.map Prod.fst := by
  unfold addPerRole
  induction entries generalizing amounts with
  | nil => simp
  | cons e entries ih =>
    rcases amounts with _ | ⟨n, amounts⟩
    · simp at hlen
    · simpa using ih (by simpa using hlen)

theorem map_snd_addPerRole (entries : List (UInt8 × ℕ)) (amounts : List ℕ) :
    (addPerRole entries amounts).map Prod.snd =
      List.zipWith (· + ·) (entries.map Prod.snd) amounts := by
  unfold addPerRole
  rw [List.map_zipWith, List.zipWith_map_left]

theorem sum_zipWith_add : ∀ {as bs : List ℕ}, as.length = bs.length →
    (List.zipWith (· + ·) as bs).sum = as.sum + bs.sum
  | [], [], _ => rfl
  | a :: as, b :: bs, h => by
    have ih := @sum_zipWith_add as bs (by simpa using h)
    simp only [List.zipWith_cons_cons, List.sum_cons, ih]
    omega

/-- What is left of every role adds up to what is left of the sum. -/
theorem sum_zipWith_sub {settled accrued : List ℕ} (hle : List.Forall₂ (· ≤ ·) settled accrued) :
    (List.zipWith (· - ·) accrued settled).sum = accrued.sum - settled.sum ∧
      settled.sum ≤ accrued.sum := by
  induction hle with
  | nil => simp
  | cons h _ ih =>
    simp only [List.zipWith_cons_cons, List.sum_cons]
    omega

theorem below_of_le {settled accrued : List ℕ} {bound : ℕ}
    (hle : List.Forall₂ (· ≤ ·) settled accrued) (hlt : ∀ n ∈ accrued, n < bound) :
    (∀ n ∈ settled, n < bound) ∧ ∀ n ∈ List.zipWith (· - ·) accrued settled, n < bound := by
  induction hle with
  | nil => simp
  | cons h _ ih =>
    obtain ⟨hhead, hrest⟩ := List.forall_mem_cons.1 hlt
    obtain ⟨hsettled, hleft⟩ := ih hrest
    rw [List.zipWith_cons_cons, List.forall_mem_cons, List.forall_mem_cons]
    exact ⟨⟨h.trans_lt hhead, hsettled⟩, (Nat.sub_le _ _).trans_lt hhead, hleft⟩

/-- Settling no more than is left of each role settles no more than it accrued. -/
theorem settles_within {accrued : List ℕ} : ∀ {settled eR : List ℕ},
    List.Forall₂ (· ≤ ·) settled accrued →
    List.Forall₂ (· ≤ ·) eR (List.zipWith (· - ·) accrued settled) →
    List.Forall₂ (· ≤ ·) (List.zipWith (· + ·) settled eR) accrued := by
  induction accrued with
  | nil => rintro _ _ ⟨⟩ -; simp
  | cons a accrued ih =>
    rintro _ _ (_ | ⟨hs, hle⟩) (_ | ⟨he, heR⟩)
    exact .cons (by dsimp only at he ⊢; omega) (ih hle heR)

theorem accrues_above {settled : List ℕ} : ∀ {accrued amounts : List ℕ},
    amounts.length = accrued.length → List.Forall₂ (· ≤ ·) settled accrued →
    List.Forall₂ (· ≤ ·) settled (List.zipWith (· + ·) accrued amounts) := by
  induction settled with
  | nil => rintro _ _ - ⟨⟩; simp
  | cons s settled ih =>
    rintro _ (_ | ⟨n, amounts⟩) hlen (_ | ⟨hs, hle⟩)
    · simp at hlen
    · exact .cons (by dsimp only; omega) (ih (by simpa using hlen) hle)

/-! ## The steps of a history -/

namespace History

/-- Accrued and settled name the same roles, and no role has settled more than it accrued. -/
structure Sound (h : History) : Prop where
  roles : h.settled.map Prod.fst = h.accrued.map Prod.fst
  le : List.Forall₂ (· ≤ ·) (h.settled.map Prod.snd) (h.accrued.map Prod.snd)

section sound
variable {h : History} {rate : Rate} {r : Round}

theorem new_sound (roles : List UInt8) : (new roles).Sound :=
  ⟨rfl, List.forall₂_same.2 fun _ _ => le_rfl⟩

theorem Sound.length_eq (hs : h.Sound) : h.settled.length = h.accrued.length := by
  simpa using congrArg List.length hs.roles

theorem Sound.sum_outstanding (hs : h.Sound) :
    (outstandingOf h.accrued h.settled).sum = h.outstandingTotal ∧
      h.settledTotal ≤ (h.accrued.map Prod.snd).sum :=
  sum_zipWith_sub hs.le

/-- A round of a sound history: what it pays, what it extinguishes and from whom. -/
theorem Sound.nextRound_eq_ok (hs : h.Sound) :
    h.nextRound rate = .ok r ↔ h.accrued.length ≤ MAX_ROLES ∧
      (∀ n ∈ h.accrued.map Prod.snd, n < 2 ^ 128) ∧ r.roles = h.accrued.map Prod.fst ∧
      r.division.p < 2 ^ 128 ∧
      r.division.p = h.outstandingTotal * rate.p / (rate.q * BP_DENOM) ∧
      r.division.e = r.division.p * rate.q * BP_DENOM / rate.p ∧
      r.division.leg = carriesLeg r.division.e ∧
      extinguishPerRole r.division.e (outstandingOf h.accrued h.settled) = .ok r.division.eR := by
  have hlen : (outstandingOf h.accrued h.settled).length = h.accrued.length := by
    simp [outstandingOf, hs.length_eq]
  unfold nextRound
  rw [Round.compute_eq_ok, divideRound_eq_ok, checkDomain_eq_ok, hlen, hs.sum_outstanding.1]
  constructor
  · rintro ⟨-, hlt, -, hroles, ⟨hmax, -⟩, hdiv⟩
    exact ⟨hmax, fun n hn => hlt n (List.mem_append_left _ hn), hroles, hdiv⟩
  · rintro ⟨hmax, hlt, hroles, hdiv⟩
    obtain ⟨hsettled, hout⟩ := below_of_le hs.le hlt
    exact ⟨hs.roles.symm, List.forall_mem_append.2 ⟨hlt, hsettled⟩, hs.le, hroles, ⟨hmax, hout⟩,
      hdiv⟩

/-- What a round extinguishes is no more than what is outstanding of each role. -/
theorem Sound.round_attributes (hs : h.Sound) (hr : h.nextRound rate = .ok r) :
    Attributes r.division.e (outstandingOf h.accrued h.settled) r.division.eR :=
  extinguishPerRole_spec (hs.nextRound_eq_ok.1 hr).2.2.2.2.2.2.2

/-- What a round names as extinguished is of every role of the history, and is all that it
extinguishes. -/
theorem Sound.round_extinguished (hs : h.Sound) (hr : h.nextRound rate = .ok r) :
    r.extinguished.map Prod.fst = h.accrued.map Prod.fst ∧
      (r.extinguished.map Prod.snd).sum = r.division.e := by
  obtain ⟨hsum, hle⟩ := hs.round_attributes hr
  have hroles := (hs.nextRound_eq_ok.1 hr).2.2.1
  have hlen : r.division.eR.length = r.roles.length := by
    rw [hle.length_eq, hroles]
    simp [outstandingOf, hs.length_eq]
  unfold Round.extinguished
  rw [List.map_fst_zip hlen.ge, List.map_snd_zip hlen.le]
  exact ⟨hroles, hsum⟩

/-- A round that carries no leg extinguishes nothing. -/
theorem Sound.round_leg (hs : h.Sound) (hr : h.nextRound rate = .ok r) :
    r.fundsClaimRecord = true ↔ 0 < r.division.e := by
  have hleg := (hs.nextRound_eq_ok.1 hr).2.2.2.2.2.2.1
  unfold Round.fundsClaimRecord
  rw [hleg, carriesLeg, bne_iff_ne, Nat.pos_iff_ne_zero]

theorem step_round_of_ok (hr : h.nextRound rate = .ok r) :
    h.step (.round rate) =
      ({ h with
          settled := if r.fundsClaimRecord then addPerRole h.settled r.division.eR else h.settled
          carved := h.carved ++ [r.amount] }, .ok (some r)) := by
  simp only [History.step, hr]

/-- A round records what it extinguished, and nobody accrues by it. -/
theorem Sound.step_round (hs : h.Sound) (hr : h.nextRound rate = .ok r) :
    ((h.step (.round rate)).1).Sound ∧
      ((h.step (.round rate)).1).accrued = h.accrued ∧
      ((h.step (.round rate)).1).settledTotal = h.settledTotal + r.division.e ∧
      ((h.step (.round rate)).1).carved = h.carved ++ [r.amount] ∧
      r.division.e ≤ h.outstandingTotal := by
  obtain ⟨hsum, hle⟩ := hs.round_attributes hr
  have hlen : r.division.eR.length = h.settled.length := by
    rw [hle.length_eq]
    simp [outstandingOf, hs.length_eq]
  have hroom : r.division.e ≤ h.outstandingTotal := by
    rw [← hsum, ← hs.sum_outstanding.1]
    exact hle.sum_le_sum
  rw [step_round_of_ok hr]
  by_cases hleg : r.fundsClaimRecord = true
  · rw [if_pos hleg]
    refine ⟨⟨(map_fst_addPerRole hlen).trans hs.roles, ?_⟩, rfl, ?_, rfl, hroom⟩
    · dsimp only
      rw [map_snd_addPerRole]
      exact settles_within hs.le hle
    · unfold settledTotal
      dsimp only
      rw [map_snd_addPerRole, sum_zipWith_add (by simpa using hlen.symm), hsum]
  · have hnone : r.division.e = 0 := by
      have := (hs.round_leg hr).not.1 hleg
      omega
    rw [if_neg hleg]
    exact ⟨⟨hs.roles, hs.le⟩, rfl, by rw [hnone]; rfl, rfl, hroom⟩

theorem Sound.step_accrue (hs : h.Sound) (amounts : List ℕ) :
    ((h.step (.accrue amounts)).1).Sound ∧
      ((h.step (.accrue amounts)).1).settledTotal = h.settledTotal ∧
      ((h.step (.accrue amounts)).1).carved = h.carved := by
  unfold step
  dsimp only
  split_ifs with hlen
  · refine ⟨⟨hs.roles.trans (map_fst_addPerRole hlen).symm, ?_⟩, rfl, rfl⟩
    dsimp only
    rw [map_snd_addPerRole]
    exact accrues_above (by simpa using hlen) hs.le
  · exact ⟨hs, rfl, rfl⟩

theorem Sound.step (hs : h.Sound) (e : Event) : ((h.step e).1).Sound := by
  rcases e with amounts | rate
  · exact (hs.step_accrue amounts).1
  · rcases hr : h.nextRound rate with err | r
    · simpa [History.step, hr] using hs
    · exact (hs.step_round hr).1

/-! ## Rounds without accrual -/

theorem Sound.step_outstanding (hs : h.Sound) (hr : h.nextRound rate = .ok r) :
    ((h.step (.round rate)).1).outstandingTotal + r.division.e = h.outstandingTotal := by
  obtain ⟨-, haccrued, hsettled, -, hroom⟩ := hs.step_round hr
  unfold outstandingTotal at hroom ⊢
  rw [haccrued, hsettled]
  omega

/-- In the domain a rate divides what is outstanding unless the payment leaves 128 bits. -/
theorem Sound.nextRound_isOk (hs : h.Sound) (hmax : h.accrued.length ≤ MAX_ROLES)
    (hlt : ∀ n ∈ h.accrued.map Prod.snd, n < 2 ^ 128)
    (hpay : h.outstandingTotal * rate.p / (rate.q * BP_DENOM) < 2 ^ 128) :
    ∃ r, h.nextRound rate = .ok r := by
  have hcovered := covered_le h.outstandingTotal rate
  rw [← hs.sum_outstanding.1] at hcovered
  obtain ⟨eR, heR⟩ := extinguishPerRole_isOk (by simpa [outstandingOf, hs.length_eq] using hmax)
    (below_of_le hs.le hlt).2 hcovered
  rw [hs.sum_outstanding.1] at heR
  exact ⟨⟨_, ⟨_, _, eR, carriesLeg _⟩⟩, hs.nextRound_eq_ok.2
    ⟨hmax, hlt, rfl, hpay, rfl, rfl, rfl, heR⟩⟩

/-- A rate that divides what is outstanding divides what the round leaves of it. -/
theorem Sound.nextRound_again (hs : h.Sound) (hr : h.nextRound rate = .ok r) :
    ∃ r', ((h.step (.round rate)).1).nextRound rate = .ok r' := by
  obtain ⟨hs', haccrued, -⟩ := hs.step_round hr
  obtain ⟨hmax, hlt, -, hplt, hp, -⟩ := hs.nextRound_eq_ok.1 hr
  have hless := hs.step_outstanding hr
  generalize (h.step (.round rate)).1 = h' at hs' haccrued hless ⊢
  have hpay : h'.outstandingTotal * rate.p / (rate.q * BP_DENOM) ≤ r.division.p := by
    rw [hp]
    exact Nat.div_le_div_right (Nat.mul_le_mul_right _ (by omega))
  exact hs'.nextRound_isOk (haccrued ▸ hmax) (haccrued ▸ hlt) (hpay.trans_lt hplt)

/-- A leg leaves less outstanding. -/
theorem Sound.leg_decreases (hs : h.Sound) (hr : h.nextRound rate = .ok r)
    (hleg : r.fundsClaimRecord = true) :
    ((h.step (.round rate)).1).outstandingTotal < h.outstandingTotal := by
  have hpos := (hs.round_leg hr).1 hleg
  have hless := hs.step_outstanding hr
  omega

end sound

/-- Rounds at one rate come to one without a leg, no more of them than there are units
outstanding. -/
theorem Sound.comes_to_rest {rate : Rate} : ∀ (n : ℕ) {h : History} {r : Round}, h.Sound →
    h.outstandingTotal = n → h.nextRound rate = .ok r →
    ∃ k ≤ n, ∃ r', (exec History.step h (List.replicate k (.round rate))).nextRound rate = .ok r' ∧
      r'.fundsClaimRecord = false := by
  intro n
  induction n using Nat.strong_induction_on with
  | _ n ih =>
    intro h r hs hn hr
    by_cases hleg : r.fundsClaimRecord = true
    · have hless := hs.leg_decreases hr hleg
      obtain ⟨r', hr'⟩ := hs.nextRound_again hr
      obtain ⟨k, hk, rest, hrest⟩ := ih _ (hn ▸ hless) (hs.step (.round rate)) rfl hr'
      exact ⟨k + 1, by omega, rest, by rwa [List.replicate_succ, exec_cons]⟩
    · exact ⟨0, Nat.zero_le n, r, hr, by simpa using hleg⟩

/-! ## The unity rate -/

/-- The payments of the rounds so far cover exactly what is settled, in the settlement domain. -/
structure Exact (h : History) : Prop where
  sound : h.Sound
  carved : h.carved.sum * BP_DENOM = h.settledTotal
  small : h.settledTotal < 2 ^ 135

theorem Exact.step {h : History} (hx : h.Exact) (e : Event)
    (he : ∀ rate, e = .round rate → rate = unity) : ((h.step e).1).Exact := by
  obtain ⟨hs, hcarved, hsmall⟩ := hx
  rcases e with amounts | rate
  · obtain ⟨hs', htotal, hpaid⟩ := hs.step_accrue amounts
    exact ⟨hs', by rw [hpaid, htotal, hcarved], htotal ▸ hsmall⟩
  · obtain rfl := he rate rfl
    rcases hr : h.nextRound unity with err | r
    · have hsame : (h.step (.round unity)).1 = h := by simp only [History.step, hr]
      rw [hsame]
      exact ⟨hs, hcarved, hsmall⟩
    · obtain ⟨hs', haccrued, htotal, hpaid, hroom⟩ := hs.step_round hr
      obtain ⟨hmax, hlt, -, -, -, he, -⟩ := hs.nextRound_eq_ok.1 hr
      have hwhole : r.division.e = r.amount * BP_DENOM := by
        rw [he]
        show r.division.p * 1 * BP_DENOM / 1 = r.division.p * BP_DENOM
        rw [Nat.mul_one, Nat.div_one]
      refine ⟨hs', ?_, ?_⟩
      · rw [hpaid, List.sum_append, List.sum_singleton, Nat.add_mul, hcarved, htotal, hwhole]
      · have hdomain := sum_lt_of_domain (by simpa using hmax) hlt
        exact (haccrued ▸ hs'.sum_outstanding.2).trans_lt hdomain

theorem after_exact (roles : List UInt8) {es : List Event}
    (hunity : ∀ rate, Event.round rate ∈ es → rate = unity) : (after roles es).Exact := by
  have hrun : ∀ (es : List Event) (h : History), (∀ rate, Event.round rate ∈ es → rate = unity) →
      h.Exact → (exec History.step h es).Exact := by
    intro es
    induction es with
    | nil => exact fun _ _ hx => hx
    | cons e es ih =>
      intro h hall hx
      refine ih _ (fun rate hrate => hall rate (List.mem_cons_of_mem e hrate)) (hx.step e ?_)
      rintro rate rfl
      exact hall rate List.mem_cons_self
  refine hrun es (new roles) hunity ⟨new_sound roles, ?_, ?_⟩ <;>
    simp [new, settledTotal, Function.comp_def]

theorem after_sound (roles : List UInt8) (es : List Event) : (after roles es).Sound :=
  exec_invariant (fun _ e hs => hs.step e) (new roles) es (new_sound roles)

/-- Once a round carries no leg, the payments are those of one round over everything accrued. -/
theorem Exact.once {h : History} {last : Round} (hx : h.Exact)
    (hlast : h.nextRound unity = .ok last) (hleg : last.fundsClaimRecord = false) :
    ∃ whole, Round.compute h.accrued (h.accrued.map fun e => (e.1, 0)) unity = .ok whole ∧
      whole.amount = h.carved.sum := by
  obtain ⟨hs, hcarved, hsmall⟩ := hx
  obtain ⟨hmax, hlt, -, -, hp, he, -⟩ := hs.nextRound_eq_ok.1 hlast
  -- the rounds of these roles had none been computed yet
  let start : History := { accrued := h.accrued, settled := h.accrued.map fun e => (e.1, 0)
                           carved := [] }
  have hzero : start.settledTotal = 0 := by simp [start, settledTotal, Function.comp_def]
  have hstart : start.Sound := by
    refine ⟨by simp [start, Function.comp_def], ?_⟩
    simp only [start, List.map_map, Function.comp_def, List.forall₂_map_left_iff,
      List.forall₂_map_right_iff]
    exact List.forall₂_same.2 fun _ _ => Nat.zero_le _
  have htotal : start.outstandingTotal = (h.accrued.map Prod.snd).sum := by
    unfold outstandingTotal
    rw [hzero]
    rfl
  have hpay : start.outstandingTotal * unity.p / (unity.q * BP_DENOM) = h.carved.sum := by
    have hnone : last.division.e = 0 := by
      have := (hs.round_leg hlast).not.1 (by simp [hleg])
      omega
    have hrest : h.outstandingTotal < BP_DENOM := by
      rw [hp] at he
      simp only [unity, BP_DENOM] at he ⊢
      omega
    have hsettled := hs.sum_outstanding.2
    rw [htotal]
    unfold outstandingTotal at hrest
    simp only [unity, BP_DENOM] at hcarved hrest ⊢
    omega
  have hdomain := sum_lt_of_domain (by simpa using hmax) hlt
  obtain ⟨whole, hwhole⟩ := @Sound.nextRound_isOk start unity hstart hmax hlt (by
    rw [hpay]
    unfold BP_DENOM at hcarved
    omega)
  exact ⟨whole, hwhole, (hstart.nextRound_eq_ok.1 hwhole).2.2.2.2.1.trans hpay⟩

end History

/-- Whatever accrues between the rounds and at whatever rates they are: no role settles more than
it accrued; a round with a leg leaves less outstanding; rounds at one rate without accrual come to
one without a leg; and at the unity rate the payments of the rounds are together that of one round
over everything settled, and, once a round carries no leg, over everything accrued. -/
theorem rounds_settle_accrued (roles : List UInt8) (es : List Event) :
    List.Forall₂ (fun s a => s.1 = a.1 ∧ s.2 ≤ a.2) (History.after roles es).settled
      (History.after roles es).accrued ∧
    (∀ rate r, (History.after roles es).nextRound rate = .ok r → r.fundsClaimRecord = true →
      (History.after roles (es ++ [.round rate])).outstandingTotal <
        (History.after roles es).outstandingTotal) ∧
    (∀ rate r, (History.after roles es).nextRound rate = .ok r →
      ∃ n ≤ (History.after roles es).outstandingTotal, ∃ last,
        (History.after roles (es ++ List.replicate n (.round rate))).nextRound rate = .ok last ∧
          last.fundsClaimRecord = false) ∧
    ((∀ rate, Event.round rate ∈ es → rate = unity) →
      (History.after roles es).carved.sum = (History.after roles es).settledTotal / BP_DENOM ∧
      computeP (History.after roles es).settledTotal unity =
        .ok (History.after roles es).carved.sum ∧
      ∀ last, (History.after roles es).nextRound unity = .ok last → last.fundsClaimRecord = false →
        ∃ whole, Round.compute (History.after roles es).accrued
            ((History.after roles es).accrued.map fun e => (e.1, 0)) unity = .ok whole ∧
          whole.amount = (History.after roles es).carved.sum) := by
  have hs := History.after_sound roles es
  refine ⟨?_, ?_, ?_, ?_⟩
  · have hroles : List.Forall₂ (· = ·) ((History.after roles es).settled.map Prod.fst)
        ((History.after roles es).accrued.map Prod.fst) := List.forall₂_eq_eq_eq ▸ hs.roles
    rw [List.forall₂_map_left_iff, List.forall₂_map_right_iff] at hroles
    have hle := hs.le
    rw [List.forall₂_map_left_iff, List.forall₂_map_right_iff] at hle
    exact hroles.mp (fun _ _ hrole hcap => ⟨hrole, hcap⟩) hle
  · intro rate r hr hleg
    unfold History.after at hs hr ⊢
    rw [exec_concat]
    exact hs.leg_decreases hr hleg
  · intro rate r hr
    unfold History.after at hs hr ⊢
    simpa only [exec_append] using hs.comes_to_rest _ rfl hr
  · intro hunity
    have hx := History.after_exact roles hunity
    refine ⟨?_, ?_, fun last hlast hleg => hx.once hlast hleg⟩
    · rw [← hx.carved, Nat.mul_div_cancel _ (by decide)]
    · rw [computeP_unity hx.small, ← hx.carved, Nat.mul_div_cancel _ (by decide)]

end Settlement

end Paytp
