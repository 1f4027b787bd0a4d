import Paytp.Proofs.Openings
import Paytp.Proofs.Roles
import Paytp.Wallet.Channel

/-!
# The carve a wallet meters

The carve at a total is the whole units of what the roles accrued there and were not credited.
Crediting the round of a total takes exactly its carve off the carve of every later one.
-/

namespace Paytp

open Fee (Rate)

namespace Wallet

variable {roles : List (UInt8 × UInt16)} {credited eR : List ℕ} {cum cum' : ℕ}

/-- What each role accrued at a total beyond what it was credited. -/
def owedOf (roles : List (UInt8 × UInt16)) (credited : List ℕ) (cum : ℕ) : List ℕ :=
  (roles.zip credited).map fun r => cum * r.1.2.toNat - r.2

/-- Every role accrued at least what it was credited, and what it is owed is in the domain. -/
def Settles (roles : List (UInt8 × UInt16)) (credited : List ℕ) (cum : ℕ) : Prop :=
  ∀ r ∈ roles.zip credited, cum * r.1.2.toNat ≤ Fee.U256_MAX ∧ r.2 ≤ cum * r.1.2.toNat ∧
    cum * r.1.2.toNat - r.2 < 2 ^ 128

theorem owedOf_sum_mono (hle : cum ≤ cum') :
    (owedOf roles credited cum).sum ≤ (owedOf roles credited cum').sum := by
  unfold owedOf
  refine List.sum_le_sum fun r _ => ?_
  have hmul : cum * r.1.2.toNat ≤ cum' * r.1.2.toNat := Nat.mul_le_mul_right _ hle
  omega

/-- Crediting no more than is owed at a total: what is owed later is less by what was credited,
and nothing is credited that was not accrued. -/
theorem owedOf_addCredited (hle : cum ≤ cum') : ∀ {roles : List (UInt8 × UInt16)}
    {credited eR : List ℕ}, Settles roles credited cum →
    List.Forall₂ (· ≤ ·) eR (owedOf roles credited cum) → Settles roles credited cum' →
    (owedOf roles (ChannelClient.addCredited credited eR) cum').sum + eR.sum =
        (owedOf roles credited cum').sum ∧
      Settles roles (ChannelClient.addCredited credited eR) cum'
  | [], credited, _, _, .nil, _ => by simp [owedOf, Settles]
  | role :: roles, [], _, _, .nil, _ => by
    simp [owedOf, Settles, ChannelClient.addCredited]
  | role :: roles, credit :: credited, er :: ers, hset, .cons her hers, hset' => by
    obtain ⟨⟨hmax, hcov, -⟩, hset⟩ := List.forall_mem_cons.1 hset
    obtain ⟨⟨hmax', hcov', hdom'⟩, hset'⟩ := List.forall_mem_cons.1 hset'
    obtain ⟨hsum, hsettles⟩ := owedOf_addCredited hle hset hers hset'
    have hmul : cum * role.2.toNat ≤ cum' * role.2.toNat := Nat.mul_le_mul_right _ hle
    dsimp only at her hmax hcov hmax' hcov' hdom' hmul
    have hwrap : (credit + er) % 2 ^ 256 = credit + er := by
      refine Nat.mod_eq_of_lt ?_
      unfold Fee.U256_MAX at hmax
      omega
    constructor
    · simp only [owedOf, ChannelClient.addCredited, List.zip_cons_cons, List.map_cons,
        List.sum_cons, hwrap] at hsum ⊢
      omega
    · refine List.forall_mem_cons.2 ⟨?_, hsettles⟩
      dsimp only
      rw [hwrap]
      omega

namespace ChannelClient

variable {c : ChannelClient} {carve : ℕ}

theorem outstandingAt_eq_some {outstanding : List ℕ} :
    c.outstandingAt cum = some outstanding ↔
      (∀ r ∈ c.rolesBp.zip c.creditedR, cum * r.1.2.toNat ≤ Fee.U256_MAX ∧
        r.2 ≤ cum * r.1.2.toNat) ∧ outstanding = owedOf c.rolesBp c.creditedR cum := by
  refine mapM_eq_some fun r owed => ?_
  obtain ⟨⟨role, bp⟩, credit⟩ := r
  simp only [Fee.checkedMul]
  by_cases hmax : cum * bp.toNat ≤ Fee.U256_MAX
  · by_cases hcov : credit ≤ cum * bp.toNat
    · simp [hmax, hcov, Except.toOption, eq_comm]
    · simp [hmax, hcov, Except.toOption]
  · simp [hmax, Except.toOption]

/-- What is owed divides where everything settles. -/
theorem divideAt_eq_some {d : Fee.RoundDivision} :
    c.divideAt cum = some d ↔ Settles c.rolesBp c.creditedR cum ∧
      Fee.divideRound (owedOf c.rolesBp c.creditedR cum) Fee.unity = .ok d := by
  unfold divideAt
  simp only [Option.bind_eq_bind, Option.bind_eq_some_iff, outstandingAt_eq_some,
    Fee.rateNew_one, toOption_eq_some, Except.ok.injEq]
  constructor
  · rintro ⟨_, ⟨hrows, rfl⟩, _, rfl, hdiv⟩
    obtain ⟨⟨-, hdom⟩, -⟩ := Fee.divideRound_unity_iff.1 hdiv
    refine ⟨fun r hr => ⟨(hrows r hr).1, (hrows r hr).2, ?_⟩, hdiv⟩
    exact hdom _ (List.mem_map.2 ⟨r, hr, rfl⟩)
  · rintro ⟨hset, hdiv⟩
    exact ⟨_, ⟨fun r hr => ⟨(hset r hr).1, (hset r hr).2.1⟩, rfl⟩, _, rfl, hdiv⟩

/-- A carve is computed where everything settles, and is the whole units of what is owed. -/
theorem carveAt_eq_some (hlen : c.rolesBp.length ≤ Fee.MAX_ROLES) :
    c.carveAt cum = some carve ↔ Settles c.rolesBp c.creditedR cum ∧
      carve = (owedOf c.rolesBp c.creditedR cum).sum / Fee.BP_DENOM := by
  have hlen' : (owedOf c.rolesBp c.creditedR cum).length ≤ Fee.MAX_ROLES := by
    rw [owedOf, List.length_map, List.length_zip]
    exact (min_le_left _ _).trans hlen
  unfold carveAt
  simp only [Option.bind_eq_some_iff, divideAt_eq_some, Carriage.u128OfNat_eq_some]
  constructor
  · rintro ⟨d, ⟨hset, hdiv⟩, -, rfl⟩
    exact ⟨hset, (Fee.divideRound_unity hdiv).p_eq⟩
  · rintro ⟨hset, rfl⟩
    have hdom : ∀ nr ∈ owedOf c.rolesBp c.creditedR cum, nr < 2 ^ 128 :=
      List.forall_mem_map.2 fun r hr => (hset r hr).2.2
    obtain ⟨d, hd⟩ := Fee.divideRound_isOk _ hlen' hdom
    have hp := (Fee.divideRound_unity hd).p_eq
    have hsum := Fee.sum_lt_of_domain hlen' hdom
    refine ⟨d, ⟨hset, hd⟩, ?_, hp⟩
    rw [hp]
    unfold Fee.BP_DENOM U128_MAX
    omega

/-- The carve does not shrink as the total grows. -/
theorem carveAt_mono (hlen : c.rolesBp.length ≤ Fee.MAX_ROLES) (hle : cum ≤ cum') {carve' : ℕ}
    (h : c.carveAt cum = some carve) (h' : c.carveAt cum' = some carve') : carve ≤ carve' := by
  obtain ⟨-, rfl⟩ := (carveAt_eq_some hlen).1 h
  obtain ⟨-, rfl⟩ := (carveAt_eq_some hlen).1 h'
  exact Nat.div_le_div_right (owedOf_sum_mono hle)

/-- Crediting the round of a total takes its carve off the carve of every later total. -/
theorem carveAt_foldCredited (hlen : c.rolesBp.length ≤ Fee.MAX_ROLES) (hle : cum ≤ cum')
    {c' : ChannelClient} {carve' : ℕ} (hfold : c.foldCredited cum = some c')
    (h : c.carveAt cum = some carve) (h' : c.carveAt cum' = some carve') :
    c'.carveAt cum' = some (carve' - carve) := by
  obtain ⟨d, hd, rfl⟩ := Option.map_eq_some_iff.1 hfold
  obtain ⟨hset, hdiv⟩ := divideAt_eq_some.1 hd
  obtain ⟨hset', rfl⟩ := (carveAt_eq_some hlen).1 h'
  obtain ⟨-, rfl⟩ := (carveAt_eq_some hlen).1 h
  have hdivides := Fee.divideRound_unity hdiv
  obtain ⟨hsum, hsettles⟩ :=
    owedOf_addCredited hle hset hdivides.attributes.le hset'
  rw [hdivides.attributes.sum_eq, hdivides.p_eq] at hsum
  have hcredited : ({ c with creditedR := addCredited c.creditedR d.eR } : ChannelClient).rolesBp
      = c.rolesBp := rfl
  refine (carveAt_eq_some (hcredited ▸ hlen)).2 ⟨hsettles, ?_⟩
  unfold Fee.BP_DENOM at hsum ⊢
  dsimp only
  omega

end ChannelClient

end Wallet

end Paytp
