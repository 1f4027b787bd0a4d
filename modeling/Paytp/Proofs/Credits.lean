import Mathlib.Algebra.BigOperators.Ring.List
import Paytp.Proofs.Advances
import Paytp.Proofs.Exposure
import Paytp.Proofs.Folds

/-!
# Credits

What a wallet credited is the cumulative target of the last round it credited, whichever rounds it
missed, and so is what the merchant had settled when it folded that round. No role is credited
more than it accrued, and the rail is funded to all that is credited.
-/

namespace Paytp

namespace Wallet

namespace ChannelClient

variable {c c' : ChannelClient} {base cum t : ℕ}

/-! ## What the wallet credited -/

/-- The points of all roles. -/
def bpSum (c : ChannelClient) : ℕ := (c.rolesBp.map fun r => r.2.toNat).sum

/-- A target is the whole units of what accrued, where every accrual is in its domain. -/
theorem cumulativeTargetAt_eq_some (hlen : c.rolesBp.length ≤ Fee.MAX_ROLES) :
    c.cumulativeTargetAt cum = some t ↔
      (∀ r ∈ c.rolesBp, cum * r.2.toNat < 2 ^ 128) ∧ t = cum * c.bpSum / Fee.BP_DENOM := by
  have hmap : ∀ accrued : List ℕ,
      c.rolesBp.mapM (fun r => (Fee.checkedMul cum r.2.toNat).toOption) = some accrued ↔
        (∀ r ∈ c.rolesBp, cum * r.2.toNat ≤ Fee.U256_MAX) ∧
          accrued = c.rolesBp.map fun r => cum * r.2.toNat := by
    intro accrued
    refine mapM_eq_some fun r owed => ?_
    simp only [Fee.checkedMul]
    by_cases hmax : cum * r.2.toNat ≤ Fee.U256_MAX
    · simp [hmax, Except.toOption, eq_comm]
    · simp [hmax, Except.toOption]
  have hsum : (c.rolesBp.map fun r => cum * r.2.toNat).sum = cum * c.bpSum :=
    List.sum_map_mul_left ..
  unfold cumulativeTargetAt
  simp only [Option.bind_eq_bind, Option.bind_eq_some_iff, hmap, Fee.rateNew_one,
    toOption_eq_some, Except.ok.injEq, Carriage.u128OfNat_eq_some]
  constructor
  · rintro ⟨_, ⟨-, rfl⟩, _, rfl, d, hdiv, -, rfl⟩
    obtain ⟨⟨-, hdom⟩, -⟩ := Fee.divideRound_unity_iff.1 hdiv
    refine ⟨fun r hr => hdom _ (List.mem_map_of_mem hr), ?_⟩
    rw [← hsum]
    exact (Fee.divideRound_unity hdiv).p_eq
  · rintro ⟨hdom, rfl⟩
    have hdom' : ∀ nr ∈ c.rolesBp.map fun r => cum * r.2.toNat, nr < 2 ^ 128 :=
      List.forall_mem_map.2 hdom
    have hlen' : (c.rolesBp.map fun r => cum * r.2.toNat).length ≤ Fee.MAX_ROLES := by
      rwa [List.length_map]
    obtain ⟨d, hd⟩ := Fee.divideRound_isOk _ hlen' hdom'
    have hp := (Fee.divideRound_unity hd).p_eq
    have hlt := Fee.sum_lt_of_domain hlen' hdom'
    rw [hsum] at hp hlt
    refine ⟨_, ⟨fun r hr => ?_, rfl⟩, _, rfl, d, hd, ?_, hp⟩
    · have := hdom r hr
      unfold Fee.U256_MAX
      omega
    · rw [hp]
      unfold Fee.BP_DENOM U128_MAX
      omega

/-- What is owed and what was credited come to what accrued. -/
theorem owedOf_sum : ∀ {roles : List (UInt8 × UInt16)} {credited : List ℕ},
    credited.length = roles.length →
    (∀ r ∈ roles.zip credited, r.2 ≤ cum * r.1.2.toNat) →
    (owedOf roles credited cum).sum + credited.sum = cum * (roles.map fun r => r.2.toNat).sum
  | [], [], _, _ => by simp [owedOf]
  | role :: roles, credit :: credited, hlen, hcov => by
    obtain ⟨hle, hcov⟩ := List.forall_mem_cons.1 hcov
    have hrest := owedOf_sum (Nat.succ.inj hlen) hcov
    simp only [owedOf, List.zip_cons_cons, List.map_cons, List.sum_cons, Nat.mul_add] at hrest hle ⊢
    omega

theorem length_addCredited : ∀ (credited eR : List ℕ),
    (addCredited credited eR).length = credited.length
  | [], _ => rfl
  | _ :: _, [] => rfl
  | _ :: credited, _ :: eR => congrArg Nat.succ (length_addCredited credited eR)

theorem Accrued.mono (h : c.Accrued base) (hle : base ≤ cum) : c.Accrued cum :=
  fun r hr => (h r hr).trans (Nat.mul_le_mul_right _ hle)

/-- Every role was credited no more than it accrued at `base`, and all of them together the whole
units of what accrued there. -/
structure CreditedTo (c : ChannelClient) (base : ℕ) : Prop where
  roles : c.rolesBp.length ≤ Fee.MAX_ROLES
  length : c.creditedR.length = c.rolesBp.length
  accrued : c.Accrued base
  sum : c.creditedR.sum = base * c.bpSum / Fee.BP_DENOM * Fee.BP_DENOM

theorem CreditedTo.congr (h : c.CreditedTo base) (hroles : c'.rolesBp = c.rolesBp)
    (hcredited : c'.creditedR = c.creditedR) : c'.CreditedTo base := by
  constructor
  · rw [hroles]
    exact h.roles
  · rw [hroles, hcredited]
    exact h.length
  · rw [Accrued, hroles, hcredited]
    exact h.accrued
  · rw [hcredited, bpSum, hroles]
    exact h.sum

/-- The carve at a later total is what its target is over the credited one. -/
theorem CreditedTo.carveAt (h : c.CreditedTo base) (hle : base ≤ cum)
    (ht : c.cumulativeTargetAt cum = some t) :
    c.carveAt cum = some (t - base * c.bpSum / Fee.BP_DENOM) := by
  obtain ⟨hdom, rfl⟩ := (cumulativeTargetAt_eq_some h.roles).1 ht
  have hcov := h.accrued.mono hle
  refine (carveAt_eq_some h.roles).2 ⟨fun r hr => ?_, ?_⟩
  · have hlt := hdom r.1 (List.of_mem_zip hr).1
    have hle' := hcov r hr
    unfold Fee.U256_MAX
    omega
  · have hsum := owedOf_sum h.length hcov
    have hcredited := h.sum
    unfold bpSum Fee.BP_DENOM at *
    omega

/-- Crediting the round of a later total credits up to its target. -/
theorem CreditedTo.foldCredited (h : c.CreditedTo base) (hfold : c.foldCredited cum = some c') :
    c'.CreditedTo cum ∧ c'.rolesBp = c.rolesBp := by
  obtain ⟨d, hd, rfl⟩ := Option.map_eq_some_iff.1 hfold
  obtain ⟨hset, hdiv⟩ := divideAt_eq_some.1 hd
  have hdivides := Fee.divideRound_unity hdiv
  obtain ⟨hsum, hset'⟩ := owedOf_addCredited le_rfl hset hdivides.attributes.le hset
  rw [hdivides.attributes.sum_eq, hdivides.p_eq] at hsum
  have hlen : (addCredited c.creditedR d.eR).length = c.rolesBp.length :=
    (length_addCredited _ _).trans h.length
  have hcov : ∀ r ∈ c.rolesBp.zip (addCredited c.creditedR d.eR), r.2 ≤ cum * r.1.2.toNat :=
    fun r hr => (hset' r hr).2.1
  refine ⟨⟨h.roles, hlen, hcov, ?_⟩, rfl⟩
  have hbefore := owedOf_sum h.length fun r hr => (hset r hr).2.1
  have hafter := owedOf_sum hlen hcov
  have hcredited := h.sum
  show (addCredited c.creditedR d.eR).sum = _
  unfold bpSum Fee.BP_DENOM at *
  dsimp only at *
  omega

/-- Where a wallet stands that credited up to `base`: the operative checkpoint is no earlier, and
the round that waits is in between. -/
structure Standing (c : ChannelClient) (base : ℕ) : Prop where
  credited : c.CreditedTo base
  streamed : c.cumStreamed ≤ U128_MAX
  base_le : base ≤ c.cumStreamed
  unopened : c.operative = none → base = 0
  operative : ∀ op ∈ c.operative, base ≤ op.cumTotal ∧ op.cumTotal ≤ c.cumStreamed
  pending : ∀ pv ∈ c.pendingVerify, base ≤ pv.cumTotal ∧ pv.cumTotal ≤ c.cumStreamed ∧
    (∃ op ∈ c.operative, pv.cumTotal ≤ op.cumTotal) ∧
    c.cumulativeTargetAt pv.cumTotal = some pv.amount

/-- The round that waits is what it was, its transfer apart, or is the one of a notice. -/
theorem Moves.pending {ρ : Type} {env : Env ρ} {e : Event ρ} (hm : Moves env c e c')
    {pv' : PendingVerify} (hpv' : c'.pendingVerify = some pv') :
    (∃ pv, c.pendingVerify = some pv ∧ pv'.ckptRef = pv.ckptRef ∧ pv'.amount = pv.amount ∧
      pv'.cumTotal = pv.cumTotal) ∨
    ∃ receipt now op, e = ⟨.resumeOnPrepayDraw receipt, now⟩ ∧ Resumes c receipt op pv' := by
  cases hm with
  | idle | mint | supersede => exact .inl ⟨pv', hpv', rfl, rfl, rfl⟩
  | resume receipt now op pv _ hresumes =>
    cases hpv'
    exact .inr ⟨receipt, now, op, rfl, hresumes⟩
  | repoint _ pv _ hpv =>
    cases hpv'
    exact .inl ⟨pv, hpv, rfl, rfl, rfl⟩
  | default _ pv hpv =>
    cases hpv'
    exact .inl ⟨pv, hpv, rfl, rfl, rfl⟩
  | credit => cases hpv'

/-- A call that credits nothing leaves the wallet standing where it does; a credit takes it to the
round it credits. -/
theorem Standing.moves {ρ : Type} {env : Env ρ} {e : Event ρ} (h : c.Standing base)
    (hm : Moves env c e c') :
    c'.Standing base ∧ c'.creditedR = c.creditedR ∨
    ∃ rail settled now pv, e = ⟨.verifyPendingDraw rail settled, now⟩ ∧
      c.pendingVerify = some pv ∧ c.railFunded env rail pv = true ∧ c'.Standing pv.cumTotal ∧
      c'.pendingVerify = none := by
  cases hm with
  | idle => exact .inl ⟨h, rfl⟩
  | mint _ nextSeq amt _ =>
    have hgrows : c.cumStreamed ≤ satAddU128 c.cumStreamed amt := by
      have hstreamed := h.streamed
      unfold satAddU128
      omega
    refine .inl ⟨⟨h.credited.congr rfl rfl, Nat.min_le_left _ _, h.base_le.trans hgrows, h.unopened,
      fun op hop => ?_, fun pv hpv => ?_⟩, rfl⟩
    · exact ⟨(h.operative op hop).1, (h.operative op hop).2.trans hgrows⟩
    · obtain ⟨hbase, hle, hop, ht⟩ := h.pending pv hpv
      exact ⟨hbase, hle.trans hgrows, hop, ht⟩
  | supersede _ _ op hle hold =>
    have hbase : base ≤ op.cumTotal := by
      cases hop : c.operative with
      | none => exact (h.unopened hop).le.trans (Nat.zero_le _)
      | some old => exact (h.operative old hop).1.trans (hold old hop)
    refine .inl ⟨⟨h.credited.congr rfl rfl, h.streamed, h.base_le, nofun, ?_, fun pv hpv => ?_⟩,
      rfl⟩
    · rintro _ ⟨⟩
      exact ⟨hbase, hle⟩
    · obtain ⟨hpvbase, hpvle, ⟨old, hop, hupto⟩, ht⟩ := h.pending pv hpv
      exact ⟨hpvbase, hpvle, ⟨op, rfl, hupto.trans (hold old hop)⟩, ht⟩
  | resume receipt now op pv _ hresumes =>
    refine .inl ⟨⟨h.credited.congr rfl rfl, h.streamed, h.base_le, h.unopened, h.operative, ?_⟩,
      rfl⟩
    rintro _ ⟨⟩
    obtain ⟨hbase, hle⟩ := h.operative op hresumes.operative
    rw [hresumes.total]
    exact ⟨hbase, hle, ⟨op, hresumes.operative, le_rfl⟩, hresumes.target⟩
  | repoint _ pv txRef hpv _ =>
    refine .inl ⟨⟨h.credited.congr rfl rfl, h.streamed, h.base_le, h.unopened, h.operative, ?_⟩,
      rfl⟩
    rintro _ ⟨⟩
    exact h.pending pv hpv
  | default _ pv hpv =>
    refine .inl ⟨⟨h.credited.congr rfl rfl, h.streamed, h.base_le, h.unopened, h.operative, ?_⟩,
      rfl⟩
    rintro _ ⟨⟩
    exact h.pending pv hpv
  | credit rail settled now pv folded hpv hfunded hfold =>
    obtain ⟨hcredited, -⟩ := h.credited.foldCredited hfold
    obtain ⟨-, hle, ⟨op, hop, hupto⟩, -⟩ := h.pending pv hpv
    obtain ⟨creditedR, rfl⟩ := foldCredited_eq hfold
    refine .inr ⟨rail, settled, now, pv, rfl, hpv, hfunded, ?_, rfl⟩
    refine ⟨hcredited.congr rfl rfl, h.streamed, hle, fun hnone => ?_, fun op' hop' => ?_, nofun⟩
    · cases hop.symm.trans hnone
    · cases hop.symm.trans hop'
      exact ⟨hupto, (h.operative op hop).2⟩

/-- A wallet that opens credited nothing. -/
theorem openInner_standing {ρ : Type} {env : Env ρ} {trust : PayerChannelTrust} {opened : ℕ}
    {approved : Decision} {params : ChannelOpenParams} {s : ByteArr 32} {o : ChannelOpen}
    (h : openInner env trust opened approved params s = .ok (o, c)) :
    c.Standing 0 ∧ c.pendingVerify = none := by
  unfold openInner at h
  cases approved with
  | deny why => cases h
  | approve =>
    simp only [bind_eq_ok, okOr_eq_ok, require_eq_ok, pure_eq_ok, Prod.mk.injEq] at h
    obtain ⟨scope, -, -, hgov, -, -, seed, -, signed, -, aad, -, sealed, -, -, rfl⟩ := h
    have hroles := ChannelAuth.validateVectorGoverned_roles hgov
    refine ⟨⟨⟨?_, List.length_replicate, ?_, ?_⟩, Nat.zero_le _, le_rfl, fun _ => rfl,
      by rintro _ ⟨⟩, by rintro _ ⟨⟩⟩, rfl⟩
    · exact (congrArg List.length hroles).trans_le (by decide)
    · intro r hr
      exact (List.eq_of_mem_replicate (List.of_mem_zip hr).2).le.trans (Nat.zero_le _)
    · simp

end ChannelClient

end Wallet

/-! ## What the merchant folded -/

namespace Carriage

variable {env : Env VirtualRail} {s : Carriage VirtualRail} {cid : ByteArr 8}

/-- What the folds and the notices of a channel state, is so: each fold settled up to the target of
its round, every folded round is recorded, and a notice is of a folded round. -/
structure Tracked (s : Carriage VirtualRail) (cid : ByteArr 8) (folds : List (ByteArr 32 × ℕ))
    (notices : List PrepayDrawCompleted) : Prop where
  totals : ∀ f ∈ folds, ∃ t, s.Folded cid f.1 t ∧ f.2 = t * 10000
  recorded : ∀ k t, s.Folded cid k t → ∃ total, (k, total) ∈ folds
  notices : ∀ m ∈ notices, m.channelId = cid → s.Folded cid m.ckptRef m.amount

theorem mem_foldsOf {s' : Carriage VirtualRail} {f : ByteArr 32 × ℕ} :
    f ∈ s.foldsOf s' cid ↔ f.2 = s'.settled cid ∧
      (∃ d, (f.1, d) ∈ s'.roundsOf cid ∧ d.meedFolded = true) ∧
      ¬ ∃ d, (f.1, d) ∈ s.roundsOf cid ∧ d.meedFolded = true := by
  obtain ⟨k, total⟩ := f
  simp only [foldsOf, List.mem_map, List.mem_filter, Bool.and_eq_true, Bool.not_eq_true',
    List.any_eq_false, beq_iff_eq, Prod.mk.injEq, Prod.exists]
  constructor
  · rintro ⟨k', d, ⟨hd, hfold, hnone⟩, rfl, rfl⟩
    exact ⟨rfl, ⟨d, hd, hfold⟩, fun ⟨d', hd', hfold'⟩ => hnone (k', d') hd' ⟨rfl, hfold'⟩⟩
  · rintro ⟨rfl, ⟨d, hd, hfold⟩, hnone⟩
    refine ⟨k, d, ⟨hd, hfold, ?_⟩, rfl, rfl⟩
    rintro ⟨k', d'⟩ hd' ⟨rfl, hfold'⟩
    exact hnone ⟨d', hd', hfold'⟩

/-- A folded round has a target. -/
theorem Booked.folded_of_mem (h : s.Booked env.suite.toCrypto) {k : ByteArr 32}
    {d : RoundDecision} (hd : (k, d) ∈ s.roundsOf cid) (hfold : d.meedFolded = true) :
    ∃ t, s.Folded cid k t := by
  obtain ⟨st, hst⟩ := h.channel_of_round hd
  obtain ⟨t, -, hf⟩ := (h.sound hst).folded_of_mem hd hfold
  exact ⟨t, hf⟩

theorem Tracked.step {folds : List (ByteArr 32 × ℕ)} {notices : List PrepayDrawCompleted}
    (h : s.Tracked cid folds notices) (hb : s.Booked env.suite.toCrypto) (e : Event VirtualRail)
    (hfirst : (Carriage.step env s e).1.FirstGeneration cid) :
    (Carriage.step env s e).1.Tracked cid (s.foldsOf (Carriage.step env s e).1 cid ++ folds)
      ((Carriage.step env s e).2.noticed ++ notices) := by
  obtain ⟨hkeep, hnew⟩ := hb.step_folded e hfirst
  have hb' := (hb.step e).1
  constructor
  · intro f hf
    rcases List.mem_append.1 hf with hf | hf
    · obtain ⟨htotal, ⟨d, hd, hfold⟩, hnone⟩ := mem_foldsOf.1 hf
      obtain ⟨t, hft⟩ := hb'.folded_of_mem hd hfold
      rcases hnew f.1 t hft with ⟨d₀, hd₀, hfold₀, -⟩ | hsettled
      · exact absurd ⟨d₀, hd₀, hfold₀⟩ hnone
      · exact ⟨t, hft, htotal.trans hsettled⟩
    · obtain ⟨t, hft, htotal⟩ := h.totals f hf
      exact ⟨t, hkeep _ _ hft, htotal⟩
  · intro k t hft
    by_cases hold : ∃ d, (k, d) ∈ s.roundsOf cid ∧ d.meedFolded = true
    · obtain ⟨d, hd, hfold⟩ := hold
      obtain ⟨t', hft'⟩ := hb.folded_of_mem hd hfold
      obtain ⟨total, htotal⟩ := h.recorded k t' hft'
      exact ⟨total, List.mem_append_right _ htotal⟩
    · obtain ⟨d, hd, hfold, -⟩ := hft
      exact ⟨_, List.mem_append_left _ (mem_foldsOf.2 ⟨rfl, ⟨d, hd, hfold⟩, hold⟩)⟩
  · intro m hm hcid
    rcases List.mem_append.1 hm with hm | hm
    · obtain ⟨call, fails⟩ := e
      cases call with
      | prepayInterimDraw cid' =>
        obtain ⟨hchannel, hft⟩ := runPrepayInterimDraw_notice hb (Option.mem_toList.1 hm)
        obtain rfl : cid' = cid := hchannel.symm.trans hcid
        exact hft
      | _ => cases hm
    · exact hkeep _ _ (h.notices m hm hcid)

end Carriage

/-! ## Both together -/

namespace Crediting

open Wallet (ChannelClient)

variable {suite : Suite} {sealSessionSecret : ByteArr 32 → Bytes → ByteArr 32 → Option Bytes}
  {registrableDomain : String → Option String} {w : Crediting}

/-- The wallet stands somewhere, on a rail that is funded to all it credited; and where the channel
is the first of its generation, the wallet waits for a round that the merchant folded. -/
structure Tracks (suite : Suite) (w : Crediting) : Prop where
  booked : w.merchant.Booked suite.toCrypto
  standing : ∃ base, w.wallet.Standing base
  rail : ∃ rail, w.merchant.rail = some rail ∧ rail.Funded ∧ w.wallet.creditedR.sum ≤
    rail.channelFundedP w.wallet.seedInstance w.wallet.channelId * Fee.BP_DENOM
  tracked : w.merchant.FirstGeneration w.wallet.channelId →
    w.merchant.Tracked w.wallet.channelId w.folds w.notices
  pending : w.merchant.FirstGeneration w.wallet.channelId → ∀ pv, w.wallet.pendingVerify = some pv →
    w.merchant.Folded w.wallet.channelId pv.ckptRef pv.amount

/-- A credit is of a round that the rail shows funded. -/
theorem funded_of_railFunded {env : Wallet.Env VirtualRail}
    (henv : env.adapter = VirtualRail.adapter) {c : ChannelClient} {rail : VirtualRail}
    (h : rail.Funded) {pv : Wallet.PendingVerify}
    (hfunded : c.railFunded env rail pv = true) :
    pv.amount ≤ rail.channelFundedP c.seedInstance c.channelId := by
  unfold ChannelClient.railFunded at hfunded
  rw [henv, Bool.and_eq_true, Option.any_eq_true] at hfunded
  obtain ⟨⟨f, hf, hfacts⟩, -⟩ := hfunded
  simp only [Bool.and_eq_true, beq_iff_eq, decide_eq_true_eq] at hfacts
  obtain ⟨⟨hchannel, hseed⟩, hle⟩ := hfacts
  obtain ⟨info, hinfo, hfact⟩ := Option.bind_eq_some_iff.1 hf
  obtain ⟨⟨time, info'⟩, href, rfl⟩ := Option.map_eq_some_iff.1 hinfo
  have hstated := h.facts pv.txRef time info' f href hfact
  rw [← hchannel, ← hseed]
  exact hle.trans hstated

variable (sealSessionSecret registrableDomain) in
/-- The wallet is called, with notices and the rail as they are. -/
theorem Tracks.called (h : Tracks suite w) (e : ChannelClient.Event VirtualRail)
    (hresume : ∀ receipt, e.call = .resumeOnPrepayDraw receipt → receipt ∈ w.notices)
    (hverify : ∀ rail settled, e.call = .verifyPendingDraw rail settled →
      w.merchant.rail = some rail) :
    Tracks suite { w with
      wallet := (ChannelClient.step
        (Wallet.virtualEnv suite sealSessionSecret registrableDomain) w.wallet e).1 } := by
  have hterms := ChannelClient.step_sameTerms
    (Wallet.virtualEnv suite sealSessionSecret registrableDomain) w.wallet e
  obtain ⟨moved, halted, hmoves, heq⟩ := ChannelClient.step_moves
    (Wallet.virtualEnv suite sealSessionSecret registrableDomain) w.wallet e
  obtain ⟨base, hstand⟩ := h.standing
  rw [heq] at hterms ⊢
  have hchannel : moved.channelId = w.wallet.channelId := hterms.channelId
  have hseed : moved.seedInstance = w.wallet.seedInstance := hterms.seedInstance
  have hnow : ∀ {base'}, moved.Standing base' →
      ({ moved with halted } : ChannelClient).Standing base' := fun hs =>
    ⟨hs.credited.congr rfl rfl, hs.streamed, hs.base_le, hs.unopened, hs.operative, hs.pending⟩
  constructor
  · exact h.booked
  · rcases hstand.moves hmoves with ⟨hs, -⟩ | ⟨_, _, _, pv, -, -, -, hs, -⟩
    · exact ⟨base, hnow hs⟩
    · exact ⟨pv.cumTotal, hnow hs⟩
  · obtain ⟨rail, hrail, hfunded, hle⟩ := h.rail
    refine ⟨rail, hrail, hfunded, ?_⟩
    dsimp only
    rw [hchannel, hseed]
    rcases hstand.moves hmoves with ⟨-, hsame⟩ | ⟨rail', settled, now, pv, rfl, hpv, hshown, hs, -⟩
    · rwa [hsame]
    · obtain rfl : rail = rail' := Option.some.inj (hrail.symm.trans (hverify rail' settled rfl))
      have hamount := funded_of_railFunded rfl hfunded hshown
      obtain ⟨-, -, -, htarget⟩ := hstand.pending pv hpv
      have hroles : moved.bpSum = w.wallet.bpSum := congrArg (fun roles =>
        (roles.map fun r : UInt8 × UInt16 => r.2.toNat).sum) hterms.rolesBp
      have hsum := hs.credited.sum
      rw [hroles] at hsum
      rw [hsum, ← ((ChannelClient.cumulativeTargetAt_eq_some hstand.credited.roles).1 htarget).2]
      exact Nat.mul_le_mul_right _ hamount
  · dsimp only
    rw [hchannel]
    exact h.tracked
  · dsimp only
    rw [hchannel]
    intro hfirst pv' hpv'
    rcases hmoves.pending hpv' with ⟨pv, hpv, href, hamount, -⟩ | ⟨receipt, now, op, rfl, hresumes⟩
    · rw [href, hamount]
      exact h.pending hfirst pv hpv
    · rw [hresumes.ckptRef, hresumes.amount]
      exact (h.tracked hfirst).notices receipt (hresume receipt rfl) hresumes.channelId

/-- The merchant is called with a message. -/
theorem Tracks.handled (h : Tracks suite w) {e : Carriage.Event VirtualRail}
    (hmessage : isRail e.call = false) : Tracks suite
      (w.handle (Wallet.virtualEnv suite sealSessionSecret registrableDomain) e) := by
  have hbooked : w.merchant.Booked (Carriage.virtualEnv suite).suite.toCrypto := h.booked
  have hback : (Carriage.step (Carriage.virtualEnv suite) w.merchant e).1.FirstGeneration
      w.wallet.channelId → w.merchant.FirstGeneration w.wallet.channelId :=
    hbooked.firstGeneration e
  constructor
  · exact (hbooked.step e).1
  · exact h.standing
  · obtain ⟨rail, hrail, hfunded, hle⟩ := h.rail
    have hsteps : w.merchant.RunsRail (Carriage.step (Carriage.virtualEnv suite) w.merchant e).1 :=
      Carriage.step_runsRail w.merchant e hmessage
    obtain ⟨rail', hrail', hruns⟩ := hsteps rail hrail
    obtain ⟨hfunded', hadv⟩ := hruns.funded hfunded
    exact ⟨rail', hrail', hfunded', hle.trans (Nat.mul_le_mul_right _ (hadv _ _))⟩
  · intro hfirst
    exact (h.tracked (hback hfirst)).step hbooked e hfirst
  · intro hfirst pv hpv
    exact (hbooked.step_folded e hfirst).1 _ _ (h.pending (hback hfirst) pv hpv)

theorem Tracks.step (h : Tracks suite w) (turn : Turn) : Tracks suite
    (step (Wallet.virtualEnv suite sealSessionSecret registrableDomain) w turn).1 := by
  cases turn with
  | wallet e =>
    unfold Crediting.step
    dsimp only
    by_cases hlearns : learns e.call = true
    · rw [if_pos hlearns]
      exact h
    · rw [if_neg hlearns]
      refine h.called sealSessionSecret registrableDomain e (fun receipt hcall => ?_)
        fun rail settled hcall => ?_
      · rw [hcall] at hlearns
        exact absurd rfl hlearns
      · rw [hcall] at hlearns
        exact absurd rfl hlearns
  | resume m now =>
    unfold Crediting.step
    dsimp only
    by_cases hm : m ∈ w.notices
    · rw [if_pos hm]
      refine h.called sealSessionSecret registrableDomain ⟨.resumeOnPrepayDraw m, now⟩ ?_ nofun
      rintro _ ⟨⟩
      exact hm
    · rw [if_neg hm]
      exact h
  | verify settled now =>
    unfold Crediting.step
    dsimp only
    cases hrail : w.merchant.rail with
    | none => exact h
    | some rail =>
      refine h.called sealSessionSecret registrableDomain ⟨.verifyPendingDraw rail settled, now⟩
        nofun ?_
      rintro _ _ ⟨⟩
      exact hrail
  | merchant e =>
    unfold Crediting.step
    dsimp only
    by_cases hrail : isRail e.call = true
    · rw [if_pos hrail]
      exact h
    · rw [if_neg hrail]
      exact h.handled (Bool.eq_false_of_not_eq_true hrail)
  | rail op =>
    obtain ⟨rail, hrail, hfunded, hle⟩ := h.rail
    obtain ⟨hfunded', hadv⟩ := VirtualRail.run_funded hfunded op
    have hbooked : (Crediting.step (Wallet.virtualEnv suite sealSessionSecret registrableDomain) w
        (.rail op)).1.merchant.Booked suite.toCrypto :=
      h.booked.same (Carriage.sameBooks_rail _ _)
    refine ⟨hbooked, h.standing, ⟨rail.run op, ?_, hfunded', ?_⟩, fun hfirst => ?_,
      fun hfirst => h.pending hfirst⟩
    · exact congrArg (Option.map (VirtualRail.run · op)) hrail
    · exact hle.trans (Nat.mul_le_mul_right _ (hadv _ _))
    · obtain ⟨htotals, hrecorded, hnotices⟩ := h.tracked hfirst
      exact ⟨htotals, hrecorded, hnotices⟩

theorem Starts.tracks
    (h : w.Starts (Wallet.virtualEnv suite sealSessionSecret registrableDomain)) :
    Tracks suite w := by
  obtain ⟨hbuilt, ⟨rail, hrail, hreach⟩, ⟨_, _, _, _, _, _, hopen, -⟩, hnotices, hfolds⟩ := h
  have hbooked : w.merchant.Booked suite.toCrypto := .built hbuilt
  obtain ⟨hstand, hpending⟩ := ChannelClient.openInner_standing hopen
  have hnone : ∀ k t, ¬ w.merchant.Folded w.wallet.channelId k t := by
    rintro k t ⟨d, hd, -⟩
    obtain ⟨st, hst⟩ := hbooked.channel_of_round hd
    rw [hbuilt.channels] at hst
    cases (Finmap.lookup_empty _).symm.trans hst
  refine ⟨hbooked, ⟨0, hstand⟩, ⟨rail, hrail, hreach.funded, ?_⟩, fun _ => ⟨?_, ?_, ?_⟩, ?_⟩
  · rw [hstand.credited.sum, Nat.zero_mul]
    exact Nat.zero_le _
  · rw [hfolds]
    nofun
  · exact fun k t hf => absurd hf (hnone k t)
  · rw [hnotices]
    nofun
  · intro _ pv hpv
    cases hpending.symm.trans hpv

/-- A verification that credits folds the round that waits. -/
theorem verifyPendingDraw_credits {env : Wallet.Env VirtualRail} {c : ChannelClient}
    {rail : VirtualRail} {settled now : ℕ} {pv : Wallet.PendingVerify}
    (hpending : c.pendingVerify = some pv)
    (h : (c.verifyPendingDraw env rail settled now).1 = true) :
    ∃ folded, c.foldCredited pv.cumTotal = some folded ∧
      (c.verifyPendingDraw env rail settled now).2.rolesBp = folded.rolesBp ∧
      (c.verifyPendingDraw env rail settled now).2.creditedR = folded.creditedR := by
  unfold ChannelClient.verifyPendingDraw at h ⊢
  rw [hpending] at h ⊢
  dsimp only at h ⊢
  cases hcredit : c.tryCredit env rail pv with
  | none =>
    rw [hcredit] at h
    cases h
  | some folded => exact ⟨folded, (ChannelClient.tryCredit_eq_some env hcredit).2, rfl, rfl⟩

theorem verify_eq_some {env : Wallet.Env VirtualRail} {settled now : ℕ}
    {pv : Wallet.PendingVerify} (h : (Crediting.step env w (.verify settled now)).2 = some pv) :
    w.wallet.pendingVerify = some pv ∧ ∃ folded, w.wallet.foldCredited pv.cumTotal = some folded ∧
      (Crediting.step env w (.verify settled now)).1.wallet.rolesBp = folded.rolesBp ∧
      (Crediting.step env w (.verify settled now)).1.wallet.creditedR = folded.creditedR := by
  unfold Crediting.step at h ⊢
  dsimp only at h ⊢
  cases hrail : w.merchant.rail with
  | none =>
    rw [hrail] at h
    cases h
  | some rail =>
    rw [hrail] at h
    dsimp only at h ⊢
    split_ifs at h with hcredited
    exact ⟨h, verifyPendingDraw_credits h hcredited⟩

/-- Whatever draws the wallet missed, what it credited when it credits a round is the cumulative
target of that round and what the merchant had settled when it folded it; what it owes later is the
rest of the later targets. No role is credited more than it accrued, and the rail is funded to
every whole unit that is credited. -/
theorem credit_tracks_settlement
    (h : w.Starts (Wallet.virtualEnv suite sealSessionSecret registrableDomain))
    (turns : List Turn) :
    let env := Wallet.virtualEnv suite sealSessionSecret registrableDomain
    let w' := exec (step env) w turns
    let cid := w'.wallet.channelId
    w'.merchant.FirstGeneration cid →
    (∀ settled now pv, (step env w' (.verify settled now)).2 = some pv →
      let c := (step env w' (.verify settled now)).1.wallet
      (∃ t, c.cumulativeTargetAt pv.cumTotal = some t ∧ c.creditedR.sum = 10 ^ 4 * t ∧
        ∀ cum t', pv.cumTotal ≤ cum → c.cumulativeTargetAt cum = some t' →
          c.carveAt cum = some (t' - t)) ∧
      (∃ total, (pv.ckptRef, total) ∈ w'.folds) ∧
      ∀ total, (pv.ckptRef, total) ∈ w'.folds → total = c.creditedR.sum) ∧
    w'.wallet.Accrued w'.wallet.cumStreamed ∧
    (∀ op, w'.wallet.operative = some op → w'.wallet.Accrued op.cumTotal) ∧
    ∃ rail, w'.merchant.rail = some rail ∧
      w'.wallet.creditedR.sum / 10 ^ 4 ≤ rail.channelFundedP w'.wallet.seedInstance cid := by
  intro env w' cid hfirst
  have htracks : Tracks suite w' :=
    exec_invariant (P := Tracks suite) (fun _ turn hw => hw.step turn) w turns h.tracks
  obtain ⟨base, hstand⟩ := htracks.standing
  obtain ⟨rail, hrail, hfunded, hle⟩ := htracks.rail
  refine ⟨fun settled now pv hcredit => ?_, hstand.credited.accrued.mono hstand.base_le,
    fun op hop => hstand.credited.accrued.mono (hstand.operative op hop).1, rail, hrail, ?_⟩
  · obtain ⟨hpending, folded, hfold, hroles, hcredited⟩ := verify_eq_some hcredit
    obtain ⟨-, -, -, htarget⟩ := hstand.pending pv hpending
    obtain ⟨hto, hsame⟩ := hstand.credited.foldCredited hfold
    intro c
    have hc : c.CreditedTo pv.cumTotal := hto.congr hroles hcredited
    have htarget' : c.cumulativeTargetAt pv.cumTotal = some pv.amount := by
      unfold ChannelClient.cumulativeTargetAt at htarget ⊢
      rw [hroles, hsame]
      exact htarget
    obtain ⟨-, hamount⟩ := (ChannelClient.cumulativeTargetAt_eq_some hc.roles).1 htarget'
    have hsum : c.creditedR.sum = 10 ^ 4 * pv.amount := by
      rw [hc.sum, ← hamount]
      exact Nat.mul_comm ..
    have hfolded := htracks.pending hfirst pv hpending
    refine ⟨⟨pv.amount, htarget', hsum, fun cum t' hle ht' => ?_⟩,
      (htracks.tracked hfirst).recorded _ _ hfolded, fun total htotal => ?_⟩
    · rw [hamount]
      exact hc.carveAt hle ht'
    · obtain ⟨t, hft, heq⟩ := (htracks.tracked hfirst).totals _ htotal
      obtain ⟨st, hst⟩ := htracks.booked.channel_of_round hft.choose_spec.1
      have hunique := (htracks.booked.sound hst).folded_unique hft hfolded
      rw [hsum, ← hunique]
      exact heq.trans (Nat.mul_comm ..)
  · exact Nat.div_le_of_le_mul (hle.trans_eq (Nat.mul_comm ..))

section sample
open Sample

def sampleEnv : Wallet.Env VirtualRail :=
  Wallet.virtualEnv keyedSuite (fun pk aad s => some (keyedSeal pk s aad)) some

def sampleOpening : ChannelOpen := (walletOpening.get walletOpening_isSome).1

def opened : Crediting where
  merchant := start
  wallet := Sample.wallet
  notices := []
  folds := []

def walletSk : ByteArr 32 := Sample.wallet.custody.scopedSk keyedSuite Sample.wallet.scope

def walletSlice : Slice :=
  .sealWith keyedSuite.toCrypto Sample.wallet.kSession 1 1000 Sample.one_le_seqMax
    Sample.thousand_micro

def walletProposal : Checkpoint :=
  ((((ChannelState.new keyedSuite.toCrypto (cid 1) Sample.wallet.kSession .prepay 1000000 1000
    SCHEMA_01_ROLES).creditFunding 20000).acceptEach keyedSuite.toCrypto
      [walletSlice]).2).buildCheckpoint keyedSuite.toCrypto 1200 (.replicate 32 0) []

def walletRequest : CheckpointRequest := .sign keyedSuite walletProposal walletSk

def walletFunding : FundingProof :=
  let fp := fundingOf sampleOpening.auth "virt-ref:0" 20000
  (fp.sign keyedSuite walletSk).getD fp

/-- The payer funds the channel and streams a slice, both sign a checkpoint, and the merchant
draws. -/
def drawTurns : List Turn :=
  [.merchant (sent (.channelOpen sampleOpening 1000)),
    .rail (.submit { dest := "merchant", asset := "usd", amount := 20000
                     memo := sampleOpening.auth.authHash keyedSuite }),
    .rail (.deployInstance Sample.wallet.seedInstance
      [⟨"layer", 50⟩, ⟨"os", 10⟩, ⟨"wallet", 30⟩, ⟨"dev", 10⟩]),
    .merchant (sent (.fundingProof walletFunding)),
    .wallet ⟨.nextSlice .approve 1000, 1100⟩,
    .merchant (sent (.batch (cid 1) [walletSlice])),
    .merchant (sent (.checkpointRequest walletRequest)),
    .wallet ⟨.recordOperative (driver.countersignCheckpoint keyedSuite walletRequest.proposed),
      1200⟩,
    .merchant (sent (.prepayInterimDraw (cid 1)))]

/-- The wallet resumes on what the draw returned. -/
def resumeTurns : List Turn :=
  drawTurns ++ (exec (step sampleEnv) opened drawTurns).notices.map fun m => .resume m 1300

def resumed : Crediting := exec (step sampleEnv) opened resumeTurns

theorem opened_starts : opened.Starts sampleEnv where
  built := start_built
  rail := ⟨.new 0, rfl, .new 0⟩
  opened := ⟨walletTrust, 1000, .approve, _, secret, _, wallet_opened, rfl⟩
  notices := rfl
  folds := rfl

theorem credit_tracks_settlement_resumed :
    ∃ pv, (step sampleEnv resumed (.verify 1300 1300)).2 = some pv ∧
      ∃ total, (pv.ckptRef, total) ∈ resumed.folds ∧ total = 100000 ∧
        total = (step sampleEnv resumed (.verify 1300 1300)).1.wallet.creditedR.sum := by
  have hmain := credit_tracks_settlement opened_starts resumeTurns
  have hfolds : ∀ f ∈ resumed.folds, f.2 = 100000 := by decide +kernel
  have hmode : (resumed.merchant.channels.lookup resumed.wallet.channelId).map ChannelState.mode =
      some .prepay := by decide +kernel
  have hbasis : resumed.merchant.importedBasis.lookup resumed.wallet.channelId = none := by
    decide +kernel
  obtain ⟨pv, hpv⟩ : ∃ pv, (step sampleEnv resumed (.verify 1300 1300)).2 = some pv :=
    Option.isSome_iff_exists.1 (by decide +kernel)
  have hfirst : resumed.merchant.FirstGeneration resumed.wallet.channelId := by
    intro st hst
    rw [hst] at hmode
    exact ⟨Option.some.inj hmode, hbasis⟩
  unfold resumed sampleEnv at *
  dsimp only at hmain
  generalize exec (step _) opened resumeTurns = w at *
  obtain ⟨-, ⟨total, htotal⟩, heq⟩ := (hmain hfirst).1 1300 1300 pv hpv
  exact ⟨pv, hpv, total, htotal, hfolds _ htotal, heq total htotal⟩

end sample

end Crediting

end Paytp
