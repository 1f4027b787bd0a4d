import Paytp.Kit.ChannelMeed
import Paytp.Proofs.Destinations
import Paytp.Signing

/-!
# Watermarks advance along one path

A channel's watermark after any targets is that of its greatest one: each destination has the
floor of its part of it, and the rest is residue. The rail and the chain keep the same, and a
record that floored each role apart is brought up to it.
-/

namespace Paytp

theorem foldl_max_le {bound : ℕ} {targets : List ℕ} (hmax : ∀ t ∈ targets, t ≤ bound) :
    targets.foldl max 0 ≤ bound := by
  induction targets using List.reverseRecOn with
  | nil => exact Nat.zero_le _
  | append_singleton targets t ih =>
    rw [List.foldl_append]
    exact max_le (ih fun u hu => hmax u (List.mem_append_left _ hu)) (hmax t (by simp))

/-! ## On the rail -/

namespace MeedInstance

variable (inst : MeedInstance)

/-- What each share of a vector is due of a position. -/
def floors (position : ℕ) : List ℕ := inst.meed.map fun r => position * r.bp / inst.bpTotal

/-- The watermark at a position that was reached from nothing. -/
def standing (position : ℕ) : Option ChannelWatermark :=
  if position = 0 ∨ inst.bpTotal = 0 then none
  else some { fundedP := position, paid := inst.floors position
              residue := position - (inst.floors position).sum }

theorem standing_zero : inst.standing 0 = none := if_pos (.inl rfl)

/-- Advances of a channel, with what they paid out together. -/
def advances (cid : ByteArr 8) (targets : List ℕ) : List Payout × MeedInstance :=
  targets.foldl (fun (out, inst) t =>
    (out ++ (inst.advanceChannelMeed cid t).1.2.2, (inst.advanceChannelMeed cid t).2)) ([], inst)

/-- What a channel's watermark says a destination was paid. -/
def paidTo (cid : ByteArr 8) (dest : String) : ℕ :=
  ((inst.channelPaid.lookup cid).map fun w =>
    ((inst.meed.zip w.paid).map fun p => if p.1.dest = dest then p.2 else 0).sum).getD 0

def channelResidue (cid : ByteArr 8) : ℕ :=
  ((inst.channelPaid.lookup cid).map ChannelWatermark.residue).getD 0

variable {inst} {cid : ByteArr 8}

theorem sum_floors_self_le (position : ℕ) : (inst.floors position).sum ≤ position :=
  sum_floors_le position inst.meed

/-- An advance from a position, also from none. -/
theorem advanceChannelMeed_eq {position target : ℕ}
    (h : inst.channelPaid.lookup cid = inst.standing position) (hbp : inst.bpTotal ≠ 0) :
    inst.advanceChannelMeed cid target =
      if target ≤ position then ((position, 0, []), inst)
      else
        let (out, paid) := entitle target inst.bpTotal inst.meed (inst.floors position)
        ((target, target - position, out),
          { inst with channelPaid := inst.channelPaid.insert cid
                        { fundedP := target, paid
                          residue := target - min U128_MAX paid.sum } }) := by
  unfold advanceChannelMeed
  rw [h]
  unfold standing
  simp only [hbp, or_false]
  by_cases hpos : position = 0
  · have hzero : inst.floors 0 = inst.meed.map fun _ => 0 := by simp [floors]
    rw [if_pos hpos, hpos, hzero]
  · rw [if_neg hpos]

/-- An advance brings a channel that stands at a position to the greater of it and the target, and
pays each destination what it is due more. -/
theorem advanceChannelMeed_standing {position target : ℕ}
    (h : inst.channelPaid.lookup cid = inst.standing position) (hmax : target ≤ U128_MAX) :
    (inst.advanceChannelMeed cid target).2.meed = inst.meed ∧
      (inst.advanceChannelMeed cid target).2.channelPaid.lookup cid =
        inst.standing (max position target) ∧
      ∀ dest, paidOut (inst.advanceChannelMeed cid target).1.2.2 dest +
          dueOf position inst.bpTotal inst.meed dest =
        dueOf (max position target) inst.bpTotal inst.meed dest := by
  by_cases hbp : inst.bpTotal = 0
  · -- an instance without points never has a watermark
    have hnone : ∀ p, inst.standing p = none := fun p => if_pos (.inr hbp)
    unfold advanceChannelMeed
    rw [h, hnone, hnone]
    dsimp only
    rw [if_pos (.inr hbp)]
    refine ⟨rfl, h.trans (hnone _), fun dest => ?_⟩
    simp [paidOut, dueOf, hbp]
  · rw [advanceChannelMeed_eq h hbp]
    by_cases hle : target ≤ position
    · rw [if_pos hle, max_eq_left hle]
      exact ⟨rfl, h, fun dest => by simp [paidOut]⟩
    · rw [if_neg hle, max_eq_right (by omega)]
      have hpaid := fun dest => @entitle_floors position target inst.bpTotal (by omega) dest
        inst.meed
      refine ⟨rfl, ?_, fun dest => (hpaid dest).2⟩
      have hsum : (inst.floors target).sum ≤ target := sum_floors_self_le target
      have hnew : (entitle target inst.bpTotal inst.meed (inst.floors position)).2 =
        inst.floors target := (hpaid "").1
      dsimp only
      rw [Finmap.lookup_insert, hnew, min_eq_right (hsum.trans hmax), standing,
        if_neg (by omega)]

/-- Advances bring a fresh channel to their greatest target. -/
theorem advances_standing (hfresh : inst.channelPaid.lookup cid = none) (targets : List ℕ)
    (hmax : ∀ t ∈ targets, t ≤ U128_MAX) :
    (inst.advances cid targets).2.meed = inst.meed ∧
      (inst.advances cid targets).2.channelPaid.lookup cid =
        inst.standing (targets.foldl max 0) ∧
      ∀ dest, paidOut (inst.advances cid targets).1 dest =
        dueOf (targets.foldl max 0) inst.bpTotal inst.meed dest := by
  unfold advances
  induction targets using List.reverseRecOn with
  | nil =>
    refine ⟨rfl, ?_, fun dest => ?_⟩
    · rw [List.foldl_nil, List.foldl_nil, hfresh, standing, if_pos (.inl rfl)]
    · simp [paidOut, dueOf]
  | append_singleton targets t ih =>
    rw [List.foldl_append, List.foldl_append]
    obtain ⟨hmeed, hlook, hout⟩ := ih fun u hu => hmax u (List.mem_append_left _ hu)
    generalize targets.foldl _ ([], inst) = r at hmeed hlook hout ⊢
    obtain ⟨out, after⟩ := r
    have hbp : after.bpTotal = inst.bpTotal := by
      unfold bpTotal
      rw [hmeed]
    have hsame : ∀ p, after.standing p = inst.standing p := fun p => by
      unfold standing floors
      rw [hbp, hmeed]
    obtain ⟨hmeed', hlook', hout'⟩ := advanceChannelMeed_standing (hlook.trans (hsame _).symm)
      (hmax t (by simp))
    refine ⟨hmeed'.trans hmeed, hlook'.trans (hsame _), fun dest => ?_⟩
    have h₁ := hout dest
    have h₂ := hout' dest
    rw [hbp, hmeed] at h₂
    simp only [List.foldl_cons, List.foldl_nil, paidOut, List.map_append, List.sum_append]
      at h₁ h₂ ⊢
    omega

end MeedInstance

/-! ## On the chain -/

namespace Kit

namespace ChannelMeed

variable (cr : ChannelMeed) (dests : Fin 4 → Pubkey)

/-- The record brought up to a position. -/
def brought (position : ℕ) : ChannelMeed :=
  { cr with
    paid := (entryShares dests).entitlement position
    residue := position - ∑ i, (entryShares dests).entitlement position i
    fundedP := position }

theorem brought_seedInstance (position : ℕ) :
    (cr.brought dests position).seedInstance = cr.seedInstance := rfl

theorem brought_channelId (position : ℕ) :
    (cr.brought dests position).channelId = cr.channelId := rfl

/-- What a destination was paid, over the slots that name it. -/
def paidTo (dest : Pubkey) : ℕ := ∑ i with dests i = dest, cr.paid i

variable {cr dests} {inst : Instance} {cid : ByteArr 8}

theorem divide_eq_ok {position : ℕ} {newPaid : Fin 4 → ℕ} :
    divide dests position = .ok newPaid ↔
      (∀ i, (entryShares dests).entitlement position i ≤ U128_MAX) ∧
        newPaid = (entryShares dests).entitlement position := by
  have hagg : aggregateBpByDest dests SCHEMA_01_BP =
      .ok (canonical dests, (entryShares dests).weight) :=
    aggregateBpByDest_eq dests SCHEMA_01_BP (by decide)
  have hslot : (fun i => if (entryShares dests).weight i = 0 then 0
      else Fee.claimableD position ((entryShares dests).weight i) SCHEMA_01_BP_TOTAL 0) =
      (entryShares dests).entitlement position := by
    funext i
    rw [Program.claimableD_eq]
    split_ifs with hzero
    · simp [Shares.entitlement, hzero]
    · rfl
  unfold divide
  rw [hagg]
  simp only [bind_eq_ok, require_eq_ok, pure_eq_ok, decide_eq_true_eq, Except.ok.injEq]
  constructor
  · rintro ⟨_, rfl, -, hle, rfl⟩
    exact ⟨fun i => (congrFun hslot i).symm.trans_le (hle i), hslot⟩
  · rintro ⟨hle, rfl⟩
    exact ⟨_, rfl, (), fun i => (congrFun hslot i).trans_le (hle i), hslot⟩

/-- What a destination was paid is kept at the first slot that names it. -/
theorem paidTo_eq (i : Fin 4) :
    cr.paidTo dests (dests i) = oldByDest dests cr.paid (canonical dests i) := by
  unfold paidTo oldByDest Shares.grouped
  have hslots : (Finset.univ.filter fun j => dests j = dests i) =
      Finset.univ.filter fun j => canonical dests j = canonical dests i :=
    Finset.filter_congr fun j _ => (canonical_eq_iff dests).symm
  rw [hslots]

theorem oldByDest_entitlement (position : ℕ) :
    oldByDest dests ((entryShares dests).entitlement position) =
      (entryShares dests).entitlement position :=
  Shares.grouped_entitlement _ (canonical_idem dests) position

/-- A destination's part of a position, at the points of its roles. -/
theorem brought_paidTo (position : ℕ) (i : Fin 4) :
    (cr.brought dests position).paidTo dests (dests i) =
      (entryShares dests).entitlement position (canonical dests i) := by
  rw [paidTo_eq]
  exact congrFun (oldByDest_entitlement position) _

/-- No destination has more than its part of a position. -/
def Owing (dests : Fin 4 → Pubkey) (cr : ChannelMeed) : Prop :=
  (entryShares dests).Within cr.fundedP (oldByDest dests cr.paid)

theorem brought_owing (position : ℕ) : Owing dests (cr.brought dests position) := by
  unfold Owing brought
  rw [oldByDest_entitlement]
  exact fun _ => Nat.le_refl _

/-- An advance beyond a record's position brings it there. -/
theorem advance_eq {target : ℕ} (hseed : cr.seedInstance = inst.seedInstance)
    (hcid : cr.channelId = cid) (howing : Owing inst.dests cr) (hmax : target ≤ U128_MAX) :
    cr.advance inst cid target =
      .ok (if target ≤ cr.fundedP then cr else cr.brought inst.dests target) := by
  unfold advance
  by_cases hle : target ≤ cr.fundedP
  · simp [hseed, hcid, hle, require]
  · have hsum := (entryShares inst.dests).sum_entitlement_le target
    have hwithin := howing.mono (Nat.le_of_not_le hle)
    have hchecked : checkedSum (List.ofFn ((entryShares inst.dests).entitlement target)) =
        .ok (∑ i, (entryShares inst.dests).entitlement target i) :=
      checkedSum_eq_ok.2 ⟨by rw [List.sum_ofFn]; omega, (List.sum_ofFn).symm⟩
    have hnew : ∀ i, (entryShares inst.dests).entitlement target i ≤ U128_MAX := fun i =>
      ((Finset.single_le_sum (fun _ _ => Nat.zero_le _) (Finset.mem_univ i)).trans hsum).trans hmax
    have hold : ∀ i, oldByDest inst.dests cr.paid i ≤ U128_MAX := fun i =>
      (hwithin i).trans (hnew i)
    rw [if_neg hle]
    simp only [bind_eq_ok, require_eq_ok, pure_eq_ok, decide_eq_true_eq, beq_iff_eq, if_neg hle]
    exact ⟨(), hseed, (), hcid, _, divide_eq_ok.2 ⟨hnew, rfl⟩, _, hchecked, (), hold, (), hwithin,
      (), hsum, rfl⟩

/-- The record brought up to a position, if it is not there yet. -/
def upTo (cr : ChannelMeed) (dests : Fin 4 → Pubkey) (position : ℕ) : ChannelMeed :=
  if position ≤ cr.fundedP then cr else cr.brought dests position

/-- The account at a position that was reached from nothing. -/
def standing (inst : Instance) (cid : ByteArr 8) (position : ℕ) : Option ChannelMeed :=
  if position = 0 then none else some ((create inst cid).brought inst.dests position)

theorem create_seedInstance (inst : Instance) (cid : ByteArr 8) :
    (create inst cid).seedInstance = inst.seedInstance := rfl

theorem create_channelId (inst : Instance) (cid : ByteArr 8) :
    (create inst cid).channelId = cid := rfl

theorem create_owing : Owing inst.dests (create inst cid) := by
  intro i
  have hzero : oldByDest inst.dests (create inst cid).paid i = 0 := by
    simp [oldByDest, Shares.grouped, create]
  rw [hzero]
  exact Nat.zero_le _

theorem standing_eq {position : ℕ} (hpos : 0 < position) :
    standing inst cid position = some ((create inst cid).upTo inst.dests position) := by
  unfold standing upTo
  rw [if_neg (by omega), if_neg (by show ¬ position ≤ 0; omega)]

theorem advance_upTo (hseed : cr.seedInstance = inst.seedInstance) (hcid : cr.channelId = cid)
    (howing : Owing inst.dests cr) (position : ℕ) {target : ℕ} (hmax : target ≤ U128_MAX) :
    (cr.upTo inst.dests position).advance inst cid target =
      .ok (cr.upTo inst.dests (max position target)) := by
  unfold upTo
  by_cases hpos : position ≤ cr.fundedP
  · rw [if_pos hpos, advance_eq hseed hcid howing hmax]
    by_cases ht : target ≤ cr.fundedP
    · rw [if_pos ht, if_pos (max_le hpos ht)]
    · rw [if_neg ht, if_neg (by omega), max_eq_right (by omega)]
  · have hmore : ¬ max position target ≤ cr.fundedP := by omega
    have hseed' := (cr.brought_seedInstance inst.dests position).trans hseed
    have hcid' := (cr.brought_channelId inst.dests position).trans hcid
    rw [if_neg hpos, if_neg hmore, advance_eq hseed' hcid' (brought_owing position) hmax]
    by_cases ht : target ≤ position
    · rw [max_eq_left ht]
      exact congrArg _ (if_pos ht)
    · rw [max_eq_right (by omega)]
      exact congrArg _ (if_neg ht)

/-- An advance of any record takes nothing from a destination. -/
theorem advance_le {target : ℕ} {cr' : ChannelMeed} (h : cr.advance inst cid target = .ok cr')
    (dest : Pubkey) : cr.paidTo inst.dests dest ≤ cr'.paidTo inst.dests dest := by
  unfold advance at h
  simp only [bind_eq_ok, require_eq_ok] at h
  obtain ⟨-, -, -, -, h⟩ := h
  split_ifs at h
  · cases h
    exact Nat.le_refl _
  · simp only [bind_eq_ok, require_eq_ok, pure_eq_ok, decide_eq_true_eq] at h
    obtain ⟨newPaid, hnew, _, -, -, -, -, hup, -, -, rfl⟩ := h
    by_cases hslot : ∃ i, inst.dests i = dest
    · obtain ⟨i, rfl⟩ := hslot
      rw [paidTo_eq, paidTo_eq]
      exact (hup _).trans_eq (by rw [(divide_eq_ok.1 hnew).2, oldByDest_entitlement])
    · have hnone : ∀ x : ChannelMeed, x.paidTo inst.dests dest = 0 := fun x => by
        unfold paidTo
        rw [Finset.filter_eq_empty_iff.2 fun i _ hi => hslot ⟨i, hi⟩]
        rfl
      rw [hnone, hnone]

end ChannelMeed

/-! ## Runs -/

/-- Advances of a channel's account in turn. -/
def advances (inst : Instance) (account : Option ChannelMeed) (cid : ByteArr 8)
    (targets : List ℕ) : Except KitError (Option ChannelMeed) :=
  targets.foldlM (fun account t => advanceChannelMeed inst account cid t) account

section advances
variable {inst : Instance} {cr : ChannelMeed} {cid : ByteArr 8}

theorem advances_nil (account : Option ChannelMeed) : advances inst account cid [] = .ok account :=
  rfl

theorem advances_append {account account' : Option ChannelMeed} {targets : List ℕ} {t : ℕ}
    (h : advances inst account cid targets = .ok account') :
    advances inst account cid (targets ++ [t]) = advanceChannelMeed inst account' cid t := by
  unfold advances at h ⊢
  rw [List.foldlM_append, h]
  show ([t].foldlM (fun account t => advanceChannelMeed inst account cid t) account') = _
  rw [List.foldlM_cons]
  rcases advanceChannelMeed inst account' cid t with e | account'' <;> rfl

theorem advances_single (inst : Instance) (cid : ByteArr 8) (t : ℕ) :
    advances inst none cid [t] = advanceChannelMeed inst none cid t :=
  advances_append (advances_nil none)

/-- A record is brought up to the greatest target beyond it. -/
theorem advances_record (hseed : cr.seedInstance = inst.seedInstance) (hcid : cr.channelId = cid)
    (howing : cr.Owing inst.dests) (targets : List ℕ) (hmax : ∀ t ∈ targets, t ≤ U128_MAX) :
    advances inst (some cr) cid targets =
      .ok (some (cr.upTo inst.dests (targets.foldl max 0))) := by
  induction targets using List.reverseRecOn with
  | nil =>
    unfold ChannelMeed.upTo
    rw [advances_nil, List.foldl_nil, if_pos (Nat.zero_le _)]
  | append_singleton targets t ih =>
    rw [advances_append (ih fun u hu => hmax u (List.mem_append_left _ hu)), List.foldl_append]
    exact congrArg (Except.map some)
      (ChannelMeed.advance_upTo hseed hcid howing _ (hmax t (by simp)))

/-- A record that paid each role no more than the role's own part. -/
theorem advances_upTo (targets : List ℕ) (hmax : ∀ t ∈ targets, t ≤ U128_MAX)
    (hseed : cr.seedInstance = inst.seedInstance) (hcid : cr.channelId = cid)
    (hroles : ∀ i, cr.paid i ≤ cr.fundedP * SCHEMA_01_BP i / SCHEMA_01_BP_TOTAL) :
    ∃ cr', advances inst (some cr) cid targets = .ok (some cr') ∧
      (∀ dest, cr.paidTo inst.dests dest ≤ cr'.paidTo inst.dests dest) ∧
      (targets.foldl max 0 ≤ cr.fundedP → cr' = cr) ∧
      (cr.fundedP < targets.foldl max 0 → cr'.fundedP = targets.foldl max 0 ∧
        ∑ i, cr'.paid i + cr'.residue = targets.foldl max 0 ∧
        ∀ i, cr'.paidTo inst.dests (inst.dests i) =
          targets.foldl max 0 * (∑ j with inst.dests j = inst.dests i, SCHEMA_01_BP j) /
            SCHEMA_01_BP_TOTAL) := by
  have howing : cr.Owing inst.dests := Shares.Within.group hroles
  have hrun := advances_record hseed hcid howing targets hmax
  have hone := ChannelMeed.advance_upTo hseed hcid howing 0 (foldl_max_le hmax)
  generalize targets.foldl max 0 = top at *
  rw [Nat.zero_max, ChannelMeed.upTo, if_pos (Nat.zero_le _)] at hone
  refine ⟨_, hrun, ChannelMeed.advance_le hone, fun hle => if_pos hle, fun hlt => ?_⟩
  rw [ChannelMeed.upTo, if_neg (by omega)]
  have hsum := (entryShares inst.dests).sum_entitlement_le top
  refine ⟨rfl, ?_, fun i => ?_⟩
  · dsimp only [ChannelMeed.brought]
    omega
  · rw [ChannelMeed.brought_paidTo, entitlement_canonical]

/-- A fresh channel's account after its advances. -/
theorem advances_fresh (targets : List ℕ) (hmax : ∀ t ∈ targets, t ≤ U128_MAX) :
    advances inst none cid targets =
      .ok (ChannelMeed.standing inst cid (targets.foldl max 0)) := by
  induction targets using List.reverseRecOn with
  | nil => rfl
  | append_singleton targets t ih =>
    rw [advances_append (ih fun u hu => hmax u (List.mem_append_left _ hu)), List.foldl_append,
      List.foldl_cons, List.foldl_nil]
    have ht := hmax t (by simp)
    generalize targets.foldl max 0 = top
    have hstep := ChannelMeed.advance_upTo (ChannelMeed.create_seedInstance inst cid)
      (ChannelMeed.create_channelId inst cid) ChannelMeed.create_owing top ht
    by_cases htop : top = 0
    · subst htop
      rw [Nat.zero_max] at hstep ⊢
      rw [ChannelMeed.upTo, if_pos (Nat.zero_le _)] at hstep
      by_cases hzero : t = 0
      · rw [hzero]
        rfl
      · rw [@ChannelMeed.standing_eq inst cid t (Nat.pos_of_ne_zero hzero)]
        exact (if_neg hzero).trans (congrArg (Except.map some) hstep)
    · rw [ChannelMeed.standing_eq (by omega), ChannelMeed.standing_eq (by omega)]
      exact congrArg (Except.map some) hstep

end advances

end Kit

/-! ## Both sides -/

section watermarks
variable {inst : Kit.Instance} {host : MeedInstance} {cid : ByteArr 8} {targets : List ℕ}

namespace MeedInstance

/-- What the watermark at a position says a destination was paid, it is due of it. -/
theorem paidTo_standing {position : ℕ} (h : host.channelPaid.lookup cid = host.standing position)
    (dest : String) : host.paidTo cid dest = dueOf position host.bpTotal host.meed dest := by
  unfold paidTo
  rw [h]
  unfold standing
  split_ifs with hnone
  · rcases hnone with rfl | hbp
    · simp [dueOf]
    · simp [dueOf, hbp]
  · have hzip : ∀ meed : List MeedShare, ((meed.zip (meed.map fun r =>
        position * r.bp / host.bpTotal)).map fun p => if p.1.dest = dest then p.2 else 0).sum =
        dueOf position host.bpTotal meed dest := by
      intro meed
      induction meed with
      | nil => rfl
      | cons r meed ih =>
        simp only [List.map_cons, List.zip_cons_cons, List.sum_cons, ih]
        rfl
    exact hzip host.meed

theorem standing_sound {w : ChannelWatermark} {position : ℕ} (h : host.standing position = some w) :
    w.fundedP = position ∧ w.paid.sum + w.residue = w.fundedP := by
  have hsum := @sum_floors_self_le host position
  unfold standing at h
  split_ifs at h
  cases h
  exact ⟨rfl, by dsimp only; omega⟩

end MeedInstance

theorem Kit.ChannelMeed.standing_sound {cr : Kit.ChannelMeed} {position : ℕ}
    (h : Kit.ChannelMeed.standing inst cid position = some cr) :
    cr.fundedP = position ∧ ∑ i, cr.paid i + cr.residue = cr.fundedP := by
  have hsum := (Kit.entryShares inst.dests).sum_entitlement_le position
  unfold standing at h
  split_ifs at h
  cases h
  exact ⟨rfl, by dsimp only [brought]; omega⟩

/-- Where the rail and the chain stand at the same position, they keep the same. -/
theorem standing_agree {strs : Fin 4 → String} {position : ℕ} (h : SamePattern strs inst.dests)
    (hmeed : host.meed = schemaMeed strs)
    (hlook : host.channelPaid.lookup cid = host.standing position) :
    let account := Kit.ChannelMeed.standing inst cid position
    host.channelFundedP cid = (account.map Kit.ChannelMeed.fundedP).getD 0 ∧
      host.channelResidue cid = (account.map Kit.ChannelMeed.residue).getD 0 ∧
      ∀ i, host.paidTo cid (strs i) =
        (account.map fun cr => cr.paidTo inst.dests (inst.dests i)).getD 0 := by
  have hbp : host.bpTotal = Kit.SCHEMA_01_BP_TOTAL := by
    rw [MeedInstance.bpTotal, hmeed]
    exact (schemaMeed_shares strs).2.2
  have hpaid : ∀ i, host.paidTo cid (strs i) =
      (Kit.entryShares inst.dests).entitlement position (Kit.canonical inst.dests i) := fun i => by
    rw [MeedInstance.paidTo_standing hlook, hbp, hmeed, dueOf_schemaMeed h]
  unfold MeedInstance.channelFundedP MeedInstance.channelResidue
  simp only [hpaid]
  rw [hlook]
  unfold MeedInstance.standing Kit.ChannelMeed.standing
  rw [hbp]
  by_cases hpos : position = 0
  · subst hpos
    exact ⟨rfl, rfl, fun i => by simp [Shares.entitlement]⟩
  · have hsum : (host.floors position).sum =
        ∑ i, (Kit.entryShares inst.dests).entitlement position i := by
      rw [MeedInstance.floors, hbp, hmeed]
      exact sum_schemaMeed h position
    rw [if_neg (by simp [hpos, Kit.SCHEMA_01_BP_TOTAL]), if_neg hpos, hsum]
    refine ⟨rfl, rfl, fun i => ?_⟩
    rw [Option.map_some, Option.getD_some, Kit.ChannelMeed.brought_paidTo]

/-- Whatever targets a fresh channel is advanced to in turn, its watermark is that of one advance
to the greatest, on the rail and on the chain, and nothing of it is lost or refused; the two agree
for each destination. A record that floored each role apart is only ever brought up. -/
theorem watermarks_path_independent (hfresh : host.channelPaid.lookup cid = none)
    (hmax : ∀ t ∈ targets, t ≤ U128_MAX) :
    let top := targets.foldl max 0
    let (payouts, after) := host.advances cid targets
    (after.channelPaid.lookup cid = (host.advanceChannelMeed cid top).2.channelPaid.lookup cid ∧
      (∀ dest, paidOut payouts dest = paidOut (host.advanceChannelMeed cid top).1.2.2 dest) ∧
      ∀ w, after.channelPaid.lookup cid = some w →
        w.fundedP = top ∧ w.paid.sum + w.residue = w.fundedP) ∧
    (∃ account, Kit.advances inst none cid targets = .ok account ∧
      Kit.advanceChannelMeed inst none cid top = .ok account ∧
      (∀ cr, account = some cr → cr.fundedP = top ∧ ∑ i, cr.paid i + cr.residue = cr.fundedP) ∧
      ∀ (strs : Fin 4 → String) (seed : ByteArr 32), SamePattern strs inst.dests →
        host.meed = (MeedInstance.new (schemaShares strs) seed).meed →
        after.channelFundedP cid = (account.map Kit.ChannelMeed.fundedP).getD 0 ∧
        after.channelResidue cid = (account.map Kit.ChannelMeed.residue).getD 0 ∧
        ∀ i, after.paidTo cid (strs i) = paidOut payouts (strs i) ∧
          after.paidTo cid (strs i) =
            (account.map fun cr => cr.paidTo inst.dests (inst.dests i)).getD 0) ∧
    (∀ cr : Kit.ChannelMeed, cr.seedInstance = inst.seedInstance → cr.channelId = cid →
      (∀ i, cr.paid i ≤ cr.fundedP * Kit.SCHEMA_01_BP i / Kit.SCHEMA_01_BP_TOTAL) →
      ∃ cr', Kit.advances inst (some cr) cid targets = .ok (some cr') ∧
        (∀ dest, cr.paidTo inst.dests dest ≤ cr'.paidTo inst.dests dest) ∧
        (top ≤ cr.fundedP → cr' = cr) ∧
        (cr.fundedP < top → cr'.fundedP = top ∧ ∑ i, cr'.paid i + cr'.residue = top ∧
          ∀ i, cr'.paidTo inst.dests (inst.dests i) =
            top * (∑ j with inst.dests j = inst.dests i, Kit.SCHEMA_01_BP j) /
              Kit.SCHEMA_01_BP_TOTAL)) ∧
    ∀ (cr cr' : Kit.ChannelMeed) (t : ℕ), cr.advance inst cid t = .ok cr' →
      ∀ dest, cr.paidTo inst.dests dest ≤ cr'.paidTo inst.dests dest := by
  obtain ⟨hmeed, hlook, hout⟩ := MeedInstance.advances_standing hfresh targets hmax
  have htop := foldl_max_le hmax
  have hchain := @Kit.advances_fresh inst cid targets hmax
  have hlegacy := fun cr => @Kit.advances_upTo inst cr cid targets hmax
  obtain ⟨-, hlook₁, hout₁⟩ := MeedInstance.advanceChannelMeed_standing
    (hfresh.trans (host.standing_zero).symm) htop
  rw [Nat.zero_max] at hlook₁ hout₁
  generalize targets.foldl max 0 = top at *
  generalize host.advances cid targets = r at *
  obtain ⟨payouts, after⟩ := r
  dsimp only at hmeed hlook hout ⊢
  have hbp : after.bpTotal = host.bpTotal := by
    unfold MeedInstance.bpTotal
    rw [hmeed]
  have hsame : after.standing top = host.standing top := by
    unfold MeedInstance.standing MeedInstance.floors
    rw [hbp, hmeed]
  refine ⟨⟨hlook.trans hlook₁.symm, fun dest => ?_, fun w hw => ?_⟩, ⟨_, hchain, ?_, ?_, ?_⟩,
    hlegacy, fun cr cr' t h dest => Kit.ChannelMeed.advance_le h dest⟩
  · have hnone : dueOf 0 host.bpTotal host.meed dest = 0 := by simp [dueOf]
    rw [hout, ← hout₁ dest, hnone, Nat.add_zero]
  · exact MeedInstance.standing_sound (hlook.symm.trans hw)
  · exact (Kit.advances_single inst cid top).symm.trans
      ((@Kit.advances_fresh inst cid [top] (by simpa using htop)).trans (by simp))
  · exact fun cr hcr => Kit.ChannelMeed.standing_sound hcr
  · intro strs seed hpattern hhost
    obtain ⟨hfunded, hresidue, hpaid⟩ := standing_agree hpattern (hmeed.trans hhost)
      (hlook.trans hsame.symm)
    refine ⟨hfunded, hresidue, fun i => ⟨?_, hpaid i⟩⟩
    rw [hout, MeedInstance.paidTo_standing (hlook.trans hsame.symm), hbp, hmeed]

end watermarks

/-- Two roles share a fund. -/
def sharedFund : Kit.Instance where
  seedInstance := .ofNat 32 1
  merchantKey := .ofNat 32 2
  dests := ![.ofNat 32 3, .ofNat 32 4, .ofNat 32 5, .ofNat 32 4]
  mint := .ofNat 32 6

def sharedFundHost : MeedInstance :=
  .new (schemaShares !["broker", "fund", "agent", "fund"]) (.ofNat 32 1)

theorem watermarks_path_independent_sharedFund :
    (sharedFundHost.advances (.ofNat 8 7) [55, 200, 150]).2.channelPaid.lookup (.ofNat 8 7) =
      (sharedFundHost.advanceChannelMeed (.ofNat 8 7) 200).2.channelPaid.lookup (.ofNat 8 7) ∧
    paidOut (sharedFundHost.advances (.ofNat 8 7) [55, 200, 150]).1 "fund" = 40 :=
  have h := @watermarks_path_independent sharedFund sharedFundHost (.ofNat 8 7) [55, 200, 150]
    rfl (by decide)
  ⟨h.1.1, h.1.2.1 "fund"⟩

end Paytp
