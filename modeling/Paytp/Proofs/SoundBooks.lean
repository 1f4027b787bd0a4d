import Paytp.Books
import Paytp.Proofs.Evidence
import Paytp.Proofs.Historical
import Paytp.Proofs.Roles

/-!
# Sound books

In the books a channel reaches, what is metered is the evidence and what is not evidenced on top,
what is settled is what the channel opened with and what its folded rounds extinguished, no role
has settled more than it accrued by the evidence, and at most one round is in flight. The round in
flight fits under the evidence and carries the target that settling it reaches.
-/

namespace Paytp

open Carriage

/-! ## Accruals by role -/

theorem length_evidence_snd {E : List (UInt8 × ℕ)} {vs : List (UInt8 × UInt16)}
    (h : E.map Prod.fst = vs.map Prod.fst) : (E.map Prod.snd).length = vs.length := by
  have hlen := congrArg List.length h
  simpa using hlen

theorem zip_fst_snd (E : List (UInt8 × ℕ)) : (E.map Prod.fst).zip (E.map Prod.snd) = E := by
  rw [List.zip_map', List.map_id']

theorem ofRole_accrue_le (amt : ℕ) (role : UInt8) : ∀ (accs : List ℕ)
    (vs : List (UInt8 × UInt16)), ofRole ((vs.map Prod.fst).zip accs) role ≤
      ofRole ((vs.map Prod.fst).zip (ChannelState.accrue amt accs vs)) role
  | [], [] => le_rfl
  | [], _ :: _ => le_rfl
  | _ :: _, [] => le_rfl
  | acc :: accs, (r, bp) :: vs => by
    simp only [ChannelState.accrue, List.map_cons, List.zip_cons_cons, ofRole_cons]
    split_ifs
    · exact Nat.le_add_right _ _
    · exact ofRole_accrue_le amt role accs vs

/-- A table that lists every role gives each role its amount back. -/
theorem mapM_find {t : List (UInt8 × ℕ)} (hd : Distinct t) : ∀ {l : List (UInt8 × ℕ)},
    (∀ e ∈ l, e ∈ t) →
    (l.map Prod.fst).mapM (fun r => (t.find? fun a => a.1 == r).map Prod.snd) =
      some (l.map Prod.snd)
  | [], _ => rfl
  | e :: l, hl => by
    obtain ⟨he, hl⟩ := List.forall_mem_cons.1 hl
    have hfind : (t.find? fun a => a.1 == e.1).map Prod.snd = some e.2 := by
      cases hf : t.find? fun a => a.1 == e.1 with
      | none =>
        have hnone := List.find?_eq_none.1 hf e he
        simp at hnone
      | some a =>
        have ha := List.mem_of_find?_eq_some hf
        have hae : a.1 = e.1 := by simpa using List.find?_some hf
        have heq : a = e := List.inj_on_of_nodup_map hd ha he hae
        rw [heq, Option.map_some]
    rw [List.map_cons, List.mapM_cons, hfind, mapM_find hd hl]
    rfl

namespace Books

variable {crypto : Crypto} {b b' : Books}

/-! ## Sums over the rounds -/

section rounds
variable {k : ByteArr 32} {d d' : RoundDecision} (f : RoundDecision → ℕ)

theorem meedSum_put (hk : (b.rounds.map Prod.fst).Nodup) (hd : (k, d) ∈ b.rounds)
    (hfold : d'.meedFolded = d.meedFolded) (hf : f d' = f d) :
    ({ b with rounds := Keyed.put k d' b.rounds } : Books).meedSum f = b.meedSum f := by
  refine (Keyed.sum_put (c := 0) hk hd ?_).trans (Nat.add_zero _)
  dsimp only
  rw [hfold, hf, Nat.add_zero]

theorem meedSum_put_folded (hk : (b.rounds.map Prod.fst).Nodup) (hd : (k, d) ∈ b.rounds)
    (hfold : d.meedFolded = false) (hfold' : d'.meedFolded = true) (hf : f d' = f d) :
    ({ b with rounds := Keyed.put k d' b.rounds } : Books).meedSum f = b.meedSum f + f d := by
  refine Keyed.sum_put hk hd ?_
  simp [hfold, hfold', hf]

theorem meedSum_put_new (hk : ∀ r ∈ b.rounds, r.1 ≠ k) (hfold : d.meedFolded = false) :
    ({ b with rounds := Keyed.put k d b.rounds } : Books).meedSum f = b.meedSum f := by
  refine (Keyed.sum_put_of_ne hk).trans ?_
  simp [hfold, meedSum]

theorem meedSum_drop (hk : (b.rounds.map Prod.fst).Nodup) (hd : (k, d) ∈ b.rounds)
    (hfold : d.meedFolded = false) :
    ({ b with rounds := Keyed.drop k b.rounds } : Books).meedSum f = b.meedSum f := by
  refine Eq.trans ?_ (Keyed.sum_drop hk hd)
  simp [hfold, meedSum]

end rounds

/-! ## Soundness -/

/-- What stays true of a round, whatever happens to the books. -/
structure Formed (mode : Mode) (d : RoundDecision) : Prop where
  distinct : Distinct d.eR
  roles : ∀ e ∈ d.eR, e.1 ∈ SCHEMA_01_ROLES.map Prod.fst
  sum : sumOf d.eR = d.meedAmount.getD 0 * 10000
  pos : ∀ p, d.meedAmount = some p → 0 < p
  targeted : d.targetP.isSome = d.meedAmount.isSome
  folded : d.meedFolded = true → d.meedAmount.isSome = true
  confirmed : d.confirmed = true → d.meedAmount.isSome = true → d.meedFolded = true
  proposed : d.proposalHashes.Nonempty → mode = .postpay
  drawn : mode = .prepay → d.meedAmount.isSome = true ∧
    (d.meedFolded = true → d.confirmed = true) ∧ d.netFolded = true ∧ d.outputs = []

/-- The meed leg of a round in flight fits under the evidence and reaches its target. -/
structure Pending (b : Books) (d : RoundDecision) : Prop where
  le : ∀ role, ofRole b.ledger.settledR role + ofRole d.eR role ≤ ofRole b.evidence role
  pinned : ∀ t, d.targetP = some t →
    sumOf b.ledger.settledR + sumOf d.eR = sumOf b.opening + t * 10000

structure Sound (b : Books) : Prop where
  wellFormed : b.state.WellFormed
  vector : b.state.vector = SCHEMA_01_ROLES
  roles : b.evidence.map Prod.fst = SCHEMA_01_ROLES.map Prod.fst
  accruals : b.state.accruals =
    ChannelState.accrue b.state.unevidenced (b.evidence.map Prod.snd) b.state.vector
  total : b.state.cumTotal = satAddU128 b.evidenceCum b.state.unevidenced
  opening_distinct : Distinct b.opening
  opening_roles : ∀ e ∈ b.opening, e.1 ∈ SCHEMA_01_ROLES.map Prod.fst
  distinct : Distinct b.ledger.settledR
  settled_roles : ∀ e ∈ b.ledger.settledR, e.1 ∈ SCHEMA_01_ROLES.map Prod.fst
  settled_le : ∀ role, ofRole b.ledger.settledR role ≤ ofRole b.evidence role
  settled_eq : ∀ role, ofRole b.ledger.settledR role =
    ofRole b.opening role + b.meedSum fun d => ofRole d.eR role
  settled_sum : sumOf b.ledger.settledR = sumOf b.opening + b.meedSum fun d => sumOf d.eR
  keys : (b.rounds.map Prod.fst).Nodup
  formed : ∀ r ∈ b.rounds, Formed b.state.mode r.2
  unique : ∀ r ∈ b.rounds, ∀ r' ∈ b.rounds, r.2.confirmed = false → r'.2.confirmed = false →
    r = r'
  pending : ∀ r ∈ b.rounds, r.2.confirmed = false → r.2.meedFolded = false → b.Pending r.2

namespace Sound

theorem evidence_distinct (h : b.Sound) : Distinct b.evidence := by
  rw [Distinct, h.roles]
  decide

theorem evidence_length (h : b.Sound) :
    (b.evidence.map Prod.snd).length = b.state.vector.length := by
  rw [h.vector]
  exact length_evidence_snd h.roles

/-- What is metered covers the evidence, role by role. -/
theorem evidence_le (h : b.Sound) (role : UInt8) :
    ofRole b.evidence role ≤ ofRole b.state.accrualsByRole role := by
  have hle := ofRole_accrue_le b.state.unevidenced role (b.evidence.map Prod.snd) b.state.vector
  rw [← h.accruals, h.vector, ← h.roles, zip_fst_snd, h.roles, ← h.vector] at hle
  exact hle

/-- Metering moves and the evidence does not. -/
theorem metered (h : b.Sound) {state : ChannelState} {ledger : Ledger} (hw : state.WellFormed)
    (hvec : state.vector = b.state.vector) (hmode : state.mode = b.state.mode)
    (hacc : state.accruals =
      ChannelState.accrue state.unevidenced (b.evidence.map Prod.snd) b.state.vector)
    (hcum : state.cumTotal = satAddU128 b.evidenceCum state.unevidenced)
    (hset : ledger.settledR = b.ledger.settledR) : ({ b with state, ledger } : Books).Sound := by
  have hev : ({ b with state, ledger } : Books).evidence = b.evidence := by
    unfold evidence
    dsimp only
    rw [hvec]
  have hpend : ∀ d, b.Pending d → ({ b with state, ledger } : Books).Pending d := by
    intro d hd
    constructor
    · rw [hev]
      dsimp only
      rw [hset]
      exact hd.le
    · dsimp only
      rw [hset]
      exact hd.pinned
  constructor
  · exact hw
  · exact hvec.trans h.vector
  · rw [hev]
    exact h.roles
  · rw [hev]
    dsimp only
    rw [hvec]
    exact hacc
  · exact hcum
  · exact h.opening_distinct
  · exact h.opening_roles
  · dsimp only
    rw [hset]
    exact h.distinct
  · dsimp only
    rw [hset]
    exact h.settled_roles
  · rw [hev]
    dsimp only
    rw [hset]
    exact h.settled_le
  · dsimp only
    rw [hset]
    exact h.settled_eq
  · dsimp only
    rw [hset]
    exact h.settled_sum
  · exact h.keys
  · dsimp only
    rw [hmode]
    exact h.formed
  · exact h.unique
  · exact fun r hr hc hf => hpend _ (h.pending r hr hc hf)

theorem meter (h : b.Sound) {slices : List Slice} {state : ChannelState}
    (ht : ChannelState.Taken b.state slices state) : ({ b with state } : Books).Sound := by
  have hunev := ht.unevidenced_eq h.wellFormed
  have hmode : state.mode = b.state.mode := by rw [ht.frame]
  refine h.metered ht.wellFormed ht.vector_eq hmode ?_ ?_ rfl
  · rw [ht.accruals, h.accruals, hunev, ChannelState.accrue_accrue]
  · rw [ht.cumTotal, h.total, satAddU128_assoc, hunev]

theorem idle (h : b.Sound) (phase : Phase) (pausedWindow : Bool) :
    ({ b with state := { b.state with phase, pausedWindow } } : Books).Sound :=
  h.metered { h.wellFormed with } rfl rfl h.accruals h.total rfl

theorem fund (h : b.Sound) (credited : ℕ) (ledger : Ledger)
    (hset : ledger.settledR = b.ledger.settledR) :
    ({ b with state := b.state.creditFunding credited, ledger } : Books).Sound :=
  h.metered (h.wellFormed.creditFunding credited) rfl rfl h.accruals h.total hset

/-- A checkpoint that recomputes evidences what the window holds up to its cut. -/
theorem proposed_accruals (h : b.Sound) {proposed : Checkpoint}
    (hrec : b.state.recomputes crypto proposed = true) :
    proposed.accruals = (b.state.vector.map Prod.fst).zip (ChannelState.accrue
      (ChannelState.amounts (b.state.window.upto proposed.lastSeq).values)
      (b.evidence.map Prod.snd) b.state.vector) := by
  simp only [ChannelState.recomputes, Bool.and_eq_true, beq_iff_eq] at hrec
  have hown : (b.state.vector.zip b.state.accruals).map (fun p => (p.1.1, p.2 -
      ChannelState.amounts (b.state.window.past proposed.lastSeq).values * p.1.2.toNat)) =
      proposed.accruals := hrec.1.1.1.1.1.2
  have hsplit := ChannelState.amounts_split b.state.window proposed.lastSeq
  have hacc : b.state.accruals = ChannelState.accrue
      (ChannelState.amounts (b.state.window.past proposed.lastSeq).values)
      (ChannelState.accrue (ChannelState.amounts (b.state.window.upto proposed.lastSeq).values)
        (b.evidence.map Prod.snd) b.state.vector) b.state.vector := by
    rw [ChannelState.accrue_accrue, hsplit, ← h.wellFormed.unevidenced_eq]
    exact h.accruals
  rw [← hown, hacc, ChannelState.undo_accrue, List.zip_map_left]
  rfl

theorem countersign (h : b.Sound) {proposed : Checkpoint} (ckptRef : ByteArr 32)
    (hrec : b.state.recomputes crypto proposed = true) :
    ({ b with
      state := b.state.checkpointUpto crypto proposed.lastSeq
      operative := some { ckptRef, cumTotal := proposed.cumTotal
                          accruals := proposed.accruals } } : Books).Sound := by
  have hacc := h.proposed_accruals hrec
  have hlen : (ChannelState.accrue
      (ChannelState.amounts (b.state.window.upto proposed.lastSeq).values)
      (b.evidence.map Prod.snd) b.state.vector).length = (b.state.vector.map Prod.fst).length := by
    rw [ChannelState.length_accrue, h.evidence_length, List.length_map]
  have hle : ∀ role, ofRole b.evidence role ≤ ofRole proposed.accruals role := by
    intro role
    have hgrow := ofRole_accrue_le
      (ChannelState.amounts (b.state.window.upto proposed.lastSeq).values) role
      (b.evidence.map Prod.snd) b.state.vector
    have hfst : b.state.vector.map Prod.fst = b.evidence.map Prod.fst := by
      rw [h.vector, h.roles]
    rw [hacc]
    rwa [hfst, zip_fst_snd, ← hfst] at hgrow
  have hev := (ChannelState.Evidenced.mk h.wellFormed h.total).checkpointUpto hrec
  refine { h with
    wellFormed := hev.wellFormed
    roles := ?_
    accruals := ?_
    total := hev.cumTotal
    settled_le := fun role => (h.settled_le role).trans (hle role)
    pending := ?_ }
  · show proposed.accruals.map Prod.fst = _
    rw [hacc, List.map_fst_zip hlen.ge, h.vector]
  · show b.state.accruals = ChannelState.accrue
      (ChannelState.amounts (b.state.window.past proposed.lastSeq).values)
      (proposed.accruals.map Prod.snd) b.state.vector
    rw [hacc, List.map_snd_zip hlen.le, ChannelState.accrue_accrue,
      ChannelState.amounts_split b.state.window proposed.lastSeq, ← h.wellFormed.unevidenced_eq]
    exact h.accruals
  · intro r hr hc hf
    have hp := h.pending r hr hc hf
    exact ⟨fun role => (hp.le role).trans (hle role), hp.pinned⟩

/-! ## Rounds -/

theorem unique_put (h : b.Sound) {k : ByteArr 32} {d d' : RoundDecision} (hd : (k, d) ∈ b.rounds)
    (hconf : d'.confirmed = false → d.confirmed = false) : ∀ r ∈ Keyed.put k d' b.rounds,
    ∀ r' ∈ Keyed.put k d' b.rounds, r.2.confirmed = false → r'.2.confirmed = false → r = r' := by
  intro r hr r' hr' hc hc'
  rcases Keyed.mem_put.1 hr with rfl | ⟨hr, hk⟩ <;> rcases Keyed.mem_put.1 hr' with rfl | ⟨hr', hk'⟩
  · rfl
  · exact absurd (h.unique _ hd r' hr' (hconf hc) hc').symm fun heq => hk' (by rw [heq])
  · exact absurd (h.unique r hr _ hd hc (hconf hc')) fun heq => hk (by rw [heq])
  · exact h.unique r hr r' hr' hc hc'

/-- A round takes other values that leave its meed leg as it is. -/
theorem putRound (h : b.Sound) {k : ByteArr 32} {d d' : RoundDecision} (hd : (k, d) ∈ b.rounds)
    (heR : d'.eR = d.eR) (htarget : d'.targetP = d.targetP)
    (hfold : d'.meedFolded = d.meedFolded)
    (hconf : d'.confirmed = false → d.confirmed = false) (hform : Formed b.state.mode d') :
    ({ b with rounds := Keyed.put k d' b.rounds } : Books).Sound := by
  refine { h with
    settled_eq := fun role => ?_
    settled_sum := ?_
    keys := Keyed.nodup_put h.keys k d'
    formed := fun r hr => ?_
    unique := ?_
    pending := ?_ }
  · rw [meedSum_put _ h.keys hd hfold (by rw [heR])]
    exact h.settled_eq role
  · rw [meedSum_put _ h.keys hd hfold (by rw [heR])]
    exact h.settled_sum
  · rcases Keyed.mem_put.1 hr with rfl | ⟨hr, -⟩
    · exact hform
    · exact h.formed r hr
  · exact h.unique_put hd hconf
  · intro r hr hc hf
    rcases Keyed.mem_put.1 hr with rfl | ⟨hr, -⟩
    · have hp := h.pending _ hd (hconf hc) (hfold.symm.trans hf)
      constructor
      · intro role
        rw [heR]
        exact hp.le role
      · rw [htarget, heR]
        exact hp.pinned
    · have hp := h.pending r hr hc hf
      exact ⟨hp.le, hp.pinned⟩

theorem restate (h : b.Sound) {k : ByteArr 32} {d d' : RoundDecision} (hd : (k, d) ∈ b.rounds)
    (hs : Restates d d') (hprop : d'.proposalHashes.Nonempty →
      d.proposalHashes.Nonempty ∨ b.state.mode = .postpay) :
    ({ b with rounds := Keyed.put k d' b.rounds } : Books).Sound := by
  have hform := h.formed _ hd
  refine h.putRound hd hs.eR hs.targetP hs.meedFolded (fun hc => hs.confirmed ▸ hc) ?_
  constructor
  · rw [hs.eR]
    exact hform.distinct
  · rw [hs.eR]
    exact hform.roles
  · rw [hs.eR, hs.meedAmount]
    exact hform.sum
  · rw [hs.meedAmount]
    exact hform.pos
  · rw [hs.targetP, hs.meedAmount]
    exact hform.targeted
  · rw [hs.meedFolded, hs.meedAmount]
    exact hform.folded
  · rw [hs.confirmed, hs.meedAmount, hs.meedFolded]
    exact hform.confirmed
  · exact fun hp => (hprop hp).elim hform.proposed id
  · rw [hs.meedAmount, hs.meedFolded, hs.confirmed, hs.netFolded, hs.outputs]
    exact hform.drawn

/-- The meed leg of the round in flight is folded. -/
theorem settle (h : b.Sound) {k : ByteArr 32} {d : RoundDecision} (d' : RoundDecision)
    (hd : (k, d) ∈ b.rounds)
    (hconf : d.confirmed = false) (hfold : d.meedFolded = false) (hfold' : d'.meedFolded = true)
    (heR : d'.eR = d.eR) (hform : Formed b.state.mode d') {ledger : Ledger}
    (hset : ledger.settledR = addSettled b.ledger.settledR d.eR) :
    ({ b with ledger, rounds := Keyed.put k d' b.rounds } : Books).Sound := by
  have hadds := addSettled_adds h.distinct (h.formed _ hd).distinct
  have hp := h.pending _ hd hconf hfold
  have hsum : ∀ f : RoundDecision → ℕ, f d' = f d →
      ({ b with ledger, rounds := Keyed.put k d' b.rounds } : Books).meedSum f =
        b.meedSum f + f d := fun f hf => meedSum_put_folded f h.keys hd hfold hfold' hf
  refine { h with
    distinct := ?_
    settled_roles := ?_
    settled_le := fun role => ?_
    settled_eq := fun role => ?_
    settled_sum := ?_
    keys := Keyed.nodup_put h.keys k d'
    formed := fun r hr => ?_
    unique := ?_
    pending := ?_ }
  · show Distinct ledger.settledR
    rw [hset]
    exact hadds.distinct
  · show ∀ e ∈ ledger.settledR, _
    rw [hset]
    intro e he
    rcases hadds.roles e.1 (List.mem_map_of_mem he) with hr | hr
    · obtain ⟨e', he', heq⟩ := List.mem_map.1 hr
      exact heq ▸ h.settled_roles e' he'
    · obtain ⟨e', he', heq⟩ := List.mem_map.1 hr
      exact heq ▸ (h.formed _ hd).roles e' he'
  · show ofRole ledger.settledR role ≤ _
    rw [hset, hadds.ofRole_eq]
    exact hp.le role
  · rw [hsum _ (by rw [heR])]
    show ofRole ledger.settledR role = _
    rw [hset, hadds.ofRole_eq, h.settled_eq, Nat.add_assoc]
    rfl
  · rw [hsum _ (by rw [heR])]
    show sumOf ledger.settledR = _
    rw [hset, hadds.sumOf_eq, h.settled_sum, Nat.add_assoc]
    rfl
  · rcases Keyed.mem_put.1 hr with rfl | ⟨hr, -⟩
    · exact hform
    · exact h.formed r hr
  · exact h.unique_put hd fun _ => hconf
  · intro r hr hc hf
    rcases Keyed.mem_put.1 hr with rfl | ⟨hr, hk⟩
    · rw [hfold'] at hf
      cases hf
    · exact absurd (h.unique r hr _ hd hc hconf) fun heq => hk (by rw [heq])

theorem foldLegs (h : b.Sound) {k : ByteArr 32} {fold : RoundFold} (hf : b.Folds k fold) :
    (b.foldLegs k fold).Sound := by
  have hform := h.formed _ hf.round
  have hmode : b.state.mode = .postpay := hform.proposed hf.proposed
  have hform' : ∀ version, Formed b.state.mode (foldedRound fold version) := by
    intro version
    refine { hform with folded := ?_, confirmed := ?_, drawn := ?_ }
    · intro hmeed
      rcases Bool.or_eq_true_iff.1 hmeed with hmeed | hmeed
      · exact hform.folded hmeed
      · exact (hf.meed hmeed).1
    · intro hc hsome
      rcases Bool.or_eq_true_iff.1 hc with hc | hc
      · rw [hf.unconfirmed] at hc
        cases hc
      · exact Bool.or_eq_true_iff.2 (hf.confirms hc hsome)
    · rw [hmode]
      exact nofun
  -- the state moves last: what is settled and the rounds do not depend on it
  have hstate : ∀ b₁ : Books, b₁.Sound → ∀ gross,
      ({ b₁ with state := if gross > 0 then b₁.state.applySettlementRound gross
                   else b₁.state } : Books).Sound := by
    intro b₁ h₁ gross
    split_ifs
    · have hev := (ChannelState.Evidenced.mk h₁.wellFormed h₁.total).applySettlementRound gross
      have hframe : (b₁.state.applySettlementRound gross).vector = b₁.state.vector ∧
          (b₁.state.applySettlementRound gross).mode = b₁.state.mode ∧
          (b₁.state.applySettlementRound gross).accruals = b₁.state.accruals ∧
          (b₁.state.applySettlementRound gross).unevidenced = b₁.state.unevidenced := by
        unfold ChannelState.applySettlementRound
        split_ifs <;> exact ⟨rfl, rfl, rfl, rfl⟩
      obtain ⟨hvec, hmode, hacc, hunev⟩ := hframe
      refine h₁.metered hev.wellFormed hvec hmode ?_ hev.cumTotal (rfl : b₁.ledger.settledR = _)
      rw [hacc, hunev]
      exact h₁.accruals
    · exact h₁
  by_cases hmeed : fold.foldMeed = true
  · obtain ⟨-, hunfolded⟩ := hf.meed hmeed
    refine hstate { b with ledger := b.foldedLedger fold, rounds := _ } ?_ (b.gross fold)
    refine h.settle (foldedRound fold (b.foldedLedger fold).version) hf.round hf.unconfirmed
      hunfolded ?_ rfl (hform' _) ?_
    · simp [foldedRound, hmeed]
    · simp [foldedLedger, hmeed]
  · have hset : ∀ ledger : Ledger, ledger.settledR = b.ledger.settledR →
        ({ b with ledger } : Books).Sound := fun ledger hl =>
      h.metered h.wellFormed rfl rfl h.accruals h.total hl
    refine hstate { b with ledger := b.foldedLedger fold, rounds := _ } ?_ (b.gross fold)
    refine (hset (b.foldedLedger fold) ?_).putRound hf.round rfl rfl ?_ (fun _ => hf.unconfirmed)
      (hform' _)
    · simp [foldedLedger, hmeed]
    · simp [foldedRound, hmeed]

theorem foldInterimRound (h : b.Sound) {k : ByteArr 32} {d : RoundDecision}
    (hd : (k, d) ∈ b.rounds) (hfold : d.meedFolded = false) (hconf : d.confirmed = false)
    (hprepay : b.state.mode = .prepay) (finalTime : Option ℕ) :
    (b.foldInterimRound k d finalTime).Sound := by
  have hform := h.formed _ hd
  obtain ⟨hsome, -, -, hout⟩ := hform.drawn hprepay
  refine h.settle (drawnRound d finalTime (b.drawnLedger d).version) hd hconf hfold rfl rfl ?_ rfl
  exact { hform with
    folded := fun _ => hsome
    confirmed := fun _ _ => rfl
    drawn := fun _ => ⟨hsome, fun _ => rfl, rfl, hout⟩ }

theorem dropRound (h : b.Sound) {k : ByteArr 32} {d : RoundDecision} (hd : (k, d) ∈ b.rounds)
    (hconf : d.confirmed = false) (hprepay : b.state.mode = .prepay) :
    ({ b with rounds := Keyed.drop k b.rounds } : Books).Sound := by
  have hfold : d.meedFolded = false := by
    by_contra hne
    have hc := ((h.formed _ hd).drawn hprepay).2.1 (Bool.eq_true_of_not_eq_false hne)
    rw [hconf] at hc
    cases hc
  refine { h with
    settled_eq := fun role => ?_
    settled_sum := ?_
    keys := Keyed.nodup_drop h.keys k
    formed := fun r hr => h.formed r (Keyed.mem_drop.1 hr).1
    unique := fun r hr r' hr' => h.unique r (Keyed.mem_drop.1 hr).1 r' (Keyed.mem_drop.1 hr').1
    pending := ?_ }
  · rw [meedSum_drop _ h.keys hd hfold]
    exact h.settled_eq role
  · rw [meedSum_drop _ h.keys hd hfold]
    exact h.settled_sum
  · intro r hr hc hf
    have hp := h.pending r (Keyed.mem_drop.1 hr).1 hc hf
    exact ⟨hp.le, hp.pinned⟩

/-! ## Targets -/

theorem covers_opening (h : b.Sound) : Covers b.evidence b.opening := by
  intro e he
  have hle := h.settled_le e.1
  rw [h.settled_eq, ofRole_of_mem h.evidence_distinct he] at hle
  omega

theorem covers_settled (h : b.Sound) : Covers b.evidence b.ledger.settledR := by
  intro e he
  have hle := h.settled_le e.1
  rwa [ofRole_of_mem h.evidence_distinct he] at hle

/-- The folded rounds extinguished whole units. -/
theorem settled_advanced (h : b.Sound) :
    sumOf b.ledger.settledR = sumOf b.opening + b.advanced * 10000 := by
  have hsum : ∀ rounds : List (ByteArr 32 × RoundDecision),
      (∀ r ∈ rounds, Formed b.state.mode r.2) →
      (rounds.map fun r => if r.2.meedFolded then sumOf r.2.eR else 0).sum =
        (rounds.map fun r => if r.2.meedFolded then r.2.meedAmount.getD 0 else 0).sum * 10000 := by
    intro rounds hall
    induction rounds with
    | nil => rfl
    | cons r rounds ih =>
      obtain ⟨hr, hall⟩ := List.forall_mem_cons.1 hall
      rw [List.map_cons, List.sum_cons, List.map_cons, List.sum_cons, ih hall, Nat.add_mul, hr.sum]
      split_ifs
      · rfl
      · rw [Nat.zero_mul]
  rw [h.settled_sum]
  exact congrArg (sumOf b.opening + ·) (hsum b.rounds h.formed)

theorem outstanding_opening (h : b.Sound) :
    (outstanding b.evidence b.opening).sum + sumOf b.opening = sumOf b.evidence := by
  refine outstanding_sum h.evidence_distinct h.opening_distinct ?_ h.covers_opening
  rw [h.roles]
  exact h.opening_roles

theorem outstanding_settled (h : b.Sound) :
    (outstanding b.evidence b.ledger.settledR).sum + sumOf b.ledger.settledR =
      sumOf b.evidence := by
  refine outstanding_sum h.evidence_distinct h.distinct ?_ h.covers_settled
  rw [h.roles]
  exact h.settled_roles

/-- The target of the evidence: the whole units it has over the opening. -/
theorem targetP_eq (h : b.Sound) {t : ℕ} (ht : b.targetP b.evidence = some t) :
    t = (sumOf b.evidence - sumOf b.opening) / 10000 ∧ 0 < t := by
  unfold Books.targetP at ht
  simp only [Option.bind_eq_bind, Option.bind_eq_some_iff, toOption_eq_some, u128OfNat_eq_some,
    Option.guard_eq_some'] at ht
  obtain ⟨-, -, div, hdiv, -, hleg, -, rfl⟩ := ht
  have hround := divideOutstanding_round h.evidence_distinct hdiv
  have hout := h.outstanding_opening
  refine ⟨?_, hround.leg_iff.1 hleg⟩
  rw [hround.p_eq]
  congr 1
  omega

/-- A target is what is advanced and what a round of the evidence carves. -/
theorem targetP_step (h : b.Sound) {t : ℕ} (ht : b.targetP b.evidence = some t)
    {div : Fee.RoundDivision}
    (hdiv : divideOutstanding b.evidence b.ledger.settledR = .ok div) :
    t = b.advanced + div.p := by
  have hround := divideOutstanding_round h.evidence_distinct hdiv
  have hset := h.outstanding_settled
  have hadv := h.settled_advanced
  rw [(h.targetP_eq ht).1, hround.p_eq]
  omega

/-- The round that is owed is locked. -/
theorem lock (h : b.Sound) {op : Operative} {d : RoundDecision} (hop : b.operative = some op)
    (hnew : ∀ r ∈ b.rounds, r.1 ≠ op.ckptRef) (hquiet : ∀ r ∈ b.rounds, r.2.confirmed = true)
    (howes : b.Owes op d) :
    ({ b with rounds := Keyed.put op.ckptRef d b.rounds } : Books).Sound := by
  have hev : b.evidence = op.accruals := by
    unfold evidence
    rw [hop]
  obtain ⟨div, hdiv, heR, hamount⟩ := howes.division
  rw [← hev] at hdiv heR
  have hround := divideOutstanding_round h.evidence_distinct hdiv
  have hroles : d.eR.map Prod.fst = SCHEMA_01_ROLES.map Prod.fst := by
    rw [heR, hround.roles, h.roles]
  have hsum : sumOf d.eR = d.meedAmount.getD 0 * 10000 := by
    rw [heR, hround.sumOf_eq, hamount]
    by_cases hleg : div.leg = true
    · rw [if_pos hleg]
      rfl
    · have hzero : div.p = 0 := Nat.eq_zero_of_not_pos fun hpos => hleg (hround.leg_iff.2 hpos)
      rw [if_neg hleg, hzero]
      rfl
  have hle : ∀ role, ofRole b.ledger.settledR role + ofRole d.eR role ≤ ofRole b.evidence role := by
    intro role
    by_cases hr : role ∈ b.evidence.map Prod.fst
    · rw [heR]
      exact hround.le role hr
    · have hzero : ofRole d.eR role = 0 := ofRole_of_not_mem (by rwa [hroles, ← h.roles])
      rw [hzero]
      exact h.settled_le role
  refine { h with
    settled_eq := fun role => ?_
    settled_sum := ?_
    keys := Keyed.nodup_put h.keys _ _
    formed := fun r hr => ?_
    unique := ?_
    pending := ?_ }
  · rw [meedSum_put_new _ hnew howes.meedFolded]
    exact h.settled_eq role
  · rw [meedSum_put_new _ hnew howes.meedFolded]
    exact h.settled_sum
  · rcases Keyed.mem_put.1 hr with rfl | ⟨hr, -⟩
    · constructor
      · rw [heR]
        exact hround.distinct
      · intro e he
        rw [← hroles]
        exact List.mem_map_of_mem he
      · exact hsum
      · intro p hp
        rw [hamount] at hp
        split_ifs at hp with hleg
        cases hp
        exact hround.leg_iff.1 hleg
      · exact howes.target_isSome
      · rw [howes.meedFolded]
        exact nofun
      · rw [howes.confirmed]
        exact nofun
      · exact howes.proposed
      · intro hmode
        obtain ⟨hsome, hnet, hout⟩ := howes.drawn hmode
        refine ⟨hsome, ?_, hnet, hout⟩
        rw [howes.meedFolded]
        exact nofun
    · exact h.formed r hr
  · intro r hr r' hr' hc hc'
    rcases Keyed.mem_put.1 hr with rfl | ⟨hr, -⟩
    · rcases Keyed.mem_put.1 hr' with rfl | ⟨hr', -⟩
      · rfl
      · rw [hquiet r' hr'] at hc'
        cases hc'
    · rw [hquiet r hr] at hc
      cases hc
  · intro r hr hc hf
    rcases Keyed.mem_put.1 hr with rfl | ⟨hr, -⟩
    · refine ⟨hle, fun t ht => ?_⟩
      have htarget := howes.targeted
      rw [ht] at htarget
      split_ifs at htarget with hsome
      rw [← hev] at htarget
      have hstep := h.targetP_step htarget.symm hdiv
      have hadv := h.settled_advanced
      have hsumE : sumOf d.eR = div.p * 10000 := by
        rw [heR]
        exact hround.sumOf_eq
      show sumOf b.ledger.settledR + sumOf d.eR = sumOf b.opening + t * 10000
      omega
    · rw [hquiet r hr] at hc
      cases hc

theorem move (h : b.Sound) {kind : Kind} (hm : Move crypto kind b b') : b'.Sound := by
  cases hm with
  | meter taken live within => exact h.meter taken
  | idle pausedWindow settles => exact h.idle _ pausedWindow
  | countersign ckptRef recomputes => exact h.countersign ckptRef recomputes
  | fund fits owed => exact h.fund _ _ rfl
  | lock operative new quiet owes => exact h.lock operative new quiet owes
  | restate round restates proposed => exact h.restate round restates proposed
  | fold folds => exact h.foldLegs folds
  | draw finalTime round unfolded unconfirmed prepay =>
    exact h.foldInterimRound round unfolded unconfirmed prepay finalTime
  | drop round unconfirmed prepay => exact h.dropRound round unconfirmed prepay

/-! ## Starting -/

/-- Books without rounds whose metering is their evidence. -/
theorem start {state : ChannelState} {basis : Option ImportedBasis} {ledger : Ledger}
    (hw : state.WellFormed) (hvec : state.vector = SCHEMA_01_ROLES) (hempty : state.unevidenced = 0)
    (hev : ({ state, operative := none, basis, ledger, rounds := [] } : Books).evidence =
      state.accrualsByRole)
    (hcum : ({ state, operative := none, basis, ledger, rounds := [] } : Books).evidenceCum =
      state.cumTotal)
    (hopen : (basis.map ImportedBasis.openingSettledR).getD [] = ledger.settledR)
    (hd : Distinct ledger.settledR)
    (hroles : ∀ e ∈ ledger.settledR, e.1 ∈ SCHEMA_01_ROLES.map Prod.fst)
    (hle : ∀ role, ofRole ledger.settledR role ≤ ofRole state.accrualsByRole role) :
    ({ state, operative := none, basis, ledger, rounds := [] } : Books).Sound := by
  have hlen : state.accruals.length = (state.vector.map Prod.fst).length := by
    rw [List.length_map]
    exact hw.aligned
  constructor
  · exact hw
  · exact hvec
  · rw [hev, ChannelState.accrualsByRole, List.map_fst_zip hlen.ge, hvec]
  · rw [hev, ChannelState.accrualsByRole, List.map_snd_zip hlen.le]
    show state.accruals = ChannelState.accrue state.unevidenced state.accruals state.vector
    rw [hempty, ChannelState.accrue_zero]
  · rw [hcum]
    show state.cumTotal = satAddU128 state.cumTotal state.unevidenced
    rw [hempty, satAddU128_zero hw.cum_le]
  · show Distinct ((basis.map ImportedBasis.openingSettledR).getD [])
    rw [hopen]
    exact hd
  · show ∀ e ∈ (basis.map ImportedBasis.openingSettledR).getD [], _
    rw [hopen]
    exact hroles
  · exact hd
  · exact hroles
  · rw [hev]
    exact hle
  · exact fun role => congrArg (fun t => ofRole t role) hopen.symm
  · exact congrArg sumOf hopen.symm
  · exact List.nodup_nil
  · exact fun r hr => by cases hr
  · exact fun r hr => by cases hr
  · exact fun r hr => by cases hr

theorem fresh (crypto : Crypto) (channelId : ByteArr 8) (kSession : ByteArr 32) (mode : Mode)
    (limitL limitE : ℕ) : (Books.fresh crypto channelId kSession mode limitL limitE).Sound :=
  start (ChannelState.wellFormed_new ..) rfl rfl rfl rfl rfl List.nodup_nil
    (fun _ he => by cases he) fun _ => Nat.zero_le _

/-- What is handed on covers what is settled, role by role. -/
theorem handsOn (h : b.Sound) {snap : ChainSnapshot} (hands : b.HandsOn snap) :
    snap.accruals.map Prod.fst = SCHEMA_01_ROLES.map Prod.fst ∧
      ∀ role, ofRole b.ledger.settledR role ≤ ofRole snap.accruals role := by
  obtain ⟨op, hop, -, hacc⟩ | ⟨-, -, -, hacc⟩ := hands.position
  · have hev : b.evidence = op.accruals := by
      unfold evidence
      rw [hop]
    rw [hacc, ← hev]
    exact ⟨h.roles, h.settled_le⟩
  · have hlen := h.wellFormed.aligned
    refine ⟨?_, fun role => ?_⟩
    · rw [hacc, ChannelState.accrualsByRole, List.map_fst_zip, h.vector]
      rw [List.length_map, hlen]
    · rw [hacc]
      exact (h.settled_le role).trans (h.evidence_le role)

/-- The vector's roles import what is handed on. -/
theorem importedAccruals_eq (h : b.Sound) {snap : ChainSnapshot} (hands : b.HandsOn snap)
    {accruals : List ℕ} (hacc : importedAccruals snap = some accruals) :
    accruals = snap.accruals.map Prod.snd := by
  obtain ⟨hroles, -⟩ := h.handsOn hands
  have hd : Distinct snap.accruals := by
    rw [Distinct, hroles]
    decide
  have hfind := mapM_find hd fun e he => he
  have hmap : SCHEMA_01_ROLES.mapM (fun v => (snap.accruals.find? fun a => a.1 == v.1).map Prod.snd)
      = (SCHEMA_01_ROLES.map Prod.fst).mapM
        fun r => (snap.accruals.find? fun a => a.1 == r).map Prod.snd := by
    rw [List.mapM_map]
    rfl
  rw [importedAccruals, hmap, ← hroles, hfind] at hacc
  exact (Option.some.inj hacc).symm

theorem imported (h : b.Sound) {snap : ChainSnapshot} {channelId : ByteArr 8}
    {kSession : ByteArr 32} {limitL limitE : ℕ} {accruals : List ℕ} {state : ChannelState}
    (ckptRef : ByteArr 32) (hands : b.HandsOn snap) (hacc : importedAccruals snap = some accruals)
    (hnew : ChannelState.newImported crypto channelId kSession snap.mode limitL limitE
      SCHEMA_01_ROLES snap.cumTotal accruals snap.importedBalance = .ok state) :
    (Books.imported state ckptRef snap).Sound := by
  obtain ⟨hroles, hle⟩ := h.handsOn hands
  have hw := ChannelState.wellFormed_born (.imported hands.cum_le hnew)
  have haccs := h.importedAccruals_eq hands hacc
  unfold ChannelState.newImported at hnew
  dsimp only at hnew
  split_ifs at hnew
  cases hnew
  have htable : (SCHEMA_01_ROLES.map Prod.fst).zip accruals = snap.accruals := by
    rw [haccs, ← hroles, zip_fst_snd]
  refine start hw rfl rfl rfl rfl rfl ?_ ?_ fun role => ?_
  · show Distinct snap.openingSettledR
    rw [hands.settledR]
    exact h.distinct
  · show ∀ e ∈ snap.openingSettledR, _
    rw [hands.settledR]
    exact h.settled_roles
  · show ofRole snap.openingSettledR role ≤
      ofRole ((SCHEMA_01_ROLES.map Prod.fst).zip accruals) role
    rw [hands.settledR, htable]
    exact hle role

end Sound

/-- The books that a channel reaches are sound. -/
theorem Reachable.sound (h : Reachable crypto b) : b.Sound := by
  induction h with
  | fresh channelId kSession mode limitL limitE => exact .fresh ..
  | imported ckptRef _ hands hacc hnew ih => exact ih.imported ckptRef hands hacc hnew
  | move _ hm ih => exact ih.move hm

/-- A fold moves nothing of the state but the balance and the pause. -/
theorem foldLegs_state (b : Books) (k : ByteArr 32) (fold : RoundFold) :
    ∃ balance pausedWindow,
      (b.foldLegs k fold).state = { b.state with balance, pausedWindow } := by
  unfold foldLegs ChannelState.applySettlementRound
  dsimp only
  split_ifs <;> exact ⟨_, _, rfl⟩

/-- No move changes the terms that a channel meters under. -/
theorem Move.terms {kind : Kind} (hm : Move crypto kind b b') :
    b'.state.mode = b.state.mode ∧ b'.state.boundLower = b.state.boundLower ∧
      b'.state.boundUpper = b.state.boundUpper := by
  cases hm with
  | meter taken => rw [taken.frame]; exact ⟨rfl, rfl, rfl⟩
  | fold =>
    obtain ⟨balance, pausedWindow, hstate⟩ := foldLegs_state b _ _
    rw [hstate]
    exact ⟨rfl, rfl, rfl⟩
  | idle | countersign | fund | lock | restate | draw | drop => exact ⟨rfl, rfl, rfl⟩

end Books

end Paytp
