import Paytp.Proofs.Booked
import Paytp.Sample

/-!
# Rounds are settled once

However the calls of a run interleave, a leg of a round that is folded stays folded as it is, what
is settled and the net total grow by what the legs folded since carry, and the balance falls by no
more than the ledger grows.
-/

namespace Paytp

open Carriage

/-- The net total of a round. -/
def RoundDecision.netAmount (d : RoundDecision) : ℕ := (netTotal d.outputs).getD 0

namespace Books

variable {crypto : Crypto} {b b' : Books}

/-- What holds of the books `b'` that the books `b` lead to. -/
structure FoldsOnce (b b' : Books) : Prop where
  opening : b'.opening = b.opening
  meed_kept : ∀ k d, (k, d) ∈ b.rounds → d.meedFolded = true →
    ∃ d', (k, d') ∈ b'.rounds ∧ d'.meedFolded = true ∧ d'.eR = d.eR
  net_kept : ∀ k d, (k, d) ∈ b.rounds → d.netFolded = true → d.outputs ≠ [] →
    ∃ d', (k, d') ∈ b'.rounds ∧ d'.netFolded = true ∧ d'.outputs = d.outputs
  settled_eq : ∀ role, ofRole b'.ledger.settledR role + b.meedSum (fun d => ofRole d.eR role) =
    ofRole b.ledger.settledR role + b'.meedSum fun d => ofRole d.eR role
  net_eq : b'.ledger.netLegsSum + b.netSum RoundDecision.netAmount =
    b.ledger.netLegsSum + b'.netSum RoundDecision.netAmount
  balance_le : b.state.balance + b.paid ≤ b'.state.balance + b'.paid

namespace FoldsOnce

theorem refl (b : Books) : b.FoldsOnce b where
  opening := rfl
  meed_kept := fun _ d hd hf => ⟨d, hd, hf, rfl⟩
  net_kept := fun _ d hd hf _ => ⟨d, hd, hf, rfl⟩
  settled_eq := fun _ => rfl
  net_eq := rfl
  balance_le := le_rfl

theorem trans {a b c : Books} (hab : a.FoldsOnce b) (hbc : b.FoldsOnce c) : a.FoldsOnce c where
  opening := hbc.opening.trans hab.opening
  meed_kept := by
    intro k d hd hf
    obtain ⟨d₁, hd₁, hf₁, he₁⟩ := hab.meed_kept k d hd hf
    obtain ⟨d₂, hd₂, hf₂, he₂⟩ := hbc.meed_kept k d₁ hd₁ hf₁
    exact ⟨d₂, hd₂, hf₂, he₂.trans he₁⟩
  net_kept := by
    intro k d hd hf hne
    obtain ⟨d₁, hd₁, hf₁, he₁⟩ := hab.net_kept k d hd hf hne
    obtain ⟨d₂, hd₂, hf₂, he₂⟩ := hbc.net_kept k d₁ hd₁ hf₁ (he₁ ▸ hne)
    exact ⟨d₂, hd₂, hf₂, he₂.trans he₁⟩
  settled_eq := by
    intro role
    have h₁ := hab.settled_eq role
    have h₂ := hbc.settled_eq role
    omega
  net_eq := by
    have h₁ := hab.net_eq
    have h₂ := hbc.net_eq
    omega
  balance_le := hab.balance_le.trans hbc.balance_le

end FoldsOnce

/-! ## One move -/

section rounds
variable {k : ByteArr 32} {d d' : RoundDecision}

theorem netSum_put (f : RoundDecision → ℕ) (hk : (b.rounds.map Prod.fst).Nodup)
    (hd : (k, d) ∈ b.rounds) {c : ℕ}
    (hf : (if d'.netFolded then f d' else 0) = (if d.netFolded then f d else 0) + c) :
    ({ b with rounds := Keyed.put k d' b.rounds } : Books).netSum f = b.netSum f + c :=
  Keyed.sum_put hk hd hf

/-- Only what is metered, evidenced or funded moves. -/
theorem FoldsOnce.unsettled {state : ChannelState} {operative : Option Operative}
    {ledger : Ledger} (hset : ledger.settledR = b.ledger.settledR)
    (hnet : ledger.netLegsSum = b.ledger.netLegsSum)
    (hbal : b.state.balance + b.ledger.fundingSum ≤ state.balance + ledger.fundingSum) :
    b.FoldsOnce { b with state, operative, ledger } where
  opening := rfl
  meed_kept := fun _ d hd hf => ⟨d, hd, hf, rfl⟩
  net_kept := fun _ d hd hf _ => ⟨d, hd, hf, rfl⟩
  settled_eq := by
    intro role
    dsimp only
    rw [hset]
    rfl
  net_eq := by
    dsimp only
    rw [hnet]
    rfl
  balance_le := by
    simp only [paid, hset, hnet]
    omega

/-- A round takes other values, and the ledger and the balance move by what it folds. -/
theorem FoldsOnce.put (hk : (b.rounds.map Prod.fst).Nodup) (hd : (k, d) ∈ b.rounds)
    {state : ChannelState} {ledger : Ledger} (heR : d'.eR = d.eR) (hout : d'.outputs = d.outputs)
    (hmeed : d.meedFolded = true → d'.meedFolded = true)
    (hnet : d.netFolded = true → d'.netFolded = true)
    (hset : ∀ role, ofRole ledger.settledR role = ofRole b.ledger.settledR role +
      if d.meedFolded = false ∧ d'.meedFolded = true then ofRole d.eR role else 0)
    (hlegs : ledger.netLegsSum = b.ledger.netLegsSum +
      if d.netFolded = false ∧ d'.netFolded = true then d.netAmount else 0)
    (hbal : b.state.balance + b.paid ≤
      state.balance + ({ b with ledger } : Books).paid) :
    b.FoldsOnce { b with state, ledger, rounds := Keyed.put k d' b.rounds } where
  opening := rfl
  meed_kept := by
    intro k₁ d₁ hd₁ hf
    by_cases hk₁ : k₁ = k
    · subst hk₁
      cases Keyed.value_unique hk hd hd₁
      exact ⟨d', Keyed.mem_put.2 (.inl rfl), hmeed hf, heR⟩
    · exact ⟨d₁, Keyed.mem_put.2 (.inr ⟨hd₁, hk₁⟩), hf, rfl⟩
  net_kept := by
    intro k₁ d₁ hd₁ hf _
    by_cases hk₁ : k₁ = k
    · subst hk₁
      cases Keyed.value_unique hk hd hd₁
      exact ⟨d', Keyed.mem_put.2 (.inl rfl), hnet hf, hout⟩
    · exact ⟨d₁, Keyed.mem_put.2 (.inr ⟨hd₁, hk₁⟩), hf, rfl⟩
  settled_eq := by
    intro role
    have hsum : ({ b with rounds := Keyed.put k d' b.rounds } : Books).meedSum
        (fun d => ofRole d.eR role) = b.meedSum (fun d => ofRole d.eR role) +
        if d.meedFolded = false ∧ d'.meedFolded = true then ofRole d.eR role else 0 := by
      refine Keyed.sum_put hk hd ?_
      dsimp only
      rw [heR]
      by_cases hf : d.meedFolded = true
      · simp [hf, hmeed hf]
      · simp [hf]
    have hmeedSum : ({ b with state, ledger, rounds := Keyed.put k d' b.rounds } : Books).meedSum
        (fun d => ofRole d.eR role) = _ := hsum
    rw [hmeedSum]
    dsimp only
    rw [hset]
    omega
  net_eq := by
    have hsum : ({ b with rounds := Keyed.put k d' b.rounds } : Books).netSum
        RoundDecision.netAmount = b.netSum RoundDecision.netAmount +
        if d.netFolded = false ∧ d'.netFolded = true then d.netAmount else 0 := by
      refine netSum_put _ hk hd ?_
      have hamount : d'.netAmount = d.netAmount := by
        rw [RoundDecision.netAmount, hout, RoundDecision.netAmount]
      rw [hamount]
      by_cases hf : d.netFolded = true
      · simp [hf, hnet hf]
      · simp [hf]
    have hnetSum : ({ b with state, ledger, rounds := Keyed.put k d' b.rounds } : Books).netSum
        RoundDecision.netAmount = _ := hsum
    rw [hnetSum]
    dsimp only
    rw [hlegs]
    omega
  balance_le := hbal

end rounds

/-- A round without outputs has nothing to fold on the net leg. -/
theorem netAmount_nil {d : RoundDecision} (h : d.outputs = []) : d.netAmount = 0 := by
  rw [RoundDecision.netAmount, h]
  rfl

theorem satSubI128_ge (a : ℤ) (n : ℕ) (ha : I128_MIN ≤ a ∧ a ≤ I128_MAX) :
    a ≤ satSubI128 a (i128OfU128 n) + n := by
  unfold satSubI128 clampI128 i128OfU128 I128_MIN I128_MAX at *
  omega

theorem creditFunding_balance_le {s : ChannelState} (h : s.WellFormed) (credited : ℕ) :
    s.balance ≤ (s.creditFunding credited).balance + credited := by
  have hsub := satSubI128_ge s.balance credited h.balance_mem
  unfold ChannelState.creditFunding
  dsimp only
  split_ifs <;> omega

theorem applySettlementRound_balance_le {s : ChannelState} (h : s.WellFormed) (gross : ℕ) :
    s.balance ≤ (s.applySettlementRound gross).balance + gross := by
  have hsub := satSubI128_ge s.balance gross h.balance_mem
  unfold ChannelState.applySettlementRound
  by_cases hmode : s.mode = .postpay
  · rw [if_pos hmode]
    dsimp only
    split_ifs <;> omega
  · rw [if_neg hmode]
    omega

/-- The units that a fold settles. -/
def units (fold : RoundFold) : ℕ :=
  (if fold.foldMeed then fold.round.meedAmount.getD 0 else 0) + fold.netTotal

/-- What the settled numerators come to once a fold is in. -/
theorem settled_fold (h : b.Sound) {k : ByteArr 32} {fold : RoundFold} (hf : b.Folds k fold) :
    sumOf (b.foldedLedger fold).settledR / 10000 = sumOf b.ledger.settledR / 10000 +
      if fold.foldMeed then fold.round.meedAmount.getD 0 else 0 := by
  have hform : Formed b.state.mode fold.round := h.formed _ hf.round
  have hadds := (addSettled_adds h.distinct hform.distinct).sumOf_eq
  have hsum := hform.sum
  unfold foldedLedger
  dsimp only
  split_ifs
  · omega
  · rfl

/-- A fold takes its units off the balance, as far as they are counted. -/
theorem gross_eq (h : b.Sound) {k : ByteArr 32} {fold : RoundFold} (hf : b.Folds k fold) :
    b.gross fold = min U128_MAX (units fold) := by
  have hset := settled_fold h hf
  have hdelta : sumOf (b.foldedLedger fold).settledR / 10000 - sumOf b.ledger.settledR / 10000 =
      if fold.foldMeed then fold.round.meedAmount.getD 0 else 0 := by
    omega
  have hgross : b.gross fold = satAddU128 (satAddU128 0 ((u128OfNat
      (sumOf (b.foldedLedger fold).settledR / 10000 - sumOf b.ledger.settledR / 10000)).getD
      U128_MAX)) fold.netTotal := rfl
  rw [hgross, hdelta, units]
  generalize (if fold.foldMeed then fold.round.meedAmount.getD 0 else 0) = p
  unfold satAddU128 u128OfNat
  split_ifs
  · rw [Option.getD_some]
    omega
  · rw [Option.getD_none]
    omega

/-- The ledger gains the units of a fold. -/
theorem paid_fold (h : b.Sound) {k : ByteArr 32} {fold : RoundFold} (hf : b.Folds k fold) :
    ({ b with ledger := b.foldedLedger fold } : Books).paid = b.paid + units fold := by
  have hset := settled_fold h hf
  have hnet : (b.foldedLedger fold).netLegsSum = b.ledger.netLegsSum + fold.netTotal := by
    unfold foldedLedger
    dsimp only
    split_ifs with hfold
    · exact hf.newNetLegs
    · rw [hf.noNet (Bool.eq_false_iff.2 hfold), Nat.add_zero]
  show b.ledger.fundingSum + (b.foldedLedger fold).netLegsSum +
      sumOf (b.foldedLedger fold).settledR / 10000 =
    b.ledger.fundingSum + b.ledger.netLegsSum + sumOf b.ledger.settledR / 10000 + units fold
  rw [hset, hnet, units]
  omega

theorem FoldsOnce.fold (h : b.Sound) {k : ByteArr 32} {fold : RoundFold} (hf : b.Folds k fold) :
    b.FoldsOnce (b.foldLegs k fold) := by
  refine .put h.keys hf.round rfl rfl ?_ ?_ (fun role => ?_) ?_ ?_
  · simp +contextual [foldedRound]
  · simp +contextual [foldedRound]
  · unfold foldedLedger foldedRound
    dsimp only
    by_cases hmeed : fold.foldMeed = true
    · obtain ⟨-, hunfolded⟩ := hf.meed hmeed
      rw [if_pos hmeed, if_pos ⟨hunfolded, by simp [hmeed]⟩]
      exact (addSettled_adds h.distinct (h.formed _ hf.round).distinct).ofRole_eq role
    · rw [if_neg hmeed, if_neg]
      · rfl
      · simp [hmeed]
  · unfold foldedLedger foldedRound
    dsimp only
    by_cases hnet : fold.foldNet = true
    · obtain ⟨hunfolded, htotal⟩ := hf.net hnet
      rw [if_pos hnet, if_pos ⟨hunfolded, by simp [hnet]⟩, hf.newNetLegs,
        RoundDecision.netAmount, htotal, Option.getD_some]
    · rw [if_neg hnet, if_neg]
      · rfl
      · simp [hnet]
  · have hpaid := paid_fold h hf
    have hgross : b.gross fold ≤ units fold := (gross_eq h hf).le.trans (min_le_right _ _)
    have hbal := applySettlementRound_balance_le h.wellFormed (b.gross fold)
    split_ifs <;> omega

theorem FoldsOnce.lock {op : Operative} {d : RoundDecision}
    (hnew : ∀ r ∈ b.rounds, r.1 ≠ op.ckptRef) (howes : b.Owes op d) :
    b.FoldsOnce { b with rounds := Keyed.put op.ckptRef d b.rounds } where
  opening := rfl
  meed_kept := fun k d₁ hd₁ hf => ⟨d₁, Keyed.mem_put.2 (.inr ⟨hd₁, hnew _ hd₁⟩), hf, rfl⟩
  net_kept := fun k d₁ hd₁ hf _ => ⟨d₁, Keyed.mem_put.2 (.inr ⟨hd₁, hnew _ hd₁⟩), hf, rfl⟩
  settled_eq := fun role => by rw [meedSum_put_new _ hnew howes.meedFolded]
  net_eq := by
    have hsum : ({ b with rounds := Keyed.put op.ckptRef d b.rounds } : Books).netSum
        RoundDecision.netAmount = _ := Keyed.sum_put_of_ne hnew
    have hzero : (if d.netFolded then d.netAmount else 0) = 0 := by
      cases hmode : b.state.mode with
      | prepay => rw [netAmount_nil (howes.drawn hmode).2.2, ite_self]
      | postpay => rw [howes.netFolded hmode, if_neg Bool.false_ne_true]
    rw [hsum]
    dsimp only
    rw [hzero, Nat.zero_add]
    rfl
  balance_le := le_rfl

theorem FoldsOnce.drop (h : b.Sound) {k : ByteArr 32} {d : RoundDecision}
    (hd : (k, d) ∈ b.rounds) (hconf : d.confirmed = false) (hprepay : b.state.mode = .prepay) :
    b.FoldsOnce { b with rounds := Keyed.drop k b.rounds } := by
  obtain ⟨-, hfolded, -, hout⟩ := (h.formed _ hd).drawn hprepay
  have hunfolded : d.meedFolded = false := by
    by_contra hne
    have hc := hfolded (Bool.eq_true_of_not_eq_false hne)
    rw [hconf] at hc
    cases hc
  have hkept : ∀ k₁ d₁, (k₁, d₁) ∈ b.rounds → d₁ ≠ d → (k₁, d₁) ∈ Keyed.drop k b.rounds := by
    intro k₁ d₁ hd₁ hne
    refine Keyed.mem_drop.2 ⟨hd₁, ?_⟩
    rintro rfl
    exact hne (Keyed.value_unique h.keys hd₁ hd)
  constructor
  · rfl
  · intro k₁ d₁ hd₁ hf
    refine ⟨d₁, hkept k₁ d₁ hd₁ ?_, hf, rfl⟩
    rintro rfl
    rw [hunfolded] at hf
    cases hf
  · intro k₁ d₁ hd₁ hf hne
    refine ⟨d₁, hkept k₁ d₁ hd₁ ?_, hf, rfl⟩
    rintro rfl
    exact hne hout
  · intro role
    rw [meedSum_drop _ h.keys hd hunfolded]
  · have hsum := Keyed.sum_drop (f := fun r : ByteArr 32 × RoundDecision =>
      if r.2.netFolded then r.2.netAmount else 0) h.keys hd
    dsimp only at hsum
    rw [netAmount_nil hout, ite_self, Nat.zero_add] at hsum
    exact congrArg (b.ledger.netLegsSum + ·) hsum.symm
  · exact le_rfl

theorem FoldsOnce.draw (h : b.Sound) {k : ByteArr 32} {d : RoundDecision}
    (hd : (k, d) ∈ b.rounds) (hfold : d.meedFolded = false) (hprepay : b.state.mode = .prepay)
    (finalTime : Option ℕ) : b.FoldsOnce (b.foldInterimRound k d finalTime) := by
  obtain ⟨-, -, hnet, -⟩ := (h.formed _ hd).drawn hprepay
  have hadds := addSettled_adds h.distinct (h.formed _ hd).distinct
  refine .put h.keys hd rfl rfl (fun _ => rfl) (fun _ => rfl) (fun role => ?_) ?_ ?_
  · rw [if_pos ⟨hfold, rfl⟩]
    exact hadds.ofRole_eq role
  · rw [if_neg]
    · rfl
    · rintro ⟨hunfolded, -⟩
      exact absurd (hunfolded.symm.trans hnet) Bool.false_ne_true
  · have hdiv : sumOf b.ledger.settledR / 10000 ≤ sumOf (b.drawnLedger d).settledR / 10000 := by
      refine Nat.div_le_div_right ?_
      rw [drawnLedger, hadds.sumOf_eq]
      exact Nat.le_add_right _ _
    have hfund : (b.drawnLedger d).fundingSum = b.ledger.fundingSum := rfl
    have hlegs : (b.drawnLedger d).netLegsSum = b.ledger.netLegsSum := rfl
    simp only [paid, hfund, hlegs]
    omega

/-- A move folds a leg once. -/
theorem FoldsOnce.move (h : b.Sound) {kind : Kind} (hm : Move crypto kind b b') :
    b.FoldsOnce b' := by
  cases hm with
  | meter taken live within =>
    refine .unsettled rfl rfl ?_
    have hbal := taken.balance
    have hmem := h.wellFormed.balance_mem
    unfold satAddI128 clampI128 at hbal
    omega
  | idle pausedWindow settles => exact .unsettled rfl rfl le_rfl
  | countersign ckptRef recomputes => exact .unsettled rfl rfl le_rfl
  | fund fits owed =>
    refine .unsettled rfl rfl ?_
    have hle := creditFunding_balance_le h.wellFormed ‹ℕ›
    push_cast
    omega
  | lock operative new quiet owes => exact .lock new owes
  | restate round restates proposed =>
    refine .put h.keys round restates.eR restates.outputs ?_ ?_ (fun role => ?_) ?_ le_rfl
    · exact fun hf => restates.meedFolded.trans hf
    · exact fun hf => restates.netFolded.trans hf
    · rw [restates.meedFolded, if_neg (by simp), Nat.add_zero]
    · rw [restates.netFolded, if_neg (by simp), Nat.add_zero]
  | fold folds => exact .fold h folds
  | draw finalTime round unfolded unconfirmed prepay =>
    exact .draw h round unfolded prepay finalTime
  | drop round unconfirmed prepay => exact .drop h round unconfirmed prepay

/-- Moves fold a leg once. -/
theorem FoldsOnce.moves (h : b.Sound)
    (hm : Relation.ReflTransGen (fun x y => ∃ kind, Move crypto kind x y) b b') :
    b'.Sound ∧ b.FoldsOnce b' := by
  induction hm with
  | refl => exact ⟨h, .refl b⟩
  | tail _ hm ih =>
    obtain ⟨kind, hm⟩ := hm
    obtain ⟨hs, hfold⟩ := ih
    exact ⟨hs.move hm, hfold.trans (.move hs hm)⟩

end Books

namespace Carriage

variable {ρ : Type} {env : Env ρ} {s : Carriage ρ} {cid : ByteArr 8}

/-- In every state a run reaches, no role of a channel has settled more than its operative
checkpoint accrues, at most one round of the channel is unconfirmed, and what each role has
settled is what the channel opened with and what its folded rounds extinguish. Whatever the run
goes on with folds every leg once. -/
theorem settles_once (h : Built env s) (es fs : List (Event ρ)) {b : Books}
    (hb : (exec (step env) s es).books cid = some b) :
    (∀ op, b.operative = some op →
      ∀ role, ofRole b.ledger.settledR role ≤ ofRole op.accruals role) ∧
    (∀ r ∈ b.rounds, ∀ r' ∈ b.rounds, r.2.confirmed = false → r'.2.confirmed = false → r = r') ∧
    (∀ role, ofRole b.ledger.settledR role =
      ofRole b.opening role + b.meedSum fun d => ofRole d.eR role) ∧
    ∃ b', (exec (step env) s (es ++ fs)).books cid = some b' ∧ b.FoldsOnce b' := by
  have hsound := built_sound h es hb
  refine ⟨fun op hop role => ?_, hsound.unique, hsound.settled_eq, ?_⟩
  · have hev : b.evidence = op.accruals := by
      unfold Books.evidence
      rw [hop]
    rw [← hev]
    exact hsound.settled_le role
  · obtain ⟨b', hb', hm⟩ := exec_moves fs (exec_booked (.built h) es) hb
    refine ⟨b', ?_, (Books.FoldsOnce.moves hsound hm).2⟩
    rw [exec_append]
    exact hb'

section sample
open Sample

def creditSlices : List Slice :=
  [sliceOf (creditTerms (Sample.cid 1)) 1 600 one_le_seqMax (by decide),
    sliceOf (creditTerms (Sample.cid 1)) 2 400 two_le_seqMax (by decide)]

def creditRequest : CheckpointRequest := checkpointOf (creditTerms (Sample.cid 1)) 0 creditSlices

def creditRound : SettlementPropose :=
  proposeOf (Sample.cid 1) (ckptRefOf creditRequest) 990 10 100000

/-- A postpay channel is metered, evidenced and proposes a round, and the payer pays both legs. -/
def creditRun : List (Event VirtualRail) :=
  [sent (.channelOpen (openOn (creditTerms (Sample.cid 1))) 1000),
    sent (.batch (Sample.cid 1) creditSlices),
    sent (.checkpointRequest creditRequest),
    sent (.settlementPropose creditRound),
    sent (.rail (payMeed (creditTerms (Sample.cid 1)) 10)),
    sent (.rail (payNet (Sample.cid 1) (ckptRefOf creditRequest) 990))]

/-- The payer proves the legs one by one, and both of them again. -/
def creditProofs : List (Event VirtualRail) :=
  [sent (.settlementProof (proofOf creditRound [⟨0x01, "virt-ref:0", "final"⟩])),
    sent (.settlementProof (proofOf creditRound [⟨0x02, "virt-ref:1", "final"⟩])),
    sent (.settlementProof
      (proofOf creditRound [⟨0x01, "virt-ref:0", "final"⟩, ⟨0x02, "virt-ref:1", "final"⟩]))]

theorem settles_once_creditRun : ∃ b b',
    (exec (step Sample.env) start creditRun).books (Sample.cid 1) = some b ∧
      (exec (step Sample.env) start (creditRun ++ creditProofs)).books
        (Sample.cid 1) = some b' ∧
      b.FoldsOnce b' ∧ b.paid = 0 ∧ b'.paid = 1000 ∧ b'.state.balance = 0 := by
  have hpaid : ((exec (step Sample.env) start creditRun).books
      (Sample.cid 1)).map Books.paid = some 0 := by
    decide +kernel
  have hpaid' : ((exec (step Sample.env) start (creditRun ++ creditProofs)).books
      (Sample.cid 1)).map (fun b => (b.paid, b.state.balance)) = some (1000, 0) := by
    decide +kernel
  obtain ⟨b, hb, hzero⟩ := Option.map_eq_some_iff.mp hpaid
  obtain ⟨-, -, -, b', hb', hfold⟩ := settles_once start_built creditRun creditProofs hb
  rw [hb', Option.map_some, Option.some.injEq, Prod.mk.injEq] at hpaid'
  exact ⟨b, b', hb, hb', hfold, hzero, hpaid'.1, hpaid'.2⟩

end sample

end Carriage

end Paytp
