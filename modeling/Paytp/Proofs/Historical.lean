import Paytp.Proofs.Metering

/-!
# Checkpoints cut in the past

A state that has accepted newer slices since a checkpoint was built still builds the same one at
its last number: what the window holds past the cut is undone from the totals. Committing it
keeps the newer slices, and the next full checkpoint does not show whether it was committed.
-/

namespace Paytp

namespace ChannelState

variable {crypto : Crypto}

/-- The last number a checkpoint over the whole window names. -/
def lastSeq (s : ChannelState) : ℕ := s.accounted.keys.getLast?.getD s.floor

theorem keys_le_max {s : ChannelState} (h : s.WellFormed) : ∀ k ∈ s.window.keys, k ≤ U64_MAX := by
  intro k hk
  obtain ⟨e, he, rfl⟩ := List.mem_map.1 hk
  have hseq := e.2.seq_le
  rw [h.key_eq e he]
  unfold SEQ_MAX at hseq
  unfold U64_MAX
  omega

theorem retain_eq_self {V : Type} {m : OrdMap ℕ V} {p : ℕ → Bool}
    (h : ∀ k ∈ m.keys, p k = true) : m.retain p = m :=
  OrdMap.ext (List.filter_eq_self.2 fun _ he => h _ (List.mem_map_of_mem he))

theorem retain_eq_empty {V : Type} {m : OrdMap ℕ V} {p : ℕ → Bool}
    (h : ∀ k ∈ m.keys, p k = false) : m.retain p = .empty := by
  refine OrdMap.ext (List.filter_eq_nil_iff.2 fun e he => ?_)
  simp [h _ (List.mem_map_of_mem he)]

theorem upto_max {s : ChannelState} (h : s.WellFormed) :
    s.window.upto U64_MAX = s.window ∧ s.accounted.upto U64_MAX = s.accounted ∧
      s.window.past U64_MAX = .empty := by
  have hle := keys_le_max h
  refine ⟨retain_eq_self fun k hk => ?_, retain_eq_self fun k hk => ?_,
    retain_eq_empty fun k hk => ?_⟩
  · simpa using hle k hk
  · rw [h.keys_eq] at hk
    simpa using hle k hk
  · simpa using hle k hk

theorem le_getLast {l : List ℕ} (h : l.Pairwise (· < ·)) {last : ℕ} (hl : l.getLast? = some last) :
    ∀ k ∈ l, k ≤ last := by
  intro k hk
  obtain ⟨init, rfl⟩ := List.getLast?_eq_some_iff.1 hl
  rcases List.mem_append.1 hk with hk | hk
  · exact ((List.pairwise_append.1 h).2.2 k hk last List.mem_cons_self).le
  · exact (List.mem_singleton.1 hk).le

theorem le_lastSeq {s : ChannelState} (h : s.WellFormed) : ∀ k ∈ s.window.keys, k ≤ s.lastSeq := by
  intro k hk
  rw [← h.keys_eq] at hk
  unfold lastSeq
  cases hlast : s.accounted.keys.getLast? with
  | none =>
    rw [List.getLast?_eq_none_iff] at hlast
    rw [hlast] at hk
    simp at hk
  | some last => exact le_getLast s.accounted.sorted_keys hlast k hk

theorem buildCheckpoint_lastSeq {s : ChannelState} (h : s.WellFormed) (timestamp : ℕ)
    (prevRef : ByteArr 32) (events : List CkptEvent) :
    (s.buildCheckpoint crypto timestamp prevRef events).lastSeq = s.lastSeq := by
  show ((s.accounted.upto U64_MAX).keys.getLast?).getD s.floor = s.lastSeq
  rw [(upto_max h).2.1]
  rfl

/-! ## Newer slices -/

/-- The window of a state that took slices past `cutoff` splits into what was there up to it and
the slices. -/
theorem Taken.split {s s' : ChannelState} {slices : List Slice} (h : Taken s slices s')
    {cutoff : ℕ} (hnewer : ∀ x ∈ slices, cutoff < x.seq) :
    s'.window.upto cutoff = s.window.upto cutoff ∧
      (s'.window.past cutoff).entries.Perm
        (slices.map (fun x => (x.seq, x)) ++ (s.window.past cutoff).entries) := by
  have hnone : (slices.map fun x => (x.seq, x)).filter (fun e => decide (e.1 ≤ cutoff)) = [] := by
    refine List.filter_eq_nil_iff.2 fun e he => ?_
    obtain ⟨x, hx, rfl⟩ := List.mem_map.1 he
    simpa using hnewer x hx
  have hall : (slices.map fun x => (x.seq, x)).filter (fun e => decide (cutoff < e.1)) =
      slices.map fun x => (x.seq, x) := by
    refine List.filter_eq_self.2 fun e he => ?_
    obtain ⟨x, hx, rfl⟩ := List.mem_map.1 he
    simpa using hnewer x hx
  constructor
  · refine OrdMap.eq_of_perm ?_
    have hperm := h.window.filter fun e => decide (e.1 ≤ cutoff)
    rwa [List.filter_append, hnone, List.nil_append] at hperm
  · have hperm := h.window.filter fun e => decide (cutoff < e.1)
    rwa [List.filter_append, hall] at hperm

theorem map_snd_pairs (slices : List Slice) :
    (slices.map fun x => (x.seq, x)).map Prod.snd = slices := by
  simp [Function.comp_def]

/-- Undoing what the accruals got gives them back. -/
theorem undo_accrue (amt : ℕ) : ∀ (vs : List (UInt8 × UInt16)) (accs : List ℕ),
    (vs.zip (accrue amt accs vs)).map (fun p => (p.1.1, p.2 - amt * p.1.2.toNat)) =
      (vs.zip accs).map fun p => (p.1.1, p.2)
  | [], [] => rfl
  | [], _ :: _ => rfl
  | _ :: _, [] => rfl
  | (role, bp) :: vs, acc :: accs => by
    simp only [accrue, List.zip_cons_cons, List.map_cons, Nat.add_sub_cancel,
      undo_accrue amt vs accs]

variable (crypto) in
/-- After newer slices the checkpoint at the old last number is the old full one. -/
theorem buildCheckpointAt_taken {s s' : ChannelState} {slices : List Slice} (h : s.WellFormed)
    (ht : Taken s slices s') (hnewer : ∀ x ∈ slices, s.lastSeq < x.seq)
    (hcum : s.cumTotal + amounts slices ≤ U128_MAX)
    (hbal : s.balance + amounts slices ≤ I128_MAX) (timestamp : ℕ) (prevRef : ByteArr 32)
    (events : List CkptEvent) :
    s'.buildCheckpointAt crypto s.lastSeq timestamp prevRef events =
      s.buildCheckpoint crypto timestamp prevRef events := by
  obtain ⟨hupto, hpast⟩ := ht.split hnewer
  have hwhole : s.window.upto s.lastSeq = s.window :=
    retain_eq_self fun k hk => by simpa using le_lastSeq h k hk
  have hnone : s.window.past s.lastSeq = .empty :=
    retain_eq_empty fun k hk => by simpa using le_lastSeq h k hk
  obtain ⟨hmaxw, hmaxa, hmaxp⟩ := upto_max h
  have hexcluded : amounts (s'.window.past s.lastSeq).values = amounts slices := by
    rw [hnone] at hpast
    have hvals := hpast.map Prod.snd
    rw [OrdMap.empty, List.append_nil, map_snd_pairs] at hvals
    exact amounts_perm hvals
  have hkeys : (s'.accounted.upto s.lastSeq).keys = s.accounted.keys := by
    rw [OrdMap.upto, OrdMap.keys_retain, ht.wellFormed.keys_eq, ← OrdMap.keys_retain, h.keys_eq,
      ← hwhole, ← hupto]
    rfl
  have hcumTotal : s'.cumTotal - amounts slices = s.cumTotal := by
    rw [ht.cumTotal, satAddU128_of_le hcum, Nat.add_sub_cancel]
  have hbalance : s'.balance - amounts slices = s.balance := by
    have hlo := h.balance_mem.1
    rw [ht.balance, satAddI128_of_mem (by omega) hbal]
    omega
  have hzero : amounts (OrdMap.empty : OrdMap ℕ Slice).values = 0 := rfl
  have hacc : ∀ (vs : List (UInt8 × UInt16)) (accs : List ℕ),
      (vs.zip accs).map (fun p => (p.1.1, p.2 - 0 * p.1.2.toNat)) =
        (vs.zip accs).map fun p => (p.1.1, p.2) := fun vs accs => by simp
  have hlast : s.accounted.keys.getLast?.getD s'.floor = s.lastSeq := by
    rw [ht.floor_eq]
    rfl
  have hframe : s'.channelId = s.channelId ∧ s'.committedHead = s.committedHead := by
    rw [ht.frame]
    exact ⟨rfl, rfl⟩
  unfold buildCheckpoint buildCheckpointAt rangesUpto
  simp only [hexcluded, hkeys, hcumTotal, hbalance, hlast, hframe, hupto, hwhole, ht.accruals,
    ht.vector_eq, undo_accrue, hmaxw, hmaxa, hmaxp, hzero, hacc, Nat.cast_zero, sub_zero,
    Nat.sub_zero]
  rfl

/-- The full checkpoint does not depend on whether an older one was committed on the way. -/
theorem lastSeq_of_past {s₃ s₄ : ChannelState} {cutoff : ℕ} (h₃ : s₃.WellFormed)
    (h₄ : s₄.WellFormed) (hfloor : s₃.floor = cutoff)
    (hwindow : s₃.window = s₄.window.past cutoff)
    (hcut : (s₄.window.upto cutoff).keys.getLast?.getD s₄.floor = cutoff) :
    s₃.lastSeq = s₄.lastSeq := by
  have hsplit := (s₄.window.keys_upto_append_past cutoff).symm
  unfold lastSeq
  rw [h₃.keys_eq, h₄.keys_eq, hwindow, hfloor, hsplit, List.getLast?_append]
  cases hlast : (s₄.window.past cutoff).keys.getLast? with
  | none => simpa using hcut.symm
  | some last => simp

/-! ## Historical countersigning -/

theorem countersign_wellFormed {s s₁ : ChannelState} {slices : List Slice} (h : s.WellFormed)
    (hacc : s.acceptEach crypto slices = (.ok (), s₁)) (timestamp : ℕ) (prevRef : ByteArr 32)
    (events : List CkptEvent)
    (hnewer : ∀ x ∈ slices, (s.buildCheckpoint crypto timestamp prevRef events).lastSeq < x.seq)
    (hcum : s.cumTotal + amounts slices ≤ U128_MAX)
    (hbal : s.balance + amounts slices ≤ I128_MAX) :
    s₁.recomputes crypto (s.buildCheckpoint crypto timestamp prevRef events) = true ∧
      (s₁.checkpointUpto crypto s.lastSeq).window.values.Perm slices ∧
      (s₁.checkpointUpto crypto s.lastSeq).unevidenced = amounts slices ∧
      ∀ after s₃ s₄,
        (s₁.checkpointUpto crypto s.lastSeq).acceptEach crypto after = (.ok (), s₃) →
        s₁.acceptEach crypto after = (.ok (), s₄) →
        s₃.cumTotal = s₄.cumTotal ∧ s₃.accruals = s₄.accruals ∧ s₃.balance = s₄.balance ∧
          s₃.lastSeq = s₄.lastSeq := by
  rw [buildCheckpoint_lastSeq h] at hnewer
  have ht := acceptEach_taken h hacc
  have hbuild := buildCheckpointAt_taken crypto h ht hnewer hcum hbal timestamp
    prevRef events
  obtain ⟨hupto, hpast⟩ := ht.split hnewer
  have hnone : s.window.past s.lastSeq = .empty :=
    retain_eq_empty fun k hk => by simpa using le_lastSeq h k hk
  have hvalues : (s₁.window.past s.lastSeq).values.Perm slices := by
    rw [hnone] at hpast
    have hvals := hpast.map Prod.snd
    rwa [OrdMap.empty, List.append_nil, map_snd_pairs] at hvals
  refine ⟨?_, hvalues, amounts_perm hvalues, fun after s₃ s₄ h₃ h₄ => ?_⟩
  · unfold recomputes
    rw [buildCheckpoint_lastSeq h]
    have hown : s₁.buildCheckpointAt crypto s.lastSeq
        (s.buildCheckpoint crypto timestamp prevRef events).timestamp
        (s.buildCheckpoint crypto timestamp prevRef events).prevRef
        (s.buildCheckpoint crypto timestamp prevRef events).events =
        s.buildCheckpoint crypto timestamp prevRef events := hbuild
    simp [hown, buildCheckpoint_lastSeq h]
  · have ht₃ := acceptEach_taken (ht.wellFormed.checkpointUpto s.lastSeq) h₃
    have ht₄ := acceptEach_taken ht.wellFormed h₄
    refine ⟨ht₃.cumTotal.trans ht₄.cumTotal.symm, ht₃.accruals.trans ht₄.accruals.symm,
      ht₃.balance.trans ht₄.balance.symm, ?_⟩
    have hafter : ∀ x ∈ after, s.lastSeq < x.seq := ht₃.past_floor
    obtain ⟨hupto₄, hpast₄⟩ := ht₄.split hafter
    have hfloor₃ : s₃.floor = s.lastSeq := ht₃.floor_eq
    refine lastSeq_of_past ht₃.wellFormed ht₄.wellFormed hfloor₃ ?_ ?_
    · exact OrdMap.eq_of_perm (ht₃.window.trans hpast₄.symm)
    · have hwhole : s.window.upto s.lastSeq = s.window :=
        retain_eq_self fun k hk => by simpa using le_lastSeq h k hk
      rw [hupto₄, hupto, hwhole, ← h.keys_eq, ht₄.floor_eq, ht.floor_eq]
      rfl

/-- Of any channel: a checkpoint built from a state recomputes after newer slices, as long as
the running totals stay within their types; committing it leaves exactly the newer slices in the
window, and the next full checkpoint is as if it had not been committed. -/
theorem historical_countersign {s₀ : ChannelState} (hborn : Born crypto s₀) (ops : List Op)
    (slices : List Slice) (s₁ : ChannelState) (timestamp : ℕ) (prevRef : ByteArr 32)
    (events : List CkptEvent) :
    let s := exec (step crypto) s₀ ops
    let c := s.buildCheckpoint crypto timestamp prevRef events
    s.acceptEach crypto slices = (.ok (), s₁) → (∀ x ∈ slices, c.lastSeq < x.seq) →
    s.cumTotal + amounts slices ≤ U128_MAX → s.balance + amounts slices ≤ I128_MAX →
    let s₂ := s₁.checkpointUpto crypto c.lastSeq
    s₁.recomputes crypto c = true ∧ s₂.window.values.Perm slices ∧
      s₂.unevidenced = amounts slices ∧
      ∀ after s₃ s₄, s₂.acceptEach crypto after = (.ok (), s₃) →
        s₁.acceptEach crypto after = (.ok (), s₄) → ∀ timestamp prevRef events,
        let c₃ := s₃.buildCheckpoint crypto timestamp prevRef events
        let c₄ := s₄.buildCheckpoint crypto timestamp prevRef events
        c₃.cumTotal = c₄.cumTotal ∧ c₃.accruals = c₄.accruals ∧ c₃.balance = c₄.balance ∧
          c₃.balanceNegative = c₄.balanceNegative ∧ c₃.lastSeq = c₄.lastSeq := by
  intro s c hacc hnewer hcum hbal s₂
  have h : s.WellFormed := wellFormed_exec hborn ops
  have hlast : c.lastSeq = s.lastSeq := buildCheckpoint_lastSeq h timestamp prevRef events
  obtain ⟨hrec, hwindow, hunev, hnext⟩ :=
    countersign_wellFormed h hacc timestamp prevRef events hnewer hcum hbal
  have hs₂ : s₂ = s₁.checkpointUpto crypto s.lastSeq := by rw [← hlast]
  rw [hs₂]
  refine ⟨hrec, hwindow, hunev, fun after s₃ s₄ h₃ h₄ timestamp prevRef events => ?_⟩
  intro c₃ c₄
  obtain ⟨hcum', hacc', hbal', hlast'⟩ := hnext after s₃ s₄ h₃ h₄
  have ht := acceptEach_taken h hacc
  have hw₂ : (s₁.checkpointUpto crypto s.lastSeq).WellFormed :=
    ht.wellFormed.checkpointUpto s.lastSeq
  have ht₃ := acceptEach_taken hw₂ h₃
  have ht₄ := acceptEach_taken ht.wellFormed h₄
  have hvector : s₃.vector = s₄.vector := ht₃.vector_eq.trans ht₄.vector_eq.symm
  have hp₃ := (upto_max ht₃.wellFormed).2.2
  have hp₄ := (upto_max ht₄.wellFormed).2.2
  refine ⟨?_, ?_, ?_, ?_, ?_⟩
  · simp only [c₃, c₄, buildCheckpoint, buildCheckpointAt, hp₃, hp₄, hcum']
  · simp only [c₃, c₄, buildCheckpoint, buildCheckpointAt, hp₃, hp₄, hacc', hvector]
  · simp only [c₃, c₄, buildCheckpoint, buildCheckpointAt, hp₃, hp₄, hbal']
  · simp only [c₃, c₄, buildCheckpoint, buildCheckpointAt, hp₃, hp₄, hbal']
  · simp only [c₃, c₄, buildCheckpoint_lastSeq ht₃.wellFormed,
      buildCheckpoint_lastSeq ht₄.wellFormed, hlast']

/-- Slice 4, a checkpoint, slices 9 and 6, the checkpoint committed. -/
theorem historical_countersign_postpay :
    let s₀ := new plainCrypto (.replicate 8 0) (.replicate 32 0) .postpay 100 100 [(0x10, 50)]
    let s := exec (step plainCrypto) s₀ [.acceptSlice (plainSlice 4 10 (by decide) (by decide))]
    let slices := [plainSlice 9 20 (by decide) (by decide),
      plainSlice 6 30 (by decide) (by decide)]
    (s.acceptEach plainCrypto slices).2.recomputes plainCrypto
      (s.buildCheckpoint plainCrypto 7 (.replicate 32 0) []) = true :=
  (historical_countersign (.fresh _ _ _ _ _ _)
    [.acceptSlice (plainSlice 4 10 (by decide) (by decide))]
    [plainSlice 9 20 (by decide) (by decide), plainSlice 6 30 (by decide) (by decide)] _ 7
    (.replicate 32 0) [] rfl (by decide) (by decide) (by decide)).1

/-- At the top of the cumulative total, undoing the newer slice undoes too much. -/
theorem saturated_not_recomputes :
    ((newImported plainCrypto (.replicate 8 0) (.replicate 32 0) .postpay 10 10 [] U128_MAX []
      0).toOption.map fun s =>
        let r := s.acceptSlice plainCrypto (plainSlice 1 1 (by decide) (by decide))
        (r.1.toBool, r.2.recomputes plainCrypto
          (s.buildCheckpoint plainCrypto 7 (.replicate 32 0) []))) = some (true, false) := by
  decide

end ChannelState

end Paytp
