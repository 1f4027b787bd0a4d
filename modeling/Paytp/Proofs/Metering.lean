import Paytp.ChannelState
import Paytp.Lib.Run
import Mathlib.Order.Interval.Finset.Nat
import Mathlib.Algebra.Order.BigOperators.Group.List

/-!
# Metering counts every slice once

Every number the channel has counted is at or below the floor or still in the window, so it is
refused when it comes again; the running totals are therefore sums over slices with different
numbers. A historical checkpoint moves the floor and a part of the window together.
-/

namespace Paytp

namespace ChannelState

variable {crypto : Crypto}

/-! ## Sums over the window -/

theorem amounts_append (xs ys : List Slice) : amounts (xs ++ ys) = amounts xs + amounts ys := by
  simp [amounts]

theorem amounts_perm {xs ys : List Slice} (h : xs.Perm ys) : amounts xs = amounts ys :=
  (h.map _).sum_eq

theorem values_split (m : OrdMap ℕ Slice) (c : ℕ) :
    (m.upto c).values ++ (m.past c).values = m.values := by
  rw [OrdMap.values, OrdMap.values, ← List.map_append, OrdMap.upto_append_past, OrdMap.values]

theorem amounts_split (m : OrdMap ℕ Slice) (c : ℕ) :
    amounts (m.upto c).values + amounts (m.past c).values = amounts m.values := by
  rw [← amounts_append, values_split]

theorem amounts_insert {m : OrdMap ℕ Slice} {slice : Slice} (h : slice.seq ∉ m.keys) :
    amounts (m.insert slice.seq slice).values = amounts m.values + slice.amtMicro := by
  rw [OrdMap.values, amounts_perm ((OrdMap.insert_perm h slice).map Prod.snd)]
  simp [amounts, OrdMap.values, Nat.add_comm]

theorem length_accrue (amt : ℕ) : ∀ (accs : List ℕ) (vs : List (UInt8 × UInt16)),
    (accrue amt accs vs).length = accs.length
  | [], [] => rfl
  | [], _ :: _ => rfl
  | _ :: _, [] => rfl
  | _ :: accs, _ :: vs => by simp [accrue, length_accrue amt accs vs]

theorem accrue_accrue (a b : ℕ) : ∀ (accs : List ℕ) (vs : List (UInt8 × UInt16)),
    accrue b (accrue a accs vs) vs = accrue (a + b) accs vs
  | [], [] => rfl
  | [], _ :: _ => rfl
  | _ :: _, [] => rfl
  | acc :: accs, (role, bp) :: vs => by
    simp only [accrue, accrue_accrue a b accs vs, Nat.add_mul, Nat.add_assoc]

theorem accrue_zero : ∀ (accs : List ℕ) (vs : List (UInt8 × UInt16)), accrue 0 accs vs = accs
  | [], [] => rfl
  | [], _ :: _ => rfl
  | _ :: _, [] => rfl
  | acc :: accs, (role, bp) :: vs => by simp [accrue, accrue_zero accs vs]

theorem accrue_eq_zipWith (amt : ℕ) : ∀ {accs : List ℕ} {vs : List (UInt8 × UInt16)},
    accs.length = vs.length →
    accrue amt accs vs = List.zipWith (fun acc v => acc + amt * v.2.toNat) accs vs
  | [], [], _ => rfl
  | acc :: accs, (role, bp) :: vs, h => by
    simp only [accrue, List.zipWith_cons_cons]
    rw [accrue_eq_zipWith amt (by simpa using h)]

/-! ## Well-formed states -/

/-- The counter, the window and the accounted numbers of a state fit together. -/
structure WellFormed (s : ChannelState) : Prop where
  keys_eq : s.accounted.keys = s.window.keys
  key_eq : ∀ e ∈ s.window.entries, e.1 = e.2.seq
  floor_lt : ∀ k ∈ s.window.keys, s.floor < k
  unevidenced_eq : s.unevidenced = amounts s.window.values
  unevidenced_le : s.unevidenced ≤ s.limitE
  aligned : s.accruals.length = s.vector.length
  cum_le : s.cumTotal ≤ U128_MAX
  lower_mem : I128_MIN ≤ s.boundLower ∧ s.boundLower ≤ I128_MAX
  balance_mem : I128_MIN ≤ s.balance ∧ s.balance ≤ I128_MAX

theorem clampI128_mem (a : ℤ) : I128_MIN ≤ clampI128 a ∧ clampI128 a ≤ I128_MAX := by
  unfold clampI128 I128_MIN I128_MAX
  omega

theorem i128OfU128_mem (n : ℕ) : 0 ≤ i128OfU128 n ∧ i128OfU128 n ≤ I128_MAX := by
  unfold i128OfU128 I128_MAX
  omega

/-- What accepting a slice can do. -/
inductive Accepts (s : ChannelState) (slice : Slice) :
    Except AcceptError Unit × ChannelState → Prop
  | refused (e : AcceptError) : Accepts s slice (.error e, s)
  | breached : Accepts s slice (.error .windowExceeded, { s with pausedWindow := true })
  | accepted (hphase : s.phase = .open) (hfloor : s.floor < slice.seq)
    (hnew : slice.seq ∉ s.accounted.keys)
    (hwindow : satAddI128 s.balance slice.amtMicro ≤ s.boundUpper)
    (hevidence : s.unevidenced + slice.amtMicro ≤ s.limitE) :
    Accepts s slice (.ok (), s.moved slice)

variable (crypto) in
theorem acceptSlice_cases (s : ChannelState) (slice : Slice) :
    Accepts s slice (s.acceptSlice crypto slice) := by
  unfold acceptSlice
  simp only
  split_ifs with hmac hphase hseq hpause hwindow hevidence
  · exact .refused _
  · exact .refused _
  · exact .refused _
  · exact .refused _
  · exact .breached
  · exact .refused _
  · push Not at hphase hseq hwindow hevidence
    exact .accepted hphase hseq.1 hseq.2 hwindow hevidence

/-- A slice at or below the floor or accounted is refused, and nothing moves. -/
theorem acceptSlice_seen {s : ChannelState} {slice : Slice}
    (h : slice.seq ≤ s.floor ∨ slice.seq ∈ s.accounted.keys) :
    ∃ e, s.acceptSlice crypto slice = (.error e, s) := by
  unfold acceptSlice
  simp only
  split_ifs
  · exact ⟨_, rfl⟩
  · exact ⟨_, rfl⟩
  · exact ⟨_, rfl⟩

namespace WellFormed

variable {s : ChannelState}

theorem moved (h : s.WellFormed) {slice : Slice} (hfloor : s.floor < slice.seq)
    (hnew : slice.seq ∉ s.accounted.keys)
    (hevidence : s.unevidenced + slice.amtMicro ≤ s.limitE) : (s.moved slice).WellFormed := by
  have hnew' : slice.seq ∉ s.window.keys := by rwa [← h.keys_eq]
  constructor
  · show (s.accounted.insert slice.seq ()).keys = (s.window.insert slice.seq slice).keys
    rw [OrdMap.keys_insert, OrdMap.keys_insert, h.keys_eq]
  · intro e he
    rcases (OrdMap.mem_insert hnew').1 he with rfl | he
    · rfl
    · exact h.key_eq e he
  · intro k hk
    rcases OrdMap.mem_keys_insert.1 hk with rfl | hk
    · exact hfloor
    · exact h.floor_lt k hk
  · show s.unevidenced + slice.amtMicro = amounts (s.window.insert slice.seq slice).values
    rw [amounts_insert hnew', h.unevidenced_eq]
  · exact hevidence
  · show (accrue slice.amtMicro s.accruals s.vector).length = s.vector.length
    rw [length_accrue, h.aligned]
  · exact min_le_left _ _
  · exact h.lower_mem
  · exact clampI128_mem _

theorem checkpointUpto (h : s.WellFormed) (cutoff : ℕ) :
    (s.checkpointUpto crypto cutoff).WellFormed := by
  constructor
  · show (s.accounted.past cutoff).keys = (s.window.past cutoff).keys
    rw [OrdMap.past, OrdMap.past, OrdMap.keys_retain, OrdMap.keys_retain, h.keys_eq]
  · exact fun e he => h.key_eq e (OrdMap.mem_retain.1 he).1
  · exact fun k hk => (OrdMap.mem_keys_past.1 hk).2
  · rfl
  · have hsplit := amounts_split s.window cutoff
    have hle := h.unevidenced_le
    rw [h.unevidenced_eq] at hle
    show amounts (s.window.past cutoff).values ≤ s.limitE
    omega
  · exact h.aligned
  · exact h.cum_le
  · exact h.lower_mem
  · exact h.balance_mem

theorem pause (h : s.WellFormed) : ({ s with pausedWindow := true } : ChannelState).WellFormed :=
  { h with }

/-- Lowering the balance, clamped at the lower bound, keeps the state well-formed. -/
theorem lower (h : s.WellFormed) (amount : ℕ) (pausedWindow : Bool) :
    ({ s with
      balance := if satSubI128 s.balance (i128OfU128 amount) < s.boundLower then s.boundLower
        else satSubI128 s.balance (i128OfU128 amount)
      pausedWindow } : ChannelState).WellFormed := by
  refine { h with balance_mem := ?_ }
  show I128_MIN ≤ ite _ _ _ ∧ ite _ _ _ ≤ I128_MAX
  split_ifs
  · exact h.lower_mem
  · exact clampI128_mem _

theorem creditFunding (h : s.WellFormed) (credited : ℕ) : (s.creditFunding credited).WellFormed :=
  h.lower credited _

theorem applySettlementRound (h : s.WellFormed) (gross : ℕ) :
    (s.applySettlementRound gross).WellFormed := by
  unfold ChannelState.applySettlementRound
  by_cases hmode : s.mode = .postpay
  · rw [if_pos hmode]
    exact h.lower gross _
  · rw [if_neg hmode]
    exact h

theorem beginSettling (h : s.WellFormed) : s.beginSettling.WellFormed := by
  unfold ChannelState.beginSettling
  split_ifs
  · exact { h with }
  · exact h

theorem close (h : s.WellFormed) : s.close.WellFormed := { h with }

end WellFormed

variable (crypto) in
theorem wellFormed_new (channelId : ByteArr 8) (kSession : ByteArr 32) (mode : Mode)
    (limitL limitE : ℕ) (vector : List (UInt8 × UInt16)) :
    (new crypto channelId kSession mode limitL limitE vector).WellFormed := by
  have hlim := i128OfU128_mem limitL
  constructor
  · rfl
  · exact fun e he => by simp [new, OrdMap.empty] at he
  · exact fun k hk => by simp [new, OrdMap.empty, OrdMap.keys] at hk
  · rfl
  · exact Nat.zero_le _
  · simp [new]
  · exact Nat.zero_le _
  · cases mode <;> simp only [new] <;> unfold I128_MIN I128_MAX at * <;> omega
  · simp only [new]
    unfold I128_MIN I128_MAX
    omega

theorem wellFormed_born {s : ChannelState} (h : Born crypto s) : s.WellFormed := by
  cases h with
  | fresh => exact wellFormed_new _ _ _ _ _ _ _
  | @imported cid k mode limitL limitE vector cum accruals balance _ hcum h =>
    have hnew := wellFormed_new crypto cid k mode limitL limitE vector
    have hlim := i128OfU128_mem limitL
    unfold newImported at h
    simp only at h
    split_ifs at h with hlen hbal
    obtain rfl := Except.ok.inj h
    refine { hnew with aligned := ?_, cum_le := hcum, balance_mem := ?_ }
    · exact not_not.1 hlen
    · push Not at hbal
      obtain ⟨hu, hl⟩ := hbal
      show I128_MIN ≤ balance ∧ balance ≤ I128_MAX
      cases mode <;> simp only [new] at hu hl <;> unfold I128_MIN I128_MAX at * <;> omega

/-! ## Accepted slices -/

/-- `s'` is `s` after accepting `slices`. -/
structure Taken (s : ChannelState) (slices : List Slice) (s' : ChannelState) : Prop where
  window : s'.window.entries.Perm (slices.map (fun x => (x.seq, x)) ++ s.window.entries)
  past_floor : ∀ x ∈ slices, s.floor < x.seq
  cumTotal : s'.cumTotal = satAddU128 s.cumTotal (amounts slices)
  balance : s'.balance = satAddI128 s.balance (amounts slices)
  accruals : s'.accruals = accrue (amounts slices) s.accruals s.vector
  /-- Nothing else has moved. -/
  frame : s' = { s with
    balance := s'.balance
    cumTotal := s'.cumTotal
    accruals := s'.accruals
    unevidenced := s'.unevidenced
    accounted := s'.accounted
    window := s'.window
    pausedEvidence := s'.pausedEvidence }
  wellFormed : s'.WellFormed

theorem Taken.nil {s : ChannelState} (h : s.WellFormed) : Taken s [] s where
  window := .refl _
  past_floor := fun _ hx => by simp at hx
  cumTotal := (satAddU128_zero h.cum_le).symm
  balance := by
    rw [satAddI128_of_mem] <;> simp [amounts, h.balance_mem.1, h.balance_mem.2]
  accruals := (accrue_zero _ _).symm
  frame := rfl
  wellFormed := h

theorem Taken.cons {s s' : ChannelState} {slice : Slice} {slices : List Slice}
    (h : s.WellFormed) (hfloor : s.floor < slice.seq) (hnew : slice.seq ∉ s.accounted.keys)
    (ht : Taken (s.moved slice) slices s') : Taken s (slice :: slices) s' where
  window := by
    have hins := OrdMap.insert_perm (h.keys_eq ▸ hnew) slice
    exact ht.window.trans ((hins.append_left _).trans List.perm_middle)
  past_floor := fun x hx => by
    rcases List.mem_cons.1 hx with rfl | hx
    · exact hfloor
    · exact ht.past_floor x hx
  cumTotal := ht.cumTotal.trans (satAddU128_assoc _ _ _)
  balance := ht.balance.trans <| by
    have hassoc := satAddI128_assoc (Int.natCast_nonneg slice.amtMicro)
      (Int.natCast_nonneg (amounts slices)) h.balance_mem.1
    simpa [amounts, ChannelState.moved] using hassoc
  accruals := ht.accruals.trans (accrue_accrue _ _ _ _)
  frame := ht.frame
  wellFormed := ht.wellFormed

theorem acceptEach_taken : ∀ {slices : List Slice} {s s' : ChannelState}, s.WellFormed →
    s.acceptEach crypto slices = (.ok (), s') → Taken s slices s'
  | [], s, s', h, heq => by
    simp only [acceptEach, Prod.mk.injEq, true_and] at heq
    exact heq ▸ .nil h
  | slice :: slices, s, s', h, heq => by
    have hcases := acceptSlice_cases crypto s slice
    rw [acceptEach] at heq
    generalize s.acceptSlice crypto slice = r at hcases heq
    cases hcases with
    | refused => simp at heq
    | breached => simp at heq
    | accepted hphase hfloor hnew hwindow hevidence =>
      exact .cons h hfloor hnew
        (acceptEach_taken (h.moved hfloor hnew hevidence) heq)

theorem Taken.floor_eq {s s' : ChannelState} {slices : List Slice} (h : Taken s slices s') :
    s'.floor = s.floor := by
  rw [h.frame]

theorem Taken.vector_eq {s s' : ChannelState} {slices : List Slice} (h : Taken s slices s') :
    s'.vector = s.vector := by
  rw [h.frame]

/-! ## The ledger of counted slices -/

/-- `counted` are the slices that led from `s₀` to `s`. -/
structure Counts (s₀ : ChannelState) (counted : List Slice) (s : ChannelState) : Prop where
  wellFormed : s.WellFormed
  nodup : (counted.map Slice.seq).Nodup
  cumTotal : s.cumTotal = satAddU128 s₀.cumTotal (amounts counted)
  accruals : s.accruals = accrue (amounts counted) s₀.accruals s₀.vector
  vector : s.vector = s₀.vector
  positive : ∀ x ∈ counted, 0 < x.seq
  seen : ∀ x ∈ counted, x.seq ≤ s.floor ∨ x.seq ∈ s.window.keys

namespace Counts

variable {s₀ s s' : ChannelState} {counted slices : List Slice}

theorem refl (h : s.WellFormed) : Counts s [] s where
  wellFormed := h
  nodup := List.nodup_nil
  cumTotal := (satAddU128_zero h.cum_le).symm
  accruals := (accrue_zero _ _).symm
  vector := rfl
  positive := fun _ hx => by simp at hx
  seen := fun _ hx => by simp at hx

theorem taken (h : Counts s₀ counted s) (ht : Taken s slices s') :
    Counts s₀ (counted ++ slices) s' := by
  have hfloor := ht.floor_eq
  have hkeys : s'.window.keys.Perm (slices.map Slice.seq ++ s.window.keys) := by
    have hmap := ht.window.map Prod.fst
    simpa [OrdMap.keys, Function.comp_def] using hmap
  have hdisj := (List.nodup_append.1 (hkeys.nodup_iff.1 s'.window.nodup_keys)).2.2
  constructor
  · exact ht.wellFormed
  · rw [List.map_append]
    refine List.nodup_append.2 ⟨h.nodup,
      (List.nodup_append.1 (hkeys.nodup_iff.1 s'.window.nodup_keys)).1, ?_⟩
    rintro _ ha b hb rfl
    obtain ⟨x, hx, rfl⟩ := List.mem_map.1 ha
    obtain ⟨y, hy, hxy⟩ := List.mem_map.1 hb
    rcases h.seen x hx with hlow | hin
    · have := ht.past_floor y hy
      omega
    · exact hdisj _ (List.mem_map_of_mem hy) _ (hxy ▸ hin) rfl
  · rw [ht.cumTotal, h.cumTotal, satAddU128_assoc, amounts_append]
  · rw [ht.accruals, h.accruals, h.vector, accrue_accrue, amounts_append]
  · exact ht.vector_eq.trans h.vector
  · intro x hx
    rcases List.mem_append.1 hx with hx | hx
    · exact h.positive x hx
    · exact Nat.zero_lt_of_lt (ht.past_floor x hx)
  · intro x hx
    rcases List.mem_append.1 hx with hx | hx
    · rcases h.seen x hx with hlow | hin
      · exact .inl (hfloor ▸ hlow)
      · exact .inr (hkeys.mem_iff.2 (List.mem_append_right _ hin))
    · exact .inr (hkeys.mem_iff.2 (List.mem_append_left _ (List.mem_map_of_mem hx)))

/-- An operation that leaves the totals, and of the window only drops what its floor passes. -/
theorem keep (h : Counts s₀ counted s) (hw : s'.WellFormed) (hcum : s'.cumTotal = s.cumTotal)
    (hacc : s'.accruals = s.accruals) (hvec : s'.vector = s.vector)
    (hfloor : s.floor ≤ s'.floor)
    (hkeys : ∀ k ∈ s.window.keys, k ≤ s'.floor ∨ k ∈ s'.window.keys) : Counts s₀ counted s' where
  wellFormed := hw
  nodup := h.nodup
  cumTotal := hcum.trans h.cumTotal
  accruals := hacc.trans h.accruals
  vector := hvec.trans h.vector
  positive := h.positive
  seen := fun x hx => by
    rcases h.seen x hx with hlow | hin
    · exact .inl (hlow.trans hfloor)
    · exact hkeys _ hin

end Counts

/-- The last accounted number up to a cut lies at or past the floor. -/
theorem floor_le_lastSeq {s : ChannelState} (h : s.WellFormed) (keys : List ℕ)
    (hsub : ∀ k ∈ keys, k ∈ s.accounted.keys) : s.floor ≤ keys.getLast?.getD s.floor := by
  cases hlast : keys.getLast? with
  | none => exact le_rfl
  | some k =>
    have hk := hsub k (List.mem_of_getLast? hlast)
    rw [h.keys_eq] at hk
    exact (h.floor_lt k hk).le

theorem floor_le_of_recomputes {s : ChannelState} (h : s.WellFormed) {proposed : Checkpoint}
    (hrec : s.recomputes crypto proposed = true) : s.floor ≤ proposed.lastSeq := by
  simp only [recomputes, Bool.and_eq_true, beq_iff_eq] at hrec
  have hlast := hrec.1.1.2
  rw [← hlast]
  exact floor_le_lastSeq h _ fun k hk => (OrdMap.mem_keys_upto.1 hk).1

theorem Counts.checkpointUpto {s₀ s : ChannelState} {counted : List Slice}
    (h : Counts s₀ counted s) {cutoff : ℕ} (hc : s.floor ≤ cutoff) :
    Counts s₀ counted (s.checkpointUpto crypto cutoff) := by
  refine h.keep (h.wellFormed.checkpointUpto cutoff) rfl rfl rfl hc fun k hk => ?_
  by_cases hle : k ≤ cutoff
  · exact .inl hle
  · exact .inr (OrdMap.mem_keys_past.2 ⟨hk, by omega⟩)

theorem Counts.applySettlementRound {s₀ s : ChannelState} {counted : List Slice}
    (h : Counts s₀ counted s) (gross : ℕ) :
    Counts s₀ counted (s.applySettlementRound gross) ∧
      s.floor ≤ (s.applySettlementRound gross).floor := by
  have hwf := h.wellFormed.applySettlementRound gross
  unfold ChannelState.applySettlementRound at hwf ⊢
  by_cases hmode : s.mode = .postpay
  · rw [if_pos hmode] at hwf ⊢
    exact ⟨h.keep hwf rfl rfl rfl le_rfl fun k hk => .inr hk, le_rfl⟩
  · rw [if_neg hmode]
    exact ⟨h, le_rfl⟩

variable (crypto) in
/-- Every operation keeps the ledger, adding the slices it counted, and the floor only rises. -/
theorem step_counts {s₀ s : ChannelState} {counted : List Slice} (h : Counts s₀ counted s)
    (op : Op) : Counts s₀ (counted ++ (step crypto s op).2) (step crypto s op).1 ∧
      s.floor ≤ (step crypto s op).1.floor := by
  have hw := h.wellFormed
  cases op with
  | acceptSlice slice =>
    have hcases := acceptSlice_cases crypto s slice
    simp only [step]
    generalize s.acceptSlice crypto slice = r at hcases
    cases hcases with
    | refused => simpa using h
    | breached => exact ⟨by simpa using h.keep hw.pause rfl rfl rfl le_rfl fun k hk => .inr hk,
        le_rfl⟩
    | accepted hphase hfloor hnew hwindow hevidence =>
      exact ⟨h.taken (.cons hw hfloor hnew (.nil (hw.moved hfloor hnew hevidence))), le_rfl⟩
  | acceptBatch slices =>
    simp only [step, acceptBatch]
    rcases heach : s.acceptEach crypto slices with ⟨e | ⟨⟩, s'⟩
    · simp only [List.append_nil]
      by_cases he : e = .windowExceeded
      · rw [if_pos he]
        exact ⟨h.keep hw.pause rfl rfl rfl le_rfl fun k hk => .inr hk, le_rfl⟩
      · rw [if_neg he]
        exact ⟨h, le_rfl⟩
    · have ht := acceptEach_taken hw heach
      exact ⟨h.taken ht, ht.floor_eq.ge⟩
  | countersign proposed =>
    simp only [step, List.append_nil]
    split_ifs with hrec
    · have hle := floor_le_of_recomputes hw hrec
      exact ⟨h.checkpointUpto hle, hle⟩
    · exact ⟨h, le_rfl⟩
  | checkpoint =>
    have hle := floor_le_lastSeq hw s.accounted.keys fun k hk => hk
    simp only [step, List.append_nil]
    exact ⟨h.checkpointUpto hle, hle⟩
  | creditFunding credited =>
    simp only [step, List.append_nil]
    exact ⟨h.keep (hw.creditFunding credited) rfl rfl rfl le_rfl fun k hk => .inr hk, le_rfl⟩
  | applySettlementRound gross =>
    simp only [step, List.append_nil]
    exact h.applySettlementRound gross
  | beginSettling =>
    have hwf := hw.beginSettling
    simp only [step, List.append_nil]
    unfold beginSettling at hwf ⊢
    by_cases hphase : s.phase ≠ .closed
    · rw [if_pos hphase] at hwf ⊢
      exact ⟨h.keep hwf rfl rfl rfl le_rfl fun k hk => .inr hk, le_rfl⟩
    · rw [if_neg hphase]
      exact ⟨h, le_rfl⟩
  | close =>
    simp only [step, List.append_nil]
    exact ⟨h.keep hw.close rfl rfl rfl le_rfl fun k hk => .inr hk, le_rfl⟩

theorem exec_counts : ∀ {s₀ s : ChannelState} {counted : List Slice} (ops : List Op),
    Counts s₀ counted s → Counts s₀ (counted ++ (answers (step crypto) s ops).flatten)
      (exec (step crypto) s ops) ∧ s.floor ≤ (exec (step crypto) s ops).floor
  | _, _, _, [], h => ⟨by simpa [answers] using h, le_rfl⟩
  | _, s, _, op :: ops, h => by
    obtain ⟨h₁, hf₁⟩ := step_counts crypto h op
    obtain ⟨h₂, hf₂⟩ := exec_counts ops h₁
    rw [answers, List.flatten_cons, ← List.append_assoc, exec_cons]
    exact ⟨h₂, hf₁.trans hf₂⟩

theorem wellFormed_exec {s₀ : ChannelState} (h : Born crypto s₀) (ops : List Op) :
    (exec (step crypto) s₀ ops).WellFormed :=
  (exec_counts ops (.refl (wellFormed_born h))).1.wellFormed

theorem length_le_seqMax {counted : List Slice} (hn : (counted.map Slice.seq).Nodup)
    (hp : ∀ x ∈ counted, 0 < x.seq) : counted.length ≤ SEQ_MAX := by
  have hsub : (counted.map Slice.seq).toFinset ⊆ Finset.Icc 1 SEQ_MAX := by
    intro k hk
    obtain ⟨x, hx, rfl⟩ := List.mem_map.1 (List.mem_toFinset.1 hk)
    exact Finset.mem_Icc.2 ⟨hp x hx, x.seq_le⟩
  have hcard := Finset.card_le_card hsub
  rwa [List.toFinset_card_of_nodup hn, Nat.card_Icc, Nat.add_sub_cancel,
    List.length_map] at hcard

/-- Slices with different numbers past zero sum to less than any running total overflows on. -/
theorem amounts_le {counted : List Slice} (hn : (counted.map Slice.seq).Nodup)
    (hp : ∀ x ∈ counted, 0 < x.seq) : amounts counted ≤ 2 ^ 111 := by
  have hlen := length_le_seqMax hn hp
  have hsum : amounts counted ≤ counted.length * 2 ^ 48 := by
    have hle : ∀ a ∈ counted.map Slice.amtMicro, a ≤ 2 ^ 48 := by
      intro a ha
      obtain ⟨x, -, rfl⟩ := List.mem_map.1 ha
      exact x.amt_lt.le
    simpa [amounts] using List.sum_le_card_nsmul _ _ hle
  calc amounts counted ≤ counted.length * 2 ^ 48 := hsum
    _ ≤ SEQ_MAX * 2 ^ 48 := Nat.mul_le_mul_right _ hlen
    _ = 2 ^ 111 := by norm_num [SEQ_MAX]

/-! ## Exactly once -/

/-- From the birth of a channel on, whatever the operations: the counted slices have different
numbers, the totals are the imported ones and the sums over them (the cumulative total stopping
at the top of its type, which the slices of one channel alone never reach), the floor never
falls, and a counted number is below the floor or in the window and refused when it comes again.
-/
theorem metering_exactly_once {s₀ : ChannelState} (h : Born crypto s₀) (ops : List Op) :
    let s := exec (step crypto) s₀ ops
    let counted := (answers (step crypto) s₀ ops).flatten
    (counted.map Slice.seq).Nodup ∧
      s.cumTotal = min U128_MAX (s₀.cumTotal + amounts counted) ∧
      (s₀.cumTotal + 2 ^ 111 ≤ U128_MAX → s.cumTotal = s₀.cumTotal + amounts counted) ∧
      s.accruals = List.zipWith (fun acc v => acc + amounts counted * v.2.toNat)
        s₀.accruals s₀.vector ∧
      (∀ ops', s.floor ≤ (exec (step crypto) s ops').floor) ∧
      ∀ x ∈ counted, (x.seq ≤ s.floor ∨ x.seq ∈ s.window.keys) ∧
        ∀ again : Slice, again.seq = x.seq →
          ∃ e, s.acceptSlice crypto again = (.error e, s) := by
  intro s counted
  have hw := wellFormed_born h
  have hc : Counts s₀ counted s := (exec_counts ops (.refl hw)).1
  refine ⟨hc.nodup, hc.cumTotal, fun hsmall => ?_, ?_, fun ops' => ?_, fun x hx => ⟨hc.seen x hx,
    fun again hseq => acceptSlice_seen ?_⟩⟩
  · have hle := amounts_le hc.nodup hc.positive
    rw [hc.cumTotal, satAddU128_of_le (by omega)]
  · rw [hc.accruals, accrue_eq_zipWith _ hw.aligned]
  · exact (exec_counts ops' (.refl hc.wellFormed)).2
  · rw [hseq, hc.wellFormed.keys_eq]
    exact hc.seen x hx

/-- Primitives that ignore what they are given. -/
def plainCrypto : Crypto where
  sha256 _ := .replicate 32 0
  hkdfSha256 _ _ _ := .replicate 32 0
  poly1305 _ _ := .replicate 16 0

def plainSlice (seq amtMicro : ℕ) (hseq : seq ≤ SEQ_MAX) (hamt : amtMicro < 2 ^ 48) : Slice :=
  ⟨seq, amtMicro, .replicate 16 0, hseq, hamt⟩

/-- Slices 5 and 2 of a postpay channel, a checkpoint, slice 2 once more. -/
theorem metering_exactly_once_postpay :
    let s₀ := new plainCrypto (.replicate 8 0) (.replicate 32 0) .postpay 100 100 [(0x10, 50)]
    let ops := [.acceptSlice (plainSlice 5 10 (by decide) (by decide)),
      .acceptSlice (plainSlice 2 20 (by decide) (by decide)), .checkpoint,
      .acceptSlice (plainSlice 2 20 (by decide) (by decide))]
    (exec (step plainCrypto) s₀ ops).cumTotal = 0 + amounts (answers (step plainCrypto) s₀
      ops).flatten ∧ amounts (answers (step plainCrypto) s₀ ops).flatten = 30 :=
  ⟨(metering_exactly_once (.fresh _ _ _ _ _ _) _).2.2.1 (by decide), by decide⟩

/-- A successor importing the largest cumulative total accepts a slice and its total stays. -/
theorem cumTotal_saturates :
    ((newImported plainCrypto (.replicate 8 0) (.replicate 32 0) .postpay 10 10 [] U128_MAX []
      0).toOption.map fun s =>
        let r := step plainCrypto s (.acceptSlice (plainSlice 1 1 (by decide) (by decide)))
        (r.1.cumTotal, r.2.map Slice.amtMicro)) = some (U128_MAX, [1]) := by
  decide

end ChannelState

end Paytp
