import Paytp.Proofs.Historical

/-!
# Arrival order

Two runs that accept the same slices in different orders, and commit checkpoints at the same
cuts over the same slices, end with the same totals and the same window, so they build the same
checkpoint.
-/

namespace Paytp

namespace ChannelState

variable (crypto : Crypto)

/-- A run without rejections from one state to another: the slices it accepts, in order, and for
each checkpoint it commits the cut and the slices it covers. -/
inductive Meters : ChannelState → List Slice → List (ℕ × OrdMap ℕ Slice) → ChannelState → Prop
  | done (s : ChannelState) : Meters s [] [] s
  | accept {s s₁ s' : ChannelState} {slice : Slice} {slices : List Slice}
    {commits : List (ℕ × OrdMap ℕ Slice)} (h : s.acceptSlice crypto slice = (.ok (), s₁))
    (rest : Meters s₁ slices commits s') : Meters s (slice :: slices) commits s'
  | commit {s s' : ChannelState} {slices : List Slice} {commits : List (ℕ × OrdMap ℕ Slice)}
    (cutoff : ℕ) (rest : Meters (s.checkpointUpto crypto cutoff) slices commits s') :
    Meters s slices ((cutoff, s.window.upto cutoff) :: commits) s'

/-- The transcript head after some commits. -/
def headAfter (head : ByteArr 32) (commits : List (ℕ × OrdMap ℕ Slice)) : ByteArr 32 :=
  commits.foldl (fun head c => foldHead crypto head c.2.values) head

/-- The floor after some commits. -/
def floorAfter (floor : ℕ) (commits : List (ℕ × OrdMap ℕ Slice)) : ℕ :=
  commits.foldl (fun _ c => c.1) floor

/-- What a run makes of its slices and commits. -/
structure Metered (s : ChannelState) (slices : List Slice)
    (commits : List (ℕ × OrdMap ℕ Slice)) (s' : ChannelState) : Prop where
  window : ((commits.flatMap fun c => c.2.entries) ++ s'.window.entries).Perm
    (slices.map (fun x => (x.seq, x)) ++ s.window.entries)
  cumTotal : s'.cumTotal = satAddU128 s.cumTotal (amounts slices)
  balance : s'.balance = satAddI128 s.balance (amounts slices)
  accruals : s'.accruals = accrue (amounts slices) s.accruals s.vector
  vector : s'.vector = s.vector
  channelId : s'.channelId = s.channelId
  floor : s'.floor = floorAfter s.floor commits
  head : s'.committedHead = headAfter crypto s.committedHead commits
  wellFormed : s'.WellFormed

variable {crypto}

theorem Metered.done {s : ChannelState} (h : s.WellFormed) : Metered crypto s [] [] s := by
  have ht := Taken.nil h
  exact ⟨.refl _, ht.cumTotal, ht.balance, ht.accruals, rfl, rfl, rfl, rfl, h⟩

theorem Metered.accept {s s₁ s' : ChannelState} {slice : Slice} {slices : List Slice}
    {commits : List (ℕ × OrdMap ℕ Slice)} (ht : Taken s [slice] s₁) (hs : s.WellFormed)
    (h : Metered crypto s₁ slices commits s') :
    Metered crypto s (slice :: slices) commits s' := by
  have hone : amounts [slice] = slice.amtMicro := by simp [amounts]
  have hall : amounts (slice :: slices) = slice.amtMicro + amounts slices := by simp [amounts]
  have hframe : s₁.channelId = s.channelId ∧ s₁.committedHead = s.committedHead := by
    rw [ht.frame]
    exact ⟨rfl, rfl⟩
  constructor
  · refine h.window.trans ((ht.window.append_left _).trans ?_)
    exact List.perm_middle
  · rw [h.cumTotal, ht.cumTotal, hone, satAddU128_assoc, hall]
  · rw [h.balance, ht.balance, hone, satAddI128_assoc (Int.natCast_nonneg _)
      (Int.natCast_nonneg _) hs.balance_mem.1, hall, Nat.cast_add]
  · rw [h.accruals, ht.accruals, hone, ht.vector_eq, accrue_accrue, hall]
  · rw [h.vector, ht.vector_eq]
  · rw [h.channelId, hframe.1]
  · rw [h.floor, ht.floor_eq]
  · rw [h.head, hframe.2]
  · exact h.wellFormed

theorem Metered.commit {s s' : ChannelState} {slices : List Slice}
    {commits : List (ℕ × OrdMap ℕ Slice)} {cutoff : ℕ}
    (h : Metered crypto (s.checkpointUpto crypto cutoff) slices commits s') :
    Metered crypto s slices ((cutoff, s.window.upto cutoff) :: commits) s' := by
  refine ⟨?_, h.cumTotal, h.balance, h.accruals, h.vector, h.channelId, h.floor, h.head,
    h.wellFormed⟩
  have hrest := h.window.append_left (s.window.upto cutoff).entries
  rw [List.flatMap_cons, List.append_assoc]
  refine hrest.trans ?_
  show ((s.window.upto cutoff).entries ++ (slices.map (fun x => (x.seq, x)) ++
    (s.window.past cutoff).entries)).Perm (slices.map (fun x => (x.seq, x)) ++ s.window.entries)
  rw [← s.window.upto_append_past cutoff]
  exact List.perm_append_comm_assoc _ _ _

theorem Meters.metered {s s' : ChannelState} {slices : List Slice}
    {commits : List (ℕ × OrdMap ℕ Slice)} (hrun : Meters crypto s slices commits s')
    (h : s.WellFormed) : Metered crypto s slices commits s' := by
  induction hrun with
  | done s => exact .done h
  | @accept s s₁ s' slice slices commits hacc rest ih =>
    have heach : s.acceptEach crypto [slice] = (.ok (), s₁) := by simp [acceptEach, hacc]
    have ht := acceptEach_taken h heach
    exact .accept ht h (ih ht.wellFormed)
  | commit cutoff rest ih => exact .commit (ih (h.checkpointUpto cutoff))

theorem eq_of_keys_eq {m m' : OrdMap ℕ Unit} (h : m.keys = m'.keys) : m = m' := by
  have hentries : ∀ m : OrdMap ℕ Unit, m.entries = m.keys.map fun k => (k, ()) := fun m => by
    simp [OrdMap.keys, Function.comp_def]
  exact OrdMap.ext (by rw [hentries m, hentries m', h])

/-- Runs with permuted slices and the same commits agree on what a checkpoint reads. -/
theorem Metered.agree {s s' s'' : ChannelState} {xs ys : List Slice}
    {commits : List (ℕ × OrdMap ℕ Slice)} (h' : Metered crypto s xs commits s')
    (h'' : Metered crypto s ys commits s'') (hperm : xs.Perm ys) :
    s'.window = s''.window ∧ s'.accounted = s''.accounted ∧ s'.cumTotal = s''.cumTotal ∧
      s'.balance = s''.balance ∧ s'.accruals = s''.accruals := by
  have hamounts := amounts_perm hperm
  have hwindow : s'.window = s''.window := by
    refine OrdMap.eq_of_perm ((List.perm_append_left_iff _).1 (h'.window.trans ?_))
    exact ((hperm.map _).append_right _).trans h''.window.symm
  refine ⟨hwindow, eq_of_keys_eq ?_, ?_, ?_, ?_⟩
  · rw [h'.wellFormed.keys_eq, h''.wellFormed.keys_eq, hwindow]
  · rw [h'.cumTotal, h''.cumTotal, hamounts]
  · rw [h'.balance, h''.balance, hamounts]
  · rw [h'.accruals, h''.accruals, hamounts]

/-- From any state of a channel, two runs without rejections that accept the same slices in any
two orders and commit checkpoints at the same cuts over the same slices build, at any time, equal
checkpoints. -/
theorem arrival_order_independent {s₀ : ChannelState} (hborn : Born crypto s₀) (ops : List Op)
    (xs ys : List Slice) {commits : List (ℕ × OrdMap ℕ Slice)} {s' s'' : ChannelState}
    (h' : Meters crypto (exec (step crypto) s₀ ops) xs commits s')
    (h'' : Meters crypto (exec (step crypto) s₀ ops) ys commits s'') (hperm : xs.Perm ys)
    (timestamp : ℕ) (prevRef : ByteArr 32) (events : List CkptEvent) :
    s'.buildCheckpoint crypto timestamp prevRef events =
      s''.buildCheckpoint crypto timestamp prevRef events := by
  have hw := wellFormed_exec hborn ops
  have hm' := h'.metered hw
  have hm'' := h''.metered hw
  obtain ⟨hwindow, haccounted, hcum, hbal, hacc⟩ := hm'.agree hm'' hperm
  unfold buildCheckpoint buildCheckpointAt rangesUpto
  rw [hwindow, haccounted, hcum, hbal, hacc, hm'.vector, hm''.vector, hm'.channelId,
    hm''.channelId, hm'.floor, hm''.floor, hm'.head, hm''.head]

/-- Slices 3 and 1, a checkpoint over both, then 8 and 6; and the same in another order. -/
theorem arrival_order_independent_postpay :
    let s₀ := new plainCrypto (.replicate 8 0) (.replicate 32 0) .postpay 100 100 [(0x10, 50)]
    let one := plainSlice 1 10 (by decide) (by decide)
    let three := plainSlice 3 20 (by decide) (by decide)
    let six := plainSlice 6 30 (by decide) (by decide)
    let eight := plainSlice 8 5 (by decide) (by decide)
    let s' := (s₀.acceptEach plainCrypto [three, one]).2.checkpointUpto plainCrypto 3
    let s'' := (s₀.acceptEach plainCrypto [one, eight, three]).2.checkpointUpto plainCrypto 3
    (s'.acceptEach plainCrypto [eight, six]).2.buildCheckpoint plainCrypto 7 (.replicate 32 0) [] =
      (s''.acceptEach plainCrypto [six]).2.buildCheckpoint plainCrypto 7 (.replicate 32 0) [] := by
  intro s₀ one three six eight s' s''
  have h' : Meters plainCrypto s₀ [three, one, eight, six] [(3, (s₀.acceptEach plainCrypto
      [three, one]).2.window.upto 3)] (s'.acceptEach plainCrypto [eight, six]).2 :=
    .accept rfl (.accept rfl (.commit 3 (.accept rfl (.accept rfl (.done _)))))
  have h'' : Meters plainCrypto s₀ [one, eight, three, six] [(3, (s₀.acceptEach plainCrypto
      [three, one]).2.window.upto 3)] (s''.acceptEach plainCrypto [six]).2 :=
    .accept rfl (.accept rfl (.accept rfl (.commit 3 (.accept rfl (.done _)))))
  exact arrival_order_independent (.fresh _ _ _ _ _ _) [] [three, one, eight, six]
    [one, eight, three, six] h' h'' (by decide) 7 (.replicate 32 0) []

end ChannelState

end Paytp
