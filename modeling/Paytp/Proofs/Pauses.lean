import Mathlib.Logic.Relation
import Paytp.Lib.Run
import Paytp.MachineMetering
import Paytp.Proofs.Metering

/-!
# Batches, the balance window and the phases

A batch is its slices one after the other or nothing but a pause. Every call on a channel is a
list of single moves, so what each of them keeps holds in every state reached: the balance
within its bounds, the phases that only advance. A window pause ends with funding or with a
settlement round and with nothing else.
-/

namespace Paytp

namespace ChannelState

variable {crypto : Crypto}

/-! ## Batches -/

variable (crypto) in
/-- One slice offered, and the answer. -/
def offer (s : ChannelState) (slice : Slice) : ChannelState × Except AcceptError Unit :=
  (s.acceptSlice crypto slice).swap

/-- Every slice of a list is accepted when they are offered in turn. -/
def AllAccepted (crypto : Crypto) (s : ChannelState) (slices : List Slice) : Prop :=
  ∀ a ∈ answers (offer crypto) s slices, a = .ok ()

theorem allAccepted_cons {s : ChannelState} {slice : Slice} {slices : List Slice} :
    AllAccepted crypto s (slice :: slices) ↔ (s.acceptSlice crypto slice).1 = .ok () ∧
      AllAccepted crypto (s.acceptSlice crypto slice).2 slices := by
  unfold AllAccepted
  rw [answers, List.forall_mem_cons]
  rfl

theorem acceptEach_of_allAccepted : ∀ {slices : List Slice} {s : ChannelState},
    AllAccepted crypto s slices →
    s.acceptEach crypto slices = (.ok (), exec (offer crypto) s slices)
  | [], _, _ => rfl
  | slice :: slices, s, h => by
    obtain ⟨hslice, hrest⟩ := allAccepted_cons.mp h
    have heq : s.acceptSlice crypto slice = (.ok (), (s.acceptSlice crypto slice).2) :=
      Prod.ext hslice rfl
    rw [acceptEach, heq]
    exact acceptEach_of_allAccepted hrest

theorem allAccepted_of_acceptEach : ∀ {slices : List Slice} {s s' : ChannelState},
    s.acceptEach crypto slices = (.ok (), s') → AllAccepted crypto s slices
  | [], _, _, _ => nofun
  | slice :: slices, s, s', h => by
    rw [acceptEach] at h
    rcases hslice : s.acceptSlice crypto slice with ⟨_ | ⟨⟩, s₁⟩
    · rw [hslice] at h
      cases congrArg Prod.fst h
    · rw [hslice] at h
      refine allAccepted_cons.mpr ⟨congrArg Prod.fst hslice, ?_⟩
      rw [hslice]
      exact allAccepted_of_acceptEach h

/-- The slices before the first that is refused, that slice, and those behind it. -/
structure RefusedAt (crypto : Crypto) (s : ChannelState) (slices : List Slice) (e : AcceptError)
    (before : List Slice) (slice : Slice) (after : List Slice) : Prop where
  split : slices = before ++ slice :: after
  accepted : AllAccepted crypto s before
  refused : ((exec (offer crypto) s before).acceptSlice crypto slice).1 = .error e

theorem acceptEach_refused : ∀ {slices : List Slice} {s s' : ChannelState} {e : AcceptError},
    s.acceptEach crypto slices = (.error e, s') →
    ∃ before slice after, RefusedAt crypto s slices e before slice after
  | [], _, _, _, h => by simp [acceptEach] at h
  | slice :: slices, s, s', e, h => by
    rw [acceptEach] at h
    rcases hslice : s.acceptSlice crypto slice with ⟨_ | ⟨⟩, s₁⟩
    · rw [hslice] at h
      obtain ⟨he, -⟩ := Prod.mk.inj h
      exact ⟨[], slice, slices, rfl, List.forall_mem_nil _, (congrArg Prod.fst hslice).trans he⟩
    · rw [hslice] at h
      obtain ⟨before, last, after, hat⟩ := acceptEach_refused h
      have hnext : (s.acceptSlice crypto slice).2 = s₁ := congrArg Prod.snd hslice
      refine ⟨slice :: before, last, after, ?_, ?_, ?_⟩
      · rw [hat.split, List.cons_append]
      · exact allAccepted_cons.mpr ⟨congrArg Prod.fst hslice, hnext ▸ hat.accepted⟩
      · show ((exec (offer crypto) (s.acceptSlice crypto slice).2 before).acceptSlice crypto
          last).1 = _
        rw [hnext]
        exact hat.refused

/-- In every state and for every list of slices: a batch is accepted exactly when its slices
are, one after the other, and then leaves the state they leave. Refused, it answers what the
first refused of them is answered, and only that the channel is paused may have changed, which
it is by a breach of the window. -/
theorem acceptBatch_atomic (s : ChannelState) (slices : List Slice) :
    ((s.acceptBatch crypto slices).1 = .ok () ↔ AllAccepted crypto s slices) ∧
      ((s.acceptBatch crypto slices).1 = .ok () →
        (s.acceptBatch crypto slices).2 = exec (offer crypto) s slices) ∧
      ∀ e, (s.acceptBatch crypto slices).1 = .error e →
        (∃ before slice after, RefusedAt crypto s slices e before slice after) ∧
        (s.acceptBatch crypto slices).2 =
          { s with pausedWindow := s.pausedWindow || decide (e = .windowExceeded) } := by
  unfold acceptBatch
  rcases heach : s.acceptEach crypto slices with ⟨e | ⟨⟩, s'⟩
  · obtain ⟨before, slice, after, hat⟩ := acceptEach_refused heach
    refine ⟨⟨nofun, fun hall => ?_⟩, nofun, fun e' he' => ?_⟩
    · rw [acceptEach_of_allAccepted hall] at heach
      cases congrArg Prod.fst heach
    · obtain rfl := Except.error.inj he'
      refine ⟨⟨before, slice, after, hat⟩, ?_⟩
      by_cases hwindow : e = .windowExceeded
      · simp [hwindow]
      · simp [hwindow]
  · have hall := allAccepted_of_acceptEach heach
    rw [acceptEach_of_allAccepted hall] at heach
    obtain ⟨-, rfl⟩ := Prod.mk.inj heach
    exact ⟨⟨fun _ => hall, fun _ => rfl⟩, fun _ => rfl, nofun⟩

/-! ## Moves -/

variable (crypto) in
/-- A single move of a channel. -/
inductive Move (s : ChannelState) : ChannelState → Prop
  | pause : Move s { s with pausedWindow := true }
  | accept (slice : Slice) (hphase : s.phase = .open) (hfloor : s.floor < slice.seq)
    (hnew : slice.seq ∉ s.accounted.keys)
    (hwindow : satAddI128 s.balance slice.amtMicro ≤ s.boundUpper)
    (hevidence : s.unevidenced + slice.amtMicro ≤ s.limitE) : Move s (s.moved slice)
  | creditFunding (credited : ℕ) : Move s (s.creditFunding credited)
  | applySettlementRound (grossDenomSettled : ℕ) :
    Move s (s.applySettlementRound grossDenomSettled)
  | checkpointUpto (cutoff : ℕ) : Move s (s.checkpointUpto crypto cutoff)
  | beginSettling : Move s s.beginSettling
  | close : Move s s.close

variable (crypto) in
/-- Any number of moves, one after the other. -/
abbrev Moves : ChannelState → ChannelState → Prop := Relation.ReflTransGen (Move crypto)

theorem acceptSlice_moves (s : ChannelState) (slice : Slice) :
    Moves crypto s (s.acceptSlice crypto slice).2 := by
  have hcases := acceptSlice_cases crypto s slice
  generalize s.acceptSlice crypto slice = r at hcases
  cases hcases with
  | refused => exact .refl
  | breached => exact .single .pause
  | accepted hphase hfloor hnew hwindow hevidence =>
    exact .single (.accept slice hphase hfloor hnew hwindow hevidence)

theorem exec_offer_moves : ∀ (slices : List Slice) (s : ChannelState),
    Moves crypto s (exec (offer crypto) s slices)
  | [], _ => .refl
  | slice :: slices, s =>
    (acceptSlice_moves s slice).trans (exec_offer_moves slices (s.acceptSlice crypto slice).2)

theorem acceptBatch_moves (s : ChannelState) (slices : List Slice) :
    Moves crypto s (s.acceptBatch crypto slices).2 := by
  unfold acceptBatch
  rcases heach : s.acceptEach crypto slices with ⟨e | ⟨⟩, s'⟩
  · dsimp only
    split_ifs
    · exact .single .pause
    · exact .refl
  · rw [acceptEach_of_allAccepted (allAccepted_of_acceptEach heach)] at heach
    obtain ⟨-, rfl⟩ := Prod.mk.inj heach
    exact exec_offer_moves slices s

theorem call_moves (s : ChannelState) (c : Call) : Moves crypto s (s.call crypto c) := by
  cases c with
  | acceptSlice slice => exact acceptSlice_moves s slice
  | acceptBatch slices => exact acceptBatch_moves s slices
  | creditFunding credited => exact .single (.creditFunding credited)
  | applySettlementRound gross => exact .single (.applySettlementRound gross)
  | buildCheckpointAt => exact .refl
  | recomputes => exact .refl
  | checkpoint => exact .single (.checkpointUpto _)
  | checkpointUpto cutoff => exact .single (.checkpointUpto cutoff)
  | beginSettling => exact .single .beginSettling
  | close => exact .single .close

theorem calls_moves : ∀ (cs : List Call) (s : ChannelState), Moves crypto s (s.calls crypto cs)
  | [], _ => .refl
  | c :: cs, s => (call_moves s c).trans (calls_moves cs (s.call crypto c))

/-- What every single move keeps, all calls keep. -/
theorem Moves.keep {P : ChannelState → Prop} (hmove : ∀ {s s'}, Move crypto s s' → P s → P s')
    {s s' : ChannelState} (h : Moves crypto s s') (hs : P s) : P s' := by
  induction h with
  | refl => exact hs
  | tail _ hlast ih => exact hmove hlast ih

theorem Move.wellFormed {s s' : ChannelState} (h : Move crypto s s') (hs : s.WellFormed) :
    s'.WellFormed := by
  cases h with
  | pause => exact hs.pause
  | accept slice hphase hfloor hnew hwindow hevidence => exact hs.moved hfloor hnew hevidence
  | creditFunding credited => exact hs.creditFunding credited
  | applySettlementRound gross => exact hs.applySettlementRound gross
  | checkpointUpto cutoff => exact hs.checkpointUpto cutoff
  | beginSettling => exact hs.beginSettling
  | close => exact hs.close

/-- What no move touches. -/
structure SameTerms (s s' : ChannelState) : Prop where
  mode : s'.mode = s.mode
  boundLower : s'.boundLower = s.boundLower
  boundUpper : s'.boundUpper = s.boundUpper
  limitE : s'.limitE = s.limitE
  vector : s'.vector = s.vector

theorem Move.sameTerms {s s' : ChannelState} (h : Move crypto s s') : SameTerms s s' := by
  cases h with
  | applySettlementRound gross =>
    unfold ChannelState.applySettlementRound
    split_ifs <;> exact ⟨rfl, rfl, rfl, rfl, rfl⟩
  | beginSettling =>
    unfold ChannelState.beginSettling
    split_ifs <;> exact ⟨rfl, rfl, rfl, rfl, rfl⟩
  | _ => exact ⟨rfl, rfl, rfl, rfl, rfl⟩

theorem SameTerms.trans {s s' s'' : ChannelState} (h : SameTerms s s') (h' : SameTerms s' s'') :
    SameTerms s s'' :=
  ⟨h'.mode.trans h.mode, h'.boundLower.trans h.boundLower, h'.boundUpper.trans h.boundUpper,
    h'.limitE.trans h.limitE, h'.vector.trans h.vector⟩

theorem calls_sameTerms (s : ChannelState) (cs : List Call) : SameTerms s (s.calls crypto cs) :=
  (calls_moves cs s).keep (P := SameTerms s) (fun hmove hs => hs.trans hmove.sameTerms)
    ⟨rfl, rfl, rfl, rfl, rfl⟩

/-! ## The balance window -/

/-- The balance is between the bounds of its channel, no wider apart than its type is. -/
structure InWindow (s : ChannelState) : Prop where
  wellFormed : s.WellFormed
  lower_le : s.boundLower ≤ s.balance
  le_upper : s.balance ≤ s.boundUpper
  width_le : s.boundUpper - s.boundLower ≤ I128_MAX

/-- Lowering the balance takes the amount off it, down to the lower bound. -/
theorem InWindow.lowered {s : ChannelState} (h : s.InWindow) (amount : ℕ) :
    (if satSubI128 s.balance (i128OfU128 amount) < s.boundLower then s.boundLower
      else satSubI128 s.balance (i128OfU128 amount)) = max s.boundLower (s.balance - amount) := by
  have hlo := h.wellFormed.lower_mem
  have hbal := h.wellFormed.balance_mem
  have hlower := h.lower_le
  have hupper := h.le_upper
  have hwidth := h.width_le
  unfold satSubI128 clampI128 i128OfU128 I128_MIN I128_MAX at *
  split_ifs <;> omega

theorem InWindow.creditFunding_balance {s : ChannelState} (h : s.InWindow) (credited : ℕ) :
    (s.creditFunding credited).balance = max s.boundLower (s.balance - credited) :=
  h.lowered credited

theorem InWindow.applySettlementRound_balance {s : ChannelState} (h : s.InWindow) (gross : ℕ) :
    (s.applySettlementRound gross).balance =
      if s.mode = .postpay then max s.boundLower (s.balance - gross) else s.balance := by
  unfold ChannelState.applySettlementRound
  by_cases hmode : s.mode = .postpay
  · rw [if_pos hmode, if_pos hmode]
    exact h.lowered gross
  · rw [if_neg hmode, if_neg hmode]

theorem Move.inWindow {s s' : ChannelState} (h : Move crypto s s') (hs : s.InWindow) :
    s'.InWindow := by
  have hterms := h.sameTerms
  have hlower := hs.lower_le
  have hupper := hs.le_upper
  have hbalance : s.boundLower ≤ s'.balance ∧ s'.balance ≤ s.boundUpper := by
    cases h with
    | accept slice hphase hfloor hnew hwindow hevidence =>
      refine ⟨?_, hwindow⟩
      have hbal := hs.wellFormed.balance_mem
      show s.boundLower ≤ satAddI128 s.balance slice.amtMicro
      unfold satAddI128 clampI128 I128_MIN I128_MAX at *
      omega
    | creditFunding credited =>
      rw [hs.creditFunding_balance]
      omega
    | applySettlementRound gross =>
      rw [hs.applySettlementRound_balance]
      split_ifs <;> omega
    | beginSettling =>
      unfold ChannelState.beginSettling
      split_ifs <;> exact ⟨hlower, hupper⟩
    | _ => exact ⟨hlower, hupper⟩
  refine ⟨h.wellFormed hs.wellFormed, ?_, ?_, ?_⟩
  · rw [hterms.boundLower]
    exact hbalance.1
  · rw [hterms.boundUpper]
    exact hbalance.2
  · rw [hterms.boundLower, hterms.boundUpper]
    exact hs.width_le

variable (crypto) in
theorem inWindow_new (channelId : ByteArr 8) (kSession : ByteArr 32) (mode : Mode)
    (limitL limitE : ℕ) (vector : List (UInt8 × UInt16)) :
    (new crypto channelId kSession mode limitL limitE vector).InWindow := by
  have hlim := i128OfU128_mem limitL
  refine ⟨wellFormed_new _ _ _ _ _ _ _, ?_, ?_, ?_⟩ <;>
    cases mode <;> simp only [new] <;> omega

theorem inWindow_born {s : ChannelState} (h : Born crypto s) : s.InWindow := by
  have hwell := wellFormed_born h
  cases h with
  | fresh => exact inWindow_new _ _ _ _ _ _ _
  | @imported cid k mode limitL limitE vector cum accruals balance _ hcum h =>
    have hnew := inWindow_new crypto cid k mode limitL limitE vector
    unfold newImported at h
    simp only at h
    split_ifs at h with hlen hbal
    obtain rfl := Except.ok.inj h
    push Not at hbal
    exact ⟨hwell, hbal.2, hbal.1, hnew.width_le⟩

theorem inWindow_calls {s₀ : ChannelState} (h : Born crypto s₀) (cs : List Call) :
    (s₀.calls crypto cs).InWindow :=
  (calls_moves cs s₀).keep Move.inWindow (inWindow_born h)

/-! ## Pauses and phases -/

variable (crypto) in
/-- A paused channel takes no slice. -/
theorem acceptSlice_paused {s : ChannelState} (h : s.pausedWindow = true) (slice : Slice) :
    ∃ e, s.acceptSlice crypto slice = (.error e, s) := by
  unfold acceptSlice
  simp only [h, if_true]
  split_ifs
  · exact ⟨_, rfl⟩
  · exact ⟨_, rfl⟩
  · exact ⟨_, rfl⟩
  · exact ⟨_, rfl⟩

theorem acceptBatch_paused {s : ChannelState} (h : s.pausedWindow = true) (slices : List Slice) :
    (s.acceptBatch crypto slices).2.pausedWindow = true := by
  unfold acceptBatch
  cases slices with
  | nil => exact h
  | cons slice slices =>
    obtain ⟨e, he⟩ := acceptSlice_paused crypto h slice
    rw [acceptEach, he]
    dsimp only
    split_ifs
    · rfl
    · exact h

/-- A call that ends a window pause. -/
inductive Releases (s : ChannelState) : Call → Prop
  | creditFunding {credited : ℕ} (h : 0 < credited) : Releases s (.creditFunding credited)
  | applySettlementRound {gross : ℕ} (hmode : s.mode = .postpay) (h : 0 < gross) :
    Releases s (.applySettlementRound gross)

theorem releases_creditFunding {s : ChannelState} {credited : ℕ} :
    Releases s (.creditFunding credited) ↔ 0 < credited :=
  ⟨fun h => by cases h; assumption, .creditFunding⟩

theorem releases_applySettlementRound {s : ChannelState} {gross : ℕ} :
    Releases s (.applySettlementRound gross) ↔ s.mode = .postpay ∧ 0 < gross :=
  ⟨fun h => by cases h; exact ⟨‹_›, ‹_›⟩, fun h => .applySettlementRound h.1 h.2⟩

variable (crypto) in
/-- Of a paused channel, exactly the releasing calls end the pause. -/
theorem call_unpaused {s : ChannelState} (h : s.pausedWindow = true) (c : Call) :
    (s.call crypto c).pausedWindow = false ↔ Releases s c := by
  have hkept : ∀ {s' : ChannelState}, s'.pausedWindow = true → ¬ Releases s c →
      (s'.pausedWindow = false ↔ Releases s c) := by
    intro s' hs' hnot
    rw [hs']
    exact ⟨nofun, fun hrel => absurd hrel hnot⟩
  cases c with
  | acceptSlice slice =>
    obtain ⟨e, he⟩ := acceptSlice_paused crypto h slice
    refine hkept ?_ nofun
    rw [call, he]
    exact h
  | acceptBatch slices => exact hkept (acceptBatch_paused h slices) nofun
  | creditFunding credited =>
    rw [releases_creditFunding, call, creditFunding]
    simp [h]
  | applySettlementRound gross =>
    rw [releases_applySettlementRound, call, applySettlementRound]
    by_cases hmode : s.mode = .postpay
    · rw [if_pos hmode]
      simp [h, hmode]
    · rw [if_neg hmode]
      simp [h, hmode]
  | beginSettling =>
    refine hkept ?_ nofun
    rw [call, beginSettling]
    split_ifs <;> exact h
  | _ => exact hkept h nofun

theorem Move.not_open {s s' : ChannelState} (h : Move crypto s s') (hs : s.phase ≠ .open) :
    s'.phase ≠ .open := by
  cases h with
  | accept slice hphase => exact absurd hphase hs
  | applySettlementRound gross =>
    unfold ChannelState.applySettlementRound
    split_ifs <;> exact hs
  | beginSettling =>
    unfold ChannelState.beginSettling
    split_ifs
    · exact nofun
    · exact hs
  | close => exact nofun
  | _ => exact hs

theorem Move.closed {s s' : ChannelState} (h : Move crypto s s') (hs : s.phase = .closed) :
    s'.phase = .closed := by
  cases h with
  | applySettlementRound gross =>
    unfold ChannelState.applySettlementRound
    split_ifs <;> exact hs
  | beginSettling =>
    unfold ChannelState.beginSettling
    split_ifs with hopen
    · exact absurd hs hopen
    · exact hs
  | close => rfl
  | _ => exact hs

theorem Move.keyless {s s' : ChannelState} (h : Move crypto s s') (hs : s.kSession = none) :
    s'.kSession = none := by
  cases h with
  | applySettlementRound gross =>
    unfold ChannelState.applySettlementRound
    split_ifs <;> exact hs
  | beginSettling =>
    unfold ChannelState.beginSettling
    split_ifs <;> exact hs
  | close => rfl
  | _ => exact hs

theorem acceptSlice_keyless {s : ChannelState} (h : s.kSession = none) (slice : Slice) :
    s.acceptSlice crypto slice = (.error .badMac, s) := by
  unfold acceptSlice
  simp [h]

theorem acceptBatch_keyless {s : ChannelState} (h : s.kSession = none) {slices : List Slice}
    (hne : slices ≠ []) : s.acceptBatch crypto slices = (.error .badMac, s) := by
  obtain ⟨slice, slices, rfl⟩ := List.exists_cons_of_ne_nil hne
  rw [acceptBatch, acceptEach, acceptSlice_keyless h]
  rfl

/-- In every state a channel reaches from its birth: the balance is between the bounds the
channel was born with; a window pause is ended by a positive funding or a positive settlement
round of a postpay channel, which take their amount off the balance down to the lower bound, and
by no other call; a channel that settles or has closed never opens again and one that has closed
stays closed; and after a close every slice is refused, alone or in a batch, and moves
nothing. -/
theorem window_and_phases {s₀ : ChannelState} (h : Born crypto s₀) (cs : List Call) :
    let s := s₀.calls crypto cs
    (s₀.boundLower ≤ s.balance ∧ s.balance ≤ s₀.boundUpper) ∧
      (s.pausedWindow = true →
        ∀ c, (s.call crypto c).pausedWindow = false ↔ Releases s c) ∧
      (∀ n, (s.creditFunding n).balance = max s₀.boundLower (s.balance - n)) ∧
      (∀ n, (s.applySettlementRound n).balance =
        if s₀.mode = .postpay then max s₀.boundLower (s.balance - n) else s.balance) ∧
      (∀ cs', (s.phase ≠ .open → (s.calls crypto cs').phase ≠ .open) ∧
        (s.phase = .closed → (s.calls crypto cs').phase = .closed)) ∧
      ∀ cs', let closed := s.close.calls crypto cs'
        (∀ slice, closed.acceptSlice crypto slice = (.error .badMac, closed)) ∧
          ∀ slices, slices ≠ [] →
            closed.acceptBatch crypto slices = (.error .badMac, closed) := by
  intro s
  have hs : s.InWindow := inWindow_calls h cs
  have hterms : SameTerms s₀ s := calls_sameTerms s₀ cs
  refine ⟨⟨?_, ?_⟩, ?_, ?_, ?_, ?_, ?_⟩
  · exact hterms.boundLower ▸ hs.lower_le
  · exact hterms.boundUpper ▸ hs.le_upper
  · exact fun hpaused c => call_unpaused crypto hpaused c
  · intro n
    rw [hs.creditFunding_balance, hterms.boundLower]
  · intro n
    rw [hs.applySettlementRound_balance, hterms.boundLower, hterms.mode]
  · intro cs'
    exact ⟨(calls_moves cs' s).keep Move.not_open, (calls_moves cs' s).keep Move.closed⟩
  · intro cs' closed
    have hkeyless : closed.kSession = none :=
      (calls_moves cs' s.close).keep (P := fun s => s.kSession = none) Move.keyless rfl
    exact ⟨acceptSlice_keyless hkeyless, fun _ => acceptBatch_keyless hkeyless⟩

/-- A postpay channel of limit 5, paused by a slice of 10 and closed after a round. -/
theorem window_and_phases_postpay :
    let s₀ := new plainCrypto (.replicate 8 0) (.replicate 32 0) .postpay 5 100 [(0x10, 50)]
    let s := s₀.calls plainCrypto [.acceptSlice (plainSlice 1 10 (by decide) (by decide))]
    s.pausedWindow = true ∧
      (s.call plainCrypto (.applySettlementRound 1)).pausedWindow = false ∧
      0 ≤ s.balance ∧ s.balance ≤ 5 := by
  intro s₀ s
  have hborn : Born plainCrypto s₀ := .fresh _ _ _ _ _ _
  have hall := window_and_phases hborn [.acceptSlice (plainSlice 1 10 (by decide) (by decide))]
  have hpaused : s.pausedWindow = true := by decide
  refine ⟨hpaused, ?_, hall.1.1, hall.1.2⟩
  exact (hall.2.1 hpaused _).mpr (.applySettlementRound (by decide) (by decide))

/-- A round may end the pause of a postpay channel whose balance is at its lower bound. -/
theorem released_without_reduction :
    let s₀ := new plainCrypto (.replicate 8 0) (.replicate 32 0) .postpay 5 100 [(0x10, 50)]
    let s := s₀.calls plainCrypto [.acceptSlice (plainSlice 1 10 (by decide) (by decide))]
    let s' := s.call plainCrypto (.applySettlementRound 1)
    Born plainCrypto s₀ ∧ s.pausedWindow = true ∧ s'.pausedWindow = false ∧
      ¬ s'.balance < s.balance :=
  ⟨.fresh _ _ _ _ _ _, by decide, by decide, by decide⟩

end ChannelState

end Paytp
