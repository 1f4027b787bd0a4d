import Paytp.Proofs.Pauses
import Paytp.Proofs.Progress

/-!
# Overflows

No sum or difference of a channel leaves its type, but for one: the balance of a checkpoint in
the past, from which the amounts of the newer slices are taken. Funding moves the balance back
to its lower bound while the slices stay in the window, so it fits exactly when the lower bound
leaves room for a whole window.
-/

namespace Paytp

namespace ChannelState

variable {crypto : Crypto}

/-- What the slices of one window sum to at most. -/
def WINDOW_MAX : ℕ := SEQ_MAX * (2 ^ 48 - 1)

/-! ## What holds in every state -/

/-- Slices with different numbers past zero. -/
theorem amounts_le_window {slices : List Slice} (hn : (slices.map Slice.seq).Nodup)
    (hp : ∀ x ∈ slices, 0 < x.seq) : amounts slices ≤ WINDOW_MAX := by
  have hlen := length_le_seqMax hn hp
  have hle : ∀ a ∈ slices.map Slice.amtMicro, a ≤ 2 ^ 48 - 1 := by
    intro a ha
    obtain ⟨x, -, rfl⟩ := List.mem_map.1 ha
    exact Nat.le_sub_one_of_lt x.amt_lt
  have hsum : amounts slices ≤ slices.length * (2 ^ 48 - 1) := by
    simpa [amounts] using List.sum_le_card_nsmul _ _ hle
  exact hsum.trans (Nat.mul_le_mul_right _ hlen)

theorem WellFormed.seqs {s : ChannelState} (h : s.WellFormed) :
    s.window.values.map Slice.seq = s.window.keys := by
  unfold OrdMap.values OrdMap.keys
  rw [List.map_map]
  exact List.map_congr_left fun e he => (h.key_eq e he).symm

theorem WellFormed.amounts_le {s : ChannelState} (h : s.WellFormed) :
    amounts s.window.values ≤ WINDOW_MAX := by
  refine amounts_le_window (h.seqs ▸ s.window.nodup_keys) fun x hx => ?_
  have hkey : x.seq ∈ s.window.keys := h.seqs ▸ List.mem_map_of_mem hx
  exact (Nat.zero_le _).trans_lt (h.floor_lt _ hkey)

theorem amounts_past_le (m : OrdMap ℕ Slice) (cutoff : ℕ) :
    amounts (m.past cutoff).values ≤ amounts m.values := by
  have hsplit := amounts_split m cutoff
  omega

theorem zip_accrue (amt : ℕ) : ∀ (vs : List (UInt8 × UInt16)) (accs : List ℕ),
    vs.zip (accrue amt accs vs) =
      (vs.zip accs).map fun p => (p.1, p.2 + amt * p.1.2.toNat)
  | [], [] => rfl
  | [], _ :: _ => rfl
  | _ :: _, [] => rfl
  | (role, bp) :: vs, acc :: accs => by
    simp only [accrue, List.zip_cons_cons, List.map_cons, zip_accrue amt vs accs]

/-- The accruals hold what the slices of the window have added to them. -/
structure Backed (s : ChannelState) : Prop where
  inWindow : s.InWindow
  accrued : ∀ p ∈ s.vector.zip s.accruals, amounts s.window.values * p.1.2.toNat ≤ p.2

theorem Move.backed {s s' : ChannelState} (h : Move crypto s s') (hs : s.Backed) : s'.Backed := by
  refine ⟨h.inWindow hs.inWindow, ?_⟩
  cases h with
  | accept slice hphase hfloor hnew hwindow hevidence =>
    intro p hp
    have hnew' : slice.seq ∉ s.window.keys := by
      rwa [← hs.inWindow.wellFormed.keys_eq]
    rw [show (s.moved slice).vector.zip (s.moved slice).accruals = _ from
      zip_accrue slice.amtMicro s.vector s.accruals] at hp
    obtain ⟨q, hq, rfl⟩ := List.mem_map.1 hp
    have hacc := hs.accrued q hq
    show amounts (s.window.insert slice.seq slice).values * q.1.2.toNat ≤
      q.2 + slice.amtMicro * q.1.2.toNat
    rw [amounts_insert hnew', Nat.add_mul]
    omega
  | applySettlementRound gross =>
    unfold ChannelState.applySettlementRound
    split_ifs <;> exact hs.accrued
  | checkpointUpto cutoff =>
    intro p hp
    exact (Nat.mul_le_mul_right _ (amounts_past_le s.window cutoff)).trans (hs.accrued p hp)
  | beginSettling =>
    unfold ChannelState.beginSettling
    split_ifs <;> exact hs.accrued
  | _ => exact hs.accrued

theorem backed_born {s : ChannelState} (h : Born crypto s) : s.Backed := by
  refine ⟨inWindow_born h, fun p _ => ?_⟩
  have hempty : amounts s.window.values = 0 := by
    cases h with
    | fresh => rfl
    | imported hcum h =>
      unfold newImported at h
      simp only at h
      split_ifs at h
      obtain rfl := Except.ok.inj h
      rfl
  rw [hempty, Nat.zero_mul]
  exact Nat.zero_le _

/-! ## One call -/

/-- The past checkpoint of a call has a balance within its type. -/
def Fits (s : ChannelState) : Call → Prop
  | .buildCheckpointAt cutoff _ _ _ =>
    I128_MIN ≤ s.balance - amounts (s.window.past cutoff).values
  | .recomputes proposed =>
    I128_MIN ≤ s.balance - amounts (s.window.past proposed.lastSeq).values
  | _ => True

theorem machine_acceptSlice {s : ChannelState} (h : s.WellFormed) (slice : Slice) :
    Machine.acceptSlice crypto s slice = some (s.acceptSlice crypto slice) := by
  have hle := h.amounts_le
  rw [← h.unevidenced_eq] at hle
  have hamt := slice.amt_lt
  have hmax : WINDOW_MAX + 2 ^ 48 ≤ U128_MAX := by decide
  have hfit : s.unevidenced + slice.amtMicro ≤ U128_MAX := by omega
  have has : asI128 slice.amtMicro = slice.amtMicro := by
    refine asI128_of_le ?_
    unfold I128_MAX
    omega
  unfold Machine.acceptSlice acceptSlice
  simp only [has, addU128, if_pos hfit, Option.bind_eq_bind, Option.bind_some]
  split_ifs <;> rfl

theorem machine_acceptEach : ∀ (slices : List Slice) {s : ChannelState}, s.WellFormed →
    Machine.acceptEach crypto s slices = some (s.acceptEach crypto slices)
  | [], _, _ => rfl
  | slice :: slices, s, h => by
    rw [Machine.acceptEach, machine_acceptSlice h, acceptEach]
    have hmoves : Moves crypto s (s.acceptSlice crypto slice).2 := acceptSlice_moves s slice
    have hnext := hmoves.keep Move.wellFormed h
    rcases hslice : s.acceptSlice crypto slice with ⟨_ | ⟨⟩, s₁⟩
    · rfl
    · rw [hslice] at hnext
      exact machine_acceptEach slices hnext

theorem machine_acceptBatch {s : ChannelState} (h : s.WellFormed) (slices : List Slice) :
    Machine.acceptBatch crypto s slices = some (s.acceptBatch crypto slices) := by
  rw [Machine.acceptBatch, machine_acceptEach slices h, acceptBatch]
  rcases s.acceptEach crypto slices with ⟨_ | ⟨⟩, _⟩ <;> rfl

theorem sumU128_past {s : ChannelState} (h : s.WellFormed) (cutoff : ℕ) :
    sumU128 ((s.window.past cutoff).values.map Slice.amtMicro) =
      some (amounts (s.window.past cutoff).values) := by
  have hle := (amounts_past_le s.window cutoff).trans h.amounts_le
  have hmax : WINDOW_MAX ≤ U128_MAX := by decide
  exact sumU128_of_le (hle.trans hmax)

theorem machine_checkpointUpto {s : ChannelState} (h : s.WellFormed) (cutoff : ℕ) :
    Machine.checkpointUpto crypto s cutoff = some (s.checkpointUpto crypto cutoff) := by
  rw [Machine.checkpointUpto, sumU128_past h]
  rfl

theorem machine_runsFrom : ∀ (rest : List ℕ) (lo hi : ℕ), hi ≤ SEQ_MAX →
    (∀ k ∈ rest, k ≤ SEQ_MAX) → Machine.runsFrom lo hi rest = some (runsFrom lo hi rest)
  | [], _, _, _, _ => rfl
  | k :: rest, lo, hi, hhi, hrest => by
    have hmax : SEQ_MAX + 1 ≤ U64_MAX := by decide
    have hfit : hi + 1 ≤ U64_MAX := by omega
    obtain ⟨hk, htail⟩ := List.forall_mem_cons.mp hrest
    rw [Machine.runsFrom, addU64, if_pos hfit, runsFrom]
    show (if k = hi + 1 then _ else _) = _
    split_ifs
    · exact machine_runsFrom rest lo k hk htail
    · rw [machine_runsFrom rest k k hk htail]
      rfl

theorem machine_rangesUpto {s : ChannelState} (h : s.WellFormed) (cutoff : ℕ) :
    Machine.rangesUpto s cutoff = some (s.rangesUpto cutoff) := by
  have hkeys : ∀ k ∈ (s.accounted.upto cutoff).keys, k ≤ SEQ_MAX := by
    intro k hk
    have hkey := (OrdMap.mem_keys_upto.1 hk).1
    rw [h.keys_eq, ← h.seqs] at hkey
    obtain ⟨x, -, rfl⟩ := List.mem_map.1 hkey
    exact x.seq_le
  unfold Machine.rangesUpto rangesUpto
  cases hcases : (s.accounted.upto cutoff).keys with
  | nil => rfl
  | cons first rest =>
    rw [hcases] at hkeys
    obtain ⟨hfirst, hrest⟩ := List.forall_mem_cons.mp hkeys
    exact machine_runsFrom rest first first hfirst hrest

/-- A list all of whose elements have a value. -/
theorem mapM_of_some {α β : Type} {f : α → Option β} {g : α → β} : ∀ {l : List α},
    (∀ a ∈ l, f a = some (g a)) → l.mapM f = some (l.map g)
  | [], _ => rfl
  | a :: l, h => by
    obtain ⟨ha, hl⟩ := List.forall_mem_cons.mp h
    rw [List.mapM_cons, ha, mapM_of_some hl]
    rfl

theorem machine_accruals {s : ChannelState} (h : s.Backed) (cutoff : ℕ) :
    (s.vector.zip s.accruals).mapM (fun p =>
        (subBig p.2 (amounts (s.window.past cutoff).values * p.1.2.toNat)).map (p.1.1, ·)) =
      some ((s.vector.zip s.accruals).map fun p =>
        (p.1.1, p.2 - amounts (s.window.past cutoff).values * p.1.2.toNat)) := by
  refine mapM_of_some fun p hp => ?_
  have hle := (Nat.mul_le_mul_right p.1.2.toNat (amounts_past_le s.window cutoff)).trans
    (h.accrued p hp)
  rw [subBig, if_pos hle]
  rfl

theorem machine_buildCheckpointAt {s : ChannelState} (h : s.Backed) (cutoff timestamp : ℕ)
    (prevRef : ByteArr 32) (events : List CkptEvent) :
    Machine.buildCheckpointAt crypto s cutoff timestamp prevRef events =
      if I128_MIN ≤ s.balance - amounts (s.window.past cutoff).values then
        some (s.buildCheckpointAt crypto cutoff timestamp prevRef events) else none := by
  have hwell := h.inWindow.wellFormed
  have hle := (amounts_past_le s.window cutoff).trans hwell.amounts_le
  have hmax : WINDOW_MAX < 2 ^ 111 := by decide
  have has : asI128 (amounts (s.window.past cutoff).values) =
      amounts (s.window.past cutoff).values := by
    refine asI128_of_le ?_
    unfold I128_MAX
    omega
  have hupper : s.balance - amounts (s.window.past cutoff).values ≤ I128_MAX := by
    have hbal := hwell.balance_mem.2
    omega
  unfold Machine.buildCheckpointAt
  rw [sumU128_past hwell, Option.bind_eq_bind, Option.bind_some, machine_accruals h,
    Option.bind_eq_bind, Option.bind_some, has, subI128]
  split_ifs with hboth hlower hlower
  · rw [machine_rangesUpto hwell]
    rfl
  · exact absurd hboth.1 hlower
  · exact absurd ⟨hlower, hupper⟩ hboth
  · rfl

variable (crypto) in
/-- A call overflows exactly when the past checkpoint it builds does not fit. -/
theorem machine_call {s : ChannelState} (h : s.Backed) (c : Call) :
    (s.Fits c → Machine.call crypto s c = some (s.call crypto c)) ∧
      (¬ s.Fits c → Machine.call crypto s c = none) := by
  have hwell := h.inWindow.wellFormed
  cases c with
  | acceptSlice slice =>
    refine ⟨fun _ => ?_, fun hnot => absurd trivial hnot⟩
    rw [Machine.call, machine_acceptSlice hwell]
    rfl
  | acceptBatch slices =>
    refine ⟨fun _ => ?_, fun hnot => absurd trivial hnot⟩
    rw [Machine.call, machine_acceptBatch hwell]
    rfl
  | buildCheckpointAt cutoff timestamp prevRef events =>
    rw [Machine.call, machine_buildCheckpointAt h, Fits]
    refine ⟨fun hfits => ?_, fun hnot => ?_⟩
    · rw [if_pos hfits]
      rfl
    · rw [if_neg hnot]
      rfl
  | recomputes proposed =>
    rw [Machine.call, machine_buildCheckpointAt h, Fits]
    refine ⟨fun hfits => ?_, fun hnot => ?_⟩
    · rw [if_pos hfits]
      rfl
    · rw [if_neg hnot]
      rfl
  | checkpoint =>
    exact ⟨fun _ => machine_checkpointUpto hwell _, fun hnot => absurd trivial hnot⟩
  | checkpointUpto cutoff =>
    exact ⟨fun _ => machine_checkpointUpto hwell cutoff, fun hnot => absurd trivial hnot⟩
  | _ => exact ⟨fun _ => rfl, fun hnot => absurd trivial hnot⟩

/-! ## Runs -/

theorem machine_calls_cons (s : ChannelState) (c : Call) (cs : List Call) :
    Machine.calls crypto s (c :: cs) =
      (Machine.call crypto s c).bind fun s' => Machine.calls crypto s' cs := rfl

/-- Whatever a run without overflow does, it does without bounds. -/
theorem calls_of_machine : ∀ (cs : List Call) {s s' : ChannelState}, s.Backed →
    Machine.calls crypto s cs = some s' → s' = s.calls crypto cs
  | [], _, _, _, h => (Option.some.inj h).symm
  | c :: cs, s, s', hs, h => by
    rw [machine_calls_cons] at h
    by_cases hfits : s.Fits c
    · rw [(machine_call crypto hs c).1 hfits] at h
      exact calls_of_machine cs ((call_moves s c).keep Move.backed hs) h
    · rw [(machine_call crypto hs c).2 hfits] at h
      cases h

/-- The lower bound leaves room for what a window holds at most. -/
def HasRoom (s : ChannelState) : Prop := I128_MIN + min s.limitE WINDOW_MAX ≤ s.boundLower

theorem HasRoom.fits {s : ChannelState} (h : s.HasRoom) (hs : s.Backed) (c : Call) :
    s.Fits c := by
  have hwell := hs.inWindow.wellFormed
  have hlower := hs.inWindow.lower_le
  have hlimit := hwell.unevidenced_le
  have hwindow := hwell.amounts_le
  rw [hwell.unevidenced_eq] at hlimit
  have hroom : ∀ cutoff, I128_MIN ≤ s.balance - amounts (s.window.past cutoff).values := by
    intro cutoff
    have hpast := amounts_past_le s.window cutoff
    unfold HasRoom at h
    omega
  cases c with
  | buildCheckpointAt => exact hroom _
  | recomputes => exact hroom _
  | _ => trivial

theorem HasRoom.machine_calls : ∀ (cs : List Call) {s : ChannelState}, s.HasRoom → s.Backed →
    (Machine.calls crypto s cs).isSome
  | [], _, _, _ => rfl
  | c :: cs, s, h, hs => by
    rw [machine_calls_cons, (machine_call crypto hs c).1 (h.fits hs c)]
    have hmoves : Moves crypto s (s.call crypto c) := call_moves s c
    have hterms := hmoves.keep (P := SameTerms s)
      (fun hmove hs => hs.trans hmove.sameTerms) ⟨rfl, rfl, rfl, rfl, rfl⟩
    refine HasRoom.machine_calls cs ?_ ((call_moves s c).keep Move.backed hs)
    unfold HasRoom
    rw [hterms.limitE, hterms.boundLower]
    exact h

/-! ## A window that does not fit -/

/-- Slices numbered from one that sum to what a window can hold. -/
theorem exists_window (crypto : Crypto) (k : ByteArr 32) {total : ℕ} (h : total ≤ WINDOW_MAX) :
    ∃ slices : List Slice, (∀ x ∈ slices, x.verify crypto k = true) ∧
      (slices.Pairwise fun a b => a.seq < b.seq) ∧ (∀ x ∈ slices, 0 < x.seq) ∧
      amounts slices = total := by
  have hpos : 0 < 2 ^ 48 - 1 := by norm_num
  have hdiv : total / (2 ^ 48 - 1) ≤ SEQ_MAX := Nat.div_le_of_le_mul (by
    rwa [Nat.mul_comm])
  have hsplit := Nat.div_add_mod total (2 ^ 48 - 1)
  have hmod := Nat.mod_lt total hpos
  obtain ⟨slices, hverify, hasc, hseq, hsum⟩ := exists_slices crypto k
    (show 2 ^ 48 - 1 < 2 ^ 48 by norm_num) (total / (2 ^ 48 - 1)) hdiv
  by_cases hzero : total % (2 ^ 48 - 1) = 0
  · refine ⟨slices, hverify, hasc, fun x hx => (hseq x hx).1, ?_⟩
    rw [hsum, Nat.mul_comm]
    omega
  · have hlt : total / (2 ^ 48 - 1) + 1 ≤ SEQ_MAX := by
      by_contra hnot
      have hfull : total / (2 ^ 48 - 1) = SEQ_MAX := by omega
      rw [hfull, Nat.mul_comm] at hsplit
      unfold WINDOW_MAX at h
      omega
    -- what is left over goes on one more slice
    let last := Slice.sealWith crypto k (total / (2 ^ 48 - 1) + 1) (total % (2 ^ 48 - 1)) hlt
      (hmod.trans (by norm_num))
    have hlast : amounts [last] = total % (2 ^ 48 - 1) := by
      simp [amounts, last, Slice.sealWith]
    refine ⟨slices ++ [last], ?_, ?_, ?_, ?_⟩
    · intro x hx
      rcases List.mem_append.1 hx with hx | hx
      · exact hverify x hx
      · rw [List.mem_singleton.1 hx]
        exact Slice.verify_sealWith crypto k hlt _
    · refine List.pairwise_append.2 ⟨hasc, List.pairwise_singleton _ _, fun a ha b hb => ?_⟩
      rw [List.mem_singleton.1 hb]
      exact Nat.lt_succ_of_le (hseq a ha).2
    · intro x hx
      rcases List.mem_append.1 hx with hx | hx
      · exact (hseq x hx).1
      · rw [List.mem_singleton.1 hx]
        exact Nat.succ_pos _
    · rw [amounts_append, hsum, hlast, Nat.mul_comm]
      omega

/-- A slice plane that has taken nothing. -/
structure Fresh (s : ChannelState) (k : ByteArr 32) : Prop where
  kSession : s.kSession = some k
  window : s.window = .empty
  floor : s.floor = 0
  phase : s.phase = .open
  pausedWindow : s.pausedWindow = false

theorem fresh_born {s : ChannelState} (h : Born crypto s) : ∃ k, s.Fresh k := by
  cases h with
  | fresh _ kSession => exact ⟨kSession, rfl, rfl, rfl, rfl, rfl⟩
  | @imported _ kSession _ _ _ _ _ _ _ _ hcum h =>
    unfold newImported at h
    simp only at h
    split_ifs at h
    obtain rfl := Except.ok.inj h
    exact ⟨kSession, rfl, rfl, rfl, rfl, rfl⟩

theorem bounds_born {s : ChannelState} (h : Born crypto s) :
    (s.mode = .postpay ∧ s.boundLower = 0) ∨
      (s.mode = .prepay ∧ s.boundUpper = 0 ∧ -I128_MAX ≤ s.boundLower) := by
  cases h with
  | fresh _ _ mode limitL =>
    have hlim := i128OfU128_mem limitL
    cases mode with
    | postpay => exact .inl ⟨rfl, rfl⟩
    | prepay => exact .inr ⟨rfl, rfl, Int.neg_le_neg hlim.2⟩
  | @imported _ _ mode limitL _ _ _ _ _ _ hcum h =>
    have hlim := i128OfU128_mem limitL
    unfold newImported at h
    simp only at h
    split_ifs at h
    obtain rfl := Except.ok.inj h
    cases mode with
    | postpay => exact .inl ⟨rfl, rfl⟩
    | prepay => exact .inr ⟨rfl, rfl, Int.neg_le_neg hlim.2⟩

/-- The largest funding moves the balance to its lower bound. -/
theorem InWindow.fundedInFull {s : ChannelState} (h : s.InWindow) :
    (s.creditFunding U128_MAX).balance = s.boundLower := by
  have hupper := h.le_upper
  have hwidth := h.width_le
  rw [h.creditFunding_balance]
  unfold U128_MAX
  unfold I128_MAX at hwidth
  omega

/-- A fresh channel takes slices that fit its window and its limit. -/
theorem Fresh.acceptable {s : ChannelState} {k : ByteArr 32} (hfresh : s.Fresh k)
    (hs : s.Backed) (hbound : s.boundUpper ≤ I128_MAX) {slices : List Slice}
    (hverify : ∀ x ∈ slices, x.verify crypto k = true)
    (hasc : slices.Pairwise fun a b => a.seq < b.seq) (hpos : ∀ x ∈ slices, 0 < x.seq)
    (hbalance : s.balance + amounts slices ≤ s.boundUpper)
    (hlimit : amounts slices ≤ s.limitE) : Acceptable crypto s k slices := by
  have hwell := hs.inWindow.wellFormed
  have hkeys : s.accounted.keys = [] := by
    rw [hwell.keys_eq, hfresh.window]
    rfl
  have hzero : s.unevidenced = 0 := by
    rw [hwell.unevidenced_eq, hfresh.window]
    rfl
  refine ⟨hfresh.kSession, hfresh.phase, hfresh.pausedWindow, hverify, hasc, fun x hx => ?_,
    hwell.balance_mem.1, hbalance, hbound, ?_⟩
  · rw [hfresh.floor, hkeys]
    exact ⟨hpos x hx, List.not_mem_nil⟩
  · rw [hzero]
    omega

/-- All of what a fresh channel has taken is past its first cut. -/
theorem Fresh.amounts_past {s s' : ChannelState} {k : ByteArr 32} (hfresh : s.Fresh k)
    {slices : List Slice} (ht : Taken s slices s') :
    amounts (s'.window.past 0).values = amounts slices := by
  have hall : s'.window.past 0 = s'.window := by
    refine retain_eq_self fun key hkey => ?_
    have hlt := ht.wellFormed.floor_lt key hkey
    rw [ht.floor_eq, hfresh.floor] at hlt
    simpa using hlt
  have hperm := ht.window.map Prod.snd
  rw [hfresh.window, OrdMap.empty, List.append_nil, map_snd_pairs] at hperm
  rw [hall]
  exact amounts_perm hperm

variable (crypto) in
/-- A prepay channel without room is funded in full, metered, funded once more, and asked for
the checkpoint before its slices. -/
theorem exists_overflow {s : ChannelState} {k : ByteArr 32} (hs : s.Backed) (hfresh : s.Fresh k)
    (hupper : s.boundUpper = 0) (hlower : -I128_MAX ≤ s.boundLower) (h : ¬ s.HasRoom) :
    ∃ slices, Machine.calls crypto s [.creditFunding U128_MAX, .acceptBatch slices,
      .creditFunding U128_MAX, .buildCheckpointAt 0 0 (.replicate 32 0) []] = none := by
  have hfull : WINDOW_MAX < 2 ^ 111 := by decide
  unfold HasRoom I128_MIN at h
  unfold I128_MAX at hlower
  -- one more than the lower bound leaves room for
  obtain ⟨total, htotal⟩ : ∃ total : ℕ, (total : ℤ) = 2 ^ 127 + 1 + s.boundLower :=
    ⟨(2 ^ 127 + 1 + s.boundLower).toNat, Int.toNat_of_nonneg (by omega)⟩
  obtain ⟨slices, hverify, hasc, hpos, hsum⟩ := exists_window crypto k
    (show total ≤ WINDOW_MAX by omega)
  refine ⟨slices, ?_⟩
  let funded := s.creditFunding U128_MAX
  have hfunding : ∀ s : ChannelState, s.Backed → (s.creditFunding U128_MAX).Backed :=
    fun s hs => (call_moves s (.creditFunding U128_MAX)).keep (Move.backed : ∀ {s s'},
      Move crypto s s' → s.Backed → s'.Backed) hs
  have hfunded : funded.Backed := hfunding s hs
  have hplane : funded.Fresh k := by
    refine ⟨hfresh.kSession, hfresh.window, hfresh.floor, hfresh.phase, ?_⟩
    show (if U128_MAX > 0 ∧ s.pausedWindow then false else s.pausedWindow) = false
    rw [hfresh.pausedWindow]
    simp
  have hbalance : funded.balance = s.boundLower := hs.inWindow.fundedInFull
  have hacceptable : Acceptable crypto funded k slices := by
    refine hplane.acceptable hfunded ?_ hverify hasc hpos ?_ ?_
    · show s.boundUpper ≤ I128_MAX
      rw [hupper]
      decide
    · show funded.balance + _ ≤ s.boundUpper
      rw [hbalance, hupper, hsum]
      omega
    · show amounts slices ≤ s.limitE
      omega
  obtain ⟨metered, hmetered⟩ := hacceptable.acceptEach
  have ht := acceptEach_taken hfunded.inWindow.wellFormed hmetered
  have hbatch : funded.call crypto (.acceptBatch slices) = metered := by
    rw [call, acceptBatch, hmetered]
  have hbacked : metered.Backed :=
    hbatch ▸ (call_moves funded (.acceptBatch slices)).keep Move.backed hfunded
  have hagain : (metered.creditFunding U128_MAX).Backed :=
    hfunding metered hbacked
  have hover : ¬ (metered.creditFunding U128_MAX).Fits
      (.buildCheckpointAt 0 0 (.replicate 32 0) []) := by
    show ¬ I128_MIN ≤ (metered.creditFunding U128_MAX).balance -
      amounts (metered.window.past 0).values
    have hbound : metered.boundLower = s.boundLower := by
      rw [ht.frame]
      rfl
    rw [hbacked.inWindow.fundedInFull, hplane.amounts_past ht, hsum, hbound]
    unfold I128_MIN
    omega
  rw [machine_calls_cons, (machine_call crypto hs (.creditFunding U128_MAX)).1 trivial]
  show Machine.calls crypto funded _ = none
  rw [machine_calls_cons, (machine_call crypto hfunded (.acceptBatch slices)).1 trivial, hbatch]
  show Machine.calls crypto metered _ = none
  rw [machine_calls_cons, (machine_call crypto hbacked (.creditFunding U128_MAX)).1 trivial]
  show Machine.calls crypto (metered.creditFunding U128_MAX) _ = none
  rw [machine_calls_cons, (machine_call crypto hagain _).2 hover]
  rfl

variable (crypto) in
/-- A channel opens without overflow. -/
theorem machine_new (channelId : ByteArr 8) (kSession : ByteArr 32) (mode : Mode)
    (limitL limitE : ℕ) (vector : List (UInt8 × UInt16)) :
    Machine.new crypto channelId kSession mode limitL limitE vector =
      some (new crypto channelId kSession mode limitL limitE vector) := by
  have hlim := i128OfU128_mem limitL
  cases mode with
  | postpay => rfl
  | prepay =>
    have hfit : I128_MIN ≤ 0 - i128OfU128 limitL ∧ 0 - i128OfU128 limitL ≤ I128_MAX := by
      unfold I128_MIN I128_MAX at *
      omega
    unfold Machine.new Machine.bounds
    dsimp only
    rw [negI128, subI128, if_pos hfit, Int.zero_sub]
    rfl

/-- The opening of a channel does not overflow, and a run without overflow computes what it does
on unbounded numbers. From the birth of a channel on no call of any run overflows exactly if the
channel is postpay or its limit and what its window holds at most sum to no more than 2¹²⁷. -/
theorem overflow_free_iff {s₀ : ChannelState} (h : Born crypto s₀) :
    (∀ channelId kSession mode limitL limitE vector,
      Machine.new crypto channelId kSession mode limitL limitE vector =
        some (new crypto channelId kSession mode limitL limitE vector)) ∧
      (∀ cs s, Machine.calls crypto s₀ cs = some s → s = s₀.calls crypto cs) ∧
      ((∀ cs, (Machine.calls crypto s₀ cs).isSome) ↔
        s₀.mode = .postpay ∨ -s₀.boundLower + min s₀.limitE WINDOW_MAX ≤ 2 ^ 127) := by
  have hs := backed_born h
  refine ⟨machine_new crypto, fun cs s => calls_of_machine cs hs, fun hrun => ?_, fun hroom => ?_⟩
  · rcases bounds_born h with ⟨hmode, -⟩ | ⟨-, hupper, hlower⟩
    · exact .inl hmode
    · refine .inr ?_
      by_contra hnot
      obtain ⟨k, hfresh⟩ := fresh_born h
      have hroom : ¬ s₀.HasRoom := by
        unfold HasRoom I128_MIN
        omega
      obtain ⟨slices, hnone⟩ := exists_overflow crypto hs hfresh hupper hlower hroom
      have hsome := hrun [.creditFunding U128_MAX, .acceptBatch slices,
        .creditFunding U128_MAX, .buildCheckpointAt 0 0 (.replicate 32 0) []]
      rw [hnone] at hsome
      cases hsome
  · have hlt : WINDOW_MAX < 2 ^ 111 := by decide
    intro cs
    refine HasRoom.machine_calls cs ?_ hs
    unfold HasRoom I128_MIN
    rcases hroom with hmode | hroom
    · rcases bounds_born h with ⟨-, hlower⟩ | ⟨hprepay, -⟩
      · omega
      · rw [hmode] at hprepay
        cases hprepay
    · omega

/-- A prepay channel of limit 1000 has no overflow, as after a funding and a slice. -/
theorem overflow_free_prepay :
    (Machine.calls plainCrypto (new plainCrypto (.replicate 8 0) (.replicate 32 0) .prepay 1000
      1000 []) [.creditFunding 1000, .acceptSlice (plainSlice 1 10 (by decide) (by decide)),
        .buildCheckpointAt 0 0 (.replicate 32 0) []]).isSome :=
  (overflow_free_iff (.fresh _ _ _ _ _ _)).2.2.2 (.inr (by decide)) _

/-- A prepay channel of the largest limit, funded, metered with a slice of two and funded again,
has no checkpoint before the slice. -/
theorem overflow_largest :
    Machine.calls plainCrypto (new plainCrypto (.replicate 8 0) (.replicate 32 0) .prepay
      (2 ^ 127 - 1) 1000 []) [.creditFunding (2 ^ 127 - 1),
        .acceptSlice (plainSlice 1 2 (by decide) (by decide)), .creditFunding 2,
        .buildCheckpointAt 0 0 (.replicate 32 0) []] = none := by
  decide

end ChannelState

end Paytp
