import Paytp.Proofs.DecisionLog

/-!
# What a failed decision leaves behind

A failed `decide` promises that nothing was recorded. The promise is broken in three ways: a
failed append whose cut fails too may strand the whole record, a poisoned store answers failed
for a key it has decided, and a process may die after landing the whole record of a key that an
earlier call failed on. A run in which none of these happens keeps it, and no other run does.
-/

namespace Paytp

namespace OneDecision

/-- `key` is undecided, in memory and once the file is replayed. -/
def Undecided (s : Store) (key : Bytes) : Prop :=
  s.decisions.lookup key = none ∧ (replay s.disk).1.lookup key = none

/-- The file and the memory of the store agree on `key`. -/
def Agrees (s : Store) (key : Bytes) : Prop :=
  (replay s.disk).1.lookup key = s.decisions.lookup key

/-- A `decide` that finds the store poisoned, or the key undecided and the disk failing. -/
def Fails : Store → Field → AppendIo → Prop
  | .up wal, key, io => wal.poisoned = true ∨ wal.map.lookup key.bytes = none ∧ io.ok = false
  | .down _, _, _ => False

/-- Among `es` is a `decide` of `key` that fails. -/
def Tried (s : Store) (key : Field) (es : List Event) : Prop :=
  ∃ es₁ value io es₂, es = es₁ ++ .decide key value io :: es₂ ∧ Fails (exec step s es₁) key io

/-- The three ways, at the event that does it; `tried` says that a `decide` of `key` has failed
before. -/
def Slips (key : Field) (tried : Prop) : Store → Event → Prop
  | .up wal, .decide k value io => k = key ∧
      (wal.poisoned = true ∧ wal.map.lookup key.bytes ≠ none ∨
        wal.poisoned = false ∧ wal.map.lookup key.bytes = none ∧
          io.strands (record key.bytes value.bytes) = true)
  | .up wal, .crashIn k value landed => k = key ∧ tried ∧ wal.poisoned = false ∧
      wal.map.lookup key.bytes = none ∧ (record key.bytes value.bytes).length ≤ landed
  | _, _ => False

theorem failed_iff {s : Store} (h : s.Sound) (key value : Field) (io : AppendIo) :
    (step s (.decide key value io)).2 = some .failed ↔ Fails s key io := by
  rcases s with disk | wal
  · simp [step, Fails]
  · have hd := Wal.Sound.decide h key value io
    show some (wal.decide key.bytes value.bytes io).1 = some .failed ↔ _
    generalize (wal.decide key.bytes value.bytes io).1 = d,
      (wal.decide key.bytes value.bytes io).2 = wal' at hd ⊢
    cases hd with
    | poisoned hp => simp [Fails, hp]
    | already hp hk => simp [Fails, hp, hk]
    | fresh hp hk hio => simp [Fails, hp, hk, hio]
    | failed hp hk hio => simp [Fails, hp, hk, hio]

theorem agrees_down (disk key : Bytes) : Agrees (.down disk) key := rfl

/-- Only stranding a record of `key` sets the file against the memory. -/
theorem step_agrees {s : Store} {e : Event} {key : Field} {tried : Prop} (hs : s.Sound)
    (ha : Agrees s key.bytes) (hslip : ¬Slips key tried s e) :
    Agrees (step s e).1 key.bytes := by
  rcases s with disk | wal <;> rcases e with ⟨k, value, io⟩ | _ | ⟨k, value, n⟩ | io
  case down.reopen =>
    rcases step_reopen disk io with ⟨wal, hstep, hsound, hp, -⟩ | ⟨disk', hstep, -⟩ <;> rw [hstep]
    · rw [Agrees, Store.disk, Store.decisions, hsound.replay_clean hp]
    · exact agrees_down _ _
  case up.decide =>
    have hd := Wal.Sound.decide hs k value io
    show Agrees (.up (wal.decide k.bytes value.bytes io).2) key.bytes
    generalize (wal.decide k.bytes value.bytes io).1 = d,
      (wal.decide k.bytes value.bytes io).2 = wal' at hd ⊢
    cases hd with
    | poisoned => exact ha
    | already => exact ha
    | fresh _ _ _ hsound hp => rw [Agrees, Store.disk, Store.decisions, hsound.replay_clean hp]
    | failed hp hk _ _ hm hrep =>
      rw [Agrees, Store.disk, Store.decisions, hrep, hm]
      split_ifs with hstr
      · rw [HashMap.lookup_insert_ite, if_neg]
        intro he
        obtain rfl : k = key := Field.ext he.symm
        exact hslip ⟨rfl, .inr ⟨hp, hk, hstr⟩⟩
      · rfl
  case up.reopen => exact ha
  all_goals exact agrees_down _ _

theorem Undecided.of_agrees {s : Store} {key : Bytes} (ha : Agrees s key)
    (h : s.decisions.lookup key = none) : Undecided s key :=
  ⟨h, ha.trans h⟩

/-- Once a `decide` of `key` has failed, an event that is no slip and does not freshly decide
`key` leaves it undecided. -/
theorem step_undecided {s : Store} {e : Event} {key : Field} {tried : Prop} (hs : s.Sound)
    (ht : tried) (hu : Undecided s key.bytes) (hslip : ¬Slips key tried s e)
    (hfresh : freshValue key.bytes e (step s e).2 = []) :
    Undecided (step s e).1 key.bytes := by
  have ha := step_agrees hs (hu.2.trans hu.1.symm) hslip
  refine .of_agrees ha ?_
  rcases s with disk | wal <;> rcases e with ⟨k, value, io⟩ | _ | ⟨k, value, n⟩ | io
  case down.reopen =>
    rcases step_reopen disk io with ⟨wal, hstep, -, -, hmap⟩ | ⟨disk', hstep, hrep⟩ <;> rw [hstep]
    · rw [Store.decisions, hmap]
      exact hu.1
    · rw [Store.decisions, hrep]
      exact hu.1
  case up.decide =>
    have hd := Wal.Sound.decide hs k value io
    replace hfresh : freshValue key.bytes (.decide k value io)
      (some (wal.decide k.bytes value.bytes io).1) = [] := hfresh
    show (wal.decide k.bytes value.bytes io).2.map.lookup key.bytes = none
    generalize (wal.decide k.bytes value.bytes io).1 = d,
      (wal.decide k.bytes value.bytes io).2 = wal' at hd hfresh ⊢
    cases hd with
    | poisoned => exact hu.1
    | already => exact hu.1
    | fresh _ _ _ _ _ hm =>
      rw [hm, HashMap.lookup_insert_ite, if_neg]
      · exact hu.1
      · intro he
        simp [freshValue, he] at hfresh
    | failed _ _ _ _ hm =>
      rw [hm]
      exact hu.1
  case up.crash => exact hu.2
  case up.crashIn =>
    have hcrash := Wal.Sound.crashIn hs k value n
    show (replay (wal.crashIn k.bytes value.bytes n)).1.lookup key.bytes = none
    rw [hcrash]
    split_ifs with hc
    · rw [HashMap.lookup_insert_ite, if_neg]
      · exact hu.1
      · intro he
        obtain rfl : k = key := Field.ext he.symm
        exact hslip ⟨rfl, ht, hc⟩
    · exact hu.2
  all_goals exact hu.1

/-- No event of the run slips on `key`. -/
def NoSlip (key : Field) (s : Store) (es : List Event) : Prop :=
  ∀ es₁ e es₂, es = es₁ ++ e :: es₂ → ¬Slips key (Tried s key es₁) (exec step s es₁) e

theorem NoSlip.append_left {key : Field} {s : Store} {es : List Event} (fs : List Event)
    (h : NoSlip key s (es ++ fs)) : NoSlip key s es := by
  rintro es₁ e es₂ rfl
  exact h es₁ e (es₂ ++ fs) (by simp)

theorem agrees_of_noSlip {key : Field} {disk : Bytes} {es : List Event}
    (h : NoSlip key (.down disk) es) : Agrees (exec step (.down disk) es) key.bytes := by
  induction es using List.reverseRecOn with
  | nil => exact agrees_down _ _
  | append_singleton es e ih =>
    rw [exec_concat]
    exact step_agrees (exec_sound disk es) (ih (h.append_left [e])) (h es e [] rfl)

theorem undecided_of_noSlip {key value : Field} {disk : Bytes} {es₁ : List Event}
    {io : AppendIo}
    (hfail : (step (exec step (.down disk) es₁) (.decide key value io)).2 = some .failed)
    {es₂ : List Event} (h : NoSlip key (.down disk) (es₁ ++ .decide key value io :: es₂))
    (hfresh : freshValues key.bytes
      (step (exec step (.down disk) es₁) (.decide key value io)).1 es₂ = []) :
    Undecided (exec step (.down disk) (es₁ ++ .decide key value io :: es₂)) key.bytes := by
  have hsound := exec_sound disk es₁
  have hfails := (failed_iff hsound key value io).1 hfail
  induction es₂ using List.reverseRecOn with
  | nil =>
    have hns := h es₁ _ [] rfl
    have ha := step_agrees hsound (agrees_of_noSlip (h.append_left _)) hns
    rw [exec_append, exec_cons, exec_nil]
    refine .of_agrees ha ?_
    rcases hst : exec step (.down disk) es₁ with disk' | wal <;> rw [hst] at hfails hns hsound
    · exact hfails.elim
    · have hd := Wal.Sound.decide hsound key value io
      show (wal.decide key.bytes value.bytes io).2.map.lookup key.bytes = none
      generalize (wal.decide key.bytes value.bytes io).1 = d,
        (wal.decide key.bytes value.bytes io).2 = wal' at hd ⊢
      cases hd with
      | poisoned hp =>
        by_contra hk
        exact hns ⟨rfl, .inl ⟨hp, hk⟩⟩
      | already hp hk => simp [Fails, hp, hk] at hfails
      | fresh hp hk hio => simp [Fails, hp, hk, hio] at hfails
      | failed _ hk _ _ hm => rw [hm, hk]
  | append_singleton es₂ e ih =>
    have hsplit : es₁ ++ .decide key value io :: (es₂ ++ [e]) =
        (es₁ ++ .decide key value io :: es₂) ++ [e] := by simp
    rw [hsplit] at h ⊢
    rw [freshValues_append, List.append_eq_nil_iff] at hfresh
    have hexec : exec step (step (exec step (.down disk) es₁) (.decide key value io)).1 es₂ =
        exec step (.down disk) (es₁ ++ .decide key value io :: es₂) := by
      rw [exec_append, exec_cons]
    have hlast := hfresh.2
    rw [hexec, freshValues, freshValues, List.append_nil] at hlast
    rw [exec_concat]
    exact step_undecided (exec_sound disk _) ⟨es₁, value, io, es₂, rfl, hfails⟩
      (ih (h.append_left [e]) hfresh.1) (h _ e [] rfl) hlast

/-- A slip leaves `key` decided, in memory or in the file. -/
theorem Slips.decided {key : Field} {tried : Prop} {s : Store} {e : Event} (hs : s.Sound)
    (h : Slips key tried s e) : ¬Undecided (step s e).1 key.bytes := by
  rcases s with disk | wal <;> rcases e with ⟨k, value, io⟩ | _ | ⟨k, value, n⟩ | io
  case up.decide =>
    obtain ⟨rfl, h⟩ := h
    have hd := Wal.Sound.decide hs k value io
    show ¬Undecided (.up (wal.decide k.bytes value.bytes io).2) k.bytes
    generalize (wal.decide k.bytes value.bytes io).1 = d,
      (wal.decide k.bytes value.bytes io).2 = wal' at hd ⊢
    rintro ⟨hmem, hdisk⟩
    cases hd with
    | poisoned hp =>
      rcases h with ⟨-, hk⟩ | ⟨hp', -⟩
      · exact hk hmem
      · simp [hp] at hp'
    | already hp hk => simp [Store.decisions, hk] at hmem
    | fresh _ _ _ _ _ hm => simp [Store.decisions, hm, Finmap.lookup_insert] at hmem
    | failed hp _ _ _ _ hrep =>
      rcases h with ⟨hp', -⟩ | ⟨-, -, hstr⟩
      · simp [hp] at hp'
      · rw [Store.disk, hrep, if_pos hstr, Finmap.lookup_insert] at hdisk
        simp at hdisk
  case up.crashIn =>
    obtain ⟨rfl, -, hc⟩ := h
    rintro ⟨-, hdisk⟩
    have hcrash := Wal.Sound.crashIn hs k value n
    rw [if_pos hc] at hcrash
    replace hdisk : (replay (wal.crashIn k.bytes value.bytes n)).1.lookup k.bytes = none := hdisk
    rw [hcrash, Finmap.lookup_insert] at hdisk
    simp at hdisk
  all_goals exact h.elim

/-- A slip follows a failed `decide` of its key or is one, and the key was undecided before
unless the store was poisoned. -/
theorem Slips.cases {key : Field} {tried : Prop} {s : Store} {e : Event}
    (h : Slips key tried s e) : (∃ value io, e = .decide key value io ∧ Fails s key io) ∨
      tried ∧ s.decisions.lookup key.bytes = none ∧ freshValue key.bytes e (step s e).2 = [] := by
  rcases s with disk | wal <;> rcases e with ⟨k, value, io⟩ | _ | ⟨k, value, n⟩ | io
  case up.decide =>
    obtain ⟨rfl, ⟨hp, -⟩ | ⟨-, hk, hstr⟩⟩ := h
    · exact .inl ⟨value, io, rfl, .inl hp⟩
    · simp only [AppendIo.strands, Bool.and_eq_true, Bool.not_eq_true'] at hstr
      exact .inl ⟨value, io, rfl, .inr ⟨hk, hstr.1.1⟩⟩
  case up.crashIn => exact .inr ⟨h.2.1, h.2.2.2.1, rfl⟩
  all_goals exact h.elim

/-! ## The exact condition -/

/-- In a run on any file, the keys on which `decide` failed stay undecided until a fresh
decision, exactly when no event of the run slips. -/
theorem failed_undecided_iff (disk : Bytes) (es : List Event) (key : Field) :
    (∀ es₁ value io es₂ es₃, es = es₁ ++ .decide key value io :: (es₂ ++ es₃) →
      (step (exec step (.down disk) es₁) (.decide key value io)).2 = some .failed →
      freshValues key.bytes (step (exec step (.down disk) es₁) (.decide key value io)).1 es₂ = [] →
      Undecided (exec step (.down disk) (es₁ ++ .decide key value io :: es₂)) key.bytes) ↔
    NoSlip key (.down disk) es := by
  constructor
  · rintro h es₁ e es₂ rfl hslip
    have hsound := exec_sound disk es₁
    have hdecided := hslip.decided hsound
    rcases hslip.cases with ⟨value, io, rfl, hfails⟩ | ⟨⟨es₀, value, io, es', rfl, hfails⟩,
      hnone, hquiet⟩
    · have hu := h es₁ value io [] es₂ rfl ((failed_iff hsound key value io).2 hfails) rfl
      rw [exec_concat] at hu
      exact hdecided hu
    · have hfail := (failed_iff (exec_sound disk es₀) key value io).2 hfails
      have hexec : exec step (step (exec step (.down disk) es₀) (.decide key value io)).1 es' =
          exec step (.down disk) (es₀ ++ .decide key value io :: es') := by
        rw [exec_append, exec_cons]
      have hfresh : freshValues key.bytes
          (step (exec step (.down disk) es₀) (.decide key value io)).1 (es' ++ [e]) = [] := by
        rw [freshValues_append, hexec, freshValues, freshValues, hquiet, List.append_nil,
          List.append_nil, List.eq_nil_iff_forall_not_mem]
        intro v hv
        have hmem : v ∈ freshValues key.bytes (.down disk)
            (es₀ ++ .decide key value io :: es') := by
          rw [freshValues_append, freshValues]
          exact List.mem_append_right _ (List.mem_append_right _ hv)
        simp [(freshValues_spec disk key.bytes _).2 v hmem] at hnone
      have hu := h es₀ value io (es' ++ [e]) es₂ (by simp) hfail hfresh
      have hsplit : es₀ ++ .decide key value io :: (es' ++ [e]) =
          (es₀ ++ .decide key value io :: es') ++ [e] := by simp
      rw [hsplit, exec_concat] at hu
      exact hdecided hu
  · rintro hns es₁ value io es₂ es₃ rfl hfail hfresh
    refine undecided_of_noSlip hfail (.append_left es₃ ?_) hfresh
    simpa using hns

/-- The sync and the cut both fail: `decide` answers failed, and after the restart the key is
already decided. -/
theorem failed_then_alreadyDecided :
    answers step (.down []) [.reopen .good,
      .decide ⟨[107], by decide⟩ ⟨[118], by decide⟩ ⟨none, false, false, true⟩, .crash,
      .reopen .good,
      .decide ⟨[107], by decide⟩ ⟨[119], by decide⟩ .good] =
    [none, some .failed, none, none, some (.alreadyDecided [118])] := by
  decide

end OneDecision

end Paytp
