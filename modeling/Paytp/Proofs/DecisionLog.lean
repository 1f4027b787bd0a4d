import Paytp.Proofs.DecisionReplay

/-!
# The decision store over whole runs

`Wal.Sound` ties the open store to its file: the file holds the records the map was made of, and
past them at most a prefix of one undecided key's record, left by the append that poisoned the
store. Every event keeps it, and no event takes a decision back.
-/

namespace Paytp

namespace OneDecision

/-- A record of a key that `m` has not decided. -/
def Spare (m : HashMap Bytes Bytes) (r : List Field) : Prop :=
  ∃ key value, r = fields (key, value) ∧ m.lookup key.bytes = none

/-- The file holds what the map says. -/
def Wal.Sound (wal : Wal) : Prop :=
  ∃ rs, wal.toAppendLog.Holds (Spare wal.map) (log rs) ∧ wal.map = mapOf ∅ rs

theorem mapOf_concat_of_none {rs : List (Field × Field)} {key value : Field}
    (h : (mapOf ∅ rs).lookup key.bytes = none) :
    mapOf ∅ (rs ++ [(key, value)]) = (mapOf ∅ rs).insert key.bytes value.bytes := by
  rw [mapOf_concat, HashMap.orInsert_of_none _ h]

/-- A log with part of an undecided key's record behind it replays to its own map, unless the
part is the whole. -/
theorem replay_prefix {rs : List (Field × Field)} {key value : Field} {t : Bytes}
    (h : (mapOf ∅ rs).lookup key.bytes = none) (ht : t <+: record key.bytes value.bytes) :
    (replay (encodeLog (log rs) ++ t)).1 =
      if t = record key.bytes value.bytes then (mapOf ∅ rs).insert key.bytes value.bytes
      else mapOf ∅ rs := by
  rw [record_eq] at ht ⊢
  split_ifs with he
  · rw [he, ← encodeLog_concat, ← log_concat, replay_encodeLog, mapOf_concat_of_none h]
  · rw [replay_torn (torn_of_isPrefix ht he)]

namespace Wal.Sound

variable {wal : Wal}

theorem replay_clean (h : wal.Sound) (hp : wal.poisoned = false) :
    (replay wal.file.content).1 = wal.map := by
  obtain ⟨rs, hrs, hmap⟩ := h
  rw [hrs.content_of_clean hp, replay_encodeLog, hmap]

/-- The file replays to the map, or to the map and one more decision. -/
theorem replay_cases (h : wal.Sound) : (replay wal.file.content).1 = wal.map ∨
    ∃ key value : Field, wal.map.lookup key.bytes = none ∧
      (replay wal.file.content).1 = wal.map.insert key.bytes value.bytes := by
  obtain ⟨rs, hrs, hmap⟩ := h
  obtain ⟨t, hcontent, rfl | ⟨-, r, ⟨key, value, rfl, hnone⟩, ht⟩⟩ := hrs.content_eq
  · rw [hcontent, List.append_nil, replay_encodeLog, hmap]
    exact .inl rfl
  · rw [← record_eq] at ht
    have hrep := replay_prefix (by rw [← hmap]; exact hnone) ht
    rw [← hcontent, ← hmap] at hrep
    split_ifs at hrep
    · exact .inr ⟨key, value, hnone, hrep⟩
    · exact .inl hrep

theorem replay_of_some (h : wal.Sound) {key value : Bytes}
    (hk : wal.map.lookup key = some value) :
    (replay wal.file.content).1.lookup key = some value := by
  rcases h.replay_cases with hrep | ⟨k, v, hnone, hrep⟩
  · rw [hrep, hk]
  · rw [hrep, HashMap.lookup_insert_ite, if_neg]
    · exact hk
    · rintro rfl
      simp [hk] at hnone

end Wal.Sound

/-- What `decide` does to a sound store. -/
inductive Decides (wal : Wal) (key value : Field) (io : AppendIo) : Decision → Wal → Prop
  | poisoned (hp : wal.poisoned = true) : Decides wal key value io .failed wal
  | already {v : Bytes} (hp : wal.poisoned = false) (hk : wal.map.lookup key.bytes = some v) :
    Decides wal key value io (.alreadyDecided v) wal
  | fresh {wal' : Wal} (hp : wal.poisoned = false) (hk : wal.map.lookup key.bytes = none)
    (hio : io.ok = true) (hs : wal'.Sound) (hp' : wal'.poisoned = false)
    (hm : wal'.map = wal.map.insert key.bytes value.bytes) :
    Decides wal key value io .fresh wal'
  | failed {wal' : Wal} (hp : wal.poisoned = false) (hk : wal.map.lookup key.bytes = none)
    (hio : io.ok = false) (hs : wal'.Sound) (hm : wal'.map = wal.map)
    (hrep : (replay wal'.file.content).1 =
      if io.strands (record key.bytes value.bytes) then wal.map.insert key.bytes value.bytes
      else wal.map) :
    Decides wal key value io .failed wal'

theorem Wal.Sound.decide {wal : Wal} (h : wal.Sound) (key value : Field) (io : AppendIo) :
    Decides wal key value io (wal.decide key.bytes value.bytes io).1
      (wal.decide key.bytes value.bytes io).2 := by
  cases hp : wal.poisoned with
  | true =>
    have hd : wal.decide key.bytes value.bytes io = (.failed, wal) := by simp [Wal.decide, hp]
    rw [hd]
    exact .poisoned hp
  | false =>
    cases hk : wal.map.lookup key.bytes with
    | some v =>
      have hd : wal.decide key.bytes value.bytes io = (.alreadyDecided v, wal) := by
        simp [Wal.decide, hp, hk]
      rw [hd]
      exact .already hp hk
    | none =>
      obtain ⟨rs, hrs, hmap⟩ := h
      have hfree : Spare wal.map (fields (key, value)) := ⟨key, value, rfl, hk⟩
      have hk' : (mapOf ∅ rs).lookup key.bytes = none := by rw [← hmap]; exact hk
      cases hio : io.ok with
      | true =>
        obtain ⟨hdone, hclean, hholds⟩ := hrs.append_ok hp (fields (key, value)) hio
        rw [← record_eq] at hdone hclean hholds
        have hd : wal.decide key.bytes value.bytes io = (.fresh,
            ⟨(wal.toAppendLog.append (record key.bytes value.bytes) io).2,
              wal.map.insert key.bytes value.bytes⟩) := by
          simp only [Wal.decide, hp, hk, Bool.false_eq_true, if_false]
          rcases happ : wal.toAppendLog.append (record key.bytes value.bytes) io with ⟨b, l⟩
          rw [happ] at hdone
          simp only at hdone
          rw [hdone]
        rw [hd]
        refine .fresh hp hk hio ⟨rs ++ [(key, value)], ?_, ?_⟩ hclean rfl
        · rw [log_concat]
          refine ⟨hholds.len_eq, ?_, hholds.cursor_eq⟩
          exact ⟨[], by rw [hholds.content_of_clean hclean, List.append_nil], .inl rfl⟩
        · rw [mapOf_concat_of_none hk', hmap]
      | false =>
        obtain ⟨herr, hholds, hcontent⟩ := hrs.append_error hp hio hfree
        rw [← record_eq] at herr hholds hcontent
        have hd : wal.decide key.bytes value.bytes io = (.failed,
            ⟨(wal.toAppendLog.append (record key.bytes value.bytes) io).2, wal.map⟩) := by
          simp only [Wal.decide, hp, hk, Bool.false_eq_true, if_false]
          rcases happ : wal.toAppendLog.append (record key.bytes value.bytes) io with ⟨b, l⟩
          rw [happ] at herr
          simp only at herr
          rw [herr]
        rw [hd]
        refine .failed hp hk hio ⟨rs, hholds, hmap⟩ rfl ?_
        rw [hcontent, hmap]
        cases htr : io.truncated with
        | true => simp [AppendIo.strands, htr, replay_encodeLog]
        | false =>
          simp only [Bool.false_eq_true, if_false, AppendIo.strands, hio, htr, Bool.not_false,
            Bool.true_and, beq_iff_eq]
          exact replay_prefix hk' (io.lands_prefix _)

/-- A crash inside `decide` keeps the decisions, and adds the new one just when its whole record
has landed. -/
theorem Wal.Sound.crashIn {wal : Wal} (h : wal.Sound) (key value : Field) (landed : ℕ) :
    (replay (wal.crashIn key.bytes value.bytes landed)).1 =
      if wal.poisoned = false ∧ wal.map.lookup key.bytes = none ∧
          (record key.bytes value.bytes).length ≤ landed then
        wal.map.insert key.bytes value.bytes
      else (replay wal.file.content).1 := by
  unfold Wal.crashIn
  cases hp : wal.poisoned with
  | true => simp
  | false =>
    cases hk : wal.map.lookup key.bytes with
    | some v => simp
    | none =>
      have hclean := h.replay_clean hp
      obtain ⟨rs, hrs, hmap⟩ := h
      have hk' : (mapOf ∅ rs).lookup key.bytes = none := by rw [← hmap]; exact hk
      have hcrash := hrs.crashIn hp (fields (key, value)) landed
      rw [← record_eq] at hcrash
      have hrep := replay_prefix hk' (List.take_prefix landed (record key.bytes value.bytes))
      simp only [Option.isSome_none, Bool.or_self, Bool.false_eq_true, if_false, hcrash, hrep,
        hclean, hmap, List.take_eq_self_iff, true_and]

/-! ## Events -/

def Store.Sound : Store → Prop
  | .down _ => True
  | .up wal => wal.Sound

/-- `t` knows every decision that `s` knows. -/
def Store.Keeps (s t : Store) : Prop :=
  ∀ key value, s.decisions.lookup key = some value → t.decisions.lookup key = some value

theorem openLog_sound (disk : Bytes) (io : AppendLog.OpenIo) (wal : Wal)
    (h : (openLog disk io).2 = some wal) :
    wal.Sound ∧ wal.poisoned = false ∧ wal.map = (replay disk).1 := by
  obtain ⟨rs, rfl, hmap⟩ := (openLog_spec disk io).2 wal h
  exact ⟨⟨rs, AppendLog.holds_open _, rfl⟩, rfl, hmap⟩

theorem step_reopen (disk : Bytes) (io : AppendLog.OpenIo) :
    (∃ wal, step (.down disk) (.reopen io) = (.up wal, none) ∧ wal.Sound ∧
        wal.poisoned = false ∧ wal.map = (replay disk).1) ∨
      ∃ disk', step (.down disk) (.reopen io) = (.down disk', none) ∧
        (replay disk').1 = (replay disk).1 := by
  have hspec := (openLog_spec disk io).1
  rcases hopen : openLog disk io with ⟨disk', none | wal⟩
  · exact .inr ⟨disk', by simp [step, hopen], by rwa [hopen] at hspec⟩
  · exact .inl ⟨wal, by simp [step, hopen], openLog_sound disk io wal (by rw [hopen])⟩

theorem step_sound (s : Store) (e : Event) (h : s.Sound) : (step s e).1.Sound := by
  rcases s with disk | wal <;> rcases e with ⟨key, value, io⟩ | _ | ⟨key, value, n⟩ | io
  case down.reopen =>
    rcases step_reopen disk io with ⟨wal, hs, hsound, -⟩ | ⟨disk', hs, -⟩ <;> rw [hs]
    · exact hsound
    · trivial
  case up.decide =>
    have hd := Wal.Sound.decide h key value io
    show (wal.decide key.bytes value.bytes io).2.Sound
    generalize (wal.decide key.bytes value.bytes io).1 = d,
      (wal.decide key.bytes value.bytes io).2 = wal' at hd ⊢
    cases hd with
    | poisoned => exact h
    | already => exact h
    | fresh _ _ _ hs => exact hs
    | failed _ _ _ hs => exact hs
  case up.reopen => exact h
  all_goals trivial

theorem step_keeps (s : Store) (e : Event) (h : s.Sound) : s.Keeps (step s e).1 := by
  intro k u hk
  rcases s with disk | wal <;> rcases e with ⟨key, value, io⟩ | _ | ⟨key, value, n⟩ | io
  case down.reopen =>
    rcases step_reopen disk io with ⟨wal, hs, -, -, hmap⟩ | ⟨disk', hs, hrep⟩ <;> rw [hs]
    · simpa [Store.decisions, hmap] using hk
    · simpa [Store.decisions, hrep] using hk
  case up.decide =>
    have hd := Wal.Sound.decide h key value io
    show (wal.decide key.bytes value.bytes io).2.map.lookup k = some u
    generalize (wal.decide key.bytes value.bytes io).1 = d,
      (wal.decide key.bytes value.bytes io).2 = wal' at hd ⊢
    cases hd with
    | poisoned => exact hk
    | already => exact hk
    | fresh _ hnone _ _ _ hm =>
      rw [hm, HashMap.lookup_insert_ite, if_neg]
      · exact hk
      · rintro rfl
        exact absurd hk (by simp [Store.decisions, hnone])
    | failed _ _ _ _ hm => rw [hm]; exact hk
  case up.crash => exact Wal.Sound.replay_of_some h hk
  case up.crashIn =>
    have hcrash := Wal.Sound.crashIn h key value n
    show (replay (wal.crashIn key.bytes value.bytes n)).1.lookup k = some u
    rw [hcrash]
    split_ifs with hc
    · rw [HashMap.lookup_insert_ite, if_neg]
      · exact hk
      · rintro rfl
        exact absurd hk (by simp [Store.decisions, hc.2.1])
    · exact Wal.Sound.replay_of_some h hk
  all_goals exact hk

/-- A fresh answer came from an open store that had not decided the key and now has. -/
theorem fresh_cases {s : Store} (h : s.Sound) {key value : Field} {io : AppendIo}
    (hf : (step s (.decide key value io)).2 = some .fresh) :
    s.decisions.lookup key.bytes = none ∧
      (step s (.decide key value io)).1.decisions.lookup key.bytes = some value.bytes := by
  rcases s with disk | wal
  · simp [step] at hf
  · have hd := Wal.Sound.decide h key value io
    have hf' : (wal.decide key.bytes value.bytes io).1 = .fresh := by simpa [step] using hf
    show wal.map.lookup key.bytes = none ∧
      (wal.decide key.bytes value.bytes io).2.map.lookup key.bytes = some value.bytes
    rw [hf'] at hd
    generalize (wal.decide key.bytes value.bytes io).2 = wal' at hd ⊢
    cases hd with
    | fresh _ hnone _ _ _ hm => exact ⟨hnone, by rw [hm, Finmap.lookup_insert]⟩

def freshValue (key : Bytes) : Event → Option Decision → List Bytes
  | .decide k v _, some .fresh => if k.bytes = key then [v.bytes] else []
  | _, _ => []

/-- The values with which a run was answered that `key` is freshly decided. -/
def freshValues (key : Bytes) : Store → List Event → List Bytes
  | _, [] => []
  | s, e :: es => freshValue key e (step s e).2 ++ freshValues key (step s e).1 es

theorem freshValues_append (key : Bytes) : ∀ (s : Store) (es fs : List Event),
    freshValues key s (es ++ fs) = freshValues key s es ++ freshValues key (exec step s es) fs
  | _, [], _ => rfl
  | s, e :: es, fs => by
    rw [List.cons_append, freshValues, freshValues_append key _ es fs, freshValues, exec_cons,
      List.append_assoc]

theorem freshValues_singleton (key : Bytes) (s : Store) (e : Event) :
    freshValues key s [e] = [] ∨ ∃ k v io, e = .decide k v io ∧ k.bytes = key ∧
      (step s e).2 = some .fresh ∧ freshValues key s [e] = [v.bytes] := by
  simp only [freshValues, List.append_nil]
  unfold freshValue
  split
  · rename_i k v io hf
    split_ifs with hk
    · exact .inr ⟨k, v, io, rfl, hk, hf, rfl⟩
    · exact .inl rfl
  · exact .inl rfl

theorem exec_sound (disk : Bytes) (es : List Event) : (exec step (.down disk) es).Sound :=
  exec_invariant step_sound _ es trivial

theorem exec_keeps {s : Store} (h : s.Sound) (es : List Event) : s.Keeps (exec step s es) :=
  exec_related (fun _ _ _ h => h) (fun _ _ _ hab hbc k v hk => hbc k v (hab k v hk))
    step_sound step_keeps s es h

/-- A run decides a key freshly at most once, and then knows the decision. -/
theorem freshValues_spec (disk key : Bytes) (es : List Event) :
    (freshValues key (.down disk) es).length ≤ 1 ∧
      ∀ v ∈ freshValues key (.down disk) es,
        (exec step (.down disk) es).decisions.lookup key = some v := by
  induction es using List.reverseRecOn with
  | nil => simp [freshValues]
  | append_singleton es e ih =>
    have hs := exec_sound disk es
    have hkeeps := step_keeps _ e hs
    rw [freshValues_append, exec_concat]
    rcases freshValues_singleton key (exec step (.down disk) es) e with
      hnone | ⟨k, v, io, rfl, rfl, hf, hone⟩
    · rw [hnone, List.append_nil]
      exact ⟨ih.1, fun v hv => hkeeps key v (ih.2 v hv)⟩
    · obtain ⟨hnew, hrec⟩ := fresh_cases hs hf
      have hnil : freshValues k.bytes (.down disk) es = [] := by
        rw [List.eq_nil_iff_forall_not_mem]
        intro v hv
        simp [ih.2 v hv] at hnew
      rw [hnil, hone, List.nil_append]
      refine ⟨by simp, fun w hw => ?_⟩
      rw [List.mem_singleton.1 hw, hrec]

/-- Attempts to reopen do not change what a closed store knows. -/
theorem exec_reopens : ∀ (disk : Bytes) (ios : List AppendLog.OpenIo),
    (exec step (.down disk) (ios.map .reopen)).decisions = (replay disk).1
  | _, [] => rfl
  | disk, io :: ios => by
    rw [List.map_cons, exec_cons]
    rcases step_reopen disk io with ⟨wal, hs, -, -, hmap⟩ | ⟨disk', hs, hrep⟩ <;> rw [hs]
    · have hup : ∀ ios : List AppendLog.OpenIo, exec step (.up wal) (ios.map .reopen) =
          .up wal := by
        intro ios
        induction ios with
        | nil => rfl
        | cons io ios ih => exact ih
      rw [hup]
      exact hmap
    · rw [exec_reopens disk' ios, hrep]

/-! ## Exactly once -/

/-- Over any run on any file: a key is decided freshly at most once; a fresh decision is known
with its value in every later state; and a store that is not poisoned reopens to the map it had,
or, if the process died inside `decide`, to that map or that map with the new decision. -/
theorem decide_exactly_once (disk : Bytes) (es : List Event) :
    (∀ key, (freshValues key (.down disk) es).length ≤ 1) ∧
      (∀ key, ∀ v ∈ freshValues key (.down disk) es, ∀ es',
        (exec step (.down disk) (es ++ es')).decisions.lookup key = some v) ∧
      ∀ wal, exec step (.down disk) es = .up wal → wal.poisoned = false →
        (∀ (ios : List AppendLog.OpenIo) wal',
          exec step (.up wal) (.crash :: ios.map .reopen) = .up wal' → wal'.map = wal.map) ∧
        ∀ key value n (ios : List AppendLog.OpenIo) wal',
          exec step (.up wal) (.crashIn key value n :: ios.map .reopen) = .up wal' →
          wal'.map = wal.map ∨ wal.map.lookup key.bytes = none ∧
            wal'.map = wal.map.insert key.bytes value.bytes := by
  refine ⟨fun key => (freshValues_spec disk key es).1, fun key v hv es' => ?_, ?_⟩
  · rw [exec_append]
    exact exec_keeps (exec_sound disk es) es' key v ((freshValues_spec disk key es).2 v hv)
  · intro wal hwal hp
    have hs : wal.Sound := by
      have := exec_sound disk es
      rwa [hwal] at this
    refine ⟨fun ios wal' h => ?_, fun key value n ios wal' h => ?_⟩
    · have hdec := exec_reopens wal.file.content ios
      rw [exec_cons, step] at h
      rw [h] at hdec
      exact hdec.trans (hs.replay_clean hp)
    · have hdec := exec_reopens (wal.crashIn key.bytes value.bytes n) ios
      rw [exec_cons, step] at h
      rw [h, hs.crashIn key value n, hs.replay_clean hp] at hdec
      split_ifs at hdec with hc
      · exact .inr ⟨hc.2.1, hdec⟩
      · exact .inl hdec

/-- A process that dies inside `decide` after the whole record has landed: the map in memory
did not know the key, the replayed one does. -/
theorem crashIn_replays_more :
    (exec step (.down []) [.reopen .good]).decisions.lookup [107] = none ∧
      (exec step (.down []) [.reopen .good,
        .crashIn ⟨[107], by decide⟩ ⟨[118], by decide⟩ 10,
        .reopen .good]).decisions.lookup [107] = some [118] := by
  decide

end OneDecision

end Paytp
