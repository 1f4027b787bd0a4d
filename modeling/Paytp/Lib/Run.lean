import Mathlib.Data.List.Basic

/-!
# Runs of a state machine

A machine is its step: from a state and an event, the next state and what is answered. `exec`
is the state after a list of events. An invariant of the steps is one of the runs, and so is
one that only the steps meeting a condition keep, along the runs all of whose steps meet it.
-/

namespace Paytp

universe u v w

variable {σ : Type u} {ε : Type v} {ο : Type w} (step : σ → ε → σ × ο)

/-- The state after the events `es`. -/
def exec : σ → List ε → σ
  | s, [] => s
  | s, e :: es => exec (step s e).1 es

/-- The answers to the events `es`, in order. -/
def answers : σ → List ε → List ο
  | _, [] => []
  | s, e :: es => (step s e).2 :: answers (step s e).1 es

/-- Every event of the run meets `ok` in the state it finds. -/
def Along (ok : σ → ε → Prop) : σ → List ε → Prop
  | _, [] => True
  | s, e :: es => ok s e ∧ Along ok (step s e).1 es

/-- What `mark` finds at the steps of a run, in order. -/
def marks {α : Type*} (mark : σ → ε → Option α) : σ → List ε → List α
  | _, [] => []
  | s, e :: es => (mark s e).toList ++ marks mark (step s e).1 es

variable {step} {ok : σ → ε → Prop}

instance Along.decidable [h : ∀ s e, Decidable (ok s e)] :
    ∀ (s : σ) (es : List ε), Decidable (Along step ok s es)
  | _, [] => .isTrue trivial
  | s, e :: es => @instDecidableAnd _ _ (h s e) (Along.decidable (step s e).1 es)

@[simp] theorem exec_nil (s : σ) : exec step s [] = s := rfl

@[simp] theorem exec_cons (s : σ) (e : ε) (es : List ε) :
    exec step s (e :: es) = exec step (step s e).1 es := rfl

theorem exec_append : ∀ (s : σ) (es fs : List ε),
    exec step s (es ++ fs) = exec step (exec step s es) fs
  | _, [], _ => rfl
  | s, e :: es, fs => exec_append (step s e).1 es fs

theorem exec_concat (s : σ) (es : List ε) (e : ε) :
    exec step s (es ++ [e]) = (step (exec step s es) e).1 := exec_append s es [e]

/-- What two conditions on the steps say together, they say together along a run. -/
theorem Along.and {ok' : σ → ε → Prop} : ∀ {s : σ} {es : List ε}, Along step ok s es →
    Along step ok' s es → Along step (fun s e => ok s e ∧ ok' s e) s es
  | _, [], _, _ => trivial
  | _, _ :: _, h, h' => ⟨⟨h.1, h'.1⟩, h.2.and h'.2⟩

theorem Along.mono {ok' : σ → ε → Prop} (himp : ∀ s e, ok s e → ok' s e) :
    ∀ {s : σ} {es : List ε}, Along step ok s es → Along step ok' s es
  | _, [], _ => trivial
  | s, e :: _, h => ⟨himp s e h.1, Along.mono himp h.2⟩

/-- What every step keeps is found by every step of a run. -/
theorem along_of_invariant {P : σ → Prop} (hstep : ∀ s e, P s → P (step s e).1) :
    ∀ (s : σ) (es : List ε), P s → Along step (fun s _ => P s) s es
  | _, [], _ => trivial
  | s, e :: es, h => ⟨h, along_of_invariant hstep (step s e).1 es (hstep s e h)⟩

/-- What every step keeps, every run keeps. -/
theorem exec_invariant {P : σ → Prop} (hstep : ∀ s e, P s → P (step s e).1) :
    ∀ (s : σ) (es : List ε), P s → P (exec step s es)
  | _, [], h => h
  | s, e :: es, h => exec_invariant hstep (step s e).1 es (hstep s e h)

/-- A relation every step keeps to an earlier state holds between the ends of a run. -/
theorem exec_related {P : σ → Prop} {R : σ → σ → Prop} (hrefl : ∀ s, R s s)
    (htrans : ∀ a b c, R a b → R b c → R a c) (hP : ∀ s e, P s → P (step s e).1)
    (hR : ∀ s e, P s → R s (step s e).1) :
    ∀ (s : σ) (es : List ε), P s → R s (exec step s es)
  | s, [], _ => hrefl s
  | s, e :: es, h =>
    htrans s _ _ (hR s e h) (exec_related hrefl htrans hP hR (step s e).1 es (hP s e h))

/-- Where the invariant `I` is kept and a step keeps `A` exactly if it meets `ok`, a run keeps `A`
at every step exactly if all its steps meet `ok`. -/
theorem along_after_iff {I A : σ → Prop} {free : σ → ε → Prop} (hI : ∀ s e, I s → I (step s e).1)
    (hstep : ∀ s e, I s → A s → free s e → (A (step s e).1 ↔ ok s e)) :
    ∀ (s : σ) (es : List ε), I s → A s → Along step free s es →
      (Along step (fun s e => A (step s e).1) s es ↔ Along step ok s es)
  | _, [], _, _, _ => Iff.rfl
  | s, e :: es, hs, ha, hfree => by
    have hiff := hstep s e hs ha hfree.1
    constructor
    · rintro ⟨hnext, hrest⟩
      exact ⟨hiff.1 hnext, (along_after_iff hI hstep _ es (hI s e hs) hnext hfree.2).1 hrest⟩
    · rintro ⟨hok, hrest⟩
      have hnext := hiff.2 hok
      exact ⟨hnext, (along_after_iff hI hstep _ es (hI s e hs) hnext hfree.2).2 hrest⟩

/-- Where every step that meets `ok` keeps `I`, and under `I` a step does `A` exactly if it meets
`ok`, a run does `A` throughout exactly if all its steps meet `ok`. -/
theorem along_iff {I : σ → Prop} {A free : σ → ε → Prop}
    (hkeep : ∀ s e, I s → free s e → ok s e → I (step s e).1)
    (hstep : ∀ s e, I s → free s e → (A s e ↔ ok s e)) :
    ∀ (s : σ) (es : List ε), I s → Along step free s es →
      (Along step A s es ↔ Along step ok s es)
  | _, [], _, _ => Iff.rfl
  | s, e :: es, hs, hfree => by
    constructor
    · rintro ⟨hnow, hrest⟩
      have hok := (hstep s e hs hfree.1).1 hnow
      exact ⟨hok, (along_iff hkeep hstep _ es (hkeep s e hs hfree.1 hok) hfree.2).1 hrest⟩
    · rintro ⟨hok, hrest⟩
      exact ⟨(hstep s e hs hfree.1).2 hok,
        (along_iff hkeep hstep _ es (hkeep s e hs hfree.1 hok) hfree.2).2 hrest⟩

/-- What every step marks or leaves alone is what the run marked last, if anything. -/
theorem exec_last_mark {α : Type*} {mark : σ → ε → Option α} {f : σ → α}
    (hstep : ∀ s e, f (step s e).1 = (mark s e).getD (f s)) :
    ∀ (s : σ) (es : List ε), f (exec step s es) = (marks step mark s es).getLast?.getD (f s)
  | _, [] => rfl
  | s, e :: es => by
    rw [exec_cons, exec_last_mark hstep, hstep, marks, List.getLast?_append]
    cases mark s e <;> cases (marks step mark (step s e).1 es).getLast? <;> rfl

section marks
variable {α β : Type*} {mark : σ → ε → Option α} {mark' : σ → ε → Option β} {P Q : σ → Prop}

/-- Where `P` holds and the steps keep it, nothing is marked that `P` rules out. -/
theorem marks_eq_nil (hkeep : ∀ s e, ok s e → P s → P (step s e).1)
    (hnone : ∀ s e, ok s e → P s → mark s e = none) :
    ∀ (s : σ) (es : List ε), Along step ok s es → P s → marks step mark s es = []
  | _, [], _, _ => rfl
  | s, e :: es, hok, hP => by
    rw [marks, hnone s e hok.1 hP, marks_eq_nil hkeep hnone _ es hok.2 (hkeep s e hok.1 hP)]
    rfl

/-- What a mark brings about for good and what rules out another mark happens once. -/
theorem marks_length_le_one (hset : ∀ s e, ok s e → (mark s e).isSome → P (step s e).1)
    (hkeep : ∀ s e, ok s e → P s → P (step s e).1) (hnone : ∀ s e, ok s e → P s → mark s e = none) :
    ∀ (s : σ) (es : List ε), Along step ok s es → (marks step mark s es).length ≤ 1
  | _, [], _ => Nat.zero_le 1
  | s, e :: es, hok => by
    rw [marks]
    cases hm : mark s e with
    | none => exact marks_length_le_one hset hkeep hnone _ es hok.2
    | some a =>
      have hP : P (step s e).1 := hset s e hok.1 (by rw [hm, Option.isSome_some])
      rw [marks_eq_nil hkeep hnone _ es hok.2 hP]
      exact Nat.le_refl 1

/-- Two marks of which each rules out the other for good do not both happen. -/
theorem marks_exclusive (hset : ∀ s e, ok s e → (mark s e).isSome → P (step s e).1)
    (hset' : ∀ s e, ok s e → (mark' s e).isSome → Q (step s e).1)
    (hkeep : ∀ s e, ok s e → P s → P (step s e).1)
    (hkeep' : ∀ s e, ok s e → Q s → Q (step s e).1)
    (hnone : ∀ s e, ok s e → Q s → mark s e = none)
    (hnone' : ∀ s e, ok s e → P s → mark' s e = none)
    (hone : ∀ s e, mark s e = none ∨ mark' s e = none) :
    ∀ (s : σ) (es : List ε), Along step ok s es →
      marks step mark s es = [] ∨ marks step mark' s es = []
  | _, [], _ => Or.inl rfl
  | s, e :: es, hok => by
    simp only [marks]
    cases hm : mark s e with
    | some a =>
      have hP := hset s e hok.1 (by rw [hm, Option.isSome_some])
      have hm' : mark' s e = none := (hone s e).resolve_left (by rw [hm]; exact nofun)
      right
      rw [hm', marks_eq_nil hkeep hnone' _ es hok.2 hP]
      rfl
    | none =>
      cases hm' : mark' s e with
      | some b =>
        have hQ := hset' s e hok.1 (by rw [hm', Option.isSome_some])
        left
        rw [marks_eq_nil hkeep' hnone _ es hok.2 hQ]
        rfl
      | none => exact marks_exclusive hset hset' hkeep hkeep' hnone hnone' hone _ es hok.2

/-- What two marks find along a run stays related to the state, if every step keeps it so. -/
theorem marks_related {A : σ → List α → List β → Prop}
    (hstep : ∀ s e as bs, ok s e → A s as bs →
      A (step s e).1 (as ++ (mark s e).toList) (bs ++ (mark' s e).toList)) :
    ∀ (s : σ) (es : List ε) (as : List α) (bs : List β), Along step ok s es → A s as bs →
      A (exec step s es) (as ++ marks step mark s es) (bs ++ marks step mark' s es)
  | _, [], as, bs, _, h => by
    rw [marks, marks, List.append_nil, List.append_nil]
    exact h
  | s, e :: es, as, bs, hok, h => by
    have hrest := marks_related hstep _ es _ _ hok.2 (hstep s e as bs hok.1 h)
    rw [marks, marks, ← List.append_assoc, ← List.append_assoc]
    exact hrest

end marks

end Paytp
