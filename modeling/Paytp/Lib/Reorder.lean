import Paytp.Lib.Run

/-!
# Runs in another order

Where the effect of a step on a view of the state is a step of the view, and some events commute
on the view, a run shows the same view however these events are exchanged with one another.
-/

namespace Paytp

universe u v w x

variable {σ : Type u} {ε : Type v} {ο : Type w} {τ : Type x} {step : σ → ε → σ × ο}

/-- Two lists of events that differ in the order of neighbours that are free. -/
inductive Reordered (free : ε → Prop) : List ε → List ε → Prop
  | refl (es : List ε) : Reordered free es es
  | swap {e e' : ε} (he : free e) (he' : free e') (es fs : List ε) :
    Reordered free (es ++ e :: e' :: fs) (es ++ e' :: e :: fs)
  | trans {es fs gs : List ε} (h : Reordered free es fs) (h' : Reordered free fs gs) :
    Reordered free es gs

/-- The view after a run is the run of the view. -/
theorem exec_view {I : σ → Prop} {view : σ → τ} {viewStep : τ → ε → τ}
    (hI : ∀ s e, I s → I (step s e).1)
    (hview : ∀ s e, I s → view (step s e).1 = viewStep (view s) e) :
    ∀ (s : σ) (es : List ε), I s → view (exec step s es) = es.foldl viewStep (view s)
  | _, [], _ => rfl
  | s, e :: es, h => by
    rw [exec_cons, exec_view hI hview _ es (hI s e h), hview s e h, List.foldl_cons]

theorem exec_reordered {I : σ → Prop} {view : σ → τ} {viewStep : τ → ε → τ} {free : ε → Prop}
    (hI : ∀ s e, I s → I (step s e).1)
    (hview : ∀ s e, I s → view (step s e).1 = viewStep (view s) e)
    (hcomm : ∀ s e e', I s → free e → free e' →
      viewStep (viewStep (view s) e) e' = viewStep (viewStep (view s) e') e)
    {es fs : List ε} (h : Reordered free es fs) {s : σ} (hs : I s) :
    view (exec step s es) = view (exec step s fs) := by
  induction h with
  | refl es => rfl
  | @swap e e' he he' es fs =>
    have hmid : I (exec step s es) := exec_invariant hI s es hs
    have hnext := hI _ e hmid
    have hnext' := hI _ e' hmid
    rw [exec_append, exec_append]
    simp only [exec_cons]
    rw [exec_view hI hview _ fs (hI _ e' hnext), exec_view hI hview _ fs (hI _ e hnext'),
      hview _ e' hnext, hview _ e hnext', hview _ e hmid, hview _ e' hmid,
      hcomm _ e e' hmid he he']
  | trans h h' ih ih' => exact ih.trans ih'

end Paytp
