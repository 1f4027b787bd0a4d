import Mathlib.Data.Finset.Card
import Mathlib.Logic.Relation

/-!
# Following links

A partial function links each element of its domain to the next. Where no element leads back to
itself, the end of the links from an element of a finite domain is found in as many steps as the
domain has elements. A new link keeps that, unless its target leads to its source.
-/

namespace Paytp

namespace Links

variable {α : Type*} (next : α → Option α)

/-- `a` is linked to `b`. -/
def Link (a b : α) : Prop := next a = some b

/-- Follow at most so many links. -/
def follow : ℕ → α → α
  | 0, a => a
  | fuel + 1, a =>
    match next a with
    | some b => follow fuel b
    | none => a

variable {next}

theorem follow_reaches : ∀ (fuel : ℕ) (a : α),
    Relation.ReflTransGen (Link next) a (follow next fuel a)
  | 0, a => .refl
  | fuel + 1, a => by
    rw [follow]
    split
    · rename_i b hb
      exact .head hb (follow_reaches fuel b)
    · exact .refl

/-- No element leads back to itself. -/
def Acyclic (next : α → Option α) : Prop := ∀ a, ¬Relation.TransGen (Link next) a a

theorem acyclic_of_none (h : ∀ a, next a = none) : Acyclic next := by
  intro a ha
  obtain ⟨b, hb, -⟩ := Relation.TransGen.head'_iff.1 ha
  rw [Link, h] at hb
  cases hb

/-- A path over old links and a new one is old, or goes over the new one. -/
theorem path_of_link {next' : α → Option α} {a b x y : α}
    (hnew : ∀ x y, next' x = some y → next x = some y ∨ x = a ∧ y = b)
    (h : Relation.TransGen (Link next') x y) :
    Relation.TransGen (Link next) x y ∨
      Relation.ReflTransGen (Link next) x a ∧ Relation.ReflTransGen (Link next) b y ∨
      Relation.ReflTransGen (Link next) b a := by
  induction h with
  | single hxy =>
    rcases hnew _ _ hxy with hold | ⟨rfl, rfl⟩
    · exact .inl (.single hold)
    · exact .inr (.inl ⟨.refl, .refl⟩)
  | tail _ hyz ih =>
    rcases hnew _ _ hyz with hold | ⟨rfl, rfl⟩
    · rcases ih with hxy | ⟨hxa, hby⟩ | hba
      · exact .inl (hxy.tail hold)
      · exact .inr (.inl ⟨hxa, hby.tail hold⟩)
      · exact .inr (.inr hba)
    · rcases ih with hxy | ⟨-, hby⟩ | hba
      · exact .inr (.inl ⟨hxy.to_reflTransGen, .refl⟩)
      · exact .inr (.inr hby)
      · exact .inr (.inr hba)

/-- A link whose target does not lead to its source closes no cycle. -/
theorem Acyclic.link (h : Acyclic next) {next' : α → Option α} {a b : α}
    (hnew : ∀ x y, next' x = some y → next x = some y ∨ x = a ∧ y = b)
    (hback : ¬Relation.ReflTransGen (Link next) b a) : Acyclic next' := by
  intro x hx
  rcases path_of_link hnew hx with hold | ⟨hxa, hbx⟩ | hba
  · exact h x hold
  · exact hback (hbx.trans hxa)
  · exact hback hba

/-- Fewer links close no cycle. -/
theorem Acyclic.mono (h : Acyclic next) {next' : α → Option α}
    (hsub : ∀ a b, next' a = some b → next a = some b) : Acyclic next' :=
  fun a ha => h a (Relation.TransGen.mono hsub a a ha)

/-- Where there is no cycle, the elements that lead to another are fewer than those that lead on
from it. -/
theorem Acyclic.exists_rank (h : Acyclic next) {dom : Finset α}
    (hdom : ∀ a, (next a).isSome → a ∈ dom) :
    ∃ rank : α → ℕ, ∀ a b, next a = some b → rank a < rank b := by
  classical
  refine ⟨fun a => (dom.filter fun x => Relation.TransGen (Link next) x a).card, fun a b hab => ?_⟩
  refine Finset.card_lt_card ((Finset.ssubset_iff_of_subset fun x hx => ?_).2 ⟨a, ?_, fun ha => ?_⟩)
  · obtain ⟨hx, hxa⟩ := Finset.mem_filter.1 hx
    exact Finset.mem_filter.2 ⟨hx, hxa.tail hab⟩
  · exact Finset.mem_filter.2 ⟨hdom a (by rw [hab]; rfl), .single hab⟩
  · exact h a (Finset.mem_filter.1 ha).2

section rank
variable {rank : α → ℕ} (hrank : ∀ a b, next a = some b → rank a < rank b)
include hrank

/-- With as much fuel as there are linked elements ranked no lower, the links are followed to
their end. -/
theorem follow_end {dom : Finset α} (hdom : ∀ a, (next a).isSome → a ∈ dom) :
    ∀ (fuel : ℕ) (a : α), (dom.filter fun x => rank a ≤ rank x).card ≤ fuel →
      next (follow next fuel a) = none
  | 0, a, hfuel => by
    rw [follow, ← Option.not_isSome_iff_eq_none]
    intro ha
    have hmem : a ∈ dom.filter fun x => rank a ≤ rank x :=
      Finset.mem_filter.2 ⟨hdom a ha, le_refl _⟩
    exact absurd (Finset.card_pos.2 ⟨a, hmem⟩) (by omega)
  | fuel + 1, a, hfuel => by
    rw [follow]
    split
    · rename_i b hb
      refine follow_end hdom fuel b ?_
      have hlt : rank a < rank b := hrank a b hb
      have hsub : (dom.filter fun x => rank b ≤ rank x) ⊂ dom.filter fun x => rank a ≤ rank x := by
        rw [Finset.ssubset_iff_of_subset]
        · refine ⟨a, Finset.mem_filter.2 ⟨hdom a (by rw [hb]; rfl), le_refl _⟩, fun hmem => ?_⟩
          exact absurd (Finset.mem_filter.1 hmem).2 (by omega)
        · intro x hx
          obtain ⟨hx, hle⟩ := Finset.mem_filter.1 hx
          exact Finset.mem_filter.2 ⟨hx, by omega⟩
      have hcard := Finset.card_lt_card hsub
      omega
    · assumption

end rank

theorem Acyclic.follow_card (h : Acyclic next) {dom : Finset α}
    (hdom : ∀ a, (next a).isSome → a ∈ dom) {fuel : ℕ} (hfuel : dom.card ≤ fuel) (a : α) :
    next (follow next fuel a) = none := by
  obtain ⟨rank, hrank⟩ := h.exists_rank hdom
  exact follow_end hrank hdom fuel a ((Finset.card_filter_le _ _).trans hfuel)

/-- The links from an element have one end. -/
theorem end_unique {a b c : α} (hb : Relation.ReflTransGen (Link next) a b) (hnb : next b = none)
    (hc : Relation.ReflTransGen (Link next) a c) (hnc : next c = none) : b = c := by
  have hstuck : ∀ {x y}, next x = none → Relation.ReflTransGen (Link next) x y → x = y := by
    intro x y hx hxy
    rcases hxy.cases_head with rfl | ⟨z, hz, -⟩
    · rfl
    · rw [Link, hx] at hz
      cases hz
  have hdet : ∀ x y z, Link next x y → Link next x z → y = z := by
    intro x y z hy hz
    exact Option.some_inj.1 (hy.symm.trans hz)
  induction hb using Relation.ReflTransGen.head_induction_on with
  | refl => exact hstuck hnb hc
  | @head x y hxy _ ih =>
    rcases hc.cases_head with rfl | ⟨z, hz, hzc⟩
    · rw [Link, hnc] at hxy
      cases hxy
    · rw [hdet x z y hz hxy] at hzc
      exact ih hzc

end Links

end Paytp
