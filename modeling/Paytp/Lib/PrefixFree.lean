import Mathlib.Data.List.Basic

/-!
# Prefix-free codes

No word of a prefix-free code begins another one, so what stands behind a word does not change what
the word is. Words of one width, words behind their lengths and words one behind the other are
prefix-free, and a row of such words tells its items. A label that a delimiter ends is told apart
from every label that is free of it, whatever follows.
-/

namespace Paytp

variable {α γ δ β : Type}

/-- What begins with the word of an item begins with no other item's. -/
def PrefixFree (dom : α → Prop) (enc : α → List β) : Prop :=
  ∀ ⦃a a' : α⦄ ⦃rest rest' : List β⦄, dom a → dom a' → enc a ++ rest = enc a' ++ rest' →
    a = a' ∧ rest = rest'

namespace PrefixFree

variable {dom : α → Prop} {enc : α → List β}

/-- Words of one width. -/
theorem of_length {n : ℕ} (hlen : ∀ a, dom a → (enc a).length = n)
    (hinj : ∀ a a', dom a → dom a' → enc a = enc a' → a = a') : PrefixFree dom enc := by
  intro a a' rest rest' ha ha' h
  obtain ⟨henc, hrest⟩ := List.append_inj h (by rw [hlen a ha, hlen a' ha'])
  exact ⟨hinj a a' ha ha' henc, hrest⟩

theorem inj (h : PrefixFree dom enc) {a a' : α} (ha : dom a) (ha' : dom a')
    (heq : enc a = enc a') : a = a' := (h ha ha' (congrArg (· ++ []) heq)).1

/-- A payload behind its length. -/
theorem lengthPrefixed {dom : ℕ → Prop} {enc : ℕ → List β} (h : PrefixFree dom enc) :
    PrefixFree (fun v : List β => dom v.length) (fun v => enc v.length ++ v) := by
  intro v v' rest rest' hv hv' heq
  simp only [List.append_assoc] at heq
  obtain ⟨hlen, hmore⟩ := h hv hv' heq
  exact List.append_inj hmore hlen

/-- A row of words tells its items. -/
theorem flatMap_inj (h : PrefixFree dom enc) (hne : ∀ a, dom a → enc a ≠ []) :
    ∀ {items items' : List α}, (∀ a ∈ items, dom a) → (∀ a ∈ items', dom a) →
      items.flatMap enc = items'.flatMap enc → items = items'
  | [], [], _, _, _ => rfl
  | [], a' :: items', _, hdom', heq => by
    rw [List.flatMap_nil, List.flatMap_cons, eq_comm, List.append_eq_nil_iff] at heq
    exact absurd heq.1 (hne a' (hdom' a' List.mem_cons_self))
  | a :: items, [], hdom, _, heq => by
    rw [List.flatMap_nil, List.flatMap_cons, List.append_eq_nil_iff] at heq
    exact absurd heq.1 (hne a (hdom a List.mem_cons_self))
  | a :: items, a' :: items', hdom, hdom', heq => by
    rw [List.flatMap_cons, List.flatMap_cons] at heq
    obtain ⟨ha, hitems⟩ := List.forall_mem_cons.1 hdom
    obtain ⟨ha', hitems'⟩ := List.forall_mem_cons.1 hdom'
    obtain ⟨rfl, hmore⟩ := h ha ha' heq
    rw [flatMap_inj h hne hitems hitems' hmore]

end PrefixFree

/-! ## Delimited labels -/

/-- A delimiter that no label holds ends the label. -/
theorem delimited_inj {label label' rest rest' : List β} {delimiter : β}
    (hlabel : delimiter ∉ label) (hlabel' : delimiter ∉ label')
    (h : label ++ delimiter :: rest = label' ++ delimiter :: rest') :
    label = label' ∧ rest = rest' := by
  induction label generalizing label' with
  | nil =>
    rcases label' with _ | ⟨b, label'⟩
    · exact ⟨rfl, (List.cons.inj h).2⟩
    · exact absurd (List.cons.inj h).1 (fun hb => hlabel' (hb ▸ List.mem_cons_self))
  | cons b label ih =>
    rcases label' with _ | ⟨b', label'⟩
    · exact absurd (List.cons.inj h).1 (fun hb => hlabel (hb ▸ List.mem_cons_self))
    · obtain ⟨rfl, hmore⟩ := List.cons.inj h
      obtain ⟨rfl, hrest⟩ := ih (fun hm => hlabel (List.mem_cons_of_mem b hm))
        (fun hm => hlabel' (List.mem_cons_of_mem b hm)) hmore
      exact ⟨rfl, hrest⟩

end Paytp
