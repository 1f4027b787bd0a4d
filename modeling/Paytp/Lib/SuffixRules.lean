import Mathlib.Data.List.Infix
import Mathlib.Data.Set.Basic
import Mathlib.Order.Lattice.Nat

/-!
# Rules about the last labels of a name

Rules say which names belong to no single owner: the names that end as a rule does. Of the rules
that match a name the exceptions come first, then the one of the most labels, and a name that no
rule matches belongs to its last label. What prevails says where the public suffix of a name
begins, and with one label more a name has its domain.

The domain of a name is its own domain, since what prevails over the name prevails over its domain.
So a name that is all public suffix is the domain of no other.
-/

namespace Paytp

variable {α : Type}

/-- A rule by the labels it ends in; a wildcard stands for one more label in front. -/
inductive SuffixRule (α : Type)
  | normal (labels : List α)
  | wildcard (labels : List α)
  | exception (labels : List α)

namespace SuffixRule

/-- The labels that a rule matches. -/
def size : SuffixRule α → ℕ
  | normal labels | exception labels => labels.length
  | wildcard labels => labels.length + 1

def Matches (name : List α) : SuffixRule α → Prop
  | normal labels | exception labels => labels <:+ name
  | wildcard labels => ∃ label, label :: labels <:+ name

/-- The labels of the public suffix where the rule prevails: an exception loses its first. -/
def suffixLength : SuffixRule α → ℕ
  | normal labels => labels.length
  | wildcard labels => labels.length + 1
  | exception labels => labels.length - 1

/-- The rule that prevails over a name. -/
inductive Prevails (rules : Set (SuffixRule α)) (name : List α) : SuffixRule α → Prop
  | exception {labels : List α} (mem : .exception labels ∈ rules)
      (matches_ : Matches name (.exception labels))
      (longest : ∀ more, .exception more ∈ rules → Matches name (.exception more) →
        more.length ≤ labels.length) : Prevails rules name (.exception labels)
  | longest {rule : SuffixRule α}
      (none : ∀ labels, .exception labels ∈ rules → ¬Matches name (.exception labels))
      (mem : rule ∈ rules) (matches_ : rule.Matches name)
      (longest : ∀ r ∈ rules, r.Matches name → r.size ≤ rule.size) : Prevails rules name rule
  | implicit (none : ∀ r ∈ rules, ¬r.Matches name) : Prevails rules name (.wildcard [])

theorem Matches.size_le {name : List α} {r : SuffixRule α} (h : r.Matches name) :
    r.size ≤ name.length := by
  cases r with
  | normal labels => exact List.IsSuffix.length_le h
  | wildcard labels =>
    obtain ⟨label, h⟩ := h
    exact h.length_le
  | exception labels => exact List.IsSuffix.length_le h

/-- A rule matches what ends in a name it matches. -/
theorem Matches.mono {name name' : List α} {r : SuffixRule α} (h : r.Matches name')
    (hsuffix : name' <:+ name) : r.Matches name := by
  cases r with
  | normal labels => exact List.IsSuffix.trans h hsuffix
  | wildcard labels =>
    obtain ⟨label, h⟩ := h
    exact ⟨label, h.trans hsuffix⟩
  | exception labels => exact List.IsSuffix.trans h hsuffix

/-- A rule that matches a name matches as much of its end as it speaks of. -/
theorem Matches.shorten {name name' : List α} {r : SuffixRule α} (h : r.Matches name)
    (hsuffix : name' <:+ name) (hlen : r.size ≤ name'.length) : r.Matches name' := by
  cases r with
  | normal labels => exact List.suffix_of_suffix_length_le h hsuffix hlen
  | wildcard labels =>
    obtain ⟨label, h⟩ := h
    exact ⟨label, List.suffix_of_suffix_length_le h hsuffix hlen⟩
  | exception labels => exact List.suffix_of_suffix_length_le h hsuffix hlen

end SuffixRule

open SuffixRule

/-- A name is all public suffix. -/
def PublicSuffix (rules : Set (SuffixRule α)) (name : List α) : Prop :=
  ∃ r, Prevails rules name r ∧ name.length ≤ r.suffixLength

/-- The domain of a name: the whole name where it is all public suffix or where its last label is
none that names are registered under, or else the public suffix and one label more. -/
inductive Domain (rules : Set (SuffixRule α)) (registers : List α → Prop) (name : List α) :
    List α → Prop
  | whole (h : ¬registers name ∨ PublicSuffix rules name) : Domain rules registers name name
  | suffix {r : SuffixRule α} {domain : List α} (registered : registers name)
      (prevails : Prevails rules name r) (suffix : domain <:+ name)
      (length : domain.length = r.suffixLength + 1) : Domain rules registers name domain

section
variable {rules : Set (SuffixRule α)} {name : List α}

/-- Of what matches a name, something matches the most of it. -/
theorem SuffixRule.exists_longest {p : SuffixRule α → Prop} {r : SuffixRule α} (hr : p r)
    (hmatch : r.Matches name) :
    ∃ r, p r ∧ r.Matches name ∧ ∀ r', p r' → r'.Matches name → r'.size ≤ r.size := by
  let sizes : Set ℕ := {n | ∃ r, p r ∧ r.Matches name ∧ r.size = n}
  have hbound : BddAbove sizes := by
    refine ⟨name.length, ?_⟩
    rintro n ⟨r, -, hmatch, rfl⟩
    exact hmatch.size_le
  obtain ⟨best, hbest, hmatch', hsize⟩ := Nat.sSup_mem (s := sizes) ⟨_, r, hr, hmatch, rfl⟩ hbound
  exact ⟨best, hbest, hmatch', fun r' hr' hmatch' =>
    hsize ▸ le_csSup hbound ⟨r', hr', hmatch', rfl⟩⟩

/-- Some rule prevails over every name. -/
theorem SuffixRule.exists_prevails (rules : Set (SuffixRule α)) (name : List α) :
    ∃ r, Prevails rules name r := by
  by_cases hexc : ∃ labels, .exception labels ∈ rules ∧ Matches name (.exception labels)
  · obtain ⟨labels, hmem, hmatch⟩ := hexc
    obtain ⟨best, ⟨labels, rfl, hmem⟩, hmatch, hlongest⟩ := exists_longest
      (p := fun r => ∃ labels, r = .exception labels ∧ r ∈ rules) ⟨labels, rfl, hmem⟩ hmatch
    exact ⟨_, .exception hmem hmatch fun more hmore => hlongest _ ⟨more, rfl, hmore⟩⟩
  · have hnone : ∀ labels, .exception labels ∈ rules → ¬Matches name (.exception labels) :=
      fun labels hmem hmatch => hexc ⟨labels, hmem, hmatch⟩
    by_cases hany : ∃ r ∈ rules, r.Matches name
    · obtain ⟨r, hmem, hmatch⟩ := hany
      obtain ⟨best, hbest, hmatch, hlongest⟩ := exists_longest (p := (· ∈ rules)) hmem hmatch
      exact ⟨best, .longest hnone hbest hmatch hlongest⟩
    · exact ⟨_, .implicit fun r hmem hmatch => hany ⟨r, hmem, hmatch⟩⟩

/-- Rules that prevail over one name leave the same public suffix. -/
theorem SuffixRule.Prevails.suffixLength_eq {r r' : SuffixRule α} (h : Prevails rules name r)
    (h' : Prevails rules name r') : r.suffixLength = r'.suffixLength := by
  have hplain : ∀ {r : SuffixRule α}, (∀ labels, .exception labels ∈ rules →
      ¬Matches name (.exception labels)) → r ∈ rules → r.Matches name →
      r.suffixLength = r.size := by
    intro r hnone hmem hmatch
    cases r with
    | normal => rfl
    | wildcard => rfl
    | exception labels => exact absurd hmatch (hnone labels hmem)
  cases h with
  | exception mem matches_ longest =>
    cases h' with
    | exception mem' matches_' longest' =>
      have hle := longest _ mem' matches_'
      have hge := longest' _ mem matches_
      simp only [suffixLength]
      omega
    | longest none' => exact absurd matches_ (none' _ mem)
    | implicit none' => exact absurd matches_ (none' _ mem)
  | longest none mem matches_ longest =>
    cases h' with
    | exception mem' matches_' => exact absurd matches_' (none _ mem')
    | longest none' mem' matches_' longest' =>
      rw [hplain none mem matches_, hplain none' mem' matches_']
      exact Nat.le_antisymm (longest' _ mem matches_) (longest _ mem' matches_')
    | implicit none' => exact absurd matches_ (none' _ mem)
  | implicit none =>
    cases h' with
    | exception mem' matches_' => exact absurd matches_' (none _ mem')
    | longest none' mem' matches_' => exact absurd matches_' (none _ mem')
    | implicit => rfl

/-- What prevails over a name prevails over its domain. -/
theorem SuffixRule.Prevails.shorten {r : SuffixRule α} {name' : List α} (h : Prevails rules name r)
    (hexc : ∀ labels, .exception labels ∈ rules → labels ≠ []) (hsuffix : name' <:+ name)
    (hlen : name'.length = r.suffixLength + 1) : Prevails rules name' r := by
  cases h with
  | exception mem matches_ longest =>
    rename_i labels
    have hpos := List.length_pos_iff.2 (hexc labels mem)
    have hsize : (SuffixRule.exception labels).size ≤ name'.length := by
      rw [hlen]
      simp only [size, suffixLength]
      omega
    exact .exception mem (matches_.shorten hsuffix hsize)
      fun more hmem hmore => longest more hmem (hmore.mono hsuffix)
  | longest none mem matches_ longest =>
    have hsize : r.size ≤ name'.length := by
      cases r with
      | normal => exact hlen ▸ Nat.le_succ _
      | wildcard => exact hlen ▸ Nat.le_succ _
      | exception labels => exact absurd matches_ (none labels mem)
    exact .longest (fun labels hmem hmatch => none labels hmem (hmatch.mono hsuffix)) mem
      (matches_.shorten hsuffix hsize) fun r' hmem hmatch => longest r' hmem (hmatch.mono hsuffix)
  | implicit none => exact .implicit fun r' hmem hmatch => none r' hmem (hmatch.mono hsuffix)

namespace Domain

variable {registers : List α → Prop}

theorem suffix_name {domain : List α} (h : Domain rules registers name domain) :
    domain <:+ name := by
  cases h with
  | whole => exact List.suffix_rfl
  | suffix _ _ suffix _ => exact suffix

/-- A name has one domain. -/
theorem unique {domain domain' : List α} (h : Domain rules registers name domain)
    (h' : Domain rules registers name domain') : domain = domain' := by
  have hmixed : ∀ {r : SuffixRule α} {domain : List α}, ¬registers name ∨ PublicSuffix rules name →
      registers name → Prevails rules name r → domain <:+ name →
      domain.length = r.suffixLength + 1 → False := by
    rintro r domain (hnone | ⟨r', hr', hlen⟩) hregistered hr hsuffix hdomain
    · exact hnone hregistered
    · have hle := hsuffix.length_le
      rw [hr'.suffixLength_eq hr] at hlen
      omega
  cases h with
  | whole hwhole =>
    cases h' with
    | whole => rfl
    | suffix registered prevails suffix length =>
      exact (hmixed hwhole registered prevails suffix length).elim
  | suffix registered prevails suffix length =>
    cases h' with
    | whole hwhole => exact (hmixed hwhole registered prevails suffix length).elim
    | suffix registered' prevails' suffix' length' =>
      have hlen : domain.length = domain'.length := by
        rw [length, length', prevails.suffixLength_eq prevails']
      rw [List.suffix_iff_eq_drop.1 suffix, List.suffix_iff_eq_drop.1 suffix', hlen]

/-- The domain of a name is its own domain; whether names are registered under a name is the last
label's business. -/
theorem idem (hexc : ∀ labels, .exception labels ∈ rules → labels ≠ [])
    (hlast : ∀ {name name' : List α}, name' ≠ [] → name' <:+ name →
      (registers name' ↔ registers name)) {domain : List α}
    (h : Domain rules registers name domain) : Domain rules registers domain domain := by
  cases h with
  | whole hwhole => exact .whole hwhole
  | suffix registered prevails suffix length =>
    have hne : domain ≠ [] := fun hnil => by simp [hnil] at length
    exact .suffix ((hlast hne suffix).2 registered) (prevails.shorten hexc suffix length)
      List.suffix_rfl length

/-- A name that is its own whole domain is the domain of no other name. -/
theorem whole_unique (hexc : ∀ labels, .exception labels ∈ rules → labels ≠ [])
    (hlast : ∀ {name name' : List α}, name' ≠ [] → name' <:+ name →
      (registers name' ↔ registers name)) {domain : List α}
    (hwhole : ¬registers domain ∨ PublicSuffix rules domain)
    (h : Domain rules registers name domain) : name = domain := by
  cases h with
  | whole => rfl
  | suffix registered prevails suffix length =>
    rename_i r
    have hne : domain ≠ [] := fun hnil => by simp [hnil] at length
    rcases hwhole with hnone | ⟨r', hr', hlen⟩
    · exact absurd ((hlast hne suffix).2 registered) hnone
    · have heq := hr'.suffixLength_eq (prevails.shorten hexc suffix length)
      omega

/-- The names of two labels under one public suffix have two domains. -/
theorem siblings {name' suffix domain : List α} {label label' : α} {r r' : SuffixRule α}
    (hr : Prevails rules name r) (hr' : Prevails rules name' r')
    (hlen : r.suffixLength = suffix.length) (hlen' : r'.suffixLength = suffix.length)
    (hname : label :: suffix <:+ name) (hname' : label' :: suffix <:+ name')
    (h : Domain rules registers name domain) (h' : Domain rules registers name' domain) :
    label = label' := by
  have hends : label :: suffix <:+ domain ∧ label' :: suffix <:+ domain := by
    have hsub : ∀ {name : List α} {label : α} {r : SuffixRule α}, Prevails rules name r →
        r.suffixLength = suffix.length → label :: suffix <:+ name →
        Domain rules registers name domain → label :: suffix <:+ domain := by
      intro name label r hr hlen hname h
      cases h with
      | whole => exact hname
      | suffix _ prevails hdomain length =>
        refine List.suffix_of_suffix_length_le hname hdomain ?_
        rw [length, prevails.suffixLength_eq hr, hlen, List.length_cons]
    exact ⟨hsub hr hlen hname h, hsub hr' hlen' hname' h'⟩
  have heq := List.suffix_of_suffix_length_le hends.1 hends.2 le_rfl
  exact (List.cons.inj (heq.eq_of_length rfl)).1

end Domain

end

end Paytp
