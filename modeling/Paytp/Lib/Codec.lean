import Mathlib.Data.List.Basic
import Paytp.Lib.Checks

/-!
# Self-delimiting codecs

A decoder takes one item off the front of a string and says how many symbols it took. It delimits
an encoding if it takes exactly the encodings of the items in the codec's domain. Payloads behind
their lengths, items up to the end of the string and items up to a declared count are decoded as
they were encoded, and nothing else decodes.
-/

namespace Paytp

variable {α β γ ε : Type}

/-- `dec` takes `enc a` off the front of a string for every `a` in the domain, and nothing else. -/
def Delimits (dom : α → Prop) (enc : α → List β) (dec : List β → Except ε (α × ℕ)) : Prop :=
  ∀ bs a n, dec bs = .ok (a, n) ↔ dom a ∧ n = (enc a).length ∧ ∃ rest, bs = enc a ++ rest

namespace Delimits

variable {dom : α → Prop} {enc : α → List β} {dec : List β → Except ε (α × ℕ)}

theorem dec_enc (h : Delimits dom enc dec) {a : α} (ha : dom a) (rest : List β) :
    dec (enc a ++ rest) = .ok (a, (enc a).length) := (h _ _ _).2 ⟨ha, rfl, rest, rfl⟩

/-- No encoding is a proper prefix of another one. -/
theorem prefix_free (h : Delimits dom enc dec) {a a' : α} {rest rest' : List β} (ha : dom a)
    (ha' : dom a') (heq : enc a ++ rest = enc a' ++ rest') : a = a' ∧ rest = rest' := by
  have hdec := h.dec_enc ha rest
  rw [heq, h.dec_enc ha' rest', Except.ok.injEq, Prod.mk.injEq] at hdec
  obtain ⟨rfl, -⟩ := hdec
  exact ⟨rfl, List.append_cancel_left heq⟩

/-- What is decoded is taken off the front. -/
theorem drop_eq (h : Delimits dom enc dec) {bs : List β} {a : α} {n : ℕ}
    (hdec : dec bs = .ok (a, n)) : dom a ∧ n ≤ bs.length ∧ bs = enc a ++ bs.drop n := by
  obtain ⟨ha, rfl, rest, rfl⟩ := (h _ _ _).1 hdec
  exact ⟨ha, by simp, by simp⟩

end Delimits

/-! ## Whole strings -/

/-- `dec` reads the encodings of the items in the domain, and nothing else. -/
def Reads (dom : α → Prop) (enc : α → List β) (dec : List β → Except ε α) : Prop :=
  ∀ bs a, dec bs = .ok a ↔ dom a ∧ bs = enc a

/-! ## Items one behind the other -/

/-- Take an item off and then another one. -/
def both (first : List β → Except ε (α × ℕ)) (second : List β → Except ε (γ × ℕ)) (bs : List β) :
    Except ε ((α × γ) × ℕ) := do
  let (a, n) ← first bs
  let (c, m) ← second (bs.drop n)
  return ((a, c), n + m)

theorem Delimits.both {domA : α → Prop} {domC : γ → Prop} {encA : α → List β} {encC : γ → List β}
    {decA : List β → Except ε (α × ℕ)} {decC : List β → Except ε (γ × ℕ)}
    (hA : Delimits domA encA decA) (hC : Delimits domC encC decC) :
    Delimits (fun p : α × γ => domA p.1 ∧ domC p.2) (fun p => encA p.1 ++ encC p.2)
      (both decA decC) := by
  rintro bs ⟨a, c⟩ n
  unfold Paytp.both
  simp only [bind_eq_ok, pure_eq_ok]
  constructor
  · rintro ⟨⟨a', k⟩, ha, ⟨c', m⟩, hc, heq⟩
    cases heq
    obtain ⟨hdomA, rfl, rest, rfl⟩ := (hA _ _ _).1 ha
    rw [List.drop_left] at hc
    obtain ⟨hdomC, rfl, rest', rfl⟩ := (hC _ _ _).1 hc
    exact ⟨⟨hdomA, hdomC⟩, by simp, rest', by simp⟩
  · rintro ⟨⟨hdomA, hdomC⟩, rfl, rest, rfl⟩
    refine ⟨(a, (encA a).length), ?_, (c, (encC c).length), ?_, by simp⟩
    · rw [List.append_assoc]
      exact hA.dec_enc hdomA _
    · rw [List.append_assoc, List.drop_left]
      exact hC.dec_enc hdomC rest

/-- Take an item off and build another thing of it. -/
def mapItem (f : α → γ) (dec : List β → Except ε (α × ℕ)) (bs : List β) : Except ε (γ × ℕ) := do
  let (a, n) ← dec bs
  return (f a, n)

/-- What is built of an item tells the item. -/
theorem Delimits.mapItem {dom : α → Prop} {enc : α → List β} {dec : List β → Except ε (α × ℕ)}
    (h : Delimits dom enc dec) {f : α → γ} {g : γ → α} (hfg : ∀ c, f (g c) = c)
    (hgf : ∀ a, dom a → g (f a) = a) :
    Delimits (fun c => dom (g c)) (fun c => enc (g c)) (mapItem f dec) := by
  intro bs c n
  unfold Paytp.mapItem
  simp only [bind_eq_ok, pure_eq_ok]
  constructor
  · rintro ⟨⟨a, m⟩, ha, heq⟩
    cases heq
    rw [hgf a ((h _ _ _).1 ha).1]
    exact (h _ _ _).1 ha
  · intro hc
    exact ⟨(g c, n), (h _ _ _).2 hc, by rw [hfg]⟩

/-- Take an item off that meets a condition. -/
def onlyItem (p : α → Bool) (e : ε) (dec : List β → Except ε (α × ℕ)) (bs : List β) :
    Except ε (α × ℕ) := do
  let (a, n) ← dec bs
  require (p a) e
  return (a, n)

theorem Delimits.onlyItem {dom : α → Prop} {enc : α → List β} {dec : List β → Except ε (α × ℕ)}
    (h : Delimits dom enc dec) (p : α → Bool) (e : ε) :
    Delimits (fun a => dom a ∧ p a = true) enc (onlyItem p e dec) := by
  intro bs a n
  unfold Paytp.onlyItem
  simp only [bind_eq_ok, pure_eq_ok, require_eq_ok]
  constructor
  · rintro ⟨⟨a', m⟩, ha, -, hp, heq⟩
    cases heq
    obtain ⟨hdom, hrest⟩ := (h _ _ _).1 ha
    exact ⟨⟨hdom, hp⟩, hrest⟩
  · rintro ⟨⟨hdom, hp⟩, hrest⟩
    exact ⟨(a, n), (h _ _ _).2 ⟨hdom, hrest⟩, ⟨⟩, hp, rfl⟩

/-- Take a payload off and read it whole. -/
def inside (dec : List β → Except ε (List β × ℕ)) (read : List β → Except ε α) (bs : List β) :
    Except ε (α × ℕ) := do
  let (raw, n) ← dec bs
  return (← read raw, n)

theorem Delimits.inside {domRaw : List β → Prop} {encRaw : List β → List β}
    {dec : List β → Except ε (List β × ℕ)} {dom : α → Prop} {enc : α → List β}
    {read : List β → Except ε α} (h : Delimits domRaw encRaw dec) (hread : Reads dom enc read) :
    Delimits (fun a => dom a ∧ domRaw (enc a)) (fun a => encRaw (enc a)) (inside dec read) := by
  intro bs a n
  unfold Paytp.inside
  simp only [bind_eq_ok, pure_eq_ok]
  constructor
  · rintro ⟨⟨raw, m⟩, hraw, a', ha, heq⟩
    cases heq
    obtain ⟨hdom, rfl⟩ := (hread _ _).1 ha
    obtain ⟨hdomRaw, hrest⟩ := (h _ _ _).1 hraw
    exact ⟨⟨hdom, hdomRaw⟩, hrest⟩
  · rintro ⟨⟨hdom, hdomRaw⟩, hrest⟩
    exact ⟨(enc a, n), (h _ _ _).2 ⟨hdomRaw, hrest⟩, a, (hread _ _).2 ⟨hdom, rfl⟩, rfl⟩

/-! ## Payloads behind their lengths -/

/-- A payload that stands behind its length; `overrun` where it is not all there. -/
def lengthPrefixed (decLen : List β → Except ε (ℕ × ℕ)) (overrun : ε) (bs : List β) :
    Except ε (List β × ℕ) := do
  let (len, used) ← decLen bs
  require (used + len ≤ bs.length) overrun
  return ((bs.drop used).take len, used + len)

theorem Delimits.lengthPrefixed {dom : ℕ → Prop} {enc : ℕ → List β}
    {decLen : List β → Except ε (ℕ × ℕ)} (h : Delimits dom enc decLen) (overrun : ε) :
    Delimits (fun v : List β => dom v.length) (fun v => enc v.length ++ v)
      (lengthPrefixed decLen overrun) := by
  intro bs v n
  unfold Paytp.lengthPrefixed
  simp only [bind_eq_ok, require_eq_ok, pure_eq_ok, decide_eq_true_eq]
  constructor
  · rintro ⟨⟨len, used⟩, hdec, -, hle, hv⟩
    cases hv
    obtain ⟨hdom, hused, rest, rfl⟩ := (h _ _ _).1 hdec
    subst hused
    rw [List.length_append] at hle
    have htake : (rest.take len).length = len := by
      rw [List.length_take]
      omega
    refine ⟨by simpa [htake] using hdom, by simp [htake], rest.drop len, ?_⟩
    simp [htake]
  · rintro ⟨hdom, rfl, rest, rfl⟩
    refine ⟨(v.length, (enc v.length).length), ?_, ⟨⟩, ?_, ?_⟩
    · rw [List.append_assoc]
      exact h.dec_enc hdom _
    · simp
    · simp

/-- A payload cut short does not decode. -/
theorem lengthPrefixed_overrun {dom : ℕ → Prop} {enc : ℕ → List β}
    {decLen : List β → Except ε (ℕ × ℕ)} (h : Delimits dom enc decLen) (overrun : ε) {len : ℕ}
    {bs : List β} (hdom : dom len) (hlt : bs.length < len) :
    Paytp.lengthPrefixed decLen overrun (enc len ++ bs) = .error overrun := by
  unfold Paytp.lengthPrefixed
  rw [h.dec_enc hdom]
  simp [bind, Except.bind, require, Nat.not_le.2 hlt]

/-! ## Items up to the end -/

/-- Take items off until nothing is left, each admitted after the ones before it. Where every item
takes a symbol, fuel for every symbol suffices; `stuck` is not reached. -/
def consumeAll (item : List β → Except ε (α × ℕ)) (accept : List α → α → Except ε Unit)
    (stuck : ε) : ℕ → List α → List β → Except ε (List α)
  | _, items, [] => .ok items
  | 0, _, _ :: _ => .error stuck
  | fuel + 1, items, bs => do
    let (a, n) ← item bs
    accept items a
    consumeAll item accept stuck fuel (items ++ [a]) (bs.drop n)

/-- Every item is admitted after `items` and the ones before it. -/
def AcceptedAfter (accept : List α → α → Except ε Unit) : List α → List α → Prop
  | _, [] => True
  | items, a :: more => accept items a = .ok () ∧ AcceptedAfter accept (items ++ [a]) more

/-! ## Items up to a count -/

/-- Take `count` items off: the items and what is left. An item that takes nothing, or more than
there is, is `mismatch`. -/
def takeCount (item : List β → Except ε (α × ℕ)) (mismatch : ε) :
    ℕ → List β → Except ε (List α × List β)
  | 0, bs => .ok ([], bs)
  | count + 1, bs => do
    let (a, n) ← item bs
    require (!(n == 0 || n > bs.length)) mismatch
    let (items, rest) ← takeCount item mismatch count (bs.drop n)
    return (a :: items, rest)

section lists
variable {dom : α → Prop} {enc : α → List β} {item : List β → Except ε (α × ℕ)}

theorem consumeAll_nil (hne : ∀ a, dom a → enc a ≠ []) {accept : List α → α → Except ε Unit}
    {stuck : ε} {fuel : ℕ} {items all : List α} :
    consumeAll item accept stuck fuel items [] = .ok all ↔ ∃ more, all = items ++ more ∧
      [] = more.flatMap enc ∧ (∀ a ∈ more, dom a) ∧ AcceptedAfter accept items more := by
  have hstop : consumeAll item accept stuck fuel items [] = .ok items := by
    rcases fuel with _ | fuel <;> rfl
  rw [hstop, Except.ok.injEq]
  constructor
  · rintro rfl
    exact ⟨[], by simp, rfl, by simp, trivial⟩
  · rintro ⟨_ | ⟨a, more⟩, rfl, hbs, hdom, -⟩
    · simp
    · rw [List.flatMap_cons] at hbs
      exact absurd (List.append_eq_nil_iff.1 hbs.symm).1 (hne a (hdom a List.mem_cons_self))

/-- What is consumed is a row of encodings of admitted items. -/
theorem consumeAll_eq_ok (h : Delimits dom enc item) (hne : ∀ a, dom a → enc a ≠ [])
    (accept : List α → α → Except ε Unit) (stuck : ε) : ∀ {fuel : ℕ} {items all : List α}
    {bs : List β}, bs.length ≤ fuel →
    (consumeAll item accept stuck fuel items bs = .ok all ↔ ∃ more, all = items ++ more ∧
      bs = more.flatMap enc ∧ (∀ a ∈ more, dom a) ∧ AcceptedAfter accept items more) := by
  intro fuel
  induction fuel with
  | zero =>
    rintro items all (_ | ⟨b, bs⟩) hfuel
    · exact consumeAll_nil hne
    · simp at hfuel
  | succ fuel ih =>
    rintro items all (_ | ⟨b, bs⟩) hfuel
    · exact consumeAll_nil hne
    · simp only [consumeAll, bind_eq_ok]
      constructor
      · rintro ⟨⟨a, n⟩, hitem, ⟨⟩, hadmit, hrest⟩
        obtain ⟨ha, -, hbs⟩ := h.drop_eq hitem
        have hshort : ((b :: bs).drop n).length ≤ fuel := by
          have hlen := congrArg List.length hbs
          have hpos := List.length_pos_iff.2 (hne a ha)
          simp only [List.length_append, List.length_cons] at hlen hfuel
          omega
        obtain ⟨more, rfl, hmore, hdom, hadmits⟩ := (ih hshort).1 hrest
        refine ⟨a :: more, by simp, ?_, List.forall_mem_cons.2 ⟨ha, hdom⟩, hadmit, hadmits⟩
        rw [List.flatMap_cons, ← hmore]
        exact hbs
      · rintro ⟨_ | ⟨a, more⟩, rfl, hbs, hdom, hadmits⟩
        · simp at hbs
        · obtain ⟨ha, hdom⟩ := List.forall_mem_cons.1 hdom
          rw [List.flatMap_cons] at hbs
          have hpos := List.length_pos_iff.2 (hne a ha)
          have hshort : (more.flatMap enc).length ≤ fuel := by
            have hlen := congrArg List.length hbs
            simp only [List.length_append, List.length_cons] at hlen hfuel
            omega
          refine ⟨(a, (enc a).length), hbs ▸ h.dec_enc ha _, ⟨⟩, hadmits.1, ?_⟩
          rw [hbs, List.drop_left]
          exact (ih hshort).2 ⟨more, by simp, rfl, hdom, hadmits.2⟩

/-- A row that begins with `items` goes on with a row. -/
theorem row_prefix (h : Delimits dom enc item) (hne : ∀ a, dom a → enc a ≠ []) :
    ∀ {items row : List α} {tail : List β}, (∀ a ∈ items, dom a) → (∀ a ∈ row, dom a) →
    items.flatMap enc ++ tail = row.flatMap enc →
    ∃ more, row = items ++ more ∧ tail = more.flatMap enc
  | [], row, tail, _, _, heq => ⟨row, rfl, heq⟩
  | a :: items, [], tail, hdom, _, heq => by
    have hempty : enc a = [] := by
      simp only [List.flatMap_cons, List.flatMap_nil, List.append_eq_nil_iff] at heq
      exact heq.1.1
    exact absurd hempty (hne a (hdom a List.mem_cons_self))
  | a :: items, b :: row, tail, hdom, hrow, heq => by
    rw [List.flatMap_cons, List.flatMap_cons, List.append_assoc] at heq
    obtain ⟨ha, hitems⟩ := List.forall_mem_cons.1 hdom
    obtain ⟨hb, hmore⟩ := List.forall_mem_cons.1 hrow
    obtain ⟨rfl, hrest⟩ := h.prefix_free ha hb heq
    obtain ⟨more, rfl, htail⟩ := row_prefix h hne hitems hmore hrest
    exact ⟨more, rfl, htail⟩

theorem takeCount_eq_ok (h : Delimits dom enc item) (hne : ∀ a, dom a → enc a ≠ [])
    (mismatch : ε) : ∀ {count : ℕ} {bs rest : List β} {items : List α},
    takeCount item mismatch count bs = .ok (items, rest) ↔
      items.length = count ∧ (∀ a ∈ items, dom a) ∧ bs = items.flatMap enc ++ rest := by
  intro count
  induction count with
  | zero =>
    intro bs rest items
    simp only [takeCount, Except.ok.injEq, Prod.mk.injEq, List.length_eq_zero_iff]
    constructor
    · rintro ⟨rfl, rfl⟩
      simp
    · rintro ⟨rfl, -, rfl⟩
      simp
  | succ count ih =>
    intro bs rest items
    simp only [takeCount, bind_eq_ok, require_eq_ok, pure_eq_ok]
    constructor
    · rintro ⟨⟨a, n⟩, hitem, -, -, ⟨more, rest'⟩, hmore, heq⟩
      cases heq
      obtain ⟨ha, -, hbs⟩ := h.drop_eq hitem
      obtain ⟨rfl, hdom, hrest⟩ := ih.1 hmore
      refine ⟨rfl, List.forall_mem_cons.2 ⟨ha, hdom⟩, ?_⟩
      rw [List.flatMap_cons, List.append_assoc, ← hrest]
      exact hbs
    · rintro ⟨hlen, hdom, rfl⟩
      rcases items with _ | ⟨a, more⟩
      · simp at hlen
      · obtain ⟨ha, hdom⟩ := List.forall_mem_cons.1 hdom
        have hpos := List.length_pos_iff.2 (hne a ha)
        rw [List.flatMap_cons, List.append_assoc]
        refine ⟨(a, (enc a).length), h.dec_enc ha _, ⟨⟩, ?_, (more, rest), ?_, rfl⟩
        · simp only [List.length_append, Bool.not_eq_true', Bool.or_eq_false_iff,
            decide_eq_false_iff_not, beq_eq_false_iff_ne]
          omega
        · rw [List.drop_left]
          exact ih.2 ⟨by simpa using hlen, hdom, rfl⟩

end lists

end Paytp
