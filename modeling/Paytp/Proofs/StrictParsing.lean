import Mathlib.Data.ENat.Basic
import Paytp.Proofs.CanonicalJson
import Paytp.Proofs.Quotes
import Paytp.StrictParse

/-!
# Canonical texts are read back

What is written is read back as the same value with its members sorted, if its numbers are kept:
every integer of 64 bits is. What is read has no two members of one name in an object.
-/

namespace Paytp

/-- The library reads the JSON documents that are nested within a limit, and no deeper. -/
structure Serde.Reads (serde : Serde) (limit : ℕ∞) : Prop where
  reads : ∀ text t, JsonTree.read text.toList = some t → t.depth ≤ limit →
    serde.fromStr text = some t
  within : ∀ text t, serde.fromStr text = some t → t.depth ≤ limit

/-- A number that is read as it was written. -/
def Serde.Keeps (serde : Serde) (text : String) : Prop :=
  JsonTree.isNumber text.toList = true ∧ Jcs.visitNumber serde text.toList = some text

instance (serde : Serde) (text : String) : Decidable (serde.Keeps text) :=
  inferInstanceAs (Decidable (_ ∧ _))

namespace StrictValue

/-- No object has two members of one name. -/
inductive Distinct : StrictValue → Prop
  | null : Distinct .null
  | bool (b : Bool) : Distinct (.bool b)
  | number (text : String) : Distinct (.number text)
  | string (s : String) : Distinct (.string s)
  | array {items : List StrictValue} (h : ∀ v ∈ items, Distinct v) : Distinct (.array items)
  | object {members : List (String × StrictValue)} (nodup : (members.map Prod.fst).Nodup)
      (h : ∀ m ∈ members, Distinct m.2) : Distinct (.object members)

mutual

/-- The texts of the numbers in a value. -/
def numbers : StrictValue → List String
  | .number text => [text]
  | .array items => numbersItems items
  | .object members => numbersMembers members
  | _ => []

def numbersItems : List StrictValue → List String
  | [] => []
  | v :: vs => numbers v ++ numbersItems vs

def numbersMembers : List (String × StrictValue) → List String
  | [] => []
  | (_, v) :: ms => numbers v ++ numbersMembers ms

end

theorem mem_numbers_array {items : List StrictValue} {text : String} :
    text ∈ (array items).numbers ↔ ∃ v ∈ items, text ∈ v.numbers := by
  rw [numbers]
  induction items with
  | nil => simp [numbersItems]
  | cons v items ih => simp [numbersItems, ih]

theorem mem_numbers_object {members : List (String × StrictValue)} {text : String} :
    text ∈ (object members).numbers ↔ ∃ m ∈ members, text ∈ m.2.numbers := by
  rw [numbers]
  induction members with
  | nil => simp [numbersMembers]
  | cons m members ih => simp [numbersMembers, ih]

theorem numbers_member {v w : StrictValue} {key text : String} (hw : v.member key = some w)
    (ht : text ∈ w.numbers) : text ∈ v.numbers := by
  rcases v with _ | _ | _ | _ | _ | members
  case object =>
    obtain ⟨m, hm, rfl⟩ := Option.map_eq_some_iff.1 hw
    exact mem_numbers_object.2 ⟨m, List.mem_of_find?_eq_some hm, ht⟩
  all_goals cases hw

theorem Distinct.strict {v : StrictValue} (h : v.Distinct)
    (hnumbers : ∀ text ∈ v.numbers, JsonTree.isNumber text.toList = true) : v.Strict := by
  induction h with
  | null => exact .null
  | bool b => exact .bool b
  | number text => exact .number (hnumbers text List.mem_cons_self)
  | string s => exact .string s
  | array _ ih =>
    exact .array fun v hv => ih v hv fun text ht =>
      hnumbers text (mem_numbers_array.2 ⟨v, hv, ht⟩)
  | object nodup _ ih =>
    exact .object nodup fun m hm => ih m hm fun text ht =>
      hnumbers text (mem_numbers_object.2 ⟨m, hm, ht⟩)

/-! ## Nesting -/

theorem depth_array_le {items : List StrictValue} {n : ℕ} :
    (array items).tree.depth ≤ n + 1 ↔ ∀ v ∈ items, v.tree.depth ≤ n := by
  rw [tree, treeItems_eq, JsonTree.depth_array_le, List.forall_mem_map]

theorem depth_object_le {members : List (String × StrictValue)} {n : ℕ} :
    (object members).tree.depth ≤ n + 1 ↔ ∀ m ∈ members, m.2.tree.depth ≤ n := by
  rw [tree, treeMembers_eq, JsonTree.depth_object_le, List.forall_mem_map]
  have hsort : ∀ m, m ∈ (members.map fun m => (m.1, tree m.2)).insertionSort
      (fun m n => leName m n = true) ↔ m ∈ members.map fun m => (m.1, tree m.2) := fun m =>
    (List.perm_insertionSort _ _).mem_iff
  simp only [hsort, List.forall_mem_map]

theorem Distinct.member {v w : StrictValue} (h : v.Distinct) {key : String}
    (hw : v.member key = some w) : w.Distinct ∧ w.tree.depth < v.tree.depth := by
  cases h with
  | @object members _ h =>
    obtain ⟨m, hm, rfl⟩ := Option.map_eq_some_iff.1 hw
    have hmem := List.mem_of_find?_eq_some hm
    refine ⟨h m hmem, ?_⟩
    rcases hdepth : (StrictValue.object members).tree.depth with _ | n
    · simp [tree, JsonTree.depth] at hdepth
    · exact Nat.lt_succ_of_le (depth_object_le.1 hdepth.le m hmem)
  | _ => simp [StrictValue.member] at hw

theorem Distinct.item {items : List StrictValue} (h : (StrictValue.array items).Distinct)
    {v : StrictValue} (hv : v ∈ items) :
    v.Distinct ∧ v.tree.depth < (StrictValue.array items).tree.depth := by
  cases h with
  | array h =>
    refine ⟨h v hv, ?_⟩
    rcases hdepth : (StrictValue.array items).tree.depth with _ | n
    · simp [tree, JsonTree.depth] at hdepth
    · exact Nat.lt_succ_of_le (depth_array_le.1 hdepth.le v hv)

/-! ## Reading -/

variable {serde : Serde}

theorem exists_forall₂ {α β : Type} {R : α → β → Prop} {as : List α} (h : ∀ a ∈ as, ∃ b, R a b) :
    ∃ bs, List.Forall₂ R as bs := by
  induction as with
  | nil => exact ⟨[], .nil⟩
  | cons a as ih =>
    obtain ⟨⟨b, hb⟩, hrest⟩ := List.forall_mem_cons.1 h
    obtain ⟨bs, hbs⟩ := ih hrest
    exact ⟨b :: bs, .cons hb hbs⟩

theorem visitSeq_eq_some {items : List JsonTree} {vs : List StrictValue} :
    Jcs.visitSeq serde items = some vs ↔
      List.Forall₂ (fun t v => Jcs.visit serde t = some v) items vs := by
  induction items generalizing vs with
  | nil => cases vs <;> simp [Jcs.visitSeq]
  | cons t items ih =>
    rw [Jcs.visitSeq]
    simp only [Option.bind_eq_bind, Option.bind_eq_some_iff, ih, Option.pure_def,
      Option.some.injEq]
    constructor
    · rintro ⟨v, hv, rest, hrest, rfl⟩
      exact .cons hv hrest
    · rintro (_ | ⟨hv, hrest⟩)
      exact ⟨_, hv, _, hrest, rfl⟩

theorem visitMap_eq_some {seen : List String} {ms : List (List Char × JsonTree)}
    {rs : List (String × StrictValue)} :
    Jcs.visitMap serde seen ms = some rs ↔
      List.Forall₂ (fun m r => String.ofList m.1 = r.1 ∧ Jcs.visit serde m.2 = some r.2) ms rs ∧
        (rs.map Prod.fst).Nodup ∧ ∀ r ∈ rs, r.1 ∉ seen := by
  induction ms generalizing seen rs with
  | nil => cases rs <;> simp [Jcs.visitMap]
  | cons m ms ih =>
    obtain ⟨k, t⟩ := m
    rw [Jcs.visitMap]
    split_ifs with hseen
    · refine iff_of_false (by simp) ?_
      rintro ⟨_ | ⟨⟨hk, -⟩, -⟩, -, hnotin⟩
      exact hnotin _ List.mem_cons_self (hk ▸ by simpa using hseen)
    · simp only [Option.bind_eq_bind, Option.bind_eq_some_iff, ih, Option.pure_def,
        Option.some.injEq]
      constructor
      · rintro ⟨v, hv, rest, ⟨hrest, hnodup, hnotin⟩, rfl⟩
        refine ⟨.cons ⟨rfl, hv⟩ hrest, ?_, ?_⟩
        · rw [List.map_cons, List.nodup_cons]
          refine ⟨fun hmem => ?_, hnodup⟩
          obtain ⟨r, hr, hname⟩ := List.mem_map.1 hmem
          exact hnotin r hr (List.mem_cons.2 (.inl hname))
        · rw [List.forall_mem_cons]
          exact ⟨by simpa using hseen, fun r hr hmem =>
            hnotin r hr (List.mem_cons_of_mem _ hmem)⟩
      · rintro ⟨_ | ⟨⟨hk, hv⟩, hrest⟩, hnodup, hnotin⟩
        rename_i r rest
        rw [List.map_cons, List.nodup_cons] at hnodup
        rw [List.forall_mem_cons] at hnotin
        refine ⟨r.2, hv, rest, ⟨hrest, hnodup.2, fun n hn hmem => ?_⟩, by rw [hk]⟩
        rcases List.mem_cons.1 hmem with hname | hmem
        · exact hnodup.1 (hk ▸ hname ▸ List.mem_map_of_mem hn)
        · exact hnotin.2 n hn hmem

/-- What is read has no two members of one name, and is nested as deep as the document. -/
theorem visit_distinct {t : JsonTree} {v : StrictValue} (h : Jcs.visit serde t = some v) :
    v.Distinct ∧ v.tree.depth ≤ t.depth := by
  induction t using JsonTree.induct generalizing v with
  | null =>
    obtain rfl := Option.some.inj h
    exact ⟨.null, le_rfl⟩
  | bool b =>
    obtain rfl := Option.some.inj h
    exact ⟨.bool b, le_rfl⟩
  | number token =>
    obtain ⟨text, -, rfl⟩ := Option.map_eq_some_iff.1 h
    exact ⟨.number text, le_rfl⟩
  | string s =>
    obtain rfl := Option.some.inj h
    exact ⟨.string _, le_rfl⟩
  | array items ih =>
    obtain ⟨vs, hvs, rfl⟩ := Option.map_eq_some_iff.1 h
    have hitem : ∀ v ∈ vs, ∃ t ∈ items, Jcs.visit serde t = some v := fun v =>
      exists_of_forall₂ (visitSeq_eq_some.1 hvs)
    refine ⟨.array fun v hv => ?_, depth_array_le.2 fun v hv => ?_⟩
    · obtain ⟨t, ht, hvisit⟩ := hitem v hv
      exact (ih t ht hvisit).1
    · obtain ⟨t, ht, hvisit⟩ := hitem v hv
      exact (ih t ht hvisit).2.trans (JsonTree.depth_array_le.1 le_rfl t ht)
  | object members ih =>
    obtain ⟨rs, hrs, rfl⟩ := Option.map_eq_some_iff.1 h
    obtain ⟨hread, hnodup, -⟩ := visitMap_eq_some.1 hrs
    have hmember : ∀ r ∈ rs, ∃ m ∈ members, Jcs.visit serde m.2 = some r.2 := fun r hr => by
      obtain ⟨m, hm, -, hvisit⟩ := exists_of_forall₂ hread hr
      exact ⟨m, hm, hvisit⟩
    refine ⟨.object hnodup fun r hr => ?_, depth_object_le.2 fun r hr => ?_⟩
    · obtain ⟨m, hm, hvisit⟩ := hmember r hr
      exact (ih m hm hvisit).1
    · obtain ⟨m, hm, hvisit⟩ := hmember r hr
      exact (ih m hm hvisit).2.trans (JsonTree.depth_object_le.1 le_rfl m hm)

/-- The numbers that are read are texts of number tokens. -/
theorem visit_numbers {t : JsonTree} {v : StrictValue} (h : Jcs.visit serde t = some v) :
    ∀ text ∈ v.numbers, ∃ token, Jcs.visitNumber serde token = some text := by
  induction t using JsonTree.induct generalizing v with
  | null =>
    obtain rfl := Option.some.inj h
    simp [numbers]
  | bool b =>
    obtain rfl := Option.some.inj h
    simp [numbers]
  | number token =>
    obtain ⟨text, htext, rfl⟩ := Option.map_eq_some_iff.1 h
    simp only [numbers, List.mem_singleton, forall_eq]
    exact ⟨token, htext⟩
  | string s =>
    obtain rfl := Option.some.inj h
    simp [numbers]
  | array items ih =>
    obtain ⟨vs, hvs, rfl⟩ := Option.map_eq_some_iff.1 h
    intro text ht
    obtain ⟨v, hv, ht⟩ := mem_numbers_array.1 ht
    obtain ⟨t, htree, hvisit⟩ := exists_of_forall₂ (visitSeq_eq_some.1 hvs) hv
    exact ih t htree hvisit text ht
  | object members ih =>
    obtain ⟨rs, hrs, rfl⟩ := Option.map_eq_some_iff.1 h
    intro text ht
    obtain ⟨r, hr, ht⟩ := mem_numbers_object.1 ht
    obtain ⟨m, hm, -, hvisit⟩ := exists_of_forall₂ (visitMap_eq_some.1 hrs).1 hr
    exact ih m hm hvisit text ht

/-- The same values have the same numbers. -/
theorem Same.numbers {v w : StrictValue} (hv : v.Strict) (h : v.Same w) {text : String}
    (ht : text ∈ w.numbers) : text ∈ v.numbers := by
  induction hv generalizing w with
  | array _ ih =>
    cases h with
    | array hitems =>
      obtain ⟨w', hw', ht⟩ := mem_numbers_array.1 ht
      obtain ⟨v', hv', hsame⟩ := exists_of_forall₂ hitems hw'
      exact mem_numbers_array.2 ⟨v', hv', ih v' hv' hsame ht⟩
  | object _ _ ih =>
    cases h with
    | object order _ hvalues =>
      obtain ⟨n, hn, ht⟩ := mem_numbers_object.1 ht
      obtain ⟨v', hv', hsame⟩ := exists_of_forall₂ hvalues (List.mem_map_of_mem hn)
      obtain ⟨m, hm, rfl⟩ := List.mem_map.1 hv'
      exact mem_numbers_object.2 ⟨m, order.mem_iff.2 hm, ih m (order.mem_iff.2 hm) hsame ht⟩
  | _ =>
    cases h
    exact ht

/-- What is written of a value whose numbers are kept is read as the same value. -/
theorem visit_tree {v : StrictValue} (h : v.Distinct)
    (hkeeps : ∀ text ∈ v.numbers, serde.Keeps text) :
    ∃ w, Jcs.visit serde v.tree = some w ∧ v.Same w := by
  induction h with
  | null => exact ⟨.null, rfl, .null⟩
  | bool b => exact ⟨.bool b, rfl, .bool b⟩
  | number text =>
    have hread := (hkeeps text List.mem_cons_self).2
    exact ⟨.number text, by rw [tree, Jcs.visit, hread]; rfl, .number text⟩
  | string s => exact ⟨.string s, by rw [tree, Jcs.visit, String.ofList_toList], .string s⟩
  | @array items h ih =>
    obtain ⟨ws, hws⟩ := exists_forall₂ fun v hv => ih v hv fun text ht =>
      hkeeps text (mem_numbers_array.2 ⟨v, hv, ht⟩)
    have hvisit : Jcs.visitSeq serde (items.map tree) = some ws := by
      rw [visitSeq_eq_some, List.forall₂_map_left_iff]
      exact hws.imp fun _ _ hw => hw.1
    refine ⟨.array ws, ?_, .array (hws.imp fun _ _ hw => hw.2)⟩
    rw [tree, treeItems_eq, Jcs.visit, hvisit]
    rfl
  | @object members nodup h ih =>
    have hperm : (members.insertionSort fun m n => leName m n = true).Perm members :=
      List.perm_insertionSort _ _
    have hread : ∀ m ∈ members.insertionSort (fun m n => leName m n = true),
        ∃ r : String × StrictValue, m.1 = r.1 ∧ Jcs.visit serde m.2.tree = some r.2 ∧
          m.2.Same r.2 := by
      intro m hm
      have hmem := hperm.mem_iff.1 hm
      obtain ⟨w, hw⟩ := ih m hmem fun text ht => hkeeps text (mem_numbers_object.2 ⟨m, hmem, ht⟩)
      exact ⟨(m.1, w), rfl, hw⟩
    obtain ⟨rs, hrs⟩ := exists_forall₂ hread
    have hnames : (members.insertionSort fun m n => leName m n = true).map Prod.fst =
        rs.map Prod.fst := by
      rw [← List.forall₂_eq_eq_eq, List.forall₂_map_left_iff, List.forall₂_map_right_iff]
      exact hrs.imp fun _ _ hr => hr.1
    have hnodup : (rs.map Prod.fst).Nodup :=
      hnames ▸ ((hperm.map Prod.fst).nodup_iff.2 nodup)
    have hvisit : Jcs.visitMap serde [] (((members.map fun m => (m.1, tree m.2)).insertionSort
        fun m n => leName m n).map fun m => (m.1.toList, m.2)) = some rs := by
      rw [sort_map, visitMap_eq_some, List.forall₂_map_left_iff, List.forall₂_map_left_iff]
      refine ⟨hrs.imp fun m r hr => ⟨?_, hr.2.1⟩, hnodup, fun r _ => List.not_mem_nil⟩
      rw [← hr.1, String.ofList_toList]
    refine ⟨.object rs, ?_, .object hperm.symm hnames ?_⟩
    · rw [tree, treeMembers_eq, Jcs.visit, hvisit]
      rfl
    · rw [List.forall₂_map_left_iff, List.forall₂_map_right_iff]
      exact hrs.imp fun _ _ hr => hr.2.2

end StrictValue

/-! ## Documents -/

section Documents

variable {serde : Serde} {limit : ℕ∞}

/-- A document of a value whose numbers are kept is read as the same value. -/
theorem Serde.Reads.parseStrict_write (h : serde.Reads limit) {v : StrictValue} (hv : v.Distinct)
    (hkeeps : ∀ text ∈ v.numbers, serde.Keeps text) (hdepth : v.tree.depth ≤ limit) :
    ∃ w, Jcs.parseStrict serde (String.ofList (Jcs.writeJcs v)) = some w ∧ v.Same w := by
  have hstrict := hv.strict fun text ht => (hkeeps text ht).1
  have hread : JsonTree.read (String.ofList (Jcs.writeJcs v)).toList = some v.tree := by
    rw [String.toList_ofList, hstrict.writeJcs_eq]
    exact JsonTree.read_write Jcs.escapeChar_escapes hstrict.tree_numbers
  obtain ⟨w, hw, hsame⟩ := StrictValue.visit_tree hv hkeeps
  refine ⟨w, ?_, hsame⟩
  rw [Jcs.parseStrict, h.reads _ _ hread hdepth, Option.bind_some, hw]

/-- What is read is nested within the limit. -/
theorem Serde.Reads.parseStrict_distinct (h : serde.Reads limit) {text : String} {v : StrictValue}
    (hv : Jcs.parseStrict serde text = some v) : v.Distinct ∧ v.tree.depth ≤ limit := by
  obtain ⟨t, ht, hvisit⟩ := Option.bind_eq_some_iff.1 hv
  obtain ⟨hdistinct, hdepth⟩ := StrictValue.visit_distinct hvisit
  exact ⟨hdistinct, (Nat.cast_le.2 hdepth).trans (h.within text t ht)⟩

theorem Serde.parseStrict_numbers {text : String} {v : StrictValue}
    (hv : Jcs.parseStrict serde text = some v) :
    ∀ number ∈ v.numbers, ∃ token, Jcs.visitNumber serde token = some number := by
  obtain ⟨t, -, hvisit⟩ := Option.bind_eq_some_iff.1 hv
  exact StrictValue.visit_numbers hvisit

end Documents

/-! ## Integers -/

namespace Jcs

theorem natOf_toDigits (n : ℕ) : natOf (Nat.toDigits 10 n) = some n := by
  have hdigits : JsonTree.isDigits (Nat.toDigits 10 n) = true := by
    rw [JsonTree.isDigits, Bool.and_eq_true, bne_iff_ne, List.all_eq_true]
    exact ⟨Nat.toDigits_ne_nil, fun c => isDigit_of_mem⟩
  rw [natOf, if_pos hdigits]
  exact congrArg some Nat.ofDigitChars_ten_toDigits

theorem isInteger_toDigits (n : ℕ) : JsonTree.isInteger (Nat.toDigits 10 n) = true := by
  rcases Nat.eq_zero_or_pos n with rfl | hpos
  · rfl
  · obtain ⟨c, cs, hcs, hc⟩ := toDigits_head hpos
    have hall : (c :: cs).all Char.isDigit = true :=
      List.all_eq_true.2 fun d hd => isDigit_of_mem (hcs ▸ hd)
    rw [hcs]
    unfold JsonTree.isInteger
    split
    · rfl
    · rename_i heq
      obtain ⟨rfl, rfl⟩ := List.cons.inj heq
      simp [hc, JsonTree.isDigits, hall]
    · rename_i heq
      cases heq

theorem toDigits_ne_minus (n : ℕ) (cs : List Char) : Nat.toDigits 10 n ≠ '-' :: cs := fun h =>
  absurd (isDigit_of_mem (h ▸ List.mem_cons_self)) (by decide)

/-- What is left of the sign is a number token. -/
theorem unsigned_toDigits (n : ℕ) :
    (JsonTree.isInteger ((Nat.toDigits 10 n).takeWhile Char.isDigit) &&
      JsonTree.isFraction ((Nat.toDigits 10 n).dropWhile Char.isDigit)) = true := by
  rw [List.takeWhile_eq_self_iff.2 fun _ => isDigit_of_mem,
    List.dropWhile_eq_nil_iff.2 fun _ => isDigit_of_mem, isInteger_toDigits]
  rfl

theorem integerOf_toDigits (n : ℕ) : integerOf (Nat.toDigits 10 n) = some (n : ℤ) := by
  unfold integerOf
  split
  · rename_i heq
    exact absurd heq (toDigits_ne_minus n _)
  · rw [natOf_toDigits]
    rfl

theorem integerOf_minus {n : ℕ} (h : n ≠ 0) :
    integerOf ('-' :: Nat.toDigits 10 n) = some (-n : ℤ) := by
  show ((natOf (Nat.toDigits 10 n)).bind fun n => if n = 0 then none else some (-n : ℤ)) = _
  rw [natOf_toDigits, Option.bind_some, if_neg h]

theorem isNumber_toDigits (n : ℕ) : JsonTree.isNumber (Nat.toDigits 10 n) = true := by
  unfold JsonTree.isNumber
  split
  · rename_i heq
    exact absurd heq (toDigits_ne_minus n _)
  · exact unsigned_toDigits n

/-- The text of an integer is the token of it. -/
theorem integerOf_toString (i : ℤ) :
    JsonTree.isNumber (toString i).toList = true ∧ integerOf (toString i).toList = some i := by
  rcases i with n | n
  · have htext : (toString (Int.ofNat n)).toList = Nat.toDigits 10 n := Nat.toList_repr
    rw [htext]
    exact ⟨isNumber_toDigits n, integerOf_toDigits n⟩
  · have htext : (toString (Int.negSucc n)).toList = '-' :: Nat.toDigits 10 (n + 1) := by
      show ("-" ++ (n + 1).repr).toList = _
      rw [String.toList_append, Nat.toList_repr]
      rfl
    rw [htext]
    exact ⟨unsigned_toDigits (n + 1), integerOf_minus (Nat.succ_ne_zero n)⟩

/-- The text of an integer past 64 bits is read of no token, unless it is a floating-point one's. -/
theorem visitNumber_toString {serde : Serde} {i : ℤ} (hrange : ¬(I64_MIN ≤ i ∧ i < U64_END))
    {token : List Char} (h : visitNumber serde token = some (toString i)) :
    serde.f64Text token = some (toString i) := by
  unfold visitNumber at h
  rcases hi : integerOf token with _ | j
  · simpa [hi] using h
  · simp only [hi] at h
    split_ifs at h with hj
    · have hsame := (integerOf_toString i).2
      rw [← Option.some.inj h, (integerOf_toString j).2] at hsame
      exact absurd (Option.some.inj hsame ▸ hj) hrange
    · exact h

end Jcs

/-- An integer of 64 bits is kept. -/
theorem Serde.keeps_toString (serde : Serde) {i : ℤ} (hlow : Jcs.I64_MIN ≤ i)
    (hhigh : i < Jcs.U64_END) : serde.Keeps (toString i) := by
  obtain ⟨htoken, hinteger⟩ := Jcs.integerOf_toString i
  refine ⟨htoken, ?_⟩
  rw [Jcs.visitNumber, hinteger]
  exact if_pos ⟨hlow, hhigh⟩

end Paytp
