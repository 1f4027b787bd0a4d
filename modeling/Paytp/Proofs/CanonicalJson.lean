import Paytp.Json
import Paytp.Lib.JsonText
import Paytp.Lib.PrefixFree

/-!
# Canonical texts tell their values

A value is written as the tree of it whose members are sorted, and the tree reads back. So the
canonical texts of two values are the same exactly if the values differ in the order of members
only: names are ordered by an encoding that tells them, so sorting leaves one order.
-/

namespace Paytp

/-! ## Values -/

namespace StrictValue

/-- No object has two members of one name, and numbers are number tokens. -/
inductive Strict : StrictValue → Prop
  | null : Strict .null
  | bool (b : Bool) : Strict (.bool b)
  | number {text : String} (h : JsonTree.isNumber text.toList = true) : Strict (.number text)
  | string (s : String) : Strict (.string s)
  | array {items : List StrictValue} (h : ∀ v ∈ items, Strict v) : Strict (.array items)
  | object {members : List (String × StrictValue)} (nodup : (members.map Prod.fst).Nodup)
      (h : ∀ m ∈ members, Strict m.2) : Strict (.object members)

/-- The same value, but for the order of the members of its objects. -/
inductive Same : StrictValue → StrictValue → Prop
  | null : Same .null .null
  | bool (b : Bool) : Same (.bool b) (.bool b)
  | number (text : String) : Same (.number text) (.number text)
  | string (s : String) : Same (.string s) (.string s)
  | array {items items' : List StrictValue} (h : List.Forall₂ Same items items') :
    Same (.array items) (.array items')
  | object {members reordered members' : List (String × StrictValue)}
      (order : members.Perm reordered)
      (names : reordered.map Prod.fst = members'.map Prod.fst)
      (h : List.Forall₂ Same (reordered.map Prod.snd) (members'.map Prod.snd)) :
    Same (.object members) (.object members')

/-- By names. -/
def leName {α : Type} (m n : String × α) : Bool := Jcs.leUtf16 m.1 n.1

mutual

/-- The document that is written, with its members sorted. -/
def tree : StrictValue → JsonTree
  | .null => .null
  | .bool b => .bool b
  | .number text => .number text.toList
  | .string s => .string s.toList
  | .array items => .array (treeItems items)
  | .object members =>
    .object (((treeMembers members).insertionSort fun m n => leName m n).map
      fun m => (m.1.toList, m.2))

def treeItems : List StrictValue → List JsonTree
  | [] => []
  | v :: vs => tree v :: treeItems vs

def treeMembers : List (String × StrictValue) → List (String × JsonTree)
  | [] => []
  | (k, v) :: ms => (k, tree v) :: treeMembers ms

end

theorem treeItems_eq : ∀ items : List StrictValue, treeItems items = items.map tree
  | [] => rfl
  | v :: vs => by rw [treeItems, treeItems_eq vs, List.map_cons]

theorem treeMembers_eq : ∀ members : List (String × StrictValue),
    treeMembers members = members.map fun m => (m.1, tree m.2)
  | [] => rfl
  | (k, v) :: ms => by rw [treeMembers, treeMembers_eq ms, List.map_cons]

end StrictValue

namespace Jcs

/-! ## Characters -/

theorem hexDigit?_digitChar : ∀ n < 16, JsonTree.hexDigit? (Nat.digitChar n) = some n := by decide

theorem hex4_hexDigits {n : ℕ} (h : n < 0x10000) (rest : List Char) :
    JsonTree.hex4 (hexDigits n ++ rest) = some (n, rest) := by
  have hmod : ∀ k, k % 16 < 16 := fun k => Nat.mod_lt k (by decide)
  have hsum : ((n / 4096 % 16 * 16 + n / 256 % 16) * 16 + n / 16 % 16) * 16 + n % 16 = n := by
    omega
  simp only [hexDigits, List.cons_append, List.nil_append, JsonTree.hex4,
    hexDigit?_digitChar _ (hmod _), Option.bind_eq_bind, Option.bind_some, Option.pure_def, hsum]

theorem escapeChar_escapes : JsonTree.Escapes escapeChar where
  reads := by
    intro c rest
    unfold escapeChar
    split_ifs with hquote hslash hback hfeed hline hreturn htab hcontrol
    · subst hquote; rfl
    · subst hslash; rfl
    · obtain rfl : c = '\x08' := Char.toNat_inj.1 hback
      rfl
    · obtain rfl : c = '\x0c' := Char.toNat_inj.1 hfeed
      rfl
    · subst hline; rfl
    · subst hreturn; rfl
    · subst htab; rfl
    · have hhex := hex4_hexDigits (n := c.toNat) (by omega) rest
      have hunit : JsonTree.codeUnits c.toNat rest = some (c, rest) := by
        unfold JsonTree.codeUnits
        rw [if_neg (by omega), if_neg (by omega), Char.ofNat_toNat]
      simp only [List.cons_append, JsonTree.stringChar, if_true, hhex, Option.bind_eq_bind,
        Option.bind_some, hunit]
    · simp only [List.cons_append, List.nil_append, JsonTree.stringChar, if_neg hslash]
      rw [if_neg (by simp only [hquote, false_or]; exact hcontrol)]
  head_ne := by
    intro c
    unfold escapeChar
    split_ifs with hquote <;> simp [*]

/-! ## The order of names -/

/-- The code units of a character are not the beginning of another one's. -/
theorem utf16_prefixFree : PrefixFree (fun _ : Char => True) utf16 := by
  intro c c' rest rest' _ _ h
  have hvalid : ∀ c : Char, c.toNat < 0xD800 ∨ 0xDFFF < c.toNat ∧ c.toNat < 0x110000 := fun c =>
    c.valid
  have hc := hvalid c
  have hc' := hvalid c'
  unfold utf16 at h
  split_ifs at h with hlow hlow' hlow'
  · obtain ⟨hunit, hrest⟩ := List.cons.inj h
    exact ⟨Char.toNat_inj.1 hunit, hrest⟩
  · have hunit := (List.cons.inj h).1
    omega
  · have hunit := (List.cons.inj h).1
    omega
  · obtain ⟨hhigh, hmore⟩ := List.cons.inj h
    obtain ⟨hlow, hrest⟩ := List.cons.inj hmore
    exact ⟨Char.toNat_inj.1 (by omega), hrest⟩

theorem utf16_ne_nil (c : Char) : utf16 c ≠ [] := by
  unfold utf16
  split_ifs <;> simp

theorem leUtf16_antisymm {a b : String} (hab : leUtf16 a b = true) (hba : leUtf16 b a = true) :
    a = b := by
  have hunits := le_antisymm (of_decide_eq_true hab) (of_decide_eq_true hba)
  exact String.toList_injective (utf16_prefixFree.flatMap_inj (fun c _ => utf16_ne_nil c)
    (fun _ _ => trivial) (fun _ _ => trivial) hunits)

end Jcs

namespace StrictValue

instance {α : Type} : Std.Total fun m n : String × α => leName m n = true where
  total m n := by
    have htotal := le_total (m.1.toList.flatMap Jcs.utf16) (n.1.toList.flatMap Jcs.utf16)
    simpa [leName, Jcs.leUtf16] using htotal

instance {α : Type} : IsTrans (String × α) fun m n => leName m n = true where
  trans m n o hmn hno := by
    simp only [leName, Jcs.leUtf16, decide_eq_true_eq] at hmn hno ⊢
    exact hmn.trans hno

/-- Values that are rewritten keep their order. -/
theorem sort_map {α β : Type} (f : α → β) (members : List (String × α)) :
    (members.map fun m => (m.1, f m.2)).insertionSort (fun m n => leName m n = true) =
      (members.insertionSort fun m n => leName m n = true).map fun m => (m.1, f m.2) :=
  (List.map_insertionSort (fun m n : String × α => leName m n = true)
    (fun m n : String × β => leName m n = true) _ members fun _ _ _ _ => Iff.rfl).symm

/-- Members of one name each are sorted in one way. -/
theorem sort_congr {α : Type} {members members' : List (String × α)} (h : members.Perm members')
    (hnodup : (members.map Prod.fst).Nodup) :
    members.insertionSort (fun m n => leName m n) =
      members'.insertionSort (fun m n => leName m n) := by
  have hsorted : ∀ members : List (String × α),
      (members.insertionSort fun m n => leName m n = true).Pairwise fun m n => leName m n = true :=
    List.pairwise_insertionSort _
  have hperm : ∀ members : List (String × α),
      (members.insertionSort fun m n => leName m n = true).Perm members :=
    List.perm_insertionSort _
  refine List.Perm.eq_of_pairwise (fun m n hm hn hmn hnm => ?_) (hsorted members)
    (hsorted members') ((hperm members).trans (h.trans (hperm members').symm))
  have hmem := (hperm members).mem_iff.1 hm
  have hmem' := h.mem_iff.2 ((hperm members').mem_iff.1 hn)
  exact List.inj_on_of_nodup_map hnodup hmem hmem' (Jcs.leUtf16_antisymm hmn hnm)

/-! ## Texts and trees -/

/-- The tree of a value has the value's numbers. -/
theorem Strict.tree_numbers {v : StrictValue} (h : v.Strict) : v.tree.Numbers := by
  induction h with
  | null => exact .null
  | bool b => exact .bool b
  | number h => exact .number h
  | string s => exact .string s.toList
  | array h ih =>
    rw [tree, treeItems_eq]
    refine .array fun t ht => ?_
    obtain ⟨v, hv, rfl⟩ := List.mem_map.1 ht
    exact ih v hv
  | object nodup h ih =>
    rw [tree, treeMembers_eq]
    refine .object fun m hm => ?_
    obtain ⟨n, hn, rfl⟩ := List.mem_map.1 hm
    obtain ⟨o, ho, rfl⟩ := List.mem_map.1 ((List.perm_insertionSort _ _).mem_iff.1 hn)
    exact ih o ho

theorem writeItems_eq : ∀ items : List StrictValue, Jcs.writeItems items = items.map Jcs.writeJcs
  | [] => rfl
  | v :: vs => by rw [Jcs.writeItems, writeItems_eq vs, List.map_cons]

theorem writeMembers_eq : ∀ members : List (String × StrictValue),
    Jcs.writeMembers members = members.map fun m => (m.1, Jcs.writeJcs m.2)
  | [] => rfl
  | (k, v) :: ms => by rw [Jcs.writeMembers, writeMembers_eq ms, List.map_cons]

theorem writeJsonString_eq (s : String) :
    Jcs.writeJsonString s = JsonTree.writeString Jcs.escapeChar s.toList := by
  simp [Jcs.writeJsonString, JsonTree.writeString]

/-- The canonical text is the text of the tree. -/
theorem Strict.writeJcs_eq {v : StrictValue} (h : v.Strict) :
    Jcs.writeJcs v = JsonTree.write Jcs.escapeChar v.tree := by
  induction h with
  | null => rfl
  | bool b => cases b <;> rfl
  | number h => rfl
  | string s => exact writeJsonString_eq s
  | array h ih =>
    rename_i items
    have hitems : items.map Jcs.writeJcs =
        (items.map tree).map (JsonTree.write Jcs.escapeChar) := by
      rw [List.map_map]
      exact List.map_congr_left ih
    rw [Jcs.writeJcs, writeItems_eq, tree, treeItems_eq, JsonTree.write, JsonTree.writeItems_eq,
      hitems]
    rfl
  | object nodup h ih =>
    rename_i members
    have hmembers : (members.map fun m => (m.1, Jcs.writeJcs m.2)) =
        (members.map fun m => (m.1, tree m.2)).map
          fun m => (m.1, JsonTree.write Jcs.escapeChar m.2) := by
      rw [List.map_map]
      exact List.map_congr_left fun m hm => by rw [ih m hm]; rfl
    rw [Jcs.writeJcs, writeMembers_eq, Jcs.writeObject, tree, treeMembers_eq, JsonTree.write,
      JsonTree.writeMembers_eq]
    show '\x7b' :: Jcs.commaSeparated (((members.map fun m => (m.1, Jcs.writeJcs m.2)).insertionSort
        (fun m n => leName m n = true)).map _) ++ ['\x7d'] = _
    rw [hmembers, sort_map, List.map_map, List.map_map, Jcs.commaSeparated]
    have hmember : ∀ m : String × JsonTree,
        Jcs.writeJsonString m.1 ++ ':' :: JsonTree.write Jcs.escapeChar m.2 =
          JsonTree.writeMember Jcs.escapeChar (m.1.toList, m.2) := fun m => by
      rw [writeJsonString_eq, JsonTree.writeMember]
    simp only [Function.comp_def, hmember]
    rfl

/-! ## The same values -/

theorem perm_of_map {α β : Type} {f : α → β} {l : List α} {l' : List β} (h : l'.Perm (l.map f)) :
    ∃ reordered, l.Perm reordered ∧ l' = reordered.map f := by
  have hrow : List.Forall₂ (fun b a => b = f a) (l.map f) l :=
    List.forall₂_map_left_iff.2 (List.forall₂_same.2 fun _ _ => rfl)
  obtain ⟨reordered, hl', hperm⟩ := List.perm_comp_forall₂ h hrow
  refine ⟨reordered, hperm.symm, ?_⟩
  rw [← List.forall₂_eq_eq_eq]
  exact List.forall₂_map_right_iff.2 hl'

/-- The names and the values of members tell the members. -/
theorem map_eq_zip {α β γ : Type} (f : β → γ) (members : List (α × β)) :
    members.map (fun m => (m.1, f m.2)) =
      (members.map Prod.fst).zip ((members.map Prod.snd).map f) := by
  induction members with
  | nil => rfl
  | cons m members ih =>
    simp only [List.map_cons, List.zip_cons_cons]
    rw [ih]

theorem forall₂_of_map {vs ws : List StrictValue}
    (h : ∀ v ∈ vs, ∀ {w : StrictValue}, v.tree = w.tree → v.Same w)
    (heq : vs.map tree = ws.map tree) : List.Forall₂ Same vs ws := by
  have hrow : List.Forall₂ (fun v w => tree v = tree w) vs ws := by
    rw [← List.forall₂_map_right_iff, ← List.forall₂_map_left_iff, List.forall₂_eq_eq_eq]
    exact heq
  have hboth := (List.forall₂_and_left (p := fun v => ∀ {w : StrictValue}, v.tree = w.tree →
    v.Same w) vs ws).2 ⟨h, hrow⟩
  exact hboth.imp fun _ _ hvw => hvw.1 hvw.2

theorem map_of_forall₂ {vs ws : List StrictValue}
    (h : ∀ v ∈ vs, ∀ {w : StrictValue}, v.Same w → v.tree = w.tree)
    (hsame : List.Forall₂ Same vs ws) : vs.map tree = ws.map tree := by
  have hboth := (List.forall₂_and_left (p := fun v => ∀ {w : StrictValue}, v.Same w →
    v.tree = w.tree) vs ws).2 ⟨h, hsame⟩
  rw [← List.forall₂_eq_eq_eq, List.forall₂_map_left_iff, List.forall₂_map_right_iff]
  exact hboth.imp fun _ _ hvw => hvw.1 hvw.2

/-- Values of one tree are the same. -/
theorem Strict.same_of_tree {v w : StrictValue} (h : v.Strict) (heq : v.tree = w.tree) :
    v.Same w := by
  induction h generalizing w with
  | null =>
    cases w <;> simp only [tree, reduceCtorEq] at heq
    exact .null
  | bool b =>
    cases w <;> simp only [tree, reduceCtorEq, JsonTree.bool.injEq] at heq
    exact heq ▸ .bool b
  | number h =>
    cases w <;> simp only [tree, reduceCtorEq, JsonTree.number.injEq] at heq
    exact String.toList_injective heq ▸ .number _
  | string s =>
    cases w <;> simp only [tree, reduceCtorEq, JsonTree.string.injEq] at heq
    exact String.toList_injective heq ▸ .string s
  | array h ih =>
    cases w <;> simp only [tree, reduceCtorEq, JsonTree.array.injEq, treeItems_eq] at heq
    exact .array (forall₂_of_map (fun v hv => ih v hv) heq)
  | object nodup h ih =>
    rename_i members
    cases w <;> simp only [tree, reduceCtorEq, JsonTree.object.injEq, treeMembers_eq] at heq
    rename_i members'
    have hinj : Function.Injective fun m : String × JsonTree => (m.1.toList, m.2) := by
      rintro ⟨k, t⟩ ⟨k', t'⟩ hm
      simp only [Prod.mk.injEq] at hm
      rw [String.toList_injective hm.1, hm.2]
    have hsorted := List.map_injective_iff.2 hinj heq
    have hperm : (members'.map fun m => (m.1, tree m.2)).Perm
        (members.map fun m => (m.1, tree m.2)) :=
      (List.perm_insertionSort _ _).symm.trans (hsorted ▸ List.perm_insertionSort _ _)
    obtain ⟨reordered, horder, hmap⟩ := perm_of_map hperm
    have hnames : reordered.map Prod.fst = members'.map Prod.fst := by
      have hfst := congrArg (List.map Prod.fst) hmap
      simpa only [List.map_map, Function.comp_def] using hfst.symm
    have hvalues : (reordered.map Prod.snd).map tree = (members'.map Prod.snd).map tree := by
      have hsnd := congrArg (List.map Prod.snd) hmap
      simpa only [List.map_map, Function.comp_def] using hsnd.symm
    refine .object horder hnames (forall₂_of_map (fun v hv => ?_) hvalues)
    obtain ⟨m, hm, rfl⟩ := List.mem_map.1 hv
    exact ih m (horder.mem_iff.2 hm)

/-- The same values have one tree. -/
theorem Strict.tree_of_same {v w : StrictValue} (h : v.Strict) (hsame : v.Same w) :
    v.tree = w.tree := by
  induction h generalizing w with
  | null => cases hsame; rfl
  | bool b => cases hsame; rfl
  | number h => cases hsame; rfl
  | string s => cases hsame; rfl
  | array h ih =>
    cases hsame with
    | array hitems =>
      rw [tree, tree, treeItems_eq, treeItems_eq, map_of_forall₂ (fun v hv => ih v hv) hitems]
  | object nodup h ih =>
    cases hsame with
    | object order names hvalues =>
      rename_i members reordered members'
      have hmap : (reordered.map fun m => (m.1, tree m.2)) =
          members'.map fun m => (m.1, tree m.2) := by
        rw [map_eq_zip, map_eq_zip, names, map_of_forall₂ (fun v hv => ?_) hvalues]
        obtain ⟨m, hm, rfl⟩ := List.mem_map.1 hv
        exact ih m (order.mem_iff.2 hm)
      have hsort : (members.map fun m => (m.1, tree m.2)).insertionSort (fun m n => leName m n) =
          (reordered.map fun m => (m.1, tree m.2)).insertionSort fun m n => leName m n :=
        sort_congr (order.map _) (by simpa only [List.map_map, Function.comp_def] using nodup)
      rw [tree, tree, treeMembers_eq, treeMembers_eq, hsort, hmap]

theorem exists_of_forall₂ {α β : Type} {R : α → β → Prop} {as : List α} {bs : List β}
    (h : List.Forall₂ R as bs) {b : β} (hb : b ∈ bs) : ∃ a ∈ as, R a b := by
  induction h with
  | nil => cases hb
  | cons hhead _ ih =>
    rcases List.mem_cons.1 hb with rfl | hb
    · exact ⟨_, List.mem_cons_self, hhead⟩
    · obtain ⟨a, ha, hR⟩ := ih hb
      exact ⟨a, List.mem_cons_of_mem _ ha, hR⟩

theorem Strict.of_same {v w : StrictValue} (h : v.Strict) (hsame : v.Same w) : w.Strict := by
  induction h generalizing w with
  | null => cases hsame; exact .null
  | bool b => cases hsame; exact .bool b
  | number h => cases hsame; exact .number h
  | string s => cases hsame; exact .string s
  | array h ih =>
    cases hsame with
    | array hitems =>
      refine .array fun w hw => ?_
      obtain ⟨v, hv, hvw⟩ := exists_of_forall₂ hitems hw
      exact ih v hv hvw
  | object nodup h ih =>
    cases hsame with
    | object order names hvalues =>
      refine .object (names ▸ (order.map Prod.fst).nodup_iff.1 nodup) fun n hn => ?_
      obtain ⟨v, hv, hvw⟩ := exists_of_forall₂ hvalues (List.mem_map_of_mem hn)
      obtain ⟨m, hm, rfl⟩ := List.mem_map.1 hv
      exact ih m (order.mem_iff.2 hm) hvw

/-- The canonical bytes of two values are the same exactly if the values are. -/
theorem toJcs_eq_iff {v w : StrictValue} (hv : v.Strict) (hw : w.Strict) :
    Jcs.toJcs v = Jcs.toJcs w ↔ v.Same w := by
  constructor
  · intro h
    have htext := String.ofList_injective (Bytes.ofString_injective h)
    rw [hv.writeJcs_eq, hw.writeJcs_eq] at htext
    exact hv.same_of_tree (JsonTree.write_inj Jcs.escapeChar_escapes hv.tree_numbers
      hw.tree_numbers htext)
  · intro hsame
    rw [Jcs.toJcs, Jcs.toJcs, hv.writeJcs_eq, hw.writeJcs_eq, hv.tree_of_same hsame]

end StrictValue

end Paytp
