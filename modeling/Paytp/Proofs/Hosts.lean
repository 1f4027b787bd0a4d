import Paytp.Host
import Paytp.Wallet.Channel

/-!
# The registrable domain is the list's

The joined strings that the resolver compares are the labels' own: a host splits into its labels
and joins back. So what it finds at each offset is what the rules of the list match label by
label, and its domain is the domain of the prevailing rule. The scopes of two hosts under one
public suffix are two.
-/

namespace Paytp

/-- What a key derives from tells the scope. -/
theorem Wallet.PayerScope.derivationInfo_injective :
    Function.Injective Wallet.PayerScope.derivationInfo := by
  rintro ⟨key, domain⟩ ⟨key', domain'⟩ h
  simp only [derivationInfo, List.append_assoc] at h
  obtain ⟨hkey, hmore⟩ := List.append_inj (List.append_cancel_left h) (by simp)
  obtain ⟨-, hdomain⟩ := List.append_inj hmore (by simp)
  rw [List.Vector.toList_injective hkey, Bytes.ofString_injective hdomain]

namespace Host

/-! ## Labels -/

def DotFree (labels : List String) : Prop := ∀ label ∈ labels, '.' ∉ label.toList

theorem map_toList_ofList (ls : List (List Char)) :
    (ls.map String.ofList).map String.toList = ls := by
  have hid : String.toList ∘ String.ofList = id := funext fun _ => String.toList_ofList
  rw [List.map_map, hid, List.map_id]

theorem map_ofList_toList (ls : List String) : (ls.map String.toList).map String.ofList = ls := by
  have hid : String.ofList ∘ String.toList = id := funext fun _ => String.ofList_toList
  rw [List.map_map, hid, List.map_id]

theorem join_labels (host : String) : join (labels host) = host := by
  rw [join, labels, map_toList_ofList, List.intercalate_splitOn, String.ofList_toList]

theorem labels_join {ls : List String} (hne : ls ≠ []) (hdot : DotFree ls) :
    labels (join ls) = ls := by
  have hpieces : ∀ l ∈ ls.map String.toList, '.' ∉ l := by
    intro l hl
    obtain ⟨s, hs, rfl⟩ := List.mem_map.1 hl
    exact hdot s hs
  rw [labels, join, String.toList_ofList, List.splitOn_intercalate '.' hpieces (by simpa using hne),
    map_ofList_toList]

theorem labels_injective : Function.Injective labels := fun h h' heq => by
  rw [← join_labels h, heq, join_labels]

theorem labels_ne_nil (host : String) : labels host ≠ [] := by
  simp [labels]

theorem notMem_of_mem_splitOn {x : Char} : ∀ {xs l : List Char}, l ∈ xs.splitOn x → x ∉ l
  | [], l, h => by
    rw [List.splitOn_nil, List.mem_singleton] at h
    simp [h]
  | y :: xs, l, h => by
    rw [List.splitOn_cons_eq_if_modifyHead] at h
    split_ifs at h with hy
    · rcases List.mem_cons.1 h with rfl | h
      · simp
      · exact notMem_of_mem_splitOn h
    · rcases hsplit : xs.splitOn x with _ | ⟨first, more⟩
      · exact absurd hsplit (List.splitOn_ne_nil x xs)
      · rw [hsplit, List.modifyHead_cons] at h
        have hmem : ∀ l ∈ first :: more, x ∉ l := fun l hl =>
          notMem_of_mem_splitOn (hsplit ▸ hl)
        rcases List.mem_cons.1 h with rfl | h
        · rw [List.mem_cons, not_or]
          exact ⟨fun heq => hy (by simp [heq]), hmem first List.mem_cons_self⟩
        · exact hmem l (List.mem_cons_of_mem first h)

theorem labels_dotFree (host : String) : DotFree (labels host) := by
  intro label hlabel
  obtain ⟨l, hl, rfl⟩ := List.mem_map.1 hlabel
  rw [String.toList_ofList]
  exact notMem_of_mem_splitOn hl

theorem labels_eq_iff {ls : List String} (hne : ls ≠ []) (hdot : DotFree ls) (s : String) :
    labels s = ls ↔ s = join ls := by
  constructor
  · rintro rfl
    exact (join_labels s).symm
  · rintro rfl
    exact labels_join hne hdot

theorem DotFree.drop {ls : List String} (h : DotFree ls) (i : ℕ) : DotFree (ls.drop i) :=
  fun label hlabel => h label (List.mem_of_mem_drop hlabel)

namespace Psl

/-! ## The rules of a list -/

/-- The rules by their labels. -/
def ruleSet (p : Psl) : Set (SuffixRule String) :=
  {r | (∃ s ∈ p.rules, r = .normal (labels s)) ∨ (∃ s ∈ p.wildcards, r = .wildcard (labels s)) ∨
    ∃ s ∈ p.exceptions, r = .exception (labels s)}

variable {p : Psl} {ls : List String}

theorem normal_mem (hne : ls ≠ []) (hdot : DotFree ls) :
    .normal ls ∈ p.ruleSet ↔ join ls ∈ p.rules := by
  simp only [ruleSet, Set.mem_ofPred_eq, SuffixRule.normal.injEq, eq_comm (a := ls),
    labels_eq_iff hne hdot, reduceCtorEq, and_false, exists_false, or_false, exists_eq_right]

theorem wildcard_mem (hne : ls ≠ []) (hdot : DotFree ls) :
    .wildcard ls ∈ p.ruleSet ↔ join ls ∈ p.wildcards := by
  simp only [ruleSet, Set.mem_ofPred_eq, SuffixRule.wildcard.injEq, eq_comm (a := ls),
    labels_eq_iff hne hdot, reduceCtorEq, and_false, exists_false, or_false, false_or,
    exists_eq_right]

theorem exception_mem (hne : ls ≠ []) (hdot : DotFree ls) :
    .exception ls ∈ p.ruleSet ↔ join ls ∈ p.exceptions := by
  simp only [ruleSet, Set.mem_ofPred_eq, SuffixRule.exception.injEq, eq_comm (a := ls),
    labels_eq_iff hne hdot, reduceCtorEq, and_false, exists_false, false_or, exists_eq_right]

/-- No rule is without labels. -/
theorem size_pos {r : SuffixRule String} (h : r ∈ p.ruleSet) : 0 < r.size := by
  rcases h with ⟨s, -, rfl⟩ | ⟨s, -, rfl⟩ | ⟨s, -, rfl⟩
  · exact List.length_pos_iff.2 (labels_ne_nil s)
  · exact Nat.succ_pos _
  · exact List.length_pos_iff.2 (labels_ne_nil s)

/-! ## The resolver -/

/-- A running maximum over what passes a test. -/
theorem foldl_best_le {ι : Type} (test : ι → Prop) [DecidablePred test] (f : ι → ℕ) (bound : ℕ) :
    ∀ (is : List ι) (init : ℕ),
      is.foldl (fun best i => if test i then max best (f i) else best) init ≤ bound ↔
        init ≤ bound ∧ ∀ i ∈ is, test i → f i ≤ bound
  | [], init => by simp
  | i :: is, init => by
    rw [List.foldl_cons, foldl_best_le test f bound is, List.forall_mem_cons]
    split_ifs with h
    · simp only [max_le_iff, h, true_implies, and_assoc]
    · simp only [h, false_implies, true_and]

/-- The offsets at which a rule matches. -/
def Hit (p : Psl) (ls : List String) (i : ℕ) : Prop :=
  join (ls.drop i) ∈ p.rules ∨ (i + 1 < ls.length ∧ join (ls.drop (i + 1)) ∈ p.wildcards)

instance (p : Psl) (ls : List String) : DecidablePred (p.Hit ls) := fun i => by
  unfold Hit
  infer_instance

/-- The longest match is at most a bound exactly if every match is. -/
theorem best_le {bound : ℕ} : (List.range ls.length).foldl (fun best i =>
      let best := if join (ls.drop i) ∈ p.rules then max best (ls.length - i) else best
      if i + 1 < ls.length ∧ join (ls.drop (i + 1)) ∈ p.wildcards then max best (ls.length - i)
      else best) 0 ≤ bound ↔
    ∀ i < ls.length, p.Hit ls i → ls.length - i ≤ bound := by
  have hstep : (fun (best i : ℕ) =>
      let best := if join (ls.drop i) ∈ p.rules then max best (ls.length - i) else best
      if i + 1 < ls.length ∧ join (ls.drop (i + 1)) ∈ p.wildcards then max best (ls.length - i)
      else best) = fun best i => if p.Hit ls i then max best (ls.length - i) else best := by
    funext best i
    by_cases hrule : join (ls.drop i) ∈ p.rules <;>
      by_cases hwild : i + 1 < ls.length ∧ join (ls.drop (i + 1)) ∈ p.wildcards <;>
      simp only [Hit, hrule, hwild, if_true, if_false, and_self, or_false, true_or, false_or,
        max_assoc, max_self]
  rw [hstep, foldl_best_le]
  simp only [Nat.zero_le, true_and, List.mem_range]

/-- Where no exception matches, an offset is hit exactly if a rule matches what stands there. -/
theorem hit_iff (hdot : DotFree ls)
    (hnone : ∀ labels, .exception labels ∈ p.ruleSet → ¬SuffixRule.Matches ls (.exception labels))
    {i : ℕ} (hi : i < ls.length) :
    p.Hit ls i ↔ ∃ r ∈ p.ruleSet, r.Matches ls ∧ r.size = ls.length - i := by
  have hne : ls.drop i ≠ [] := by simpa using hi
  constructor
  · rintro (hrule | ⟨hlt, hwild⟩)
    · exact ⟨.normal (ls.drop i), (normal_mem hne (hdot.drop i)).2 hrule, List.drop_suffix i ls,
        List.length_drop⟩
    · have hne' : ls.drop (i + 1) ≠ [] := by simpa using hlt
      refine ⟨.wildcard (ls.drop (i + 1)), (wildcard_mem hne' (hdot.drop _)).2 hwild,
        ⟨ls[i], ?_⟩, ?_⟩
      · rw [← List.drop_eq_getElem_cons hi]
        exact List.drop_suffix i ls
      · simp only [SuffixRule.size, List.length_drop]
        omega
  · rintro ⟨r, hmem, hmatch, hsize⟩
    cases r with
    | normal labels =>
      have hdrop : labels = ls.drop i := by
        rw [List.suffix_iff_eq_drop.1 hmatch]
        congr 1
        simp only [SuffixRule.size] at hsize
        omega
      exact .inl ((normal_mem hne (hdot.drop i)).1 (hdrop ▸ hmem))
    | wildcard labels =>
      obtain ⟨label, hmatch⟩ := hmatch
      have hdrop : label :: labels = ls.drop i := by
        rw [List.suffix_iff_eq_drop.1 hmatch]
        congr 1
        simp only [SuffixRule.size] at hsize
        simp only [List.length_cons]
        omega
      rw [List.drop_eq_getElem_cons hi, List.cons.injEq] at hdrop
      have hpos : labels ≠ [] := by
        rcases hmem with ⟨s, -, hs⟩ | ⟨s, -, hs⟩ | ⟨s, -, hs⟩
        · cases hs
        · cases hs
          exact labels_ne_nil s
        · cases hs
      have hlt : i + 1 < ls.length := by
        have hlen := congrArg List.length hdrop.2
        rw [List.length_drop] at hlen
        have := List.length_pos_iff.2 hpos
        omega
      exact .inr ⟨hlt, (wildcard_mem (hdrop.2 ▸ hpos) (hdot.drop _)).1 (hdrop.2 ▸ hmem)⟩
    | exception labels => exact absurd hmatch (hnone labels hmem)

/-- Where no exception matches, the resolver finds the longest match. -/
theorem publicSuffixLen_le (hdot : DotFree ls)
    (hnone : ∀ labels, .exception labels ∈ p.ruleSet → ¬SuffixRule.Matches ls (.exception labels))
    {bound : ℕ} : p.publicSuffixLen ls ≤ bound ↔
      (∀ r ∈ p.ruleSet, r.Matches ls → r.size ≤ bound) ∧ 1 ≤ bound := by
  have hfind : (List.range ls.length).find?
      (fun i => decide (join (ls.drop i) ∈ p.exceptions)) = none := by
    rw [List.find?_eq_none]
    intro i hi
    have hne : ls.drop i ≠ [] := by simpa using hi
    rw [decide_eq_true_eq]
    exact fun hmem => hnone _ ((exception_mem hne (hdot.drop i)).2 hmem) (List.drop_suffix i ls)
  unfold publicSuffixLen
  dsimp only
  rw [hfind]
  dsimp only
  rw [max_le_iff, best_le]
  refine and_congr_left fun _ => ?_
  constructor
  · intro h r hmem hmatch
    have hle := hmatch.size_le
    have hpos := size_pos hmem
    have hlt : ls.length - r.size < ls.length := by omega
    have hbound := h _ hlt ((hit_iff hdot hnone hlt).2 ⟨r, hmem, hmatch, by omega⟩)
    omega
  · intro h i hi hhit
    obtain ⟨r, hmem, hmatch, hsize⟩ := (hit_iff hdot hnone hi).1 hhit
    exact hsize ▸ h r hmem hmatch

/-- The resolver finds how much of a name the prevailing rule leaves as the public suffix. -/
theorem publicSuffixLen_eq (hdot : DotFree ls) {r : SuffixRule String}
    (h : SuffixRule.Prevails p.ruleSet ls r) : p.publicSuffixLen ls = r.suffixLength := by
  cases h with
  | exception mem hmatch longest =>
    rename_i labels
    have hne : labels ≠ [] := by
      rcases mem with ⟨s, -, hs⟩ | ⟨s, -, hs⟩ | ⟨s, -, hs⟩
      · cases hs
      · cases hs
      · cases hs
        exact labels_ne_nil s
    have hle : labels.length ≤ ls.length := List.IsSuffix.length_le hmatch
    have hpos := List.length_pos_iff.2 hne
    have hdrop : labels = ls.drop (ls.length - labels.length) := List.suffix_iff_eq_drop.1 hmatch
    have hfind : (List.range ls.length).find?
        (fun i => decide (join (ls.drop i) ∈ p.exceptions)) = some (ls.length - labels.length) := by
      rw [List.find?_range_eq_some, List.mem_range]
      refine ⟨?_, by omega, fun j hj => ?_⟩
      · rw [← hdrop, decide_eq_true_eq]
        exact (exception_mem hne (hdrop ▸ hdot.drop _)).1 mem
      · have hne' : ls.drop j ≠ [] := by
          rw [Ne, List.drop_eq_nil_iff]
          omega
        simp only [Bool.not_eq_true', decide_eq_false_iff_not]
        intro hj'
        have hmore := longest _ ((exception_mem hne' (hdot.drop j)).2 hj') (List.drop_suffix j ls)
        rw [List.length_drop] at hmore
        omega
    unfold publicSuffixLen
    dsimp only
    rw [hfind]
    simp only [SuffixRule.suffixLength]
    omega
  | longest none mem hmatch longest =>
    have hsize : r.suffixLength = r.size := by
      cases r with
      | normal => rfl
      | wildcard => rfl
      | exception labels => exact absurd hmatch (none labels mem)
    rw [hsize]
    refine Nat.le_antisymm ((publicSuffixLen_le hdot none).2 ⟨longest, size_pos mem⟩) ?_
    exact ((publicSuffixLen_le hdot none).1 le_rfl).1 r mem hmatch
  | implicit none =>
    have hnone : ∀ labels, .exception labels ∈ p.ruleSet →
        ¬SuffixRule.Matches ls (.exception labels) := fun labels => none (.exception labels)
    refine Nat.le_antisymm ((publicSuffixLen_le hdot hnone).2 ⟨?_, le_rfl⟩) ?_
    · exact fun r hmem hmatch => absurd hmatch (none r hmem)
    · exact ((publicSuffixLen_le hdot hnone).1 le_rfl).2

/-- The rule that a line of the list states. -/
def lineRule (idna : Idna) (raw : List Char) : Option (SuffixRule String) :=
  let line := trim raw
  if line.isEmpty || ['/', '/'].isPrefixOf line then none
  else
    match line.takeWhile (fun c => !isWhitespace c) with
    | '!' :: exc => some (.exception (labels (ruleToAlabel idna (String.ofList exc))))
    | '*' :: '.' :: wild => some (.wildcard (labels (ruleToAlabel idna (String.ofList wild))))
    | rule => some (.normal (labels (ruleToAlabel idna (String.ofList rule))))

theorem ruleSet_insertLine (idna : Idna) (p : Psl) (raw : List Char) :
    (p.insertLine idna raw).ruleSet = p.ruleSet ∪ {r | lineRule idna raw = some r} := by
  ext r
  unfold insertLine lineRule
  dsimp only
  split_ifs with hblank
  · simp
  · generalize (trim raw).takeWhile (fun c => !isWhitespace c) = rule
    split <;>
      simp only [ruleSet, Set.mem_union, Set.mem_ofPred_eq, Finset.mem_insert,
        exists_eq_or_imp, Option.some.injEq, eq_comm (b := r)] <;>
      grind

/-- The rules of a list are what its lines state. -/
theorem ruleSet_load (idna : Idna) (text : String) :
    (load idna text).ruleSet =
      {r | ∃ line ∈ text.toList.splitOn '\n', lineRule idna line = some r} := by
  have hfold : ∀ (lines : List (List Char)) (p : Psl), (lines.foldl (insertLine idna) p).ruleSet =
      p.ruleSet ∪ {r | ∃ line ∈ lines, lineRule idna line = some r} := by
    intro lines
    induction lines with
    | nil => intro p; simp
    | cons line lines ih =>
      intro p
      rw [List.foldl_cons, ih, ruleSet_insertLine, Set.union_assoc]
      congr 1
      ext r
      simp
  rw [load, hfold]
  simp [ruleSet]

theorem registrableDomain_eq {host : String} {r : SuffixRule String}
    (h : SuffixRule.Prevails p.ruleSet (labels host) r) :
    p.registrableDomain host = if (labels host).length ≤ r.suffixLength then none
      else some (join ((labels host).drop ((labels host).length - r.suffixLength - 1))) := by
  unfold registrableDomain
  dsimp only
  rw [publicSuffixLen_eq (labels_dotFree host) h]

end Psl

/-! ## Domains -/

/-- Names are registered under the last label. -/
def registers (ls : List String) : Prop := plausibleTld (ls.getLastD "") = true

theorem registers_suffix {ls ls' : List String} (hne : ls' ≠ []) (h : ls' <:+ ls) :
    registers ls' ↔ registers ls := by
  obtain ⟨front, rfl⟩ := h
  rw [registers, registers, List.getLastD_eq_getLast?, List.getLastD_eq_getLast?,
    List.getLast?_append_of_ne_nil _ hne]

theorem hasPlausibleTld_iff (host : String) :
    hasPlausibleTld host = true ↔ registers (labels host) := by
  have hlast : (labels host).getLastD host = (labels host).getLastD "" := by
    rw [List.getLastD_eq_getLast?, List.getLastD_eq_getLast?,
      List.getLast?_eq_getLast_of_ne_nil (labels_ne_nil host)]
    rfl
  rw [hasPlausibleTld, hlast, registers]

section
variable {idna : Idna} {psl : Psl} {host domain : String}

theorem exists_domain (hvalid : validateNormalizedHost idna host = .ok ()) :
    ∃ domain, registrableDomain idna psl host = .ok domain ∧
      Domain psl.ruleSet registers (labels host) (labels domain) := by
  unfold registrableDomain
  rw [hvalid]
  by_cases htld : registers (labels host)
  · obtain ⟨r, hr⟩ := SuffixRule.exists_prevails psl.ruleSet (labels host)
    have htop := (hasPlausibleTld_iff host).2 htld
    simp only [htop, Psl.registrableDomain_eq hr]
    by_cases hlen : (labels host).length ≤ r.suffixLength
    · refine ⟨host, ?_, .whole (.inr ⟨r, hr, hlen⟩)⟩
      rw [if_pos hlen]
      rfl
    · have hne : (labels host).drop ((labels host).length - r.suffixLength - 1) ≠ [] := by
        rw [Ne, List.drop_eq_nil_iff]
        omega
      refine ⟨join ((labels host).drop ((labels host).length - r.suffixLength - 1)), ?_, ?_⟩
      · rw [if_neg hlen]
        rfl
      · rw [labels_join hne ((labels_dotFree host).drop _)]
        refine .suffix htld hr (List.drop_suffix _ _) ?_
        rw [List.length_drop]
        omega
  · have hbare : hasPlausibleTld host = false := by
      rw [← Bool.not_eq_true, hasPlausibleTld_iff]
      exact htld
    refine ⟨host, ?_, .whole (.inl htld)⟩
    simp only [hbare]
    rfl

/-- The resolver's answer is the domain of the prevailing rule. -/
theorem registrableDomain_eq_ok : registrableDomain idna psl host = .ok domain ↔
    validateNormalizedHost idna host = .ok () ∧
      Domain psl.ruleSet registers (labels host) (labels domain) := by
  constructor
  · intro h
    have hvalid : validateNormalizedHost idna host = .ok () := by
      rcases hv : validateNormalizedHost idna host with e | ⟨⟩
      · rw [registrableDomain, hv] at h
        cases h
      · rfl
    obtain ⟨domain', hdomain, hd⟩ := @exists_domain idna psl host hvalid
    rw [h, Except.ok.injEq] at hdomain
    exact ⟨hvalid, hdomain ▸ hd⟩
  · rintro ⟨hvalid, hd⟩
    obtain ⟨domain', hdomain, hd'⟩ := @exists_domain idna psl host hvalid
    rw [hdomain, labels_injective (hd'.unique hd)]

end

/-- What ends a host in normal form, from a label on, is in normal form too. -/
def Idna.KeepsSuffixes (idna : Idna) : Prop :=
  ∀ host ls, idna.domainToAsciiStrict host = some host → ls ≠ [] → ls <:+ labels host →
    idna.domainToAsciiStrict (join ls) = some (join ls)

section
variable {idna : Idna} {psl : Psl} {host host' domain : String}

theorem validate_eq_ok : validateNormalizedHost idna host = .ok () ↔
    host ≠ "" ∧ idna.domainToAsciiStrict host = some host := by
  unfold validateNormalizedHost
  split_ifs with hempty hascii <;> simp [*]

theorem Psl.exception_ne_nil : ∀ ls, .exception ls ∈ psl.ruleSet → ls ≠ [] := by
  rintro ls (⟨s, -, hs⟩ | ⟨s, -, hs⟩ | ⟨s, -, hs⟩)
  · cases hs
  · cases hs
  · cases hs
    exact labels_ne_nil s

theorem labels_empty : labels "" = [""] := rfl

/-- A domain has a label beyond its public suffix, so it is not empty. -/
theorem Psl.suffixLength_pos (hexc : ∀ s ∈ psl.exceptions, 2 ≤ (labels s).length)
    {ls : List String} {r : SuffixRule String} (h : SuffixRule.Prevails psl.ruleSet ls r) :
    0 < r.suffixLength := by
  have hmem : ∀ {r : SuffixRule String}, r ∈ psl.ruleSet → 0 < r.suffixLength := by
    rintro r (⟨s, -, rfl⟩ | ⟨s, -, rfl⟩ | ⟨s, hs, rfl⟩)
    · exact List.length_pos_iff.2 (labels_ne_nil s)
    · exact Nat.succ_pos _
    · have hlen := hexc s hs
      simp only [SuffixRule.suffixLength]
      omega
  cases h with
  | exception mem => exact hmem mem
  | longest _ mem => exact hmem mem
  | implicit => exact Nat.succ_pos _

/-- The domain of a host is a host. -/
theorem validate_domain (hexc : ∀ s ∈ psl.exceptions, 2 ≤ (labels s).length)
    (hidna : idna.KeepsSuffixes) (h : registrableDomain idna psl host = .ok domain) :
    validateNormalizedHost idna domain = .ok () := by
  obtain ⟨hvalid, hd⟩ := registrableDomain_eq_ok.1 h
  obtain ⟨hne, hascii⟩ := validate_eq_ok.1 hvalid
  refine validate_eq_ok.2 ⟨?_, ?_⟩
  · rintro rfl
    generalize hls : labels "" = ls at hd
    cases hd with
    | whole => exact hne (labels_injective hls.symm)
    | suffix _ prevails _ length =>
      have hpos := Psl.suffixLength_pos hexc prevails
      rw [← hls, labels_empty, List.length_singleton] at length
      omega
  · have hsuffix := hidna host (labels domain) hascii (labels_ne_nil domain) hd.suffix_name
    rwa [join_labels] at hsuffix

end

theorem domain_of_resolve {idna : Idna} {psl : Psl} {ρ : Type} {env : Wallet.Env ρ}
    (henv : env.registrableDomain = fun host => (registrableDomain idna psl host).toOption)
    {key : ByteArr 32} {host : String} {scope : Wallet.PayerScope}
    (h : Wallet.PayerScope.resolve env key host = some scope) :
    Domain psl.ruleSet registers (labels host) (labels scope.registrableDomain) := by
  rw [Wallet.PayerScope.resolve, henv, Option.map_eq_some_iff] at h
  obtain ⟨domain, hdomain, rfl⟩ := h
  dsimp only at hdomain
  rcases hr : registrableDomain idna psl host with e | domain'
  · rw [hr] at hdomain
    cases hdomain
  · rw [hr] at hdomain
    cases hdomain
    exact (registrableDomain_eq_ok.1 hr).2

/-- On a host in normal form the resolver answers the domain of the canonical algorithm on the
rules of the list, label by label; the domain ends the host and is its own domain. A host that is
all public suffix or has no plausible last label is the domain of no other host, and under one
public suffix no two labels share a scope, so, where the derivation of keys does not collide on
the scopes, they share no payer key. -/
theorem registrableDomain_canonical {idna : Idna} {psl : Psl}
    (hexc : ∀ s ∈ psl.exceptions, 2 ≤ (labels s).length) (hidna : idna.KeepsSuffixes) :
    (∀ host domain, registrableDomain idna psl host = .ok domain ↔
      validateNormalizedHost idna host = .ok () ∧
        Domain psl.ruleSet registers (labels host) (labels domain)) ∧
    (∀ host, validateNormalizedHost idna host = .ok () →
      ∃ domain, registrableDomain idna psl host = .ok domain) ∧
    (∀ host domain, registrableDomain idna psl host = .ok domain →
      labels domain <:+ labels host ∧ registrableDomain idna psl domain = .ok domain) ∧
    (∀ host host', (¬registers (labels host) ∨ PublicSuffix psl.ruleSet (labels host)) →
      registrableDomain idna psl host' = .ok host → host' = host) ∧
    (∀ {ρ : Type} (env : Wallet.Env ρ),
      (env.registrableDomain = fun host => (registrableDomain idna psl host).toOption) →
      ∀ key key' host host' scope scope', Wallet.PayerScope.resolve env key host = some scope →
      Wallet.PayerScope.resolve env key' host' = some scope' →
      (∀ suffix label label' r r', SuffixRule.Prevails psl.ruleSet (labels host) r →
        SuffixRule.Prevails psl.ruleSet (labels host') r' → r.suffixLength = suffix.length →
        r'.suffixLength = suffix.length → label :: suffix <:+ labels host →
        label' :: suffix <:+ labels host' → label ≠ label' → scope ≠ scope') ∧
      (∀ (suite : Suite) (custody : Wallet.Custody), Set.InjOn
        (fun info => suite.ed25519Public (suite.hkdfSha256 custody.root.toList [] info))
        {scope.derivationInfo, scope'.derivationInfo} →
        custody.payerKey suite scope = custody.payerKey suite scope' → scope = scope')) ∧
    (∀ text, (Psl.load idna text).ruleSet =
      {r | ∃ line ∈ text.toList.splitOn '\n', Psl.lineRule idna line = some r}) := by
  refine ⟨fun host domain => registrableDomain_eq_ok, fun host hvalid => ?_,
    fun host domain h => ?_, fun host host' hwhole h => ?_, ?_, Psl.ruleSet_load idna⟩
  · obtain ⟨domain, hdomain, -⟩ := @exists_domain idna psl host hvalid
    exact ⟨domain, hdomain⟩
  · have hd := (registrableDomain_eq_ok.1 h).2
    exact ⟨hd.suffix_name, registrableDomain_eq_ok.2 ⟨validate_domain hexc hidna h,
      hd.idem Psl.exception_ne_nil registers_suffix⟩⟩
  · exact labels_injective ((registrableDomain_eq_ok.1 h).2.whole_unique Psl.exception_ne_nil
      registers_suffix hwhole)
  · intro ρ env henv key key' host host' scope scope' hscope hscope'
    refine ⟨?_, ?_⟩
    · rintro suffix label label' r r' hr hr' hlen hlen' hname hname' hne rfl
      have hd := domain_of_resolve henv hscope
      have hd' := domain_of_resolve henv hscope'
      exact hne (Domain.siblings hr hr' hlen hlen' hname hname' hd hd')
    · intro suite custody hinj hkey
      exact Wallet.PayerScope.derivationInfo_injective (hinj (.inl rfl) (.inr rfl) hkey)

/-! ## A list of few rules -/

/-- A label of lower case letters, digits and hyphens. -/
def plainLabel (label : String) : Bool :=
  label != "" && label.toList.all fun c => c.isLower || c.isDigit || c == '-'

/-- The conversion of hosts that are plain already. -/
def plainIdna : Idna where
  domainToAscii := some
  domainToAsciiStrict host := if (labels host).all plainLabel then some host else none

theorem plainIdna_keepsSuffixes : plainIdna.KeepsSuffixes := by
  intro host ls h hne hsuffix
  have hplain : ∀ label ∈ labels host, plainLabel label = true := by
    simpa [plainIdna] using h
  have hdot : DotFree ls := fun label hlabel => labels_dotFree host label (hsuffix.subset hlabel)
  have hsub : ls.all plainLabel = true :=
    List.all_eq_true.2 fun label hlabel => hplain label (hsuffix.subset hlabel)
  simp only [plainIdna, labels_join hne hdot, hsub, if_true]

def fewRules : Psl := .load plainIdna
  "// a list\ncom\njp\n*.kawasaki.jp\n!city.kawasaki.jp\n\nuk \nco.uk"

/-- An exception, a wildcard's host and a number for a last label. -/
theorem registrableDomain_canonical_fewRules :
    Domain fewRules.ruleSet registers (labels "a.www.city.kawasaki.jp")
      (labels "city.kawasaki.jp") ∧
    labels "b.c.kawasaki.jp" <:+ labels "a.b.c.kawasaki.jp" ∧
    registrableDomain plainIdna fewRules "b.c.kawasaki.jp" = .ok "b.c.kawasaki.jp" ∧
    ∀ host, registrableDomain plainIdna fewRules host = .ok "127.0.0.1" → host = "127.0.0.1" := by
  have hexc : ∀ s ∈ fewRules.exceptions, 2 ≤ (labels s).length := by decide +kernel
  obtain ⟨hdomain, -, hends, hwhole, -⟩ :=
    registrableDomain_canonical hexc plainIdna_keepsSuffixes
  have hcity : registrableDomain plainIdna fewRules "a.www.city.kawasaki.jp" =
      .ok "city.kawasaki.jp" := by decide +kernel
  have hwild : registrableDomain plainIdna fewRules "a.b.c.kawasaki.jp" =
      .ok "b.c.kawasaki.jp" := by decide +kernel
  have hnumber : ¬registers (labels "127.0.0.1") := by
    unfold registers
    decide +kernel
  exact ⟨((hdomain _ _).1 hcity).2, (hends _ _ hwild).1, (hends _ _ hwild).2,
    fun host h => hwhole _ host (.inl hnumber) h⟩

end Host

end Paytp
