import Mathlib.Data.List.Basic
import Mathlib.Data.List.Infix
import Mathlib.Data.List.TakeWhile

/-!
# Texts of JSON documents

A reader of JSON texts, and a writer without white space over any escaping of characters that
reads back. What is written reads back as the document it was written of, so two documents are not
written the same. A number keeps its token; an object keeps its members in their order.
-/

namespace Paytp

inductive JsonTree
  | null
  | bool (b : Bool)
  /-- The token of a number. -/
  | number (token : List Char)
  | string (s : List Char)
  | array (items : List JsonTree)
  | object (members : List (List Char × JsonTree))
  deriving Inhabited

namespace JsonTree

/-! ## Tokens -/

def isWs (c : Char) : Bool := c == ' ' || c == '\t' || c == '\n' || c == '\r'

def skipWs (cs : List Char) : List Char := cs.dropWhile isWs

def isNumberChar (c : Char) : Bool :=
  c.isDigit || c == '-' || c == '+' || c == '.' || c == 'e' || c == 'E'

/-- A nonempty run of digits. -/
def isDigits (cs : List Char) : Bool := cs != [] && cs.all Char.isDigit

/-- What may follow the fraction. -/
def isExponent : List Char → Bool
  | [] => true
  | c :: cs => (c == 'e' || c == 'E') &&
    match cs with
    | '+' :: ds => isDigits ds
    | '-' :: ds => isDigits ds
    | ds => isDigits ds

/-- What may follow the integer part. -/
def isFraction : List Char → Bool
  | '.' :: cs => isDigits (cs.takeWhile Char.isDigit) && isExponent (cs.dropWhile Char.isDigit)
  | cs => isExponent cs

/-- No leading zero but the only one. -/
def isInteger : List Char → Bool
  | ['0'] => true
  | c :: cs => c != '0' && isDigits (c :: cs)
  | [] => false

/-- A number token. -/
def isNumber (cs : List Char) : Bool :=
  let unsigned := match cs with
    | '-' :: ds => ds
    | ds => ds
  isInteger (unsigned.takeWhile Char.isDigit) && isFraction (unsigned.dropWhile Char.isDigit)

/-! ## Strings -/

def hexDigit? (c : Char) : Option ℕ :=
  if c.isDigit then some (c.toNat - 48)
  else if 'a' ≤ c ∧ c ≤ 'f' then some (c.toNat - 87)
  else if 'A' ≤ c ∧ c ≤ 'F' then some (c.toNat - 55)
  else none

/-- Four hexadecimal digits off the front. -/
def hex4 : List Char → Option (ℕ × List Char)
  | a :: b :: c :: d :: rest => do
    let n := (((← hexDigit? a) * 16 + (← hexDigit? b)) * 16 + (← hexDigit? c)) * 16 +
      (← hexDigit? d)
    return (n, rest)
  | _ => none

/-- The character of the code units that begin with `n`: a high surrogate needs its low one. -/
def codeUnits (n : ℕ) (rest : List Char) : Option (Char × List Char) :=
  if 0xDC00 ≤ n ∧ n < 0xE000 then none
  else if 0xD800 ≤ n ∧ n < 0xDC00 then
    match rest with
    | '\\' :: 'u' :: cs => do
      let (low, rest) ← hex4 cs
      if 0xDC00 ≤ low ∧ low < 0xE000 then
        return (Char.ofNat (0x10000 + (n - 0xD800) * 0x400 + (low - 0xDC00)), rest)
      else none
    | _ => none
  else some (Char.ofNat n, rest)

/-- What a backslash and a letter stand for. -/
def escaped : Char → Option Char
  | '\x22' => some '\x22'
  | '\\' => some '\\'
  | '/' => some '/'
  | 'b' => some '\x08'
  | 'f' => some '\x0c'
  | 'n' => some '\n'
  | 'r' => some '\r'
  | 't' => some '\t'
  | _ => none

/-- A character of a string off the front. -/
def stringChar : List Char → Option (Char × List Char)
  | [] => none
  | c :: cs =>
    if c = '\\' then
      match cs with
      | 'u' :: cs => do
        let (n, rest) ← hex4 cs
        codeUnits n rest
      | e :: cs => (escaped e).map fun c => (c, cs)
      | [] => none
    else if c = '\x22' ∨ c.toNat < 0x20 then none
    else some (c, cs)

/-- The characters up to the closing quote. -/
def stringBody : ℕ → List Char → Option (List Char × List Char)
  | 0, _ => none
  | fuel + 1, cs =>
    if cs.head? = some '\x22' then some ([], cs.tail)
    else do
      let (c, rest) ← stringChar cs
      let (s, rest) ← stringBody fuel rest
      return (c :: s, rest)

/-! ## Values -/

/-- A symbol off the front, behind white space. -/
def expect (symbol : Char) (cs : List Char) : Option (List Char) :=
  let cs := skipWs cs
  if cs.head? = some symbol then some cs.tail else none

mutual

/-- A value off the front. -/
def value : ℕ → List Char → Option (JsonTree × List Char)
  | 0, _ => none
  | fuel + 1, cs =>
    let cs := skipWs cs
    match cs with
    | [] => none
    | c :: rest =>
      if c = '\x22' then (stringBody rest.length rest).map fun p => (.string p.1, p.2)
      else if c = '[' then
        match expect ']' rest with
        | some rest => some (.array [], rest)
        | none => (items fuel rest).map fun p => (.array p.1, p.2)
      else if c = '\x7b' then
        match expect '\x7d' rest with
        | some rest => some (.object [], rest)
        | none => (members fuel rest).map fun p => (.object p.1, p.2)
      else if cs.take 4 = ['n', 'u', 'l', 'l'] then some (.null, cs.drop 4)
      else if cs.take 4 = ['t', 'r', 'u', 'e'] then some (.bool true, cs.drop 4)
      else if cs.take 5 = ['f', 'a', 'l', 's', 'e'] then some (.bool false, cs.drop 5)
      else if isNumber (cs.takeWhile isNumberChar) then
        some (.number (cs.takeWhile isNumberChar), cs.dropWhile isNumberChar)
      else none

/-- The items of an array, one at least, up to its end. -/
def items : ℕ → List Char → Option (List JsonTree × List Char)
  | 0, _ => none
  | fuel + 1, cs => do
    let (v, rest) ← value fuel cs
    match expect ',' rest with
    | some rest => do
      let (vs, rest) ← items fuel rest
      return (v :: vs, rest)
    | none => do
      let rest ← expect ']' rest
      return ([v], rest)

/-- The members of an object, one at least, up to its end. -/
def members : ℕ → List Char → Option (List (List Char × JsonTree) × List Char)
  | 0, _ => none
  | fuel + 1, cs => do
    let rest ← expect '\x22' cs
    let (key, rest) ← stringBody rest.length rest
    let rest ← expect ':' rest
    let (v, rest) ← value fuel rest
    match expect ',' rest with
    | some rest => do
      let (ms, rest) ← members fuel rest
      return ((key, v) :: ms, rest)
    | none => do
      let rest ← expect '\x7d' rest
      return ([(key, v)], rest)

end

/-- Read a whole text. -/
def read (text : List Char) : Option JsonTree := do
  let (t, rest) ← value text.length text
  if skipWs rest = [] then return t else none

/-! ## Writing -/

section
variable (escape : Char → List Char)

def writeString (s : List Char) : List Char := '\x22' :: (s.flatMap escape ++ ['\x22'])

mutual

def write : JsonTree → List Char
  | null => ['n', 'u', 'l', 'l']
  | bool b => if b then ['t', 'r', 'u', 'e'] else ['f', 'a', 'l', 's', 'e']
  | number token => token
  | string s => writeString escape s
  | array items => '[' :: (List.intercalate [','] (writeItems items) ++ [']'])
  | object members => '\x7b' :: (List.intercalate [','] (writeMembers members) ++ ['\x7d'])

def writeItems : List JsonTree → List (List Char)
  | [] => []
  | v :: vs => write v :: writeItems vs

def writeMembers : List (List Char × JsonTree) → List (List Char)
  | [] => []
  | (k, v) :: ms => (writeString escape k ++ ':' :: write v) :: writeMembers ms

end

/-- Every character reads back from what it is escaped to, which does not begin as a string ends. -/
structure Escapes : Prop where
  reads : ∀ c rest, stringChar (escape c ++ rest) = some (c, rest)
  head_ne : ∀ c, (escape c).head? ≠ some '\x22'

end

/-- Every number is a number token. -/
inductive Numbers : JsonTree → Prop
  | null : Numbers .null
  | bool (b : Bool) : Numbers (.bool b)
  | number {token : List Char} (h : isNumber token = true) : Numbers (.number token)
  | string (s : List Char) : Numbers (.string s)
  | array {items : List JsonTree} (h : ∀ v ∈ items, Numbers v) : Numbers (.array items)
  | object {members : List (List Char × JsonTree)} (h : ∀ m ∈ members, Numbers m.2) :
    Numbers (.object members)

/-! ## Reading back -/

theorem isDigit_number {c : Char} (h : c.isDigit = true) : isNumberChar c = true := by
  simp [isNumberChar, h]

theorem isDigits_all {cs : List Char} (h : isDigits cs = true) :
    cs ≠ [] ∧ ∀ c ∈ cs, isNumberChar c = true := by
  simp only [isDigits, Bool.and_eq_true, bne_iff_ne, List.all_eq_true] at h
  exact ⟨h.1, fun c hc => isDigit_number (h.2 c hc)⟩

theorem isExponent_all {cs : List Char} (h : isExponent cs = true) :
    ∀ c ∈ cs, isNumberChar c = true := by
  rcases cs with _ | ⟨e, cs⟩
  · simp
  · simp only [isExponent, Bool.and_eq_true] at h
    obtain ⟨he, hds⟩ := h
    have hletter : isNumberChar e = true := by
      simp only [Bool.or_eq_true, beq_iff_eq] at he
      rcases he with rfl | rfl <;> decide
    refine List.forall_mem_cons.2 ⟨hletter, ?_⟩
    split at hds
    · exact List.forall_mem_cons.2 ⟨by decide, (isDigits_all hds).2⟩
    · exact List.forall_mem_cons.2 ⟨by decide, (isDigits_all hds).2⟩
    · exact (isDigits_all hds).2

theorem isFraction_all {cs : List Char} (h : isFraction cs = true) :
    ∀ c ∈ cs, isNumberChar c = true := by
  unfold isFraction at h
  split at h
  · rename_i ds
    rw [Bool.and_eq_true] at h
    refine List.forall_mem_cons.2 ⟨by decide, ?_⟩
    rw [← List.takeWhile_append_dropWhile (p := Char.isDigit) (l := ds)]
    intro c hc
    rcases List.mem_append.1 hc with hc | hc
    · exact (isDigits_all h.1).2 c hc
    · exact isExponent_all h.2 c hc
  · exact isExponent_all h

/-- A number token is not empty, and of the characters of numbers. -/
theorem isNumber_all {cs : List Char} (h : isNumber cs = true) :
    cs ≠ [] ∧ ∀ c ∈ cs, isNumberChar c = true := by
  have hunsigned : ∀ {ds : List Char}, isInteger (ds.takeWhile Char.isDigit) = true →
      isFraction (ds.dropWhile Char.isDigit) = true →
      ds ≠ [] ∧ ∀ c ∈ ds, isNumberChar c = true := by
    intro ds hint hfrac
    refine ⟨?_, ?_⟩
    · rintro rfl
      simp [isInteger] at hint
    · rw [← List.takeWhile_append_dropWhile (p := Char.isDigit) (l := ds)]
      intro c hc
      rcases List.mem_append.1 hc with hc | hc
      · exact isDigit_number (List.mem_takeWhile_imp hc)
      · exact isFraction_all hfrac c hc
  simp only [isNumber, Bool.and_eq_true] at h
  split at h
  · exact ⟨List.cons_ne_nil _ _,
      List.forall_mem_cons.2 ⟨by decide, (hunsigned h.1 h.2).2⟩⟩
  · exact hunsigned h.1 h.2

/-- No number goes on with this. -/
def Stops (rest : List Char) : Prop := ∀ c ∈ rest.head?, isNumberChar c = false

theorem takeWhile_stops {p : Char → Bool} {token rest : List Char} (h : ∀ c ∈ token, p c = true)
    (hstops : ∀ c ∈ rest.head?, p c = false) :
    (token ++ rest).takeWhile p = token ∧ (token ++ rest).dropWhile p = rest := by
  have hrest : rest.takeWhile p = [] ∧ rest.dropWhile p = rest := by
    rcases rest with _ | ⟨c, rest⟩
    · exact ⟨rfl, rfl⟩
    · have hc := hstops c rfl
      simp [hc]
  rw [List.takeWhile_append_of_pos h, List.dropWhile_append_of_pos h, hrest.1, hrest.2]
  simp

section
variable {escape : Char → List Char}

theorem Escapes.length_pos (h : Escapes escape) (c : Char) : 0 < (escape c).length := by
  rcases hc : escape c with _ | ⟨d, ds⟩
  · have hread := h.reads c []
    rw [hc] at hread
    simp [stringChar] at hread
  · simp

/-- A string is read up to its end. -/
theorem stringBody_write (h : Escapes escape) (rest : List Char) : ∀ {s : List Char} {fuel : ℕ},
    s.length < fuel → stringBody fuel (s.flatMap escape ++ '\x22' :: rest) = some (s, rest)
  | [], fuel + 1, _ => by
    simp [stringBody]
  | c :: s, fuel + 1, hfuel => by
    have hhead : (escape c ++ (s.flatMap escape ++ '\x22' :: rest)).head? ≠ some '\x22' := by
      rw [List.head?_append_of_ne_nil _ (List.length_pos_iff.1 (h.length_pos c))]
      exact h.head_ne c
    rw [List.flatMap_cons, List.append_assoc, stringBody, if_neg hhead, h.reads]
    simp only [Option.bind_eq_bind, Option.bind_some]
    rw [stringBody_write h rest (Nat.lt_of_succ_lt_succ hfuel)]
    rfl

theorem length_le_flatMap_escape (h : Escapes escape) : ∀ s : List Char,
    s.length ≤ (s.flatMap escape).length
  | [] => Nat.le_refl 0
  | c :: s => by
    have hc := h.length_pos c
    have ih := length_le_flatMap_escape h s
    rw [List.flatMap_cons, List.length_append, List.length_cons]
    omega

/-- A string and its quotes are read off the front. -/
theorem writeString_read (h : Escapes escape) (s rest : List Char) :
    ∃ body, writeString escape s ++ rest = '\x22' :: body ∧
      stringBody body.length body = some (s, rest) := by
  refine ⟨s.flatMap escape ++ '\x22' :: rest, by simp [writeString], ?_⟩
  refine stringBody_write h rest ?_
  have hle := length_le_flatMap_escape h s
  rw [List.length_append, List.length_cons]
  omega

theorem skipWs_cons {c : Char} {cs : List Char} (h : isWs c = false) :
    skipWs (c :: cs) = c :: cs := by
  simp [skipWs, h]

theorem expect_cons {c symbol : Char} {cs : List Char} (h : isWs c = false) :
    expect symbol (c :: cs) = if c = symbol then some cs else none := by
  simp [expect, skipWs_cons h]

theorem writeItems_eq : ∀ items : List JsonTree,
    writeItems escape items = items.map (write escape)
  | [] => rfl
  | v :: vs => by rw [writeItems, writeItems_eq vs, List.map_cons]

/-- A member's text. -/
def writeMember (escape : Char → List Char) (m : List Char × JsonTree) : List Char :=
  writeString escape m.1 ++ ':' :: write escape m.2

theorem writeMembers_eq : ∀ members : List (List Char × JsonTree),
    writeMembers escape members = members.map (writeMember escape)
  | [] => rfl
  | (k, v) :: ms => by
    rw [writeMembers, writeMembers_eq ms, List.map_cons]
    rfl

/-- A value is not empty, and it does not begin with white space nor as an array ends. -/
theorem write_head {t : JsonTree} (h : Numbers t) :
    ∃ c cs, write escape t = c :: cs ∧ isWs c = false ∧ c ≠ ']' := by
  cases h with
  | null => exact ⟨_, _, rfl, by decide, by decide⟩
  | bool b =>
    cases b
    · exact ⟨'f', _, rfl, by decide, by decide⟩
    · exact ⟨'t', _, rfl, by decide, by decide⟩
  | @number token hnumber =>
    obtain ⟨hne, hall⟩ := isNumber_all hnumber
    obtain ⟨c, cs, rfl⟩ := List.exists_cons_of_ne_nil hne
    have hc := hall c List.mem_cons_self
    refine ⟨c, cs, rfl, ?_, ?_⟩
    · by_contra hws
      simp only [isWs, Bool.not_eq_false, Bool.or_eq_true, beq_iff_eq] at hws
      rcases hws with ((rfl | rfl) | rfl) | rfl <;> exact absurd hc (by decide)
    · rintro rfl
      exact absurd hc (by decide)
  | string s => exact ⟨_, _, rfl, by decide, by decide⟩
  | array => exact ⟨_, _, rfl, by decide, by decide⟩
  | object => exact ⟨_, _, rfl, by decide, by decide⟩

theorem expect_write {t : JsonTree} (h : Numbers t) (rest : List Char) :
    expect ']' (write escape t ++ rest) = none := by
  obtain ⟨c, cs, hcs, hws, hne⟩ := @write_head escape t h
  rw [hcs, List.cons_append, expect_cons hws, if_neg hne]

/-- What reads the value of a tree off the front, with fuel for its text. -/
def ReadsTree (escape : Char → List Char) (t : JsonTree) : Prop :=
  ∀ (fuel : ℕ) (rest : List Char), (write escape t).length ≤ fuel → Stops rest →
    value fuel (write escape t ++ rest) = some (t, rest)

/-- The items of an array are read up to its end. -/
theorem items_write {rest : List Char} : ∀ {vs : List JsonTree} {fuel : ℕ}, vs ≠ [] →
    (∀ v ∈ vs, ReadsTree escape v) →
    (List.intercalate [','] (vs.map (write escape))).length + 1 ≤ fuel →
    items fuel (List.intercalate [','] (vs.map (write escape)) ++ ']' :: rest) = some (vs, rest)
  | [v], fuel + 1, _, hreads, hfuel => by
    have hv := hreads v List.mem_cons_self
    simp only [List.map_cons, List.map_nil, List.intercalate_singleton] at hfuel ⊢
    rw [items, hv _ _ (by omega) (by simp [Stops, isNumberChar])]
    simp only [Option.bind_eq_bind, Option.bind_some]
    rw [expect_cons (by decide), if_neg (by decide), expect_cons (by decide), if_pos rfl]
    rfl
  | v :: w :: vs, fuel + 1, _, hreads, hfuel => by
    obtain ⟨hv, hvs⟩ := List.forall_mem_cons.1 hreads
    simp only [List.map_cons, List.intercalate_cons_cons, List.length_append, List.length_cons,
      List.append_assoc] at hfuel ⊢
    rw [items, List.cons_append, List.nil_append, hv _ _ (by omega) (by simp [Stops, isNumberChar])]
    simp only [Option.bind_eq_bind, Option.bind_some]
    rw [expect_cons (by decide), if_pos rfl]
    simp only
    have ih := @items_write rest (w :: vs) fuel (by simp) hvs (by
      simp only [List.map_cons]
      omega)
    simp only [List.map_cons] at ih
    rw [ih]
    rfl

/-- The members of an object are read up to its end. -/
theorem members_write (h : Escapes escape) {rest : List Char} :
    ∀ {ms : List (List Char × JsonTree)} {fuel : ℕ}, ms ≠ [] →
    (∀ m ∈ ms, ReadsTree escape m.2) →
    (List.intercalate [','] (ms.map (writeMember escape))).length + 1 ≤ fuel →
    members fuel (List.intercalate [','] (ms.map (writeMember escape)) ++ '\x7d' :: rest) =
      some (ms, rest)
  | [(k, v)], fuel + 1, _, hreads, hfuel => by
    have hv : ReadsTree escape v := hreads (k, v) List.mem_cons_self
    simp only [List.map_cons, List.map_nil, List.intercalate_singleton, writeMember,
      List.length_append, List.length_cons, List.append_assoc, List.cons_append] at hfuel ⊢
    obtain ⟨body, hbody, hkey⟩ := writeString_read h k
      (':' :: (write escape v ++ '\x7d' :: rest))
    rw [members, hbody, expect_cons (by decide), if_pos rfl]
    simp only [Option.bind_eq_bind, Option.bind_some]
    rw [hkey]
    simp only [Option.bind_some]
    rw [expect_cons (by decide), if_pos rfl]
    simp only [Option.bind_some]
    rw [hv _ _ (by omega) (by simp [Stops, isNumberChar])]
    simp only [Option.bind_some]
    rw [expect_cons (by decide), if_neg (by decide), expect_cons (by decide), if_pos rfl]
    rfl
  | (k, v) :: m :: ms, fuel + 1, _, hreads, hfuel => by
    have hv : ReadsTree escape v := hreads (k, v) List.mem_cons_self
    have hms : ∀ n ∈ m :: ms, ReadsTree escape n.2 := fun n hn =>
      hreads n (List.mem_cons_of_mem _ hn)
    simp only [List.map_cons, List.intercalate_cons_cons, List.length_append, List.length_cons,
      List.append_assoc, List.cons_append, List.nil_append] at hfuel ⊢
    rw [writeMember] at hfuel ⊢
    simp only [List.length_append, List.length_cons, List.append_assoc, List.cons_append]
      at hfuel ⊢
    have ih := @members_write h rest (m :: ms) fuel (by simp) hms (by
      simp only [List.map_cons]
      omega)
    simp only [List.map_cons] at ih
    obtain ⟨body, hbody, hkey⟩ := writeString_read h k (':' :: (write escape v ++ ',' ::
      (List.intercalate [','] (writeMember escape m :: ms.map (writeMember escape)) ++
        '\x7d' :: rest)))
    rw [members, hbody, expect_cons (by decide), if_pos rfl]
    simp only [Option.bind_eq_bind, Option.bind_some]
    rw [hkey]
    simp only [Option.bind_some]
    rw [expect_cons (by decide), if_pos rfl]
    simp only [Option.bind_some]
    rw [hv _ _ (by omega) (by simp [Stops, isNumberChar])]
    simp only [Option.bind_some]
    rw [expect_cons (by decide), if_pos rfl]
    simp only
    rw [ih]
    rfl

/-- A value is read off the front of what it is written to. -/
theorem value_write (h : Escapes escape) {t : JsonTree} (ht : Numbers t) :
    ReadsTree escape t := by
  induction ht with
  | null =>
    rintro (_ | fuel) rest hfuel hstops
    · simp [write] at hfuel
    · rfl
  | bool b =>
    rintro (_ | fuel) rest hfuel hstops
    · cases b <;> simp [write] at hfuel
    · cases b <;> rfl
  | number hnumber =>
    rename_i token
    obtain ⟨hne, hall⟩ := isNumber_all hnumber
    rintro (_ | fuel) rest hfuel hstops
    · exact absurd (List.length_eq_zero_iff.1 (Nat.le_zero.1 hfuel)) hne
    · obtain ⟨htake, hdrop⟩ := takeWhile_stops hall hstops
      obtain ⟨c, cs, rfl⟩ := List.exists_cons_of_ne_nil hne
      have hc := hall c List.mem_cons_self
      have hfirst : ∀ d, isNumberChar d = false → c ≠ d := by
        rintro d hd rfl
        exact absurd hc (by simp [hd])
      have hword : ∀ (n : ℕ) (d : Char) (ds : List Char), isNumberChar d = false →
          (c :: cs ++ rest).take n ≠ d :: ds := by
        intro n d ds hd heq
        cases n with
        | zero => simp at heq
        | succ n => exact hfirst d hd (List.cons.inj heq).1
      have hws : isWs c = false := by
        have hhead := @write_head escape _ (Numbers.number hnumber)
        obtain ⟨d, ds, hds, hws, -⟩ := hhead
        rw [write, List.cons.injEq] at hds
        exact hds.1 ▸ hws
      have hskip : skipWs (c :: cs ++ rest) = c :: cs ++ rest := skipWs_cons hws
      rw [write, value]
      simp only [hskip]
      rw [List.cons_append] at htake hdrop hword ⊢
      simp only [if_neg (hfirst '\x22' (by decide)), if_neg (hfirst '[' (by decide)),
        if_neg (hfirst '\x7b' (by decide)), if_neg (hword 4 'n' _ (by decide)),
        if_neg (hword 4 't' _ (by decide)), if_neg (hword 5 'f' _ (by decide)), htake, hdrop,
        hnumber, if_true]
  | string s =>
    rintro (_ | fuel) rest hfuel hstops
    · simp [write, writeString] at hfuel
    · obtain ⟨body, hbody, hread⟩ := writeString_read h s rest
      rw [write, hbody, value]
      simp only [skipWs_cons (c := '\x22') (by decide), if_true, hread, Option.map_some]
  | array hitems ih =>
    rename_i vs
    rintro (_ | fuel) rest hfuel hstops
    · simp [write] at hfuel
    · rw [write, writeItems_eq, List.length_cons, List.length_append,
        List.length_singleton] at hfuel
      rw [write, writeItems_eq, value, List.cons_append]
      simp only [skipWs_cons (c := '[') (by decide), if_neg (show '[' ≠ '\x22' by decide),
        if_true]
      rcases vs with _ | ⟨v, vs⟩
      · rfl
      · have hread := @items_write escape rest (v :: vs) fuel (by simp) ih
          (by omega)
        have hnone : expect ']' (List.intercalate [','] ((v :: vs).map (write escape)) ++ [']'] ++
            rest) = none := by
          rcases vs with _ | ⟨w, vs⟩
          · simp only [List.map_cons, List.map_nil, List.intercalate_singleton, List.append_assoc]
            exact expect_write (hitems v List.mem_cons_self) _
          · simp only [List.map_cons, List.intercalate_cons_cons, List.append_assoc]
            exact expect_write (hitems v List.mem_cons_self) _
        rw [hnone]
        simp only
        rw [List.append_assoc, List.singleton_append, hread]
        rfl
  | object hmembers ih =>
    rename_i ms
    rintro (_ | fuel) rest hfuel hstops
    · simp [write] at hfuel
    · rw [write, writeMembers_eq, List.length_cons, List.length_append,
        List.length_singleton] at hfuel
      rw [write, writeMembers_eq, value, List.cons_append]
      simp only [skipWs_cons (c := '\x7b') (by decide), if_neg (show '\x7b' ≠ '\x22' by decide),
        if_neg (show '\x7b' ≠ '[' by decide), if_true]
      rcases ms with _ | ⟨m, ms⟩
      · rfl
      · have hread := @members_write escape h rest (m :: ms) fuel (by simp) ih
          (by omega)
        have hnone : expect '\x7d' (List.intercalate [','] ((m :: ms).map (writeMember escape)) ++
            ['\x7d'] ++ rest) = none := by
          rcases ms with _ | ⟨n, ms⟩ <;>
            simp only [List.map_cons, List.map_nil, List.intercalate_singleton,
              List.intercalate_cons_cons, writeMember, writeString, List.cons_append] <;>
            rw [expect_cons (by decide), if_neg (by decide)]
        rw [hnone]
        simp only
        rw [List.append_assoc, List.singleton_append, hread]
        rfl

/-- What is written reads back. -/
theorem read_write (h : Escapes escape) {t : JsonTree} (ht : Numbers t) :
    read (write escape t) = some t := by
  have hstops : Stops [] := by simp [Stops]
  have hvalue := value_write h ht (write escape t).length [] le_rfl hstops
  rw [List.append_nil] at hvalue
  rw [read, hvalue]
  rfl

/-- Two documents are not written the same. -/
theorem write_inj (h : Escapes escape) {t t' : JsonTree} (ht : Numbers t) (ht' : Numbers t')
    (heq : write escape t = write escape t') : t = t' := by
  have hread := read_write h ht
  rw [heq, read_write h ht'] at hread
  exact (Option.some.inj hread).symm

end

/-! ## Nesting -/

mutual

/-- How deep the arrays and objects are nested. -/
def depth : JsonTree → ℕ
  | array items => depthItems items + 1
  | object members => depthMembers members + 1
  | _ => 0

def depthItems : List JsonTree → ℕ
  | [] => 0
  | v :: vs => max (depth v) (depthItems vs)

def depthMembers : List (List Char × JsonTree) → ℕ
  | [] => 0
  | (_, v) :: ms => max (depth v) (depthMembers ms)

end

theorem depth_array_le {items : List JsonTree} {n : ℕ} :
    (array items).depth ≤ n + 1 ↔ ∀ v ∈ items, v.depth ≤ n := by
  rw [depth, Nat.add_le_add_iff_right]
  induction items with
  | nil => simp [depthItems]
  | cons v items ih => rw [depthItems, Nat.max_le, ih, List.forall_mem_cons]

theorem depth_object_le {members : List (List Char × JsonTree)} {n : ℕ} :
    (object members).depth ≤ n + 1 ↔ ∀ m ∈ members, m.2.depth ≤ n := by
  rw [depth, Nat.add_le_add_iff_right]
  induction members with
  | nil => simp [depthMembers]
  | cons m members ih => rw [depthMembers, Nat.max_le, ih, List.forall_mem_cons]

/-- Induction with a hypothesis for every item and every member. -/
@[elab_as_elim]
theorem induct {motive : JsonTree → Prop} (null : motive .null) (bool : ∀ b, motive (.bool b))
    (number : ∀ token, motive (.number token)) (string : ∀ s, motive (.string s))
    (array : ∀ items, (∀ v ∈ items, motive v) → motive (.array items))
    (object : ∀ members, (∀ m ∈ members, motive m.2) → motive (.object members)) :
    ∀ t, motive t :=
  JsonTree.rec null bool number string array object (by simp)
    (fun _ _ hv hvs => List.forall_mem_cons.2 ⟨hv, hvs⟩) (by simp)
    (fun _ _ hm hms => List.forall_mem_cons.2 ⟨hm, hms⟩) fun _ _ hv => hv

end JsonTree

end Paytp
