import Mathlib.Data.Finset.Insert
import Mathlib.Data.Set.Basic
import Paytp.Lib.SuffixRules

/-!
# Hosts and their registrable domains

A host is taken as it is, in its normal form, or refused. Its registrable domain is resolved
against the list of public suffixes, both sections of it; the domain scopes the keys that a payer
shows a merchant.

The conversion of names to ASCII is given from outside.
-/

namespace Paytp

namespace Host

/-- The conversions of internationalised names to ASCII. -/
structure Idna where
  domainToAscii : String → Option String
  domainToAsciiStrict : String → Option String

/-- The labels between the dots. -/
def labels (host : String) : List String := (host.toList.splitOn '.').map String.ofList

/-- Labels joined by dots. -/
def join (labels : List String) : String :=
  String.ofList (['.'].intercalate (labels.map String.toList))

/-! ## The list of public suffixes -/

/-- The rules of a list, in ASCII: what a wildcard stands in front of and what an exception
excepts are kept without their marks. -/
structure Psl where
  rules : Finset String
  wildcards : Finset String
  exceptions : Finset String

/-- The white space of Unicode. -/
def isWhitespace (c : Char) : Bool :=
  let n := c.toNat
  (0x09 ≤ n && n ≤ 0x0d) || n == 0x20 || n == 0x85 || n == 0xa0 || n == 0x1680 ||
    (0x2000 ≤ n && n ≤ 0x200a) || n == 0x2028 || n == 0x2029 || n == 0x202f || n == 0x205f ||
    n == 0x3000

def trim (line : List Char) : List Char :=
  ((line.dropWhile isWhitespace).reverse.dropWhile isWhitespace).reverse

/-- A rule that does not convert is kept in lower case. -/
def ruleToAlabel (idna : Idna) (rule : String) : String :=
  (idna.domainToAscii rule).getD (String.ofList (rule.toList.map Char.toLower))

namespace Psl

/-- Take a line of the list in: comments and blank lines carry no rule, and a rule ends at the
first white space. -/
def insertLine (idna : Idna) (p : Psl) (raw : List Char) : Psl :=
  let line := trim raw
  if line.isEmpty || ['/', '/'].isPrefixOf line then p
  else
    match line.takeWhile (fun c => !isWhitespace c) with
    | '!' :: exc =>
      { p with exceptions := insert (ruleToAlabel idna (String.ofList exc)) p.exceptions }
    | '*' :: '.' :: wild =>
      { p with wildcards := insert (ruleToAlabel idna (String.ofList wild)) p.wildcards }
    | rule => { p with rules := insert (ruleToAlabel idna (String.ofList rule)) p.rules }

/-- The lines of the list. A carriage return at the end of one is trimmed with the white space,
and what follows the last line feed is a blank line. -/
def load (idna : Idna) (text : String) : Psl :=
  (text.toList.splitOn '\n').foldl (insertLine idna) ⟨∅, ∅, ∅⟩

variable (p : Psl)

/-- How many of the last labels are the public suffix: the longest exception less its first label,
or else as many as the longest rule matches, or else one. -/
def publicSuffixLen (labels : List String) : ℕ :=
  let n := labels.length
  match (List.range n).find? fun i => decide (join (labels.drop i) ∈ p.exceptions) with
  | some i => n - i - 1
  | none =>
    let best := (List.range n).foldl (fun best i =>
      let best := if join (labels.drop i) ∈ p.rules then max best (n - i) else best
      if i + 1 < n ∧ join (labels.drop (i + 1)) ∈ p.wildcards then max best (n - i) else best) 0
    max best 1

/-- The public suffix and one label more, if there is one. -/
def registrableDomain (host : String) : Option String :=
  let labels := labels host
  let n := labels.length
  let ps := p.publicSuffixLen labels
  if n ≤ ps then none else some (join (labels.drop (n - ps - 1)))

end Psl

/-! ## Hosts -/

inductive HostError
  | empty
  | notNormalized
  deriving DecidableEq, Repr

/-- A host is valid exactly if its conversion leaves it as it is. -/
def validateNormalizedHost (idna : Idna) (host : String) : Except HostError Unit :=
  if host = "" then .error .empty
  else if idna.domainToAsciiStrict host = some host then .ok ()
  else .error .notNormalized

/-- A label that names are registered under: of ASCII letters or in the form of converted ones. -/
def plausibleTld (tld : String) : Bool :=
  tld != "" && (tld.toList.all Char.isAlpha || ['x', 'n', '-', '-'].isPrefixOf tld.toList)

def hasPlausibleTld (host : String) : Bool := plausibleTld ((labels host).getLastD host)

def registrableDomain (idna : Idna) (psl : Psl) (host : String) : Except HostError String := do
  validateNormalizedHost idna host
  if !hasPlausibleTld host then return host
  else return (psl.registrableDomain host).getD host

end Host

end Paytp
