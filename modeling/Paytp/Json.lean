import Mathlib.Data.List.Lex
import Mathlib.Data.List.Sort
import Paytp.Lib.Bytes

/-!
# Canonical JSON

The JSON values that signed objects are made of, how they are written to be signed, and the
grammars of the numbers that they hold as strings. Text is read by libraries.
-/

namespace Paytp

/-- A JSON value without duplicate members, which are in the order of the document. -/
inductive StrictValue
  | null
  | bool (b : Bool)
  /-- The text of a number. -/
  | number (text : String)
  | string (s : String)
  | array (items : List StrictValue)
  | object (members : List (String × StrictValue))
  deriving Inhabited

/-- What reads JSON documents and Base64url. -/
structure TextCodec where
  parseStrict : String → Option StrictValue
  b64 : Bytes → String
  b64Decode : String → Option Bytes

namespace Jcs

def utf16 (c : Char) : List ℕ :=
  if c.toNat < 0x10000 then [c.toNat]
  else [0xD800 + (c.toNat - 0x10000) / 0x400, 0xDC00 + (c.toNat - 0x10000) % 0x400]

/-- Compare two strings by their UTF-16 code units. -/
def leUtf16 (a b : String) : Bool :=
  decide (a.toList.flatMap utf16 ≤ b.toList.flatMap utf16)

def hexDigits (n : ℕ) : List Char :=
  [Nat.digitChar (n / 4096 % 16), Nat.digitChar (n / 256 % 16), Nat.digitChar (n / 16 % 16),
    Nat.digitChar (n % 16)]

def escapeChar (c : Char) : List Char :=
  if c = '\x22' then ['\\', '\x22']
  else if c = '\\' then ['\\', '\\']
  else if c.toNat = 0x08 then ['\\', 'b']
  else if c.toNat = 0x0C then ['\\', 'f']
  else if c = '\n' then ['\\', 'n']
  else if c = '\r' then ['\\', 'r']
  else if c = '\t' then ['\\', 't']
  else if c.toNat < 0x20 then '\\' :: 'u' :: hexDigits c.toNat
  else [c]

def writeJsonString (s : String) : List Char :=
  '\x22' :: s.toList.flatMap escapeChar ++ ['\x22']

def commaSeparated (parts : List (List Char)) : List Char := List.intercalate [','] parts

/-- Write each member's value, sort by name, and put the names before them. -/
def writeObject (members : List (String × List Char)) : List Char :=
  '\x7b' :: commaSeparated ((members.insertionSort fun a b => leUtf16 a.1 b.1).map fun m =>
    writeJsonString m.1 ++ ':' :: m.2) ++ ['\x7d']

mutual

def writeJcs : StrictValue → List Char
  | .null => "null".toList
  | .bool b => if b then "true".toList else "false".toList
  | .number n => n.toList
  | .string s => writeJsonString s
  | .array items => '[' :: commaSeparated (writeItems items) ++ [']']
  | .object members => writeObject (writeMembers members)

def writeItems : List StrictValue → List (List Char)
  | [] => []
  | v :: vs => writeJcs v :: writeItems vs

def writeMembers : List (String × StrictValue) → List (String × List Char)
  | [] => []
  | (k, v) :: ms => (k, writeJcs v) :: writeMembers ms

end

def toJcs (v : StrictValue) : Bytes := Bytes.ofString (String.ofList (writeJcs v))

/-- No sign, no leading zero. -/
def validateUintString (s : String) : Bool :=
  match s.toList with
  | [] => false
  | ['0'] => true
  | c :: cs => decide ('1' ≤ c ∧ c ≤ '9') && cs.all Char.isDigit

/-- Read an unsigned integer of the type with a maximum, as the standard library does: a plus sign
and leading zeros are admitted. -/
def parseUnsigned (max : ℕ) (s : String) : Option ℕ :=
  let digits := match s.toList with
    | '+' :: ds => ds
    | ds => ds
  if digits = [] ∨ !digits.all Char.isDigit then none
  else
    let n := digits.foldl (fun n c => 10 * n + (c.toNat - 48)) 0
    if n ≤ max then some n else none

/-- Read a canonical one. -/
def parseCanonical (max : ℕ) (s : String) : Option ℕ :=
  if validateUintString s then parseUnsigned max s else none

end Jcs

namespace StrictValue

/-- The value of a member by the name, if it is an object. -/
def member (v : StrictValue) (key : String) : Option StrictValue :=
  match v with
  | .object m => (m.find? fun p => p.1 == key).map Prod.snd
  | _ => none

def asStr : StrictValue → Option String
  | .string s => some s
  | _ => none

def memberStr (v : StrictValue) (key : String) : Option String := (v.member key).bind asStr

end StrictValue

end Paytp
