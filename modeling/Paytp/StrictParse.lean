import Paytp.Json
import Paytp.Lib.JsonText

/-!
# Strict parsing

A document is read by a library, which hands what it reads to a visitor. The visitor keeps the text
of numbers, as integers of 64 bits or else as floating-point numbers are written, and it refuses an
object with two members of one name.
-/

namespace Paytp

/-- The library that reads documents. A number token that is no integer of 64 bits is read as a
floating-point number, which has a text unless it is out of range. -/
structure Serde where
  fromStr : String → Option JsonTree
  f64Text : List Char → Option String

namespace Jcs

def I64_MIN : ℤ := -2 ^ 63

def U64_END : ℤ := 2 ^ 64

def natOf (digits : List Char) : Option ℕ :=
  if JsonTree.isDigits digits then some (digits.foldl (fun n c => 10 * n + (c.toNat - 48)) 0)
  else none

/-- The integer of a token without fraction and exponent. A negative zero is none. -/
def integerOf : List Char → Option ℤ
  | '-' :: digits => (natOf digits).bind fun n => if n = 0 then none else some (-n)
  | digits => (natOf digits).map Int.ofNat

variable (serde : Serde)

/-- Numbers arrive as unsigned or as signed integers where they fit. -/
def visitNumber (token : List Char) : Option String :=
  match integerOf token with
  | some i => if I64_MIN ≤ i ∧ i < U64_END then some (toString i) else serde.f64Text token
  | none => serde.f64Text token

mutual

def visit : JsonTree → Option StrictValue
  | .null => some .null
  | .bool b => some (.bool b)
  | .number token => (visitNumber serde token).map .number
  | .string s => some (.string (String.ofList s))
  | .array items => (visitSeq items).map .array
  | .object members => (visitMap [] members).map .object

def visitSeq : List JsonTree → Option (List StrictValue)
  | [] => some []
  | t :: ts => do
    let v ← visit t
    let vs ← visitSeq ts
    return v :: vs

/-- The members behind those whose names were seen. -/
def visitMap (seen : List String) : List (List Char × JsonTree) →
    Option (List (String × StrictValue))
  | [] => some []
  | (k, t) :: ms =>
    if seen.contains (String.ofList k) then none
    else do
      let v ← visit t
      let rest ← visitMap (String.ofList k :: seen) ms
      return (String.ofList k, v) :: rest

end

def parseStrict (text : String) : Option StrictValue := (serde.fromStr text).bind (visit serde)

end Jcs

/-- Documents are read strictly. -/
def Serde.codec (serde : Serde) (b64 : Bytes → String) (b64Decode : String → Option Bytes) :
    TextCodec where
  parseStrict := Jcs.parseStrict serde
  b64
  b64Decode

end Paytp
