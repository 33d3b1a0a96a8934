/-
Stored values, when two of them are the same, and the affinity of a column. A
column of whole numbers turns text that looks like a number into that number,
and a number that is whole into a whole number; a column of text turns numbers
into text. What cannot be turned is stored as it is: bytes are never turned,
and a text in a column need not be one that can be read.
-/
import WorkRouting.Binary64
import WorkRouting.Org
import WorkRouting.Text.Utf8

namespace WorkRouting

/-- A stored value, of one of five kinds. Texts are stored by their bytes, so a
text is one that UTF-8 reads or one that it does not. -/
inductive Value where
  | null
  | integer (n : Int64)
  | real (bits : UInt64)
  | text (s : String)
  | garbled (g : Text.Utf8.Garbled)
  | blob (bytes : List UInt8)
  deriving DecidableEq, Repr, Inhabited

inductive Affinity where
  | integer | text
  deriving DecidableEq, Repr

namespace Value

def ofOptionalId (n : Option Int64) : Value := n.elim null integer

/-- The value of a whole number; one beyond 64 bits is stored as a real. -/
def ofInt (n : Int) : Value :=
  match id64? n with
  | some i => integer i
  | none => real (Binary64.ofDecimal n 0)

/-- The text with some bytes. -/
def ofTextBytes (bytes : List UInt8) : Value :=
  match h : Text.Utf8.decode bytes with
  | .ok s => text s
  | .error _ => garbled ⟨bytes, by rw [h]; rfl⟩

-- ================================================== comparison

/-- The value as comparisons take it: a real that is a whole number is taken
for that number. -/
def compared : Value → Value
  | real bits =>
      match (Binary64.whole? bits).bind id64? with
      | some n => integer n
      | none => real bits
  | v => v

/-- Whether two values are the same in a comparison. -/
def same (v w : Value) : Bool := v.compared == w.compared

theorem same_iff {v w : Value} :
    v.same w = true ↔ v.compared = w.compared :=
  beq_iff_eq

theorem integer_same_iff {n m : Int64} :
    (integer n).same (integer m) = true ↔ integer n = integer m :=
  same_iff

theorem same_self (v : Value) : v.same v = true := same_iff.2 rfl

theorem same_comm (v w : Value) : v.same w = w.same v := by
  rw [Bool.eq_iff_iff, same_iff, same_iff, eq_comm]

-- ================================================== whole numbers

/-- A real that is a whole number strictly inside the 64-bit range becomes that
whole number. -/
def wholeIfExact (bits : UInt64) : Value :=
  match Binary64.whole? bits with
  | some n =>
      if -9223372036854775808 < n ∧ n < 9223372036854775807 then
        integer (Int64.ofInt n)
      else real bits
  | none => real bits

-- ================================================== numeric text

/-- The blanks allowed around a number. -/
def isSpace (c : Char) : Bool := c = ' ' || (0x09 ≤ c.toNat && c.toNat ≤ 0x0D)

/-- The number that a text is, blanks around it allowed: digits with an
optional sign, an optional point among or around them, and an optional
exponent. -/
def numeric? (s : String) : Option Value := do
  let cs := ((s.toList.dropWhile isSpace).reverse.dropWhile isSpace).reverse
  let (negative, cs) := match cs with
    | '-' :: r => (true, r)
    | '+' :: r => (false, r)
    | r => (false, r)
  let whole := cs.takeWhile Text.isDigit
  let rest := cs.dropWhile Text.isDigit
  let (fraction, rest) := match rest with
    | '.' :: r => (some (r.takeWhile Text.isDigit), r.dropWhile Text.isDigit)
    | r => (none, r)
  let digits := whole ++ fraction.getD []
  let n ← Text.nat? digits
  let signed : Int := if negative then -(n : Int) else n
  match fraction, rest with
  | none, [] =>
      match id64? signed with
      | some i => some (integer i)
      | none => some (real (Binary64.ofDecimal signed 0))
  | _, [] =>
      let places := (fraction.getD []).length
      some (wholeIfExact (Binary64.ofDecimal signed (-places)))
  | _, e :: r =>
      if e = 'e' || e = 'E' then
        let power ← Text.int? r
        let places := (fraction.getD []).length
        some (wholeIfExact (Binary64.ofDecimal signed (power - places)))
      else none

end Value

/-- The value as a column of this affinity holds it. -/
def Affinity.apply (a : Affinity) (v : Value) : Value :=
  match a, v with
  | .integer, .text s => (Value.numeric? s).getD v
  | .integer, .real bits => Value.wholeIfExact bits
  | .text, .integer n => .text (idText n)
  | .text, .real bits => .text (Binary64.text bits)
  | _, _ => v

end WorkRouting
