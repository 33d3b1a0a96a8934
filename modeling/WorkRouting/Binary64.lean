/-
Binary64 numbers by their bits: which decimals they reach, which of them are
whole, and how one is written with fifteen significant digits. A number is held
as its bits because equality of stored values is equality of what is stored.
-/
import WorkRouting.Text

namespace WorkRouting.Binary64

/-- Sign, significand and power of two of a finite number: it is the
significand times two to that power. -/
structure Parts where
  negative : Bool
  significand : Nat
  power : Int
  deriving DecidableEq, Repr

/-- The parts of a number; nothing for the infinities and for no number. -/
def parts? (bits : UInt64) : Option Parts :=
  let n : Nat := bits.toNat
  let negative := Nat.pow 2 63 ≤ n
  let biased : Nat := n / Nat.pow 2 52 % Nat.pow 2 11
  let fraction : Nat := n % Nat.pow 2 52
  if biased = 2047 then none
  else if biased = 0 then some ⟨negative, fraction, -1074⟩
  else some ⟨negative, fraction + Nat.pow 2 52, (biased : Int) - 1075⟩

/-- The bits of the number nearest to `mantissa · 10 ^ exponent`. -/
def ofDecimal (mantissa exponent : Int) : UInt64 :=
  let f := Float.ofScientific mantissa.natAbs (exponent < 0) exponent.natAbs
  (if mantissa < 0 then -f else f).toBits

/-- The number as a fraction without its sign. -/
def Parts.ratio (p : Parts) : Nat × Nat :=
  if 0 ≤ p.power then (p.significand * Nat.pow 2 p.power.toNat, 1)
  else (p.significand, Nat.pow 2 (-p.power).toNat)

/-- The whole number that a number is, if it is one. -/
def whole? (bits : UInt64) : Option Int := do
  let p ← parts? bits
  let (num, den) := p.ratio
  if num % den = 0 then
    let n : Int := num / den
    some (if p.negative then -n else n)
  else none

-- ================================================== reach

/-- Whether `digits · 10 ^ exponent` is within the reach of a finite number.
The largest one is `2 ^ 1024 - 2 ^ 971`; from half a step above it on, a
decimal is out of reach. Only decimals of 309 digits need the exact
comparison. -/
def reaches (digits : Nat) (exponent : Int) : Bool :=
  if digits = 0 then true
  else
    let size := (Text.natDigits digits).length + exponent
    if size < 309 then true
    else if 309 < size then false
    else
      let top := Nat.pow 2 1024 - Nat.pow 2 970
      if 0 ≤ exponent then digits * Nat.pow 10 exponent.toNat < top
      else digits < top * Nat.pow 10 (-exponent).toNat

-- ================================================== decimal text

/-- How many significant digits a number is written with, at most. -/
def precision : Nat := 15

/-- The exponent of the first significant digit: `10 ^ e ≤ num / den`. The
search starts at `e` and goes down. -/
def leading (num den : Nat) : Nat → Int → Int
  | 0, e => e
  | steps + 1, e =>
      let fits :=
        if 0 ≤ e then den * Nat.pow 10 e.toNat ≤ num
        else den ≤ num * Nat.pow 10 (-e).toNat
      if fits then e else leading num den steps (e - 1)

/-- A fraction times a power of ten, to the nearest whole number, halves up. -/
def scaled (num den : Nat) (shift : Int) : Nat :=
  let (n, d) :=
    if 0 ≤ shift then (num * Nat.pow 10 shift.toNat, den)
    else (num, den * Nat.pow 10 (-shift).toNat)
  (2 * n + d) / (2 * d)

/-- The significant digits, zeros at the end dropped, and the exponent of the
first one. -/
def significant (num den : Nat) : List Char × Int :=
  let e := leading num den 700 309
  let n := scaled num den ((precision : Int) - 1 - e)
  let (n, e) := if Nat.pow 10 precision ≤ n then (n / 10, e + 1) else (n, e)
  (((Text.natDigits n).reverse.dropWhile (· == '0')).reverse, e)

/-- Digits with a point behind the first `before` of them; a digit stands on
both sides of the point. -/
def pointed (ds : List Char) (before : Nat) : List Char :=
  let whole := ds.take before ++ List.replicate (before - ds.length) '0'
  let fraction := ds.drop before
  (if whole = [] then ['0'] else whole)
    ++ '.' :: (if fraction = [] then ['0'] else fraction)

/-- The text of a number: positional where the first digit lies between the
fourth place after the point and the precision, else with an exponent of two
digits at least. -/
def text (bits : UInt64) : String :=
  match parts? bits with
  | none => "Inf"
  | some p =>
      let (num, den) := p.ratio
      let sign := if p.negative && num != 0 then ['-'] else []
      if num = 0 then "0.0"
      else
        let (ds, e) := significant num den
        let body :=
          if e < -4 || (precision : Int) - 1 < e then
            let exponent := Text.natDigits e.natAbs
            pointed ds 1 ++ 'e' :: (if e < 0 then '-' else '+') ::
              (List.replicate (2 - exponent.length) '0' ++ exponent)
          else if e < 0 then pointed (List.replicate (-e).toNat '0' ++ ds) 1
          else pointed ds (e.toNat + 1)
        String.ofList (sign ++ body)

end WorkRouting.Binary64
