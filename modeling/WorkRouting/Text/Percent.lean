/-
Percent escapes: a percent sign and two hexadecimal digits stand for a byte. A
percent sign without two digits behind it stands for itself.
-/
import WorkRouting.Text

namespace WorkRouting.Text.Percent

/-- The value of a byte that is a hexadecimal digit. -/
def digit? (b : UInt8) : Option Nat := hexDigit? (Char.ofNat b.toNat)

/-- The byte that two digits name. -/
def byte? (high low : UInt8) : Option UInt8 := do
  let h ← digit? high
  let l ← digit? low
  return UInt8.ofNat (16 * h + l)

/-- Puts its byte in the place of every escape. -/
def decode : List UInt8 → List UInt8
  | p :: high :: low :: rest =>
      if p = 0x25 then
        match byte? high low with
        | some b => b :: decode rest
        | none => p :: decode (high :: low :: rest)
      else p :: decode (high :: low :: rest)
  | bytes => bytes

end WorkRouting.Text.Percent
