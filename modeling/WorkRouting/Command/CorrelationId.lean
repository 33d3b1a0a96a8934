/-
Correlation ids: sixteen random bytes in the form of a version 4 UUID. What the
bytes say about version and variant is fixed, whatever they were.
-/
import WorkRouting.Json.Printer

namespace WorkRouting.CorrelationId

/-- A byte with its upper bits replaced: the lower ones kept, of which there
are as many as `size` can tell apart. -/
def marked (mark size : Nat) (b : UInt8) : UInt8 :=
  UInt8.ofNat (mark + b.toNat % size)

/-- The bytes with the version in the seventh and the variant in the ninth. -/
def stamped (bytes : List UInt8) : List UInt8 :=
  (bytes.modify 6 (marked 0x40 16)).modify 8 (marked 0x80 64)

/-- The two digits of a byte. -/
def digits (b : UInt8) : List Char :=
  [Json.hexDigit (b.toNat / 16), Json.hexDigit (b.toNat % 16)]

/-- Bytes in groups of these sizes. -/
def groups : List Nat → List UInt8 → List (List UInt8)
  | [], _ => []
  | n :: sizes, bytes => bytes.take n :: groups sizes (bytes.drop n)

/-- The id that sixteen bytes make. -/
def ofBytes (bytes : List UInt8) : String :=
  String.intercalate "-"
    ((groups [4, 2, 2, 2, 6] (stamped bytes)).map fun g =>
      String.ofList (g.flatMap digits))

end WorkRouting.CorrelationId
