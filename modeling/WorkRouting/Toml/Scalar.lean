/-
The scalars of TOML: the four kinds of string, numbers, dates and times, and
keys. A reader takes its scalar off the head of a text and returns the rest.
-/
import WorkRouting.Binary64
import WorkRouting.Toml.Value

namespace WorkRouting.Toml

/-- What a reader takes off the head of a text, and the rest. -/
abbrev Scan (α : Type) := Option (α × List Char)

def isBlank (c : Char) : Bool := c = ' ' || c = '\t'

def skipBlanks (cs : List Char) : List Char := cs.dropWhile isBlank

/-- The rest of a text after a line end, if one is at its head. -/
def lineEnd? : List Char → Option (List Char)
  | '\n' :: rest => some rest
  | '\r' :: '\n' :: rest => some rest
  | _ => none

/-- A character that may stand in a comment: all but the control characters,
of which the tab is allowed. -/
def isPlain (c : Char) : Bool := c = '\t' || (0x20 ≤ c.toNat && c.toNat ≠ 0x7F)

/-- The text after a comment, up to its line end. -/
def skipComment : List Char → List Char
  | '#' :: rest => rest.dropWhile isPlain
  | cs => cs

-- ================================================== strings

/-- The value of hexadecimal digits. -/
def hexValue? (n : Nat) : List Char → Option Nat
  | [] => some n
  | c :: cs => (Text.hexDigit? c).bind fun d => hexValue? (16 * n + d) cs

/-- The character of a code point; surrogates are none. -/
def scalar? (n : Nat) : Option Char :=
  if n < 0xD800 ∨ (0xDFFF < n ∧ n < 0x110000) then some (Char.ofNat n)
  else none

/-- The character of an escape after its backslash. -/
def escape : List Char → Scan Char
  | 'b' :: rest => some ('\x08', rest)
  | 't' :: rest => some ('\t', rest)
  | 'n' :: rest => some ('\n', rest)
  | 'f' :: rest => some ('\x0c', rest)
  | 'r' :: rest => some ('\r', rest)
  | '"' :: rest => some ('"', rest)
  | '\\' :: rest => some ('\\', rest)
  | 'u' :: rest =>
      if rest.length < 4 then none
      else ((hexValue? 0 (rest.take 4)).bind scalar?).map (·, rest.drop 4)
  | 'U' :: rest =>
      if rest.length < 8 then none
      else ((hexValue? 0 (rest.take 8)).bind scalar?).map (·, rest.drop 8)
  | _ => none

/-- Puts a character before what a reader goes on to read. -/
def prepend (c : Char) (tail : Scan (List Char)) : Scan (List Char) :=
  tail.map fun (cs, rest) => (c :: cs, rest)

/-- A basic string after its opening quote. -/
def basicBody : Nat → List Char → Scan (List Char)
  | 0, _ => none
  | _, [] => none
  | _, '"' :: rest => some ([], rest)
  | fuel + 1, '\\' :: rest =>
      match escape rest with
      | some (c, rest) => prepend c (basicBody fuel rest)
      | none => none
  | fuel + 1, c :: rest =>
      if isPlain c then prepend c (basicBody fuel rest) else none

/-- A literal string after its opening quote. -/
def literalBody : List Char → Scan (List Char)
  | [] => none
  | '\'' :: rest => some ([], rest)
  | c :: rest => if isPlain c then prepend c (literalBody rest) else none

/-- How many characters at the head are this one. -/
def runOf (c : Char) (cs : List Char) : Nat := (cs.takeWhile (· == c)).length

/-- The end of a string of many lines: three quotes close it, and up to two
more quotes before them belong to it. -/
def closing? (q : Char) (cs : List Char) : Scan (List Char) :=
  let n := runOf q cs
  if n < 3 then none
  else
    let own := min n 5 - 3
    some (List.replicate own q, cs.drop (own + 3))

/-- The text after the blanks and line ends at its head. -/
def skipBlankLines : List Char → List Char
  | '\r' :: '\n' :: rest => skipBlankLines rest
  | c :: rest =>
      if isBlank c || c = '\n' then skipBlankLines rest else c :: rest
  | [] => []

/-- A basic string of many lines after its opening quotes. A backslash at the
end of a line joins it to the next text. -/
def basicLines : Nat → List Char → Scan (List Char)
  | 0, _ => none
  | _, [] => none
  | fuel + 1, '\\' :: rest =>
      match lineEnd? (skipBlanks rest) with
      | some after => basicLines fuel (skipBlankLines after)
      | none =>
          match escape rest with
          | some (c, rest) => prepend c (basicLines fuel rest)
          | none => none
  | fuel + 1, c :: rest =>
      match closing? '"' (c :: rest) with
      | some done => some done
      | none =>
          match lineEnd? (c :: rest) with
          | some after => prepend '\n' (basicLines fuel after)
          | none =>
              if isPlain c then prepend c (basicLines fuel rest) else none

/-- A literal string of many lines after its opening quotes. -/
def literalLines : Nat → List Char → Scan (List Char)
  | 0, _ => none
  | _, [] => none
  | fuel + 1, c :: rest =>
      match closing? '\'' (c :: rest) with
      | some done => some done
      | none =>
          match lineEnd? (c :: rest) with
          | some after => prepend '\n' (literalLines fuel after)
          | none =>
              if isPlain c then prepend c (literalLines fuel rest) else none

/-- The text without the line end right behind opening quotes. -/
def dropFirstLineEnd (cs : List Char) : List Char := (lineEnd? cs).getD cs

/-- A string of any kind. -/
def stringScan (cs : List Char) : Scan String :=
  let scanned := match cs with
    | '"' :: '"' :: '"' :: rest =>
        basicLines (rest.length + 1) (dropFirstLineEnd rest)
    | '\'' :: '\'' :: '\'' :: rest =>
        literalLines (rest.length + 1) (dropFirstLineEnd rest)
    | '"' :: rest => basicBody (rest.length + 1) rest
    | '\'' :: rest => literalBody rest
    | _ => none
  scanned.map fun (s, rest) => (String.ofList s, rest)

-- ================================================== keys

def isBareKey (c : Char) : Bool := c.isAlphanum || c = '_' || c = '-'

/-- One part of a key: bare, or a string on one line. -/
def simpleKey (cs : List Char) : Scan String :=
  match cs with
  | '"' :: rest =>
      (basicBody (rest.length + 1) rest).map fun (s, r) => (String.ofList s, r)
  | '\'' :: rest => (literalBody rest).map fun (s, r) => (String.ofList s, r)
  | _ =>
      let name := cs.takeWhile isBareKey
      if name = [] then none
      else some (String.ofList name, cs.dropWhile isBareKey)

/-- The parts of a key between points, blanks around each. -/
def keyParts : Nat → List Char → Scan (List String)
  | 0, _ => none
  | fuel + 1, cs =>
      match simpleKey (skipBlanks cs) with
      | none => none
      | some (name, rest) =>
          match skipBlanks rest with
          | '.' :: more =>
              (keyParts fuel more).map fun (names, after) =>
                (name :: names, after)
          | after => some ([name], after)

/-- How deep values, and how long keys, may be. -/
def depthLimit : Nat := 80

/-- A key with its parts. -/
def keyScan (cs : List Char) : Scan (List String) :=
  match keyParts (cs.length + 1) cs with
  | some (names, rest) =>
      if names.length < depthLimit then some (names, rest) else none
  | none => none

-- ================================================== numbers

/-- Digits, with single underscores between them, underscores left out. -/
def digitsWith (accepts : Char → Bool) : List Char → List Char × List Char
  | '_' :: c :: rest =>
      if accepts c then
        let (ds, after) := digitsWith accepts rest
        (c :: ds, after)
      else ([], '_' :: c :: rest)
  | c :: rest =>
      if accepts c then
        let (ds, after) := digitsWith accepts rest
        (c :: ds, after)
      else ([], c :: rest)
  | [] => ([], [])

/-- A run of digits that starts with one. -/
def digitRun (accepts : Char → Bool) (cs : List Char) : Scan (List Char) :=
  match cs with
  | c :: _ => if accepts c then some (digitsWith accepts cs) else none
  | [] => none

def sign : List Char → Bool × List Char
  | '-' :: rest => (true, rest)
  | '+' :: rest => (false, rest)
  | cs => (false, cs)

/-- Decimal digits without a zero in front of others. -/
def wholeDigits (cs : List Char) : Scan (List Char) :=
  match cs with
  | '0' :: rest => some (['0'], rest)
  | _ => digitRun Text.isDigit cs

/-- The value of digits in a base. -/
def valueOf (base : Nat) (ds : List Char) : Nat :=
  ds.foldl (fun n c => base * n + (Text.hexDigit? c).getD 0) 0

/-- Whole numbers have 64 bits. -/
def bounded (n : Int) : Option Int :=
  if -9223372036854775808 ≤ n ∧ n ≤ 9223372036854775807 then some n else none

/-- A digit below a base. -/
def isDigitOf (base : Nat) (c : Char) : Bool :=
  (Text.hexDigit? c).any (· < base)

/-- A whole number in a base named by its lead, without a sign. -/
def basedInteger (base : Nat) (cs : List Char) :
    Option (Toml × List Char) := do
  let (ds, rest) ← digitRun (isDigitOf base) cs
  let n ← bounded (valueOf base ds)
  return (integer n, rest)

def integerScan (cs : List Char) : Option (Toml × List Char) :=
  match cs with
  | '0' :: 'x' :: rest => basedInteger 16 rest
  | '0' :: 'o' :: rest => basedInteger 8 rest
  | '0' :: 'b' :: rest => basedInteger 2 rest
  | _ => do
      let (negative, rest) := sign cs
      let (ds, rest) ← wholeDigits rest
      let n : Int := valueOf 10 ds
      let n ← bounded (if negative then -n else n)
      return (integer n, rest)

/-- An exponent behind its letter. -/
def exponentScan (cs : List Char) : Option (Int × List Char) := do
  let (negative, rest) := sign cs
  let (ds, rest) ← digitRun Text.isDigit rest
  let n : Int := valueOf 10 ds
  return (if negative then -n else n, rest)

/-- A number with a fraction or an exponent, or one of the two names. A number
too large is refused unless it is negative. -/
def floatScan (cs : List Char) : Option (Toml × List Char) := do
  let (negative, body) := sign cs
  match Text.after? "inf".toList body, Text.after? "nan".toList body with
  | some rest, _ => return (float (if negative then "-inf" else "inf"), rest)
  | none, some rest => return (float "nan", rest)
  | none, none =>
      let (whole, rest) ← wholeDigits body
      let (fraction, rest) ← match rest with
        | '.' :: r => (digitRun Text.isDigit r).map fun (ds, r) => (some ds, r)
        | _ => some (none, rest)
      let (exponent, rest) ← match rest with
        | 'e' :: r | 'E' :: r => (exponentScan r).map fun (n, r) => (some n, r)
        | _ => some (none, rest)
      if fraction.isNone && exponent.isNone then none
      else
        let digits := whole ++ fraction.getD []
        let scale := exponent.getD 0 - (fraction.getD []).length
        if negative || Binary64.reaches (valueOf 10 digits) scale then
          let literal := cs.take (cs.length - rest.length)
          return (float (String.ofList literal), rest)
        else none

-- ================================================== dates and times

/-- A number of exactly this many digits between two bounds. -/
def fixed (width low high : Nat) (cs : List Char) : Scan Nat :=
  let ds := cs.take width
  if ds.length = width ∧ ds.all Text.isDigit then
    let n := valueOf 10 ds
    if low ≤ n ∧ n ≤ high then some (n, cs.drop width) else none
  else none

def expect (c : Char) : List Char → Option (List Char)
  | d :: rest => if c = d then some rest else none
  | [] => none

def isLeap (year : Nat) : Bool :=
  year % 4 = 0 && (year % 100 ≠ 0 || year % 400 = 0)

def daysIn (year month : Nat) : Nat :=
  if month = 2 then if isLeap year then 29 else 28
  else if month = 4 ∨ month = 6 ∨ month = 9 ∨ month = 11 then 30
  else 31

/-- The rest of a text after a date. -/
def date? (cs : List Char) : Option (List Char) := do
  let (year, cs) ← fixed 4 0 9999 cs
  let cs ← expect '-' cs
  let (month, cs) ← fixed 2 1 12 cs
  let cs ← expect '-' cs
  let (_, cs) ← fixed 2 1 (daysIn year month) cs
  return cs

/-- The rest of a text after a time of day. -/
def time? (cs : List Char) : Option (List Char) := do
  let (_, cs) ← fixed 2 0 23 cs
  let cs ← expect ':' cs
  let (_, cs) ← fixed 2 0 59 cs
  let cs ← expect ':' cs
  let (_, cs) ← fixed 2 0 60 cs
  match cs with
  | '.' :: rest =>
      if rest.takeWhile Text.isDigit = [] then none
      else return rest.dropWhile Text.isDigit
  | _ => return cs

/-- The rest of a text after the offset of a time, if there is one. -/
def offset? (cs : List Char) : Option (List Char) :=
  match cs with
  | 'Z' :: rest | 'z' :: rest => some rest
  | '+' :: rest | '-' :: rest => do
      let (_, rest) ← fixed 2 0 23 rest
      let rest ← expect ':' rest
      let (_, rest) ← fixed 2 0 59 rest
      return rest
  | _ => some cs

/-- Whether a text starts as a date does, which no number does. -/
def startsDate (cs : List Char) : Bool :=
  (cs.take 4).length = 4 && (cs.take 4).all Text.isDigit
    && (cs.drop 4).head? = some '-'

/-- Whether a text starts as a time of day does. -/
def startsTime (cs : List Char) : Bool :=
  (cs.take 2).length = 2 && (cs.take 2).all Text.isDigit
    && (cs.drop 2).head? = some ':'

/-- A date, a time of day, or both with an optional offset. -/
def datetimeScan (cs : List Char) : Option (Toml × List Char) := do
  let rest ←
    if startsDate cs then do
      let rest ← date? cs
      match rest with
      | d :: more =>
          if (d = 'T' || d = 't' || d = ' ') && startsTime more then
            (time? more).bind offset?
          else some rest
      | [] => some rest
    else time? cs
  return (datetime (String.ofList (cs.take (cs.length - rest.length))), rest)

/-- A number, a date or a time. -/
def numberScan (cs : List Char) : Scan Toml :=
  if startsDate cs || startsTime cs then datetimeScan cs
  else match floatScan cs with
    | some done => some done
    | none => integerScan cs

end WorkRouting.Toml
