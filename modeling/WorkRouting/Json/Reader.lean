/-
The reader of JSON texts: one value with blanks around it and nothing else.
Every call takes at least one character off the text, so its length bounds
their number; the bound is set by the entry point and never runs out.
-/
import WorkRouting.Json.Basic

namespace WorkRouting.Json

/-- The blanks of JSON, fewer than Unicode's. -/
def isSpace (c : Char) : Bool := c = ' ' || c = '\n' || c = '\t' || c = '\r'

def skipSpace (cs : List Char) : List Char := cs.dropWhile isSpace

-- ================================================== strings

/-- The value of four hexadecimal digits. -/
def hex4? (a b c d : Char) : Option Nat := do
  let a ← Text.hexDigit? a
  let b ← Text.hexDigit? b
  let c ← Text.hexDigit? c
  let d ← Text.hexDigit? d
  return ((a * 16 + b) * 16 + c) * 16 + d

/-- What a one-letter escape stands for. -/
def shortEscape? (c : Char) : Option Char :=
  if c = '"' || c = '\\' || c = '/' then some c
  else if c = 'b' then some '\x08'
  else if c = 'f' then some '\x0c'
  else if c = 'n' then some '\n'
  else if c = 'r' then some '\r'
  else if c = 't' then some '\t'
  else none

def isHighSurrogate (n : Nat) : Bool := 0xD800 ≤ n && n ≤ 0xDBFF

def isLowSurrogate (n : Nat) : Bool := 0xDC00 ≤ n && n ≤ 0xDFFF

/-- One step inside a string. -/
inductive StringStep where
  /-- The closing quote. -/
  | close (rest : List Char)
  /-- A character, or nothing for half a surrogate pair. -/
  | char (c : Option Char) (rest : List Char)
  /-- No string of JSON. -/
  | fault

/-- The second half of a surrogate pair after its first half `n`. Where it is
missing, the first half stands alone and the text after it is read anew. -/
def pairStep (n : Nat) (rest : List Char) : StringStep :=
  match rest with
  | '\\' :: 'u' :: a :: b :: c :: d :: after =>
      match hex4? a b c d with
      | none => .fault
      | some m =>
          if isLowSurrogate m then
            let scalar := 0x10000 + (n - 0xD800) * 0x400 + (m - 0xDC00)
            .char (some (Char.ofNat scalar)) after
          else .char none rest
  | _ => .char none rest

def stringStep : List Char → StringStep
  | [] => .fault
  | '"' :: rest => .close rest
  | '\\' :: 'u' :: a :: b :: c :: d :: rest =>
      match hex4? a b c d with
      | none => .fault
      | some n =>
          if isHighSurrogate n then pairStep n rest
          else if isLowSurrogate n then .char none rest
          else .char (some (Char.ofNat n)) rest
  | '\\' :: e :: rest =>
      match shortEscape? e with
      | some c => .char (some c) rest
      | none => .fault
  | c :: rest =>
      if c = '\\' || c.toNat < 0x20 then .fault else .char (some c) rest

/-- The rest of a string after its opening quote. The characters are nothing
where one of them is half a surrogate pair. -/
def stringBody : Nat → List Char → Option (Option (List Char) × List Char)
  | 0, _ => none
  | fuel + 1, cs =>
      match stringStep cs with
      | .fault => none
      | .close rest => some (some [], rest)
      | .char c rest =>
          match stringBody fuel rest with
          | none => none
          | some (tail, after) =>
              some (c.bind fun c => tail.map (c :: ·), after)

-- ================================================== numbers

/-- The digits in front, and the rest. -/
def digitRun (cs : List Char) : List Char × List Char :=
  (cs.takeWhile Text.isDigit, cs.dropWhile Text.isDigit)

def natOfRun (ds : List Char) : Nat := (Text.natFrom? 0 ds).getD 0

/-- The digits before the point: a zero alone, or no zero in front. -/
def wholePart (cs : List Char) : Option (List Char × List Char) :=
  let (ds, rest) := digitRun cs
  match ds with
  | [] => none
  | '0' :: _ :: _ => none
  | _ => some (ds, rest)

/-- The digits after the point, if there is one. -/
def fractionPart (cs : List Char) : Option (Option (List Char) × List Char) :=
  match cs with
  | '.' :: rest =>
      let (ds, after) := digitRun rest
      if ds = [] then none else some (some ds, after)
  | _ => some (none, cs)

/-- The exponent, if there is one. -/
def exponentPart (cs : List Char) : Option (Option Int × List Char) :=
  match cs with
  | c :: rest =>
      if c = 'e' || c = 'E' then
        let (negative, rest) := match rest with
          | '-' :: r => (true, r)
          | '+' :: r => (false, r)
          | r => (false, r)
        let (ds, after) := digitRun rest
        if ds = [] then none
        else
          let e : Int := natOfRun ds
          some (some (if negative then -e else e), after)
      else some (none, cs)
  | [] => some (none, [])

/-- A number after its sign. A whole number needs neither point nor exponent;
a zero behind a minus sign is no whole number. -/
def unsigned (negative : Bool) (cs : List Char) :
    Option (Json × List Char) := do
  let (whole, rest) ← wholePart cs
  let (fraction, rest) ← fractionPart rest
  let (exponent, rest) ← exponentPart rest
  let digits := natOfRun (whole ++ fraction.getD [])
  let mantissa : Int := if negative then -(digits : Int) else digits
  match fraction, exponent with
  | none, none =>
      if negative && digits = 0 then some (decimal 0 0, rest)
      else some (int mantissa, rest)
  | _, _ =>
      some (decimal mantissa (exponent.getD 0 - (fraction.getD []).length),
        rest)

-- ================================================== values

/-- A value that starts with a letter. -/
def word (cs : List Char) : Option (Json × List Char) :=
  match Text.after? "null".toList cs with
  | some rest => some (null, rest)
  | none =>
      match Text.after? "true".toList cs with
      | some rest => some (bool true, rest)
      | none => (Text.after? "false".toList cs).map (bool false, ·)

mutual

/-- A value at the head of the text, blanks before it allowed. -/
def value : Nat → List Char → Option (Json × List Char)
  | 0, _ => none
  | fuel + 1, cs =>
      match skipSpace cs with
      | [] => none
      | '"' :: rest =>
          (stringBody (rest.length + 1) rest).map fun (s, after) =>
            (s.elim unreadable fun s => string (String.ofList s), after)
      | '[' :: rest =>
          match skipSpace rest with
          | ']' :: after => some (array [], after)
          | _ => (items fuel rest).map fun (vs, after) => (array vs, after)
      | '\x7b' :: rest =>
          match skipSpace rest with
          | '\x7d' :: after => some (object [], after)
          | _ =>
              (members fuel rest).map fun (ms, after) =>
                (ms.elim unreadable object, after)
      | '-' :: rest => unsigned true rest
      | c :: rest =>
          if Text.isDigit c then unsigned false (c :: rest)
          else word (c :: rest)

/-- The items of an array up to its closing bracket, one at least. -/
def items : Nat → List Char → Option (List Json × List Char)
  | 0, _ => none
  | fuel + 1, cs =>
      match value fuel cs with
      | none => none
      | some (v, rest) =>
          match skipSpace rest with
          | ',' :: more =>
              (items fuel more).map fun (vs, after) => (v :: vs, after)
          | ']' :: after => some ([v], after)
          | _ => none

/-- The members of an object up to its closing brace, one at least; nothing
for the members where a key cannot be read. -/
def members :
    Nat → List Char → Option (Option (List (String × Json)) × List Char)
  | 0, _ => none
  | fuel + 1, cs =>
      match skipSpace cs with
      | '"' :: rest =>
          match stringBody (rest.length + 1) rest with
          | none => none
          | some (key, rest) =>
              match skipSpace rest with
              | ':' :: rest =>
                  match value fuel rest with
                  | none => none
                  | some (v, rest) =>
                      let one := key.map fun k => (String.ofList k, v)
                      match skipSpace rest with
                      | ',' :: more =>
                          (members fuel more).map fun (ms, after) =>
                            (one.bind fun m => ms.map (m :: ·), after)
                      | '\x7d' :: after => some (one.map ([·]), after)
                      | _ => none
              | _ => none
      | _ => none

end

/-- The value that a text is. -/
def read (text : String) : Option Json :=
  let cs := text.toList
  match value (2 * cs.length + 2) cs with
  | some (v, rest) => if skipSpace rest = [] then some v else none
  | none => none

end WorkRouting.Json
