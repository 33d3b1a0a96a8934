/-
Text rules that every reader and writer of the project shares: which characters
are blank, how a line of text is cut at a separator, and how whole numbers are
written and read. Readers work on lists of characters, so a rule is stated once
on the list and a `String` only wraps it.
-/
namespace WorkRouting.Text

-- ================================================== blanks

/-- The blank characters: Unicode's `White_Space` property. Zero-width marks
and the ASCII separators `U+001C` to `U+001F` do not have it. -/
def isBlank (c : Char) : Bool :=
  let n := c.toNat
  (0x09 ≤ n && n ≤ 0x0D) || n == 0x20 || n == 0x85 || n == 0xA0 || n == 0x1680
    || (0x2000 ≤ n && n ≤ 0x200A) || n == 0x2028 || n == 0x2029 || n == 0x202F
    || n == 0x205F || n == 0x3000

/-- Drops the blanks at both ends. -/
def trimmed (cs : List Char) : List Char :=
  ((cs.dropWhile isBlank).reverse.dropWhile isBlank).reverse

/-- A string without the blanks at its ends. -/
def trim (s : String) : String := String.ofList (trimmed s.toList)

/-- A string of blanks, the empty one included. -/
def isBlankText (s : String) : Bool := s.toList.all isBlank

-- ================================================== ASCII case

/-- Lower case for the letters `A` to `Z`; every other character stays. -/
def lower (s : String) : String := String.ofList (s.toList.map Char.toLower)

/-- Upper case for the letters `a` to `z`; every other character stays. -/
def upper (s : String) : String := String.ofList (s.toList.map Char.toUpper)

-- ================================================== cutting

/-- The segments between separators. There is always one more segment than
there are separators, so the list is never empty. -/
def segments (sep : Char) : List Char → List (List Char)
  | [] => [[]]
  | c :: cs =>
      if c = sep then [] :: segments sep cs
      else match segments sep cs with
        | [] => [[c]]
        | s :: rest => (c :: s) :: rest

theorem segments_ne_nil (sep : Char) (cs : List Char) :
    segments sep cs ≠ [] := by
  cases cs with
  | nil => simp [segments]
  | cons c cs =>
      simp only [segments]
      split
      · simp
      · split <;> simp

/-- What follows `lead`, if the text starts with it. -/
def after? : List Char → List Char → Option (List Char)
  | [], cs => some cs
  | _ :: _, [] => none
  | l :: lead, c :: cs => if l = c then after? lead cs else none

/-- The two sides of the first separator; without one, all of the text and
nothing after it. -/
def cut (sep : Char) : List Char → List Char × Option (List Char)
  | [] => ([], none)
  | c :: cs =>
      if c = sep then ([], some cs)
      else
        let (before, rest) := cut sep cs
        (c :: before, rest)

theorem length_of_cut {sep : Char} {cs before rest : List Char}
    (h : cut sep cs = (before, some rest)) : rest.length < cs.length := by
  induction cs generalizing before with
  | nil => simp [cut] at h
  | cons c cs ih =>
      simp only [cut] at h
      split at h
      · cases h
        simp
      · cases hcut : cut sep cs with
        | mk b r =>
            rw [hcut] at h
            cases h
            exact Nat.lt_succ_of_lt (ih hcut)

/-- Lines joined by line feeds. -/
def lines (ls : List String) : String := String.intercalate "\n" ls

-- ================================================== whole numbers

/-- The decimal digits of a number, without leading zeros. -/
def natDigits (n : Nat) : List Char := Nat.toDigits 10 n

/-- The decimal text of a whole number. -/
def intDigits : Int → List Char
  | .ofNat n => natDigits n
  | .negSucc n => '-' :: natDigits (n + 1)

/-- The decimal text of a whole number, as a string. -/
def ofInt (n : Int) : String := String.ofList (intDigits n)

/-- The value of an ASCII decimal digit. -/
def digit? (c : Char) : Option Nat :=
  if '0' ≤ c ∧ c ≤ '9' then some (c.toNat - 48) else none

def isDigit (c : Char) : Bool := (digit? c).isSome

/-- The value of a hexadecimal digit of either case. -/
def hexDigit? (c : Char) : Option Nat :=
  if '0' ≤ c ∧ c ≤ '9' then some (c.toNat - 48)
  else if 'a' ≤ c ∧ c ≤ 'f' then some (c.toNat - 87)
  else if 'A' ≤ c ∧ c ≤ 'F' then some (c.toNat - 55)
  else none

/-- A run of decimal digits continued from the value `n` read so far. -/
def natFrom? (n : Nat) : List Char → Option Nat
  | [] => some n
  | c :: cs => (digit? c).bind fun d => natFrom? (10 * n + d) cs

/-- A number of one digit or more; leading zeros are allowed. -/
def nat? : List Char → Option Nat
  | [] => none
  | cs => natFrom? 0 cs

/-- A number with an optional sign in front. -/
def int? : List Char → Option Int
  | '-' :: cs => (nat? cs).map fun n => -(n : Int)
  | '+' :: cs => (nat? cs).map Int.ofNat
  | cs => (nat? cs).map Int.ofNat

/-- A number with an optional plus sign in front and at most `top`. -/
def natUpTo? (top : Nat) (cs : List Char) : Option Nat :=
  let n := match cs with
    | '+' :: rest => nat? rest
    | _ => nat? cs
  n.bind fun n => if n ≤ top then some n else none

end WorkRouting.Text
