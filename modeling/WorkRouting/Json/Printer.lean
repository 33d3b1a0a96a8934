/-
The compact text of a JSON value: no blanks, members in their order, and in
strings only what must be escaped. A printed value holds no control character,
so it is one line.
-/
import WorkRouting.Json.Basic

namespace WorkRouting.Json

/-- The lower-case hexadecimal digit of a number below 16. -/
def hexDigit (n : Nat) : Char :=
  if n < 10 then Char.ofNat (48 + n) else Char.ofNat (87 + n)

/-- A character inside a string. The quote, the backslash and the control
characters below `U+0020` are escaped, five of them by a letter; all else
stands for itself. -/
def escaped (c : Char) : List Char :=
  if c = '"' then ['\\', '"']
  else if c = '\\' then ['\\', '\\']
  else if c.toNat < 0x20 then
    if c.toNat = 0x08 then ['\\', 'b']
    else if c = '\t' then ['\\', 't']
    else if c = '\n' then ['\\', 'n']
    else if c.toNat = 0x0C then ['\\', 'f']
    else if c = '\r' then ['\\', 'r']
    else ['\\', 'u', '0', '0', hexDigit (c.toNat / 16),
      hexDigit (c.toNat % 16)]
  else [c]

/-- A string with its quotes. -/
def quoted (s : List Char) : List Char := '"' :: s.flatMap escaped ++ ['"']

mutual

/-- The characters of a value. What cannot be read is printed as the shortest
string that cannot be read. -/
def print : Json → List Char
  | null => "null".toList
  | bool true => "true".toList
  | bool false => "false".toList
  | int n => Text.intDigits n
  | decimal m e => Text.intDigits m ++ 'e' :: Text.intDigits e
  | string s => quoted s.toList
  | array items => '[' :: printItems items ++ [']']
  | object members => '\x7b' :: printMembers members ++ ['\x7d']
  | unreadable => "\"\\ud800\"".toList

def printItems : List Json → List Char
  | [] => []
  | [v] => print v
  | v :: w :: rest => print v ++ ',' :: printItems (w :: rest)

def printMembers : List (String × Json) → List Char
  | [] => []
  | [(k, v)] => quoted k.toList ++ ':' :: print v
  | (k, v) :: m :: rest =>
      quoted k.toList ++ ':' :: (print v ++ ',' :: printMembers (m :: rest))

end

/-- The compact text of a value. -/
def render (v : Json) : String := String.ofList (print v)

end WorkRouting.Json
