/-
UTF-8: texts from bytes. A fault names the first byte that does not belong and
how many bytes before it do; a reader that goes on puts one replacement mark in
place of each faulty run.
-/
namespace WorkRouting.Text.Utf8

/-- One character off the head of some bytes. -/
inductive Step where
  | done
  | char (c : Char) (rest : List UInt8)
  /-- A run of `width` bytes that begins no character. -/
  | invalid (width : Nat) (rest : List UInt8)
  /-- The bytes end inside a character. -/
  | incomplete

def isContinuation (b : UInt8) : Bool := 0x80 ≤ b && b ≤ 0xBF

/-- How many bytes follow a lead byte. -/
def following? (lead : UInt8) : Option Nat :=
  if lead < 0x80 then some 0
  else if 0xC2 ≤ lead && lead ≤ 0xDF then some 1
  else if 0xE0 ≤ lead && lead ≤ 0xEF then some 2
  else if 0xF0 ≤ lead && lead ≤ 0xF4 then some 3
  else none

/-- Whether a byte may stand second behind a lead byte. Four leads take fewer
than others: no character has two forms, none is a surrogate, and none lies
beyond `U+10FFFF`. -/
def fitsSecond (lead second : UInt8) : Bool :=
  if lead = 0xE0 then 0xA0 ≤ second && second ≤ 0xBF
  else if lead = 0xED then 0x80 ≤ second && second ≤ 0x9F
  else if lead = 0xF0 then 0x90 ≤ second && second ≤ 0xBF
  else if lead = 0xF4 then 0x80 ≤ second && second ≤ 0x8F
  else isContinuation second

/-- The bits of a lead byte that belong to the character. -/
def leadBits (lead : UInt8) : Nat → Nat
  | 0 => lead.toNat
  | 1 => lead.toNat % 32
  | 2 => lead.toNat % 16
  | _ => lead.toNat % 8

/-- Reads the bytes that a character still needs, after `width` of them with
the value so far. -/
def continued (fits : UInt8 → Bool) (width value : Nat) :
    Nat → List UInt8 → Step
  | 0, bytes => .char (Char.ofNat value) bytes
  | _ + 1, [] => .incomplete
  | needed + 1, b :: rest =>
      if fits b then
        continued isContinuation (width + 1) (64 * value + (b.toNat - 0x80))
          needed rest
      else .invalid width (b :: rest)

def step : List UInt8 → Step
  | [] => .done
  | lead :: rest =>
      match following? lead with
      | none => .invalid 1 rest
      | some n => continued (fitsSecond lead) 1 (leadBits lead n) n rest

-- ================================================== whole texts

/-- Why bytes are no text, and behind how many good ones. -/
inductive Fault where
  | invalid (width index : Nat)
  | incomplete (index : Nat)
  deriving DecidableEq, Repr

def Fault.message : Fault → String
  | invalid width index =>
      s!"invalid utf-8 sequence of {width} bytes from index {index}"
  | incomplete index => s!"incomplete utf-8 byte sequence from index {index}"

/-- Reads bytes of which `index` came before. -/
def decodeFrom : Nat → Nat → List UInt8 → Except Fault (List Char)
  | 0, _, _ => .ok []
  | fuel + 1, index, bytes =>
      match step bytes with
      | .done => .ok []
      | .char c rest =>
          let width := bytes.length - rest.length
          (decodeFrom fuel (index + width) rest).map (c :: ·)
      | .invalid width _ => .error (.invalid width index)
      | .incomplete => .error (.incomplete index)

/-- The text that bytes are. -/
def decode (bytes : List UInt8) : Except Fault String :=
  (decodeFrom (bytes.length + 1) 0 bytes).map String.ofList

/-- Bytes that are no text. -/
structure Garbled where
  bytes : List UInt8
  unreadable : (decode bytes).isOk = false
  deriving DecidableEq, Repr

/-- The mark in place of what is no text. -/
def replacement : Char := Char.ofNat 0xFFFD

def replacingFrom : Nat → List UInt8 → List Char
  | 0, _ => []
  | fuel + 1, bytes =>
      match step bytes with
      | .done => []
      | .char c rest => c :: replacingFrom fuel rest
      | .invalid _ rest => replacement :: replacingFrom fuel rest
      | .incomplete => [replacement]

/-- The text that bytes are, with marks in place of what is none. -/
def decodeReplacing (bytes : List UInt8) : String :=
  String.ofList (replacingFrom (bytes.length + 1) bytes)

/-- The bytes of a text. -/
def encode (s : String) : List UInt8 := s.toUTF8.toList

end WorkRouting.Text.Utf8
