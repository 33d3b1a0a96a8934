/-
What is printed is read back. Every value is read from its own text as it was
(`read_render`), so nothing in a text, no quote, backslash or control character
in a string among it, can be taken for anything else; and a text that is
printed holds no control character (`plain_of_mem_render`), so it is one
line.

A value is read off the front of a longer text. It ends where it should because
what stands behind it is a mark (`Delimited`), which continues no number. The
bound on the reader's calls is never reached: each of them takes a character,
and inside a value at most two calls are open for every character of it.
-/
import Mathlib.Tactic.Common
import WorkRouting.Json.Printer
import WorkRouting.Json.Reader
import WorkRouting.Proofs.Text.Digits

namespace WorkRouting.Json

-- ===================================================== behind a value

/-- What may stand behind a value: nothing, or a mark that ends it. -/
def Delimited (rest : List Char) : Prop :=
  ∀ c ∈ rest.head?, c = ',' ∨ c = ']' ∨ c = '\x7d'

variable {rest : List Char}

theorem delimited_nil : Delimited [] := nofun

theorem delimited_comma : Delimited (',' :: rest) := by simp [Delimited]

theorem delimited_bracket : Delimited (']' :: rest) := by simp [Delimited]

theorem delimited_brace : Delimited ('\x7d' :: rest) := by simp [Delimited]

theorem Delimited.isDigit_eq_false (h : Delimited rest) :
    ∀ c ∈ rest.head?, Text.isDigit c = false := by
  intro c hc
  rcases h c hc with rfl | rfl | rfl <;> decide

-- ============================================================ printing

@[simp] theorem print_int (n : Int) : print (int n) = Text.intDigits n := rfl

@[simp] theorem print_decimal (m e : Int) :
    print (decimal m e) = Text.intDigits m ++ 'e' :: Text.intDigits e := rfl

@[simp] theorem print_string (s : String) :
    print (string s) = quoted s.toList := rfl

@[simp] theorem print_array (vs : List Json) :
    print (array vs) = '[' :: (printItems vs ++ [']']) := rfl

@[simp] theorem print_object (ms : List (String × Json)) :
    print (object ms) = '\x7b' :: (printMembers ms ++ ['\x7d']) := rfl

@[simp] theorem printItems_singleton (v : Json) : printItems [v] = print v :=
  rfl

@[simp] theorem printItems_cons_cons (v w : Json) (vs : List Json) :
    printItems (v :: w :: vs) = print v ++ ',' :: printItems (w :: vs) := rfl

@[simp] theorem printMembers_singleton (k : String) (v : Json) :
    printMembers [(k, v)] = quoted k.toList ++ ':' :: print v := rfl

@[simp] theorem printMembers_cons_cons (k : String) (v : Json)
    (m : String × Json) (ms : List (String × Json)) :
    printMembers ((k, v) :: m :: ms)
      = quoted k.toList ++ ':' :: (print v ++ ',' :: printMembers (m :: ms)) :=
  rfl

-- ============================================================= strings

/-- A character below `U+0020` has two hexadecimal digits, which are read as
the number of the character. -/
theorem hex4?_hexDigit {n : Nat} (h : n < 0x20) :
    hex4? '0' '0' (hexDigit (n / 16)) (hexDigit (n % 16)) = some n := by
  have hall : ∀ n < 0x20,
      hex4? '0' '0' (hexDigit (n / 16)) (hexDigit (n % 16))
        = some n := by decide
  exact hall n h

theorem stringStep_escaped (c : Char) (rest : List Char) :
    stringStep (escaped c ++ rest) = .char (some c) rest := by
  unfold escaped
  split_ifs with hquote hslash hcontrol hb ht hn hf hr
  · subst hquote
    rfl
  · subst hslash
    rfl
  · have hc : c = '\x08' := Char.toNat_inj.1 hb
    subst hc
    rfl
  · subst ht
    rfl
  · subst hn
    rfl
  · have hc : c = '\x0c' := Char.toNat_inj.1 hf
    subst hc
    rfl
  · subst hr
    rfl
  · have hhigh : isHighSurrogate c.toNat = false := by
      simp only [isHighSurrogate, Bool.and_eq_false_iff,
        decide_eq_false_iff_not]
      omega
    have hlow : isLowSurrogate c.toNat = false := by
      simp only [isLowSurrogate, Bool.and_eq_false_iff,
        decide_eq_false_iff_not]
      omega
    simp only [List.cons_append, List.nil_append, stringStep,
      hex4?_hexDigit hcontrol, hhigh, hlow, Bool.false_eq_true, if_false,
      Char.ofNat_toNat]
  · rw [List.singleton_append, stringStep.eq_def]
    split <;> simp_all

/-- The rest of a string is read character by character up to its quote. -/
theorem stringBody_escaped {fuel : Nat} {s : List Char} (h : s.length < fuel) :
    stringBody fuel (s.flatMap escaped ++ '"' :: rest)
      = some (some s, rest) := by
  induction s generalizing fuel with
  | nil =>
      obtain ⟨fuel, rfl⟩ : ∃ n, fuel = n + 1 := ⟨fuel - 1, by simp at h; omega⟩
      rfl
  | cons c s ih =>
      rw [List.length_cons] at h
      obtain ⟨fuel, rfl⟩ : ∃ n, fuel = n + 1 := ⟨fuel - 1, by omega⟩
      rw [List.flatMap_cons, List.append_assoc]
      simp only [stringBody, stringStep_escaped]
      rw [ih (by omega)]
      rfl

theorem length_le_length_flatMap_escaped (s : List Char) :
    s.length ≤ (s.flatMap escaped).length := by
  induction s with
  | nil => exact Nat.le_refl 0
  | cons c s ih =>
      have hc : 0 < (escaped c).length := by
        unfold escaped
        split_ifs <;> exact Nat.zero_lt_succ _
      rw [List.flatMap_cons, List.length_append, List.length_cons]
      omega

/-- A string is read up to the quote that closes it, with the bound that the
reader sets itself. -/
theorem stringBody_quoted (s rest : List Char) :
    stringBody ((s.flatMap escaped ++ '"' :: rest).length + 1)
        (s.flatMap escaped ++ '"' :: rest) = some (some s, rest) := by
  refine stringBody_escaped ?_
  have := length_le_length_flatMap_escaped s
  rw [List.length_append]
  omega

-- ============================================================= numbers

theorem digitRun_append {ds : List Char}
    (hds : ∀ c ∈ ds, Text.isDigit c = true)
    (hrest : ∀ c ∈ rest.head?, Text.isDigit c = false) :
    digitRun (ds ++ rest) = (ds, rest) := by
  unfold digitRun
  rw [List.takeWhile_append_of_pos hds, List.dropWhile_append_of_pos hds]
  cases rest with
  | nil => simp
  | cons c rest =>
      have hc : Text.isDigit c = false := hrest c rfl
      simp [hc]

theorem natOfRun_natDigits (n : Nat) : natOfRun (Text.natDigits n) = n := by
  rw [natOfRun, Text.natFrom?_natDigits]
  rfl

theorem wholePart_natDigits (n : Nat)
    (hrest : ∀ c ∈ rest.head?, Text.isDigit c = false) :
    wholePart (Text.natDigits n ++ rest) = some (Text.natDigits n, rest) := by
  unfold wholePart
  rw [digitRun_append (fun _ => Text.isDigit_of_mem_natDigits) hrest]
  dsimp only
  split
  · next hnil => exact absurd hnil (Text.natDigits_ne_nil n)
  · next c cs hzero =>
    have hn : n = 0 := Text.eq_zero_of_head_natDigits (by rw [hzero]; rfl)
    rw [hn, Text.natDigits_zero] at hzero
    cases hzero
  · rfl

/-- The number that stands for digits behind an optional sign. -/
def signed (negative : Bool) (n : Nat) : Int :=
  if negative then -(n : Int) else n

theorem unsigned_whole {negative : Bool} {n : Nat}
    (hn : negative = true → n ≠ 0) (h : Delimited rest) :
    unsigned negative (Text.natDigits n ++ rest)
      = some (int (signed negative n), rest) := by
  have hfraction : fractionPart rest = some (none, rest) := by
    unfold fractionPart
    split
    · next after => simpa using h '.' rfl
    · rfl
  have hexponent : exponentPart rest = some (none, rest) := by
    unfold exponentPart
    split
    · next c after =>
      rcases h c rfl with rfl | rfl | rfl <;> rfl
    · rfl
  have hnegative : (negative && decide (n = 0)) = false := by
    cases negative with
    | false => rfl
    | true => simpa using hn rfl
  simp only [unsigned, wholePart_natDigits n h.isDigit_eq_false, hfraction,
    hexponent, Option.bind_eq_bind, Option.bind_some, Option.getD_none,
    List.append_nil, natOfRun_natDigits, hnegative, Bool.false_eq_true,
    if_false, signed]

/-- The digits of a number start with a digit. -/
theorem exists_natDigits_eq_cons (n : Nat) :
    ∃ c cs, Text.natDigits n = c :: cs ∧ Text.isDigit c = true := by
  obtain ⟨c, cs, hcs⟩ := List.exists_cons_of_ne_nil (Text.natDigits_ne_nil n)
  refine ⟨c, cs, hcs, Text.isDigit_of_mem_natDigits (n := n) ?_⟩
  rw [hcs]
  exact List.mem_cons_self

theorem exponentPart_digits {c : Char} {cs : List Char}
    (hc : Text.isDigit c = true) :
    exponentPart ('e' :: c :: cs)
      = some (some (natOfRun (digitRun (c :: cs)).1 : Int),
          (digitRun (c :: cs)).2) := by
  have hminus : c ≠ '-' := by
    rintro rfl
    cases hc
  have hplus : c ≠ '+' := by
    rintro rfl
    cases hc
  have hsome : (digitRun (c :: cs)).1 ≠ [] := by simp [digitRun, hc]
  rw [exponentPart.eq_def]
  simp [hminus, hplus, hsome]

theorem exponentPart_intDigits (e : Int) (h : Delimited rest) :
    exponentPart ('e' :: (Text.intDigits e ++ rest))
      = some (some e, rest) := by
  have hrun : ∀ n, digitRun (Text.natDigits n ++ rest)
      = (Text.natDigits n, rest) := fun n =>
    digitRun_append (fun _ => Text.isDigit_of_mem_natDigits) h.isDigit_eq_false
  cases e with
  | ofNat n =>
      obtain ⟨c, cs, hcs, hc⟩ := exists_natDigits_eq_cons n
      have hn := hrun n
      rw [hcs, List.cons_append] at hn
      rw [Text.intDigits, hcs, List.cons_append, exponentPart_digits hc, hn,
        ← hcs, natOfRun_natDigits]
      rfl
  | negSucc n =>
      simp only [exponentPart, Text.intDigits, List.cons_append, hrun,
        natOfRun_natDigits, Text.natDigits_ne_nil, if_false, if_true,
        decide_true, Bool.true_or]
      rfl

theorem unsigned_decimal (negative : Bool) (n : Nat) (e : Int)
    (h : Delimited rest) :
    unsigned negative (Text.natDigits n ++ 'e' :: (Text.intDigits e ++ rest))
      = some (decimal (signed negative n) e, rest) := by
  have hwhole : wholePart
        (Text.natDigits n ++ 'e' :: (Text.intDigits e ++ rest))
      = some (Text.natDigits n, 'e' :: (Text.intDigits e ++ rest)) := by
    refine wholePart_natDigits n fun c hc => ?_
    rw [List.head?_cons, Option.mem_some] at hc
    rw [← hc]
    decide
  have hfraction : fractionPart ('e' :: (Text.intDigits e ++ rest))
      = some (none, 'e' :: (Text.intDigits e ++ rest)) := rfl
  simp only [unsigned, hwhole, hfraction, exponentPart_intDigits e h,
    Option.bind_eq_bind, Option.bind_some, Option.getD_none, Option.getD_some,
    List.append_nil, natOfRun_natDigits, List.length_nil, signed,
    Int.ofNat_zero, Int.sub_zero]

-- ============================================================== values

theorem isSpace_eq_false_of_isDigit {c : Char} (hc : Text.isDigit c = true) :
    isSpace c = false := by
  rw [Bool.eq_false_iff]
  intro hspace
  simp only [isSpace, Bool.or_eq_true, decide_eq_true_eq] at hspace
  rcases hspace with ((rfl | rfl) | rfl) | rfl <;> cases hc

/-- A value starts neither with a blank nor with the mark of an array that
ends. -/
theorem exists_print_eq_cons (v : Json) :
    ∃ c cs, print v = c :: cs ∧ isSpace c = false ∧ c ≠ ']' := by
  have hdigit : ∀ c, Text.isDigit c = true → isSpace c = false ∧ c ≠ ']' := by
    intro c hc
    refine ⟨isSpace_eq_false_of_isDigit hc, ?_⟩
    rintro rfl
    cases hc
  have hint : ∀ n rest, ∃ c cs, Text.intDigits n ++ rest = c :: cs
      ∧ isSpace c = false ∧ c ≠ ']' := by
    intro n rest
    cases n with
    | ofNat n =>
        obtain ⟨c, cs, hcs, hc⟩ := exists_natDigits_eq_cons n
        exact ⟨c, cs ++ rest, by rw [Text.intDigits, hcs]; rfl, hdigit c hc⟩
    | negSucc n => exact ⟨'-', _, rfl, rfl, by decide⟩
  cases v with
  | null => exact ⟨'n', _, rfl, rfl, by decide⟩
  | bool b => cases b <;> exact ⟨_, _, rfl, rfl, by decide⟩
  | int n =>
      obtain ⟨c, cs, hcs, hc⟩ := hint n []
      rw [List.append_nil] at hcs
      exact ⟨c, cs, hcs, hc⟩
  | decimal m e => exact hint m ('e' :: Text.intDigits e)
  | string s => exact ⟨'"', _, rfl, rfl, by decide⟩
  | array items => exact ⟨'[', _, rfl, rfl, by decide⟩
  | object members => exact ⟨'\x7b', _, rfl, rfl, by decide⟩
  | unreadable => exact ⟨'"', _, rfl, rfl, by decide⟩

variable {fuel : Nat}

theorem skipSpace_cons {c : Char} {cs : List Char} (h : isSpace c = false) :
    skipSpace (c :: cs) = c :: cs := by
  rw [skipSpace, List.dropWhile_cons_of_neg]
  simp [h]

/-- A digit in front makes a value a number. -/
theorem value_digit {c : Char} {cs : List Char} (hc : Text.isDigit c = true) :
    value (fuel + 1) (c :: cs) = unsigned false (c :: cs) := by
  have hmarks : c ≠ '"' ∧ c ≠ '[' ∧ c ≠ '\x7b' ∧ c ≠ '-' := by
    refine ⟨?_, ?_, ?_, ?_⟩ <;>
      · rintro rfl
        cases hc
  rw [value, skipSpace_cons (isSpace_eq_false_of_isDigit hc)]
  simp [hmarks, hc]

/-- A number is read behind its sign. -/
theorem value_intDigits (n : Int) (rest : List Char) :
    value (fuel + 1) (Text.intDigits n ++ rest)
      = unsigned (n < 0) (Text.natDigits n.natAbs ++ rest) := by
  cases n with
  | ofNat n =>
      obtain ⟨c, cs, hcs, hc⟩ := exists_natDigits_eq_cons n
      have hn : ¬ Int.ofNat n < 0 := by simp
      simp only [Text.intDigits, Int.natAbs_ofNat', hcs, List.cons_append,
        value_digit hc, hn, decide_false]
  | negSucc n =>
      have hn : Int.negSucc n < 0 := Int.negSucc_lt_zero n
      simp only [Text.intDigits, Int.natAbs_negSucc, List.cons_append, value,
        skipSpace_cons (show isSpace '-' = false from rfl), hn, decide_true,
        Nat.succ_eq_add_one]

theorem signed_natAbs (n : Int) : signed (n < 0) n.natAbs = n := by
  unfold signed
  split
  · next hn =>
    have := of_decide_eq_true hn
    omega
  · next hn =>
    have : ¬ n < 0 := by simpa using hn
    omega

theorem value_quoted (s rest : List Char) (hfuel : 0 < fuel) :
    value fuel (quoted s ++ rest) = some (string (String.ofList s), rest) := by
  obtain ⟨fuel, rfl⟩ : ∃ n, fuel = n + 1 := ⟨fuel - 1, by omega⟩
  have hquoted : quoted s ++ rest
      = '"' :: (s.flatMap escaped ++ '"' :: rest) := by simp [quoted]
  rw [hquoted]
  simp only [value, skipSpace_cons (show isSpace '"' = false from rfl),
    stringBody_quoted, Option.map_some, Option.elim_some]

theorem value_array (v : Json) (vs : List Json) (rest : List Char) :
    value (fuel + 1) ('[' :: (printItems (v :: vs) ++ rest))
      = (items fuel (printItems (v :: vs) ++ rest)).map fun (vs, after) =>
          (array vs, after) := by
  have hhead : ∃ c cs, printItems (v :: vs) ++ rest = c :: cs
      ∧ isSpace c = false ∧ c ≠ ']' := by
    obtain ⟨c, cs, hcs, hc⟩ := exists_print_eq_cons v
    cases vs with
    | nil => exact ⟨c, cs ++ rest, by rw [printItems_singleton, hcs]; rfl, hc⟩
    | cons w vs =>
        refine ⟨c, cs ++ ',' :: printItems (w :: vs) ++ rest, ?_, hc⟩
        rw [printItems_cons_cons, hcs]
        rfl
  obtain ⟨c, cs, hcs, hspace, hbracket⟩ := hhead
  rw [hcs, value, skipSpace_cons (show isSpace '[' = false from rfl)]
  simp [skipSpace_cons hspace, hbracket]

theorem value_object (k : String) (v : Json) (ms : List (String × Json))
    (rest : List Char) :
    value (fuel + 1) ('\x7b' :: (printMembers ((k, v) :: ms) ++ rest))
      = (members fuel (printMembers ((k, v) :: ms) ++ rest)).map
          fun (ms, after) => (ms.elim unreadable object, after) := by
  have hhead : ∃ cs, printMembers ((k, v) :: ms) ++ rest = '"' :: cs := by
    cases ms with
    | nil => exact ⟨_, rfl⟩
    | cons m ms => exact ⟨_, rfl⟩
  obtain ⟨cs, hcs⟩ := hhead
  rw [hcs, value, skipSpace_cons (show isSpace '\x7b' = false from rfl)]
  simp [skipSpace_cons (show isSpace '"' = false from rfl)]

theorem members_cons (k : String) {v : Json} {text : List Char}
    (hv : value fuel text = some (v, ',' :: rest)) :
    members (fuel + 1) (quoted k.toList ++ ':' :: text)
      = (members fuel rest).map fun (ms, after) =>
          (ms.map ((k, v) :: ·), after) := by
  have hquoted : quoted k.toList ++ ':' :: text
      = '"' :: (k.toList.flatMap escaped ++ '"' :: (':' :: text)) := by
    simp [quoted]
  rw [hquoted]
  simp only [members, skipSpace_cons (show isSpace '"' = false from rfl),
    stringBody_quoted, skipSpace_cons (show isSpace ':' = false from rfl), hv,
    skipSpace_cons (show isSpace ',' = false from rfl), Option.map_some,
    String.ofList_toList, Option.bind_some]

theorem members_singleton (k : String) {v : Json} {text : List Char}
    (hv : value fuel text = some (v, '\x7d' :: rest)) :
    members (fuel + 1) (quoted k.toList ++ ':' :: text)
      = some (some [(k, v)], rest) := by
  have hquoted : quoted k.toList ++ ':' :: text
      = '"' :: (k.toList.flatMap escaped ++ '"' :: (':' :: text)) := by
    simp [quoted]
  rw [hquoted]
  simp only [members, skipSpace_cons (show isSpace '"' = false from rfl),
    stringBody_quoted, skipSpace_cons (show isSpace ':' = false from rfl), hv,
    skipSpace_cons (show isSpace '\x7d' = false from rfl), Option.map_some,
    String.ofList_toList]

theorem items_cons {v : Json} {text : List Char}
    (hv : value fuel text = some (v, ',' :: rest)) :
    items (fuel + 1) text
      = (items fuel rest).map fun (vs, after) => (v :: vs, after) := by
  simp only [items, hv, skipSpace_cons (show isSpace ',' = false from rfl)]

theorem items_singleton {v : Json} {text : List Char}
    (hv : value fuel text = some (v, ']' :: rest)) :
    items (fuel + 1) text = some ([v], rest) := by
  simp only [items, hv, skipSpace_cons (show isSpace ']' = false from rfl)]

mutual

/-- A value is read off the front of a text. -/
theorem value_print (v : Json) (fuel : Nat) (rest : List Char)
    (hfuel : 2 * (print v).length ≤ fuel) (h : Delimited rest) :
    value fuel (print v ++ rest) = some (v, rest) := by
  have hpos : 0 < fuel := by
    obtain ⟨c, cs, hcs, -⟩ := exists_print_eq_cons v
    rw [hcs, List.length_cons] at hfuel
    omega
  obtain ⟨fuel, rfl⟩ : ∃ n, fuel = n + 1 := ⟨fuel - 1, by omega⟩
  match v with
  | null => rfl
  | bool true => rfl
  | bool false => rfl
  | int n =>
      have hn : decide (n < 0) = true → n.natAbs ≠ 0 := by simp; omega
      rw [print_int, value_intDigits, unsigned_whole hn h, signed_natAbs]
  | decimal m e =>
      rw [print_decimal, List.append_assoc, List.cons_append, value_intDigits,
        unsigned_decimal _ _ e h, signed_natAbs]
  | string s =>
      rw [print_string, value_quoted _ _ hpos, String.ofList_toList]
  | array [] => rfl
  | array (v :: vs) =>
      rw [print_array, List.length_cons, List.length_append] at hfuel
      rw [print_array, List.cons_append, List.append_assoc,
        List.singleton_append, value_array,
        items_printItems v vs fuel rest (by omega)]
      rfl
  | object [] => rfl
  | object ((k, v) :: ms) =>
      rw [print_object, List.length_cons, List.length_append] at hfuel
      rw [print_object, List.cons_append, List.append_assoc,
        List.singleton_append, value_object,
        members_printMembers k v ms fuel rest (by omega)]
      rfl
  | unreadable => rfl
termination_by fuel

/-- The items of an array are read up to its closing bracket. -/
theorem items_printItems (v : Json) (vs : List Json) (fuel : Nat)
    (rest : List Char)
    (hfuel : 2 * (printItems (v :: vs)).length + 1 ≤ fuel) :
    items fuel (printItems (v :: vs) ++ ']' :: rest)
      = some (v :: vs, rest) := by
  obtain ⟨fuel, rfl⟩ : ∃ n, fuel = n + 1 := ⟨fuel - 1, by omega⟩
  cases vs with
  | nil =>
      rw [printItems_singleton] at hfuel ⊢
      exact items_singleton
        (value_print v fuel _ (by omega) delimited_bracket)
  | cons w vs =>
      rw [printItems_cons_cons, List.length_append, List.length_cons] at hfuel
      rw [printItems_cons_cons, List.append_assoc, List.cons_append,
        items_cons (value_print v fuel _ (by omega) delimited_comma),
        items_printItems w vs fuel rest (by omega)]
      rfl
termination_by fuel

/-- The members of an object are read up to its closing brace. -/
theorem members_printMembers (k : String) (v : Json)
    (ms : List (String × Json)) (fuel : Nat) (rest : List Char)
    (hfuel : 2 * (printMembers ((k, v) :: ms)).length + 1 ≤ fuel) :
    members fuel (printMembers ((k, v) :: ms) ++ '\x7d' :: rest)
      = some (some ((k, v) :: ms), rest) := by
  obtain ⟨fuel, rfl⟩ : ∃ n, fuel = n + 1 := ⟨fuel - 1, by omega⟩
  cases ms with
  | nil =>
      rw [printMembers_singleton, List.length_append,
        List.length_cons] at hfuel
      rw [printMembers_singleton, List.append_assoc, List.cons_append]
      exact members_singleton k
        (value_print v fuel _ (by omega) delimited_brace)
  | cons m ms =>
      obtain ⟨k', w⟩ := m
      rw [printMembers_cons_cons, List.length_append, List.length_cons,
        List.length_append, List.length_cons] at hfuel
      rw [printMembers_cons_cons, List.append_assoc, List.cons_append,
        List.append_assoc, List.cons_append,
        members_cons k (value_print v fuel _ (by omega) delimited_comma),
        members_printMembers k' w ms fuel rest (by omega)]
      rfl
termination_by fuel

end

/-- A value is read from its text as it was. -/
theorem read_render (v : Json) : read v.render = some v := by
  have hvalue := value_print v (2 * (print v).length + 2) [] (by omega)
    delimited_nil
  rw [List.append_nil] at hvalue
  simp only [read, render, String.toList_ofList, hvalue]
  rfl

-- ============================================================= one line

/-- A character that controls nothing. -/
def Plain (c : Char) : Prop := 0x20 ≤ c.toNat

instance (c : Char) : Decidable (Plain c) :=
  inferInstanceAs (Decidable (_ ≤ _))

/-- A test of all characters of a text, as one that can be evaluated. -/
theorem plain_of_all {cs : List Char}
    (h : cs.all (decide <| Plain ·) = true) : ∀ c ∈ cs, Plain c := by
  simpa using h

/-- Nothing in an escape is itself in need of one. -/
theorem plain_of_mem_escaped {c : Char} : ∀ d ∈ escaped c, Plain d := by
  have hshort : ∀ e, Plain e → ∀ d ∈ ['\\', e], Plain d := by
    intro e he
    simp only [List.forall_mem_cons, List.not_mem_nil, false_imp_iff,
      implies_true, and_true]
    exact ⟨by decide, he⟩
  unfold escaped
  split_ifs with hquote hslash hcontrol hb ht hn hf hr
  · exact hshort '"' (by decide)
  · exact hshort '\\' (by decide)
  · exact hshort 'b' (by decide)
  · exact hshort 't' (by decide)
  · exact hshort 'n' (by decide)
  · exact hshort 'f' (by decide)
  · exact hshort 'r' (by decide)
  · have hhex : ∀ n < 0x20, ['\\', 'u', '0', '0', hexDigit (n / 16),
        hexDigit (n % 16)].all (decide <| Plain ·) = true := by decide
    exact plain_of_all (hhex c.toNat hcontrol)
  · intro d hd
    rw [List.mem_singleton.1 hd]
    exact Nat.le_of_not_lt hcontrol

theorem plain_of_mem_quoted {s : List Char} : ∀ c ∈ quoted s, Plain c := by
  unfold quoted
  rw [List.forall_mem_append, List.forall_mem_cons]
  refine ⟨⟨by decide, ?_⟩, plain_of_all (by decide)⟩
  intro c hc
  obtain ⟨d, -, hd⟩ := List.mem_flatMap.1 hc
  exact plain_of_mem_escaped c hd

theorem plain_of_mem_intDigits {n : Int} :
    ∀ c ∈ Text.intDigits n, Plain c := by
  have hnat : ∀ n, ∀ c ∈ Text.natDigits n, Plain c := by
    intro n c hc
    have hdigit := Nat.isDigit_of_mem_toDigits (by decide) (by decide) hc
    simp only [Char.isDigit, Bool.and_eq_true, decide_eq_true_eq] at hdigit
    exact Nat.le_trans (by decide) hdigit.1
  cases n with
  | ofNat n => exact hnat n
  | negSucc n =>
      rw [Text.intDigits, List.forall_mem_cons]
      exact ⟨by decide, hnat (n + 1)⟩

mutual

theorem plain_of_mem_print : (v : Json) → ∀ c ∈ print v, Plain c
  | null | bool true | bool false | unreadable => plain_of_all (by decide)
  | int n => plain_of_mem_intDigits
  | decimal m e => by
      rw [print_decimal, List.forall_mem_append, List.forall_mem_cons]
      exact ⟨plain_of_mem_intDigits, by decide, plain_of_mem_intDigits⟩
  | string s => plain_of_mem_quoted
  | array vs => by
      rw [print_array, List.forall_mem_cons, List.forall_mem_append]
      exact ⟨by decide, plain_of_mem_printItems vs, plain_of_all (by decide)⟩
  | object ms => by
      rw [print_object, List.forall_mem_cons, List.forall_mem_append]
      exact ⟨by decide, plain_of_mem_printMembers ms, plain_of_all (by decide)⟩

theorem plain_of_mem_printItems :
    (vs : List Json) → ∀ c ∈ printItems vs, Plain c
  | [] => nofun
  | [v] => plain_of_mem_print v
  | v :: w :: vs => by
      rw [printItems_cons_cons, List.forall_mem_append, List.forall_mem_cons]
      exact ⟨plain_of_mem_print v, by decide,
        plain_of_mem_printItems (w :: vs)⟩

theorem plain_of_mem_printMembers :
    (ms : List (String × Json)) → ∀ c ∈ printMembers ms, Plain c
  | [] => nofun
  | [(k, v)] => by
      rw [printMembers_singleton, List.forall_mem_append, List.forall_mem_cons]
      exact ⟨plain_of_mem_quoted, by decide, plain_of_mem_print v⟩
  | (k, v) :: m :: ms => by
      rw [printMembers_cons_cons, List.forall_mem_append, List.forall_mem_cons,
        List.forall_mem_append, List.forall_mem_cons]
      exact ⟨plain_of_mem_quoted, by decide, plain_of_mem_print v, by decide,
        plain_of_mem_printMembers (m :: ms)⟩

end

/-- A printed value is one line. -/
theorem plain_of_mem_render {v : Json} : ∀ c ∈ v.render.toList, Plain c := by
  rw [render, String.toList_ofList]
  exact plain_of_mem_print v

end WorkRouting.Json
