/-
Whole numbers and their decimal texts. A number is written without zeros in
front, and its text is read back as the number, whatever comes after it, as
long as that is no further digit.
-/
import WorkRouting.Text

namespace WorkRouting.Text

-- =================================================================== digits

theorem digit?_digitChar {d : Nat} (h : d < 10) :
    digit? (Nat.digitChar d) = some d := by
  have hall : ∀ d < 10, digit? (Nat.digitChar d) = some d := by decide
  exact hall d h

theorem isDigit_digitChar {d : Nat} (h : d < 10) :
    isDigit (Nat.digitChar d) = true := by
  rw [isDigit, digit?_digitChar h]
  rfl

/-- The last digit is the remainder, and those before it are the quotient. -/
theorem natDigits_eq (n : Nat) :
    natDigits n = if n < 10 then [Nat.digitChar n]
      else natDigits (n / 10) ++ [Nat.digitChar (n % 10)] :=
  Nat.toDigits_eq_if (by decide)

theorem natDigits_ne_nil (n : Nat) : natDigits n ≠ [] :=
  Nat.toDigits_ne_nil

theorem isDigit_of_mem_natDigits {n : Nat} {c : Char} (h : c ∈ natDigits n) :
    isDigit c = true := by
  induction n using Nat.strongRecOn with
  | ind n ih =>
      rw [natDigits_eq] at h
      split at h
      · next hn =>
          rw [List.mem_singleton.1 h]
          exact isDigit_digitChar hn
      · next hn =>
          rcases List.mem_append.1 h with h | h
          · exact ih (n / 10) (by omega) h
          · rw [List.mem_singleton.1 h]
            exact isDigit_digitChar (Nat.mod_lt n (by decide))

/-- Only the zero starts with a zero. -/
theorem eq_zero_of_head_natDigits {n : Nat}
    (h : (natDigits n).head? = some '0') : n = 0 := by
  induction n using Nat.strongRecOn with
  | ind n ih =>
      rw [natDigits_eq] at h
      split at h
      · exact Nat.digitChar_eq_zero.1 (Option.some.inj h)
      · next hn =>
          have hfront : (natDigits (n / 10)).head? = some '0' := by
            obtain ⟨d, ds, hds⟩ :=
              List.exists_cons_of_ne_nil (natDigits_ne_nil (n / 10))
            rw [hds] at h ⊢
            exact h
          have := ih (n / 10) (by omega) hfront
          omega

theorem natDigits_zero : natDigits 0 = ['0'] := rfl

-- ================================================================== reading

theorem natFrom?_append (n : Nat) (cs ds : List Char) :
    natFrom? n (cs ++ ds) = (natFrom? n cs).bind (natFrom? · ds) := by
  induction cs generalizing n with
  | nil => rfl
  | cons c cs ih =>
      simp only [List.cons_append, natFrom?]
      cases digit? c with
      | none => rfl
      | some d => exact ih (10 * n + d)

theorem natFrom?_natDigits (n : Nat) : natFrom? 0 (natDigits n) = some n := by
  induction n using Nat.strongRecOn with
  | ind n ih =>
      rw [natDigits_eq]
      split
      · next hn =>
          simp only [natFrom?, digit?_digitChar hn, Option.bind_some,
            Nat.mul_zero, Nat.zero_add]
      · next hn =>
          have hlast : n % 10 < 10 := Nat.mod_lt n (by decide)
          rw [natFrom?_append, ih (n / 10) (by omega)]
          simp only [natFrom?, digit?_digitChar hlast, Option.bind_some,
            Option.some.injEq]
          omega

theorem nat?_natDigits (n : Nat) : nat? (natDigits n) = some n := by
  obtain ⟨c, cs, hcs⟩ := List.exists_cons_of_ne_nil (natDigits_ne_nil n)
  rw [hcs, nat?, ← hcs]
  · exact natFrom?_natDigits n
  · nofun

/-- A whole number is read back from its text, sign included. -/
theorem int?_intDigits (n : Int) : int? (intDigits n) = some n := by
  cases n with
  | ofNat n =>
      obtain ⟨c, cs, hcs⟩ := List.exists_cons_of_ne_nil (natDigits_ne_nil n)
      have hdigit : isDigit c = true :=
        isDigit_of_mem_natDigits (n := n)
          (by rw [hcs]; exact List.mem_cons_self)
      -- a digit is no sign
      rw [intDigits, int?, nat?_natDigits]
      · rfl
      · rintro ds hds
        rw [hcs] at hds
        rw [(List.cons.inj hds).1] at hdigit
        cases hdigit
      · rintro ds hds
        rw [hcs] at hds
        rw [(List.cons.inj hds).1] at hdigit
        cases hdigit
  | negSucc n =>
      rw [intDigits, int?, nat?_natDigits]
      rfl

end WorkRouting.Text
