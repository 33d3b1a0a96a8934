/-
Laws of trimming and cutting, for every reader of tokens.

- Trimming settles at once (`trimmed_trimmed`), and what it leaves alone is
  exactly what has no blank at either end (`trimmed_eq_self_iff`).
- The segments of a text are the one way to write it as texts without a
  separator between separators: they hold none (`not_mem_of_mem_segments`),
  joining them gives the text back (`intercalate_segments`), and a text put
  together from such parts is cut at the same places (`segments_append`). So
  they are what a split of the list at the separator gives
  (`segments_eq_splitOn`).
- A list is read by a key that no two elements share (`find?_key_eq`), a table
  of names by name (`find?_name_eq_some_iff`): the vocabularies of resources,
  actions, scopes and kinds of position are all read this way.
-/
import Mathlib.Data.List.DropRight
import WorkRouting.Text

namespace WorkRouting

namespace Text

-- ================================================================ trimming

/-- A test of a character that may be missing, as one that can be evaluated. -/
theorem not_blank_of_all {o : Option Char}
    (h : (o.all fun c => !isBlank c) = true) :
    ∀ c ∈ o, isBlank c = false := by
  intro c hc
  rw [Option.mem_def.1 hc] at h
  simpa using h

/-- Trimming drops the blanks in front, then those at the end. -/
theorem trimmed_eq (cs : List Char) :
    trimmed cs = (cs.dropWhile isBlank).rdropWhile isBlank := rfl

/-- No blank in front and none at the end. -/
def Edged (cs : List Char) : Prop :=
  (∀ c ∈ cs.head?, isBlank c = false) ∧ ∀ c ∈ cs.getLast?, isBlank c = false

theorem trimmed_eq_self {cs : List Char} (h : Edged cs) : trimmed cs = cs := by
  cases cs with
  | nil => rfl
  | cons c rest =>
      have hfront : (c :: rest).dropWhile isBlank = c :: rest := by
        rw [List.dropWhile_cons_of_neg]
        simp [h.1 c rfl]
      rw [trimmed_eq, hfront, List.rdropWhile_eq_self_iff]
      intro hne
      rw [h.2 _ (List.getLast?_eq_some_getLast hne)]
      exact Bool.false_ne_true

/-- What is left by trimming has no blank at its ends. The front is clean after
the first pass, and the second pass leaves a prefix of it. -/
theorem edged_trimmed (cs : List Char) : Edged (trimmed cs) := by
  rw [trimmed_eq]
  constructor
  · intro c hc
    obtain ⟨rest, hrest⟩ := List.head?_eq_some_iff.1 hc
    obtain ⟨back, hback⟩ :=
      List.rdropWhile_prefix isBlank (l := cs.dropWhile isBlank)
    rw [hrest] at hback
    have hfront := List.head?_dropWhile_not isBlank cs
    rw [← hback] at hfront
    simpa using hfront
  · intro c hc
    have hne : (cs.dropWhile isBlank).rdropWhile isBlank ≠ [] := by
      intro hnil
      rw [hnil] at hc
      cases hc
    have hlast := List.rdropWhile_last_not isBlank _ hne
    rw [List.getLast?_eq_some_getLast hne] at hc
    cases hc
    simpa using hlast

theorem trimmed_eq_self_iff {cs : List Char} : trimmed cs = cs ↔ Edged cs := by
  constructor
  · intro h
    rw [← h]
    exact edged_trimmed cs
  · exact trimmed_eq_self

theorem trimmed_trimmed (cs : List Char) : trimmed (trimmed cs) = trimmed cs :=
  trimmed_eq_self (edged_trimmed cs)

theorem toList_trim (s : String) : (trim s).toList = trimmed s.toList :=
  String.toList_ofList

theorem trim_trim (s : String) : trim (trim s) = trim s := by
  rw [← String.toList_inj, toList_trim, toList_trim, trimmed_trimmed]

/-- Blanks around a text make no difference to its trim. -/
theorem trimmed_append {left right : List Char} (cs : List Char)
    (hleft : ∀ c ∈ left, isBlank c = true)
    (hright : ∀ c ∈ right, isBlank c = true) :
    trimmed (left ++ cs ++ right) = trimmed cs := by
  have hback : ∀ front : List Char,
      (front ++ right).rdropWhile isBlank = front.rdropWhile isBlank := by
    intro front
    rw [List.rdropWhile, List.reverse_append, List.dropWhile_append_of_pos,
      List.rdropWhile]
    simpa using hright
  rw [trimmed_eq, trimmed_eq, List.append_assoc,
    List.dropWhile_append_of_pos hleft, List.dropWhile_append]
  split
  · next hblank =>
      rw [List.isEmpty_iff.1 hblank, List.dropWhile_eq_nil_iff.2 hright]
  · exact hback _

theorem trim_append {left right : String} (s : String)
    (hleft : isBlankText left = true) (hright : isBlankText right = true) :
    trim (left ++ s ++ right) = trim s := by
  rw [isBlankText, List.all_eq_true] at hleft hright
  rw [← String.toList_inj, toList_trim, toList_trim, String.toList_append,
    String.toList_append, trimmed_append s.toList hleft hright]

/-- A lead without blanks at its ends stays in front of the trim. -/
theorem exists_trimmed_append {lead : List Char} (hne : lead ≠ [])
    (hlead : Edged lead) (cs : List Char) :
    ∃ rest, trimmed (lead ++ cs) = lead ++ rest := by
  obtain ⟨c, lead', rfl⟩ := List.exists_cons_of_ne_nil hne
  have hfront : (c :: lead' ++ cs).dropWhile isBlank = c :: lead' ++ cs := by
    rw [List.cons_append, List.dropWhile_cons_of_neg]
    simp [hlead.1 c rfl]
  rw [trimmed_eq, hfront]
  clear hfront
  induction cs using List.reverseRecOn with
  | nil =>
      refine ⟨[], ?_⟩
      rw [List.append_nil, List.rdropWhile_eq_self_iff]
      intro hne
      rw [hlead.2 _ (List.getLast?_eq_some_getLast hne)]
      exact Bool.false_ne_true
  | append_singleton cs last ih =>
      rw [← List.append_assoc, List.rdropWhile_concat]
      split
      · exact ih
      · exact ⟨cs ++ [last], List.append_assoc _ _ _⟩

-- ================================================================= cutting

theorem segments_of_not_mem {sep : Char} {cs : List Char} (h : sep ∉ cs) :
    segments sep cs = [cs] := by
  induction cs with
  | nil => rfl
  | cons c cs ih =>
      rw [List.mem_cons, not_or] at h
      unfold segments
      rw [if_neg (Ne.symm h.1), ih h.2]

/-- The first segment ends at the first separator. -/
theorem segments_append {sep : Char} {front : List Char} (h : sep ∉ front)
    (rest : List Char) :
    segments sep (front ++ sep :: rest) = front :: segments sep rest := by
  induction front with
  | nil =>
      rw [List.nil_append, segments, if_pos rfl]
  | cons c front ih =>
      rw [List.mem_cons, not_or] at h
      rw [List.cons_append, segments, if_neg (Ne.symm h.1), ih h.2]

theorem not_mem_of_mem_segments {sep : Char} {cs s : List Char}
    (h : s ∈ segments sep cs) : sep ∉ s := by
  induction cs generalizing s with
  | nil =>
      rw [segments, List.mem_singleton] at h
      simp [h]
  | cons c cs ih =>
      unfold segments at h
      split at h
      · rcases List.mem_cons.1 h with rfl | h
        · simp
        · exact ih h
      · next hne =>
          split at h
          · next hnil => exact absurd hnil (segments_ne_nil sep cs)
          · next s₁ rest hseg =>
              rcases List.mem_cons.1 h with rfl | h
              · rw [List.mem_cons, not_or]
                exact ⟨Ne.symm hne,
                  ih (by rw [hseg]; exact List.mem_cons_self)⟩
              · exact ih (by rw [hseg]; exact List.mem_cons_of_mem _ h)

theorem intercalate_segments (sep : Char) (cs : List Char) :
    [sep].intercalate (segments sep cs) = cs := by
  induction cs with
  | nil => rfl
  | cons c cs ih =>
      obtain ⟨s₁, rest, hseg⟩ :=
        List.exists_cons_of_ne_nil (segments_ne_nil sep cs)
      rw [hseg] at ih
      unfold segments
      split
      · next hc =>
          rw [hseg, List.intercalate_cons_cons, ih, hc]
          rfl
      · rw [hseg]
        cases rest with
        | nil =>
            rw [List.intercalate_singleton] at ih ⊢
            rw [ih]
        | cons s₂ rest =>
            rw [List.intercalate_cons_cons] at ih ⊢
            rw [← ih]
            rfl

/-- The segments are those into which a list is split at an element. -/
theorem segments_eq_splitOn (sep : Char) (cs : List Char) :
    segments sep cs = cs.splitOn sep := by
  have hsplit := List.splitOn_intercalate sep
    (fun _ hs => not_mem_of_mem_segments hs) (segments_ne_nil sep cs)
  rw [intercalate_segments] at hsplit
  exact hsplit.symm

theorem cut_of_not_mem {sep : Char} {cs : List Char} (h : sep ∉ cs) :
    cut sep cs = (cs, none) := by
  induction cs with
  | nil => rfl
  | cons c cs ih =>
      rw [List.mem_cons, not_or] at h
      rw [cut, if_neg (Ne.symm h.1), ih h.2]

theorem cut_append {sep : Char} {front : List Char} (h : sep ∉ front)
    (rest : List Char) :
    cut sep (front ++ sep :: rest) = (front, some rest) := by
  induction front with
  | nil =>
      rw [List.nil_append, cut, if_pos rfl]
  | cons c front ih =>
      rw [List.mem_cons, not_or] at h
      rw [List.cons_append, cut, if_neg (Ne.symm h.1), ih h.2]

/-- What follows a lead is the rest of a text that starts with it. -/
theorem after?_eq_some_iff {lead cs rest : List Char} :
    after? lead cs = some rest ↔ cs = lead ++ rest := by
  induction lead generalizing cs with
  | nil =>
      rw [after?, Option.some.injEq, List.nil_append]
  | cons l lead ih =>
      cases cs with
      | nil => simp [after?]
      | cons c cs =>
          rw [after?, List.cons_append, List.cons.injEq]
          split
          · next hlc => rw [ih, eq_comm (a := c), and_iff_right hlc]
          · next hlc => simp [Ne.symm hlc]

end Text

-- ================================================================== naming

/-- An element whose key no other element has is found by its key. -/
theorem find?_key_eq {α β : Type _} [BEq β] [LawfulBEq β] {key : α → β}
    {l : List α} {a : α} (ha : a ∈ l)
    (honly : ∀ b ∈ l, key b = key a → b = a) :
    l.find? (key · == key a) = some a := by
  cases hfind : l.find? (key · == key a) with
  | none => simpa using List.find?_eq_none.1 hfind a ha
  | some b =>
      have hkey : key b = key a := by
        simpa using List.find?_some hfind
      rw [honly b (List.mem_of_find?_eq_some hfind) hkey]

/-- In a table that lists everything under names that differ, reading by name
finds what bears the name. -/
theorem find?_name_eq_some_iff {α : Type _} {name : α → String} {all : List α}
    (hall : ∀ x, x ∈ all) (hname : ∀ x y, name x = name y → x = y)
    {text : String} {x : α} :
    all.find? (name · == text) = some x ↔ text = name x := by
  constructor
  · intro h
    have := List.find?_some h
    simp only [beq_iff_eq] at this
    exact this.symm
  · rintro rfl
    exact find?_key_eq (hall x) fun y _ => hname y x

/-- In such a table reading by name finds nothing where nothing bears it. -/
theorem find?_name_eq_none_iff {α : Type _} {name : α → String} {all : List α}
    (hall : ∀ x, x ∈ all) {text : String} :
    all.find? (name · == text) = none ↔ ∀ x, name x ≠ text := by
  rw [List.find?_eq_none]
  simp only [beq_iff_eq, hall, forall_const]

end WorkRouting
