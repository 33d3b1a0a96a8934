/-
Texts with placeholders, and what filling them comes to.

`Pieces` says how a text is read: a placeholder starts wherever an opening is
met outside of one and ends at the first closing brace, and every character
outside of placeholders stands for itself. Each text is read in exactly one way
(`exists_pieces`, `Pieces.unique`) and nothing of it is lost
(`Pieces.flatMap_written`).

Filling a text then fills its pieces, from left to right (`interpolate_eq`). A
value only ever takes the place of a piece, so what a value looks like cannot
matter; the first piece that cannot be filled is what filling fails for; and
two texts, one behind the other, are filled one behind the other unless an
opening comes about between them (`Pieces.append`).
-/
import WorkRouting.Proofs.Settings.Loading
import WorkRouting.Proofs.Text

namespace WorkRouting

namespace Environment

-- ============================================================== vocabulary

/-- A piece of a text. -/
inductive Piece where
  /-- A character that stands for itself. -/
  | plain (c : Char)
  /-- The place of the value of a variable. -/
  | placeholder (name : String)
  /-- An opening that no closing brace follows, with all that does follow. -/
  | unclosed (rest : List Char)

namespace Piece

/-- How the piece is written. -/
def written : Piece → List Char
  | plain c => [c]
  | placeholder name => '$' :: '\x7b' :: (name.toList ++ ['\x7d'])
  | unclosed rest => '$' :: '\x7b' :: rest

/-- What stands where the piece was: the character itself, or the text of the
variable. -/
inductive Becomes (value : String → Option String) : Piece → List Char → Prop
  | plain {c : Char} : Becomes value (.plain c) [c]
  | placeholder {name text : String} :
      value name = some text → Becomes value (.placeholder name) text.toList

/-- Why nothing can stand there. -/
inductive Spoils (value : String → Option String) :
    Piece → SettingsError → Prop
  | missing {name : String} :
      value name = none
        → Spoils value (.placeholder name) (.missingVariable name)
  | unclosed {rest : List Char} :
      Spoils value (.unclosed rest) .unterminatedPlaceholder

end Piece

/-- The pieces of a text, from left to right. -/
inductive Pieces : List Char → List Piece → Prop
  | nil : Pieces [] []
  | plain {c : Char} {rest : List Char} {ps : List Piece} :
      ¬ ['$', '\x7b'] <+: c :: rest → Pieces rest ps →
      Pieces (c :: rest) (.plain c :: ps)
  | placeholder {name : String} {rest : List Char} {ps : List Piece} :
      '\x7d' ∉ name.toList → Pieces rest ps →
      Pieces ('$' :: '\x7b' :: (name.toList ++ '\x7d' :: rest))
        (.placeholder name :: ps)
  | unclosed {rest : List Char} :
      '\x7d' ∉ rest → Pieces ('$' :: '\x7b' :: rest) [.unclosed rest]

/-- No opening comes about where the second text follows the first. -/
def Apart (x y : List Char) : Prop :=
  x.getLast? ≠ some '$' ∨ y.head? ≠ some '\x7b'

variable {value : String → Option String} {cs x y : List Char}
  {ps qs : List Piece}

-- ================================================================ one reading

/-- Nothing of a text is lost between its pieces. -/
theorem Pieces.flatMap_written (h : Pieces cs ps) :
    ps.flatMap Piece.written = cs := by
  induction h with
  | nil => rfl
  | plain _ _ ih =>
      rw [List.flatMap_cons, ih]
      rfl
  | placeholder _ _ ih =>
      rw [List.flatMap_cons, ih]
      simp [Piece.written]
  | unclosed => simp [Piece.written]

/-- Every text can be read. -/
theorem exists_pieces (cs : List Char) : ∃ ps, Pieces cs ps := by
  induction hn : cs.length using Nat.strongRecOn generalizing cs with
  | ind n ih =>
      cases cs with
      | nil => exact ⟨[], .nil⟩
      | cons c rest =>
          by_cases hopen : ['$', '\x7b'] <+: c :: rest
          · -- an opening: all turns on whether a closing brace follows it
            obtain ⟨body, hbody⟩ := hopen
            rw [← hbody] at hn ⊢
            by_cases hclose : '\x7d' ∈ body
            · obtain ⟨name, after, rfl, hname⟩ :=
                List.eq_append_cons_of_mem hclose
              obtain ⟨ps, hps⟩ := ih after.length (by simp at hn; omega)
                after rfl
              rw [← String.toList_ofList (l := name)] at hname ⊢
              exact ⟨_, .placeholder hname hps⟩
            · exact ⟨_, .unclosed hclose⟩
          · obtain ⟨ps, hps⟩ := ih rest.length (by simp at hn; omega) rest rfl
            exact ⟨_, .plain hopen hps⟩

/-- What is no opening stands for itself. -/
theorem Pieces.plain_inv {c : Char} (hplain : ¬ ['$', '\x7b'] <+: c :: cs)
    (h : Pieces (c :: cs) ps) : ∃ qs, ps = .plain c :: qs ∧ Pieces cs qs := by
  cases h with
  | plain _ hrest => exact ⟨_, rfl, hrest⟩
  | placeholder | unclosed => exact absurd (List.prefix_append [_, _] _) hplain

/-- The first closing brace ends a placeholder. -/
theorem Pieces.placeholder_inv {name : String} (hname : '\x7d' ∉ name.toList)
    (h : Pieces ('$' :: '\x7b' :: (name.toList ++ '\x7d' :: cs)) ps) :
    ∃ qs, ps = .placeholder name :: qs ∧ Pieces cs qs := by
  generalize htext : '$' :: '\x7b' :: (name.toList ++ '\x7d' :: cs) = text at h
  cases h with
  | nil => cases htext
  | plain hplain =>
      rw [← htext] at hplain
      exact absurd (List.prefix_append [_, _] _) hplain
  | @placeholder name' rest qs hname' hrest =>
      simp only [List.cons.injEq, true_and] at htext
      have hcut := congrArg (Text.cut '\x7d') htext
      rw [Text.cut_append hname, Text.cut_append hname'] at hcut
      cases String.toList_inj.1 (congrArg Prod.fst hcut)
      cases Option.some.inj (congrArg Prod.snd hcut)
      exact ⟨qs, rfl, hrest⟩
  | unclosed hrest =>
      simp only [List.cons.injEq, true_and] at htext
      rw [← htext] at hrest
      exact absurd (List.mem_append_right _ List.mem_cons_self) hrest

/-- Without one, an opening takes all that follows. -/
theorem Pieces.unclosed_inv (hrest : '\x7d' ∉ cs)
    (h : Pieces ('$' :: '\x7b' :: cs) ps) : ps = [.unclosed cs] := by
  cases h with
  | plain hplain => exact absurd (List.prefix_append [_, _] _) hplain
  | placeholder =>
      exact absurd (List.mem_append_right _ List.mem_cons_self) hrest
  | unclosed => rfl

/-- And it can be read in one way only. -/
theorem Pieces.unique (h : Pieces cs ps) (h' : Pieces cs qs) : qs = ps := by
  induction h generalizing qs with
  | nil =>
      cases h'
      rfl
  | plain hplain _ ih =>
      obtain ⟨qs, rfl, hqs⟩ := h'.plain_inv hplain
      rw [ih hqs]
  | placeholder hname _ ih =>
      obtain ⟨qs, rfl, hqs⟩ := h'.placeholder_inv hname
      rw [ih hqs]
  | unclosed hrest => exact h'.unclosed_inv hrest

-- ========================================================== one after another

theorem Apart.of_append {front : List Char} (h : Apart (front ++ x) y) :
    Apart x y :=
  h.imp_left fun hlast hx =>
    hlast (List.mem_getLast?_append_of_mem_getLast? hx)

theorem Apart.tail {c : Char} (h : Apart (c :: x) y) : Apart x y := by
  rw [← List.singleton_append] at h
  exact h.of_append

/-- What stands for itself does so before another text. -/
theorem Apart.plain {c : Char} (h : Apart (c :: x) y)
    (hplain : ¬ ['$', '\x7b'] <+: c :: x) :
    ¬ ['$', '\x7b'] <+: c :: (x ++ y) := by
  cases x with
  | nil =>
      rw [List.nil_append, List.cons_prefix_cons]
      rintro ⟨rfl, after, rfl⟩
      exact h.elim (· rfl) (· rfl)
  | cons c' x =>
      rw [List.cons_prefix_cons, List.cons_prefix_cons] at hplain
      rw [List.cons_append, List.cons_prefix_cons, List.cons_prefix_cons]
      rintro ⟨hc, hc', -⟩
      exact hplain ⟨hc, hc', List.nil_prefix⟩

/-- Two texts are read one after the other. An opening that is never closed
would take in all of the second. -/
theorem Pieces.append (hx : Pieces x ps) (hy : Pieces y qs)
    (hclosed : ∀ rest, .unclosed rest ∉ ps) (hapart : Apart x y) :
    Pieces (x ++ y) (ps ++ qs) := by
  induction hx with
  | nil => exact hy
  | @plain c rest ps hplain _ ih =>
      have hrest := ih (fun u hu => hclosed u (List.mem_cons_of_mem _ hu))
        hapart.tail
      exact .plain (hapart.plain hplain) hrest
  | @placeholder name rest ps hname _ ih =>
      have hfront : '$' :: '\x7b' :: (name.toList ++ '\x7d' :: rest)
          = (Piece.placeholder name).written ++ rest := by
        simp [Piece.written]
      rw [hfront] at hapart
      have hrest := ih (fun u hu => hclosed u (List.mem_cons_of_mem _ hu))
        hapart.of_append
      simpa using Pieces.placeholder hname hrest
  | unclosed => exact absurd List.mem_cons_self (hclosed _)

-- ================================================================== filling

namespace Piece

/-- Fills a piece, or says why it cannot be. -/
def fill (value : String → Option String) :
    Piece → Except SettingsError (List Char)
  | plain c => .ok [c]
  | placeholder name =>
      match value name with
      | none => .error (.missingVariable name)
      | some text => .ok text.toList
  | unclosed _ => .error .unterminatedPlaceholder

theorem fill_eq_ok_iff {p : Piece} {out : List Char} :
    p.fill value = .ok out ↔ p.Becomes value out := by
  constructor
  · intro h
    cases p with
    | plain c =>
        cases h
        exact .plain
    | placeholder name =>
        unfold fill at h
        cases hname : value name with
        | none => simp [hname] at h
        | some text =>
            simp only [hname] at h
            cases h
            exact .placeholder hname
    | unclosed rest => cases h
  · intro h
    cases h with
    | plain => rfl
    | placeholder hname => simp only [fill, hname]

theorem fill_eq_error_iff {p : Piece} {e : SettingsError} :
    p.fill value = .error e ↔ p.Spoils value e := by
  constructor
  · intro h
    cases p with
    | plain c => cases h
    | placeholder name =>
        unfold fill at h
        cases hname : value name with
        | none =>
            simp only [hname] at h
            cases h
            exact .missing hname
        | some text => simp [hname] at h
    | unclosed rest =>
        cases h
        exact .unclosed
  · intro h
    cases h with
    | missing hname => simp only [fill, hname]
    | unclosed => rfl

end Piece

theorem placeholder?_append {name : String} (hname : '\x7d' ∉ name.toList)
    (rest : List Char) :
    placeholder? (name.toList ++ '\x7d' :: rest) = some (name, rest) := by
  unfold placeholder?
  rw [Text.cut_append hname]
  simp

theorem placeholder?_eq_none (hrest : '\x7d' ∉ cs) :
    placeholder? cs = none := by
  unfold placeholder?
  rw [Text.cut_of_not_mem hrest]

/-- To fill a text is to fill its pieces, from left to right. -/
theorem Pieces.interpolate_eq (h : Pieces cs ps) :
    interpolate value cs
      = (ps.mapM (Piece.fill value)).map List.flatten := by
  induction h with
  | nil =>
      rw [interpolate]
      rfl
  | @plain c rest ps hplain _ ih =>
      have hnot : ∀ after, c = '$' → rest = '\x7b' :: after → False := by
        rintro after rfl rfl
        exact hplain (List.prefix_append [_, _] after)
      rw [interpolate.eq_3 _ _ _ hnot, ih, List.mapM_cons]
      cases ps.mapM (Piece.fill value) <;> rfl
  | @placeholder name rest ps hname _ ih =>
      rw [interpolate, placeholder?_append hname, List.mapM_cons]
      cases hvalue : value name with
      | none =>
          simp only [Piece.fill, hvalue]
          rfl
      | some text =>
          simp only [Piece.fill, hvalue, ih]
          cases ps.mapM (Piece.fill value) <;> rfl
  | unclosed hrest =>
      rw [interpolate, placeholder?_eq_none hrest]
      rfl

theorem Piece.mapM_fill_eq_ok_iff {parts : List (List Char)} :
    ps.mapM (fill value) = .ok parts
      ↔ List.Forall₂ (Becomes value) ps parts := by
  induction ps generalizing parts with
  | nil =>
      constructor
      · intro h
        cases h
        exact .nil
      · intro h
        cases h
        rfl
  | cons p ps ih =>
      rw [List.mapM_cons]
      constructor
      · intro h
        obtain ⟨part, hpart, h⟩ := bind_eq_ok_iff.1 h
        obtain ⟨rest, hrest, h⟩ := bind_eq_ok_iff.1 h
        cases h
        exact .cons (fill_eq_ok_iff.1 hpart) (ih.1 hrest)
      · intro h
        cases h with
        | cons hpart hrest =>
            exact bind_eq_ok_iff.2 ⟨_, fill_eq_ok_iff.2 hpart,
              bind_eq_ok_iff.2 ⟨_, ih.2 hrest, rfl⟩⟩

/-- Filling gives what the pieces become. -/
theorem Pieces.interpolate_eq_ok_iff (h : Pieces cs ps) {out : List Char} :
    interpolate value cs = .ok out
      ↔ ∃ parts, List.Forall₂ (Piece.Becomes value) ps parts
        ∧ parts.flatten = out := by
  rw [h.interpolate_eq, map_eq_ok_iff]
  simp only [Piece.mapM_fill_eq_ok_iff]

/-- Filling fails for the first piece that nothing can stand for. -/
theorem Pieces.interpolate_eq_error_iff (h : Pieces cs ps)
    {e : SettingsError} :
    interpolate value cs = .error e
      ↔ ∃ before p after, ps = before ++ p :: after
        ∧ (∀ b ∈ before, ∃ part, b.Becomes value part) ∧ p.Spoils value e := by
  rw [h.interpolate_eq, map_eq_error_iff, mapM_eq_error_iff]
  simp only [Piece.fill_eq_ok_iff, Piece.fill_eq_error_iff]

theorem Piece.exists_becomes_iff {p : Piece} :
    (∃ part, p.Becomes value part) ↔ (∀ rest, p ≠ .unclosed rest)
      ∧ ∀ name, p = .placeholder name → ∃ text, value name = some text := by
  constructor
  · rintro ⟨part, h⟩
    cases h with
    | plain => exact ⟨nofun, nofun⟩
    | placeholder hname =>
        refine ⟨nofun, fun name heq => ?_⟩
        cases heq
        exact ⟨_, hname⟩
  · rintro ⟨hclosed, hvalue⟩
    cases p with
    | plain c => exact ⟨_, .plain⟩
    | placeholder name =>
        obtain ⟨text, hname⟩ := hvalue name rfl
        exact ⟨_, .placeholder hname⟩
    | unclosed rest => exact absurd rfl (hclosed rest)

/-- Filling succeeds exactly if every placeholder is closed and names something
that has a value. -/
theorem Pieces.exists_interpolate_iff (h : Pieces cs ps) :
    (∃ out, interpolate value cs = .ok out)
      ↔ (∀ rest, .unclosed rest ∉ ps)
        ∧ ∀ name, .placeholder name ∈ ps → ∃ text, value name = some text := by
  have hparts : (∃ out, interpolate value cs = .ok out)
      ↔ ∀ p ∈ ps, ∃ part, p.Becomes value part := by
    simp only [← Piece.fill_eq_ok_iff, h.interpolate_eq, map_eq_ok_iff]
    constructor
    · rintro ⟨out, parts, hparts, -⟩
      exact exists_of_mapM_eq_ok hparts
    · intro hfilled
      obtain ⟨parts, hparts, -⟩ := exists_mapM_eq_ok hfilled
      exact ⟨_, parts, hparts, rfl⟩
  rw [hparts]
  simp only [Piece.exists_becomes_iff]
  constructor
  · intro hall
    exact ⟨fun rest hp => (hall _ hp).1 rest rfl,
      fun name hp => (hall _ hp).2 name rfl⟩
  · rintro ⟨hclosed, hvalue⟩ p hp
    exact ⟨fun rest heq => hclosed rest (heq ▸ hp),
      fun name heq => hvalue name (heq ▸ hp)⟩

/-- Behind a text that can be filled another is filled by itself. -/
theorem interpolate_append {out : List Char}
    (hx : interpolate value x = .ok out) (hapart : Apart x y) :
    interpolate value (x ++ y) = (interpolate value y).map (out ++ ·) := by
  obtain ⟨ps, hps⟩ := exists_pieces x
  obtain ⟨qs, hqs⟩ := exists_pieces y
  have hclosed := (hps.exists_interpolate_iff.1 ⟨out, hx⟩).1
  rw [hps.interpolate_eq] at hx
  obtain ⟨parts, hparts, rfl⟩ := map_eq_ok_iff.1 hx
  rw [(hps.append hqs hclosed hapart).interpolate_eq, hqs.interpolate_eq,
    List.mapM_append, hparts]
  cases qs.mapM (Piece.fill value) with
  | error e => rfl
  | ok parts' => exact congrArg Except.ok List.flatten_append

-- ==================================================================== texts

theorem fill_eq_ok_iff {env : Environment} {text out : String} :
    env.fill text = .ok out
      ↔ interpolate env.text? text.toList = .ok out.toList := by
  rw [fill, map_eq_ok_iff]
  constructor
  · rintro ⟨cs, hcs, rfl⟩
    rw [hcs, String.toList_ofList]
  · intro h
    exact ⟨out.toList, h, String.ofList_toList⟩

theorem exists_fill_iff {env : Environment} {text : String} :
    (∃ out, env.fill text = .ok out)
      ↔ ∃ out, interpolate env.text? text.toList = .ok out := by
  constructor
  · rintro ⟨out, hout⟩
    exact ⟨out.toList, fill_eq_ok_iff.1 hout⟩
  · rintro ⟨cs, hcs⟩
    refine ⟨String.ofList cs, fill_eq_ok_iff.2 ?_⟩
    rw [String.toList_ofList, hcs]

theorem fill_append {env : Environment} {x y out : String}
    (hx : env.fill x = .ok out) (hapart : Apart x.toList y.toList) :
    env.fill (x ++ y) = (env.fill y).map (out ++ ·) := by
  unfold fill
  rw [String.toList_append,
    interpolate_append (fill_eq_ok_iff.1 hx) hapart]
  cases interpolate env.text? y.toList with
  | error e => rfl
  | ok cs =>
      have hjoin :
          String.ofList (out.toList ++ cs) = out ++ String.ofList cs := by
        rw [String.ofList_append, String.ofList_toList]
      exact congrArg Except.ok hjoin

/-- Filling a text fills its pieces. The text is read in one way; filling it
succeeds exactly if every placeholder is closed and names a variable that
holds a text, gives what the pieces become, and fails for the first of them
that nothing can stand for. So a text without an opening stays as it is, and
what can be filled is filled apart from what follows, if no opening comes
about in between. -/
theorem fill_by_pieces (env : Environment) :
    (∀ text : String, ∃ ps, Pieces text.toList ps
        ∧ (∀ qs, Pieces text.toList qs → qs = ps)
        ∧ ps.flatMap Piece.written = text.toList
        ∧ ((∃ out, env.fill text = .ok out)
            ↔ (∀ rest, .unclosed rest ∉ ps)
              ∧ ∀ name, .placeholder name ∈ ps → ∃ v, env.text? name = some v)
        ∧ (∀ out, env.fill text = .ok out
            ↔ ∃ parts, List.Forall₂ (Piece.Becomes env.text?) ps parts
              ∧ parts.flatten = out.toList)
        ∧ ∀ e, env.fill text = .error e
            ↔ ∃ before p after, ps = before ++ p :: after
              ∧ (∀ b ∈ before, ∃ part, b.Becomes env.text? part)
              ∧ p.Spoils env.text? e)
      ∧ (∀ text : String, ¬ ['$', '\x7b'] <:+: text.toList →
          env.fill text = .ok text)
      ∧ ∀ x y out : String, env.fill x = .ok out →
          x.toList.getLast? ≠ some '$' ∨ y.toList.head? ≠ some '\x7b' →
          env.fill (x ++ y) = (env.fill y).map (out ++ ·) := by
  refine ⟨fun text => ?_, fun _ => fill_eq_self, fun _ _ _ => fill_append⟩
  obtain ⟨ps, hps⟩ := exists_pieces text.toList
  refine ⟨ps, hps, fun qs => hps.unique, hps.flatMap_written, ?_, ?_, ?_⟩
  · rw [exists_fill_iff, hps.exists_interpolate_iff]
  · intro out
    rw [fill_eq_ok_iff, hps.interpolate_eq_ok_iff]
  · intro e
    rw [fill, map_eq_error_iff, hps.interpolate_eq_error_iff]

/-- A variable whose text looks like a placeholder. -/
def nestedEnvironment : Environment :=
  ⟨[("HOST", some "db"), ("URL", some "sqlite://$\x7bHOST\x7d")]⟩

/-- The text of the variable is not filled in its turn, and a `$` in front of
the placeholder stays; what follows is left alone or is to blame by itself. -/
theorem nestedEnvironment_filled :
    nestedEnvironment.fill "$$\x7bURL\x7d" = .ok "$sqlite://$\x7bHOST\x7d"
      ∧ nestedEnvironment.fill ("$$\x7bURL\x7d" ++ "\x7b$\x7d")
        = .ok ("$sqlite://$\x7bHOST\x7d" ++ "\x7b$\x7d")
      ∧ nestedEnvironment.fill ("$$\x7bURL\x7d" ++ "$\x7bPORT\x7d")
        = .error (.missingVariable "PORT") := by
  obtain ⟨-, hplain, happend⟩ := fill_by_pieces nestedEnvironment
  have hurl : nestedEnvironment.fill "$$\x7bURL\x7d"
      = .ok "$sqlite://$\x7bHOST\x7d" := by
    decide +kernel
  refine ⟨hurl, ?_, ?_⟩
  · rw [happend _ _ _ hurl (.inl (by decide)), hplain _ (by decide)]
    rfl
  · rw [happend _ _ _ hurl (.inl (by decide))]
    decide +kernel

/-- A variable that is set, but to no text. -/
def unreadableEnvironment : Environment := ⟨[("BAD", none)]⟩

/-- To be set is not enough: the one placeholder of the text is closed and
names a variable that is set, and the text cannot be filled. -/
theorem unreadable_unfilled :
    (∃ ps, Pieces "# $\x7bBAD\x7d\n".toList ps
        ∧ (∀ rest, .unclosed rest ∉ ps)
        ∧ ∀ name, .placeholder name ∈ ps →
          unreadableEnvironment.isSet name = true)
      ∧ ¬ ∃ out, unreadableEnvironment.fill "# $\x7bBAD\x7d\n" = .ok out := by
  have hrefused : unreadableEnvironment.fill "# $\x7bBAD\x7d\n"
      = .error (.missingVariable "BAD") := by
    decide +kernel
  have htext : "# $\x7bBAD\x7d\n".toList
      = '#' :: ' ' :: '$' :: '\x7b' :: ("BAD".toList ++ '\x7d' :: ['\n']) := by
    decide
  refine ⟨⟨[.plain '#', .plain ' ', .placeholder "BAD", .plain '\n'],
    ?_, ?_, ?_⟩, ?_⟩
  · rw [htext]
    exact .plain (by decide) (.plain (by decide)
      (.placeholder (by decide) (.plain (by decide) .nil)))
  · simp
  · intro name hname
    have hbad : name = "BAD" := by simpa using hname
    rw [hbad]
    rfl
  · rintro ⟨out, hout⟩
    rw [hrefused] at hout
    cases hout

end Environment

end WorkRouting
