/-
Opening computations that may fail: a sequence of them succeeds exactly when
each of its steps does. With these a proof takes a `do` block apart by
`obtain`, without unfolding the monad.
-/
namespace WorkRouting

variable {ε α β : Type _}

theorem bind_eq_ok_iff {x : Except ε α} {f : α → Except ε β} {b : β} :
    (x >>= f) = .ok b ↔ ∃ a, x = .ok a ∧ f a = .ok b := by
  cases x with
  | error e =>
      constructor
      · intro h
        cases h
      · rintro ⟨a, ha, -⟩
        cases ha
  | ok a =>
      constructor
      · intro h
        exact ⟨a, rfl, h⟩
      · rintro ⟨a', ha, h⟩
        cases ha
        exact h

theorem bind_eq_error_iff {x : Except ε α} {f : α → Except ε β} {e : ε} :
    (x >>= f) = .error e ↔ x = .error e ∨ ∃ a, x = .ok a ∧ f a = .error e := by
  cases x with
  | error e' =>
      constructor
      · intro h
        cases h
        exact .inl rfl
      · rintro (h | ⟨a, ha, -⟩)
        · cases h
          rfl
        · cases ha
  | ok a =>
      constructor
      · intro h
        exact .inr ⟨a, rfl, h⟩
      · rintro (h | ⟨a', ha, h⟩)
        · cases h
        · cases ha
          exact h

/-- What comes after a computation matters only for what the computation
gives. -/
theorem bind_congr_of_ok {x : Except ε α} {f g : α → Except ε β}
    (h : ∀ a, x = .ok a → f a = g a) : (x >>= f) = (x >>= g) := by
  cases x with
  | error e => rfl
  | ok a => exact h a rfl

/-- A check before a computation only lets it run. -/
theorem check_eq_ok_iff {x : Except ε Unit} {y : Except ε β} {b : β} :
    (x >>= fun _ => y) = .ok b ↔ x = .ok () ∧ y = .ok b := by
  rw [bind_eq_ok_iff]
  constructor
  · rintro ⟨⟨⟩, hx, hy⟩
    exact ⟨hx, hy⟩
  · rintro ⟨hx, hy⟩
    exact ⟨(), hx, hy⟩

/-- Past a guard stands what the guard let through. -/
theorem guard_eq_ok_iff {c : Prop} [Decidable c] {e : ε} {x : Except ε β}
    {b : β} :
    (do
        if c then throw e
        x) = .ok b ↔ ¬ c ∧ x = .ok b := by
  by_cases hc : c
  · constructor
    · intro h
      rw [if_pos hc] at h
      cases h
    · rintro ⟨hnot, -⟩
      exact absurd hc hnot
  · constructor
    · intro h
      rw [if_neg hc] at h
      exact ⟨hc, h⟩
    · rintro ⟨-, h⟩
      rw [if_neg hc]
      exact h

theorem map_eq_ok_iff {f : α → β} {x : Except ε α} {b : β} :
    x.map f = .ok b ↔ ∃ a, x = .ok a ∧ f a = b := by
  cases x with
  | error e => simp [Except.map]
  | ok a => simp [Except.map]

theorem map_eq_error_iff {f : α → β} {x : Except ε α} {e : ε} :
    x.map f = .error e ↔ x = .error e := by
  cases x with
  | error e' => simp [Except.map]
  | ok a => simp [Except.map]

/-- A function that succeeds on every element succeeds on the list. -/
theorem mapM_eq_ok {f : α → Except ε β} {g : α → β} {l : List α}
    (h : ∀ x ∈ l, f x = .ok (g x)) : l.mapM f = .ok (l.map g) := by
  induction l with
  | nil => rfl
  | cons x rest ih =>
      have hx := h x List.mem_cons_self
      have hrest := ih fun y hy => h y (List.mem_cons_of_mem x hy)
      rw [List.mapM_cons, hx, hrest]
      rfl

/-- A function that gives something for every element gives, on the list,
exactly what it gives for the elements. -/
theorem exists_mapM_eq_ok {f : α → Except ε β} {l : List α}
    (h : ∀ x ∈ l, ∃ y, f x = .ok y) :
    ∃ ys, l.mapM f = .ok ys ∧ ∀ y, y ∈ ys ↔ ∃ x ∈ l, f x = .ok y := by
  induction l with
  | nil => exact ⟨[], rfl, fun y => by simp⟩
  | cons x rest ih =>
      obtain ⟨y, hy⟩ := h x List.mem_cons_self
      obtain ⟨ys, hys, hmem⟩ :=
        ih fun x' hx' => h x' (List.mem_cons_of_mem x hx')
      refine ⟨y :: ys, ?_, fun z => ?_⟩
      · rw [List.mapM_cons, hy, hys]
        rfl
      · simp only [List.mem_cons, exists_eq_or_imp, hmem, hy,
          Except.ok.injEq, eq_comm (a := y)]

/-- To fail for another cause is to succeed with the same. -/
theorem mapError_eq_ok_iff {ε' : Type _} {f : ε → ε'} {x : Except ε α}
    {a : α} : x.mapError f = .ok a ↔ x = .ok a := by
  cases x with
  | error e =>
      constructor
      · intro h
        cases h
      · intro h
        cases h
  | ok b =>
      constructor
      · intro h
        cases h
        rfl
      · intro h
        cases h
        rfl

/-- A function that succeeds on a list succeeds on its elements. -/
theorem exists_of_mapM_eq_ok {f : α → Except ε β} {l : List α} {ys : List β}
    (h : l.mapM f = .ok ys) : ∀ x ∈ l, ∃ y, f x = .ok y := by
  induction l generalizing ys with
  | nil =>
      intro x hx
      cases hx
  | cons x rest ih =>
      rw [List.mapM_cons] at h
      obtain ⟨y, hy, h⟩ := bind_eq_ok_iff.1 h
      obtain ⟨zs, hzs, -⟩ := bind_eq_ok_iff.1 h
      intro x' hx'
      rcases List.mem_cons.1 hx' with rfl | hx'
      · exact ⟨y, hy⟩
      · exact ih hzs x' hx'

/-- On a list a function gives what it gives for the elements. -/
theorem mem_iff_of_mapM_eq_ok {f : α → Except ε β} {l : List α} {ys : List β}
    (h : l.mapM f = .ok ys) (y : β) : y ∈ ys ↔ ∃ x ∈ l, f x = .ok y := by
  obtain ⟨ys', hys', hmem⟩ := exists_mapM_eq_ok (exists_of_mapM_eq_ok h)
  rw [hys'] at h
  cases h
  exact hmem y

/-- A function answers on a list if it answers on every element. -/
theorem exists_mapM_eq_ok_iff {f : α → Except ε β} {l : List α} :
    (∃ ys, l.mapM f = .ok ys) ↔ ∀ x ∈ l, ∃ y, f x = .ok y := by
  constructor
  · rintro ⟨ys, hys⟩
    exact exists_of_mapM_eq_ok hys
  · intro h
    obtain ⟨ys, hys, -⟩ := exists_mapM_eq_ok h
    exact ⟨ys, hys⟩

/-- What a function gives on a list it gives for some element. -/
theorem exists_of_mem_mapM {f : α → Except ε β} {l : List α} {ys : List β}
    {y : β} (h : l.mapM f = .ok ys) (hy : y ∈ ys) : ∃ x ∈ l, f x = .ok y :=
  (mem_iff_of_mapM_eq_ok h y).1 hy

/-- Related elements of a list give related results. -/
theorem pairwise_of_mapM_eq_ok {f : α → Except ε β} {R : α → α → Prop}
    {S : β → β → Prop} {l : List α} {ys : List β} (h : l.mapM f = .ok ys)
    (hl : l.Pairwise R)
    (hstep : ∀ a b y z, R a b → f a = .ok y → f b = .ok z → S y z) :
    ys.Pairwise S := by
  induction l generalizing ys with
  | nil =>
      cases h
      exact List.Pairwise.nil
  | cons a rest ih =>
      rw [List.mapM_cons] at h
      obtain ⟨y, hy, h⟩ := bind_eq_ok_iff.1 h
      obtain ⟨zs, hzs, h⟩ := bind_eq_ok_iff.1 h
      cases h
      obtain ⟨hfirst, hrest⟩ := List.pairwise_cons.1 hl
      refine List.pairwise_cons.2 ⟨fun z hz => ?_, ih hzs hrest⟩
      obtain ⟨b, hb, hz⟩ := exists_of_mem_mapM hzs hz
      exact hstep a b y z (hfirst b hb) hy hz

/-- A sequence fails as one of its steps does. -/
theorem of_bind_eq_error {P : ε → Prop} {x : Except ε α}
    {f : α → Except ε β} (hx : ∀ e, x = .error e → P e)
    (hf : ∀ a e, f a = .error e → P e) : ∀ e, (x >>= f) = .error e → P e := by
  intro e h
  rcases bind_eq_error_iff.1 h with h | ⟨a, -, h⟩
  · exact hx e h
  · exact hf a e h

/-- A function fails on a list exactly as on the first element that it fails
on. -/
theorem mapM_eq_error_iff {f : α → Except ε β} {l : List α} {e : ε} :
    l.mapM f = .error e ↔ ∃ before a after, l = before ++ a :: after
      ∧ (∀ b ∈ before, ∃ y, f b = .ok y) ∧ f a = .error e := by
  induction l with
  | nil =>
      constructor
      · intro h
        cases h
      · rintro ⟨before, a, after, hl, -⟩
        simp at hl
  | cons x rest ih =>
      rw [List.mapM_cons]
      constructor
      · intro h
        rcases bind_eq_error_iff.1 h with hx | ⟨y, hy, h⟩
        · exact ⟨[], x, rest, rfl, nofun, hx⟩
        · rcases bind_eq_error_iff.1 h with hrest | ⟨ys, -, h⟩
          · obtain ⟨before, a, after, rfl, hbefore, ha⟩ := ih.1 hrest
            exact ⟨x :: before, a, after, rfl,
              List.forall_mem_cons.2 ⟨⟨y, hy⟩, hbefore⟩, ha⟩
          · cases h
      · rintro ⟨before, a, after, hl, hbefore, ha⟩
        cases before with
        | nil =>
            cases hl
            exact bind_eq_error_iff.2 (.inl ha)
        | cons b before =>
            cases hl
            obtain ⟨⟨y, hy⟩, hbefore⟩ := List.forall_mem_cons.1 hbefore
            have hrest := ih.2 ⟨before, a, after, rfl, hbefore, ha⟩
            exact bind_eq_error_iff.2 (.inr ⟨y, hy,
              bind_eq_error_iff.2 (.inl hrest)⟩)

/-- A function fails on a list as it fails on one of its elements. -/
theorem of_mapM_eq_error {P : ε → Prop} {f : α → Except ε β} {l : List α}
    (hf : ∀ x ∈ l, ∀ e, f x = .error e → P e) :
    ∀ e, l.mapM f = .error e → P e := by
  intro e h
  obtain ⟨before, a, after, rfl, -, ha⟩ := mapM_eq_error_iff.1 h
  exact hf a (List.mem_append_right before List.mem_cons_self) e ha

/-- What every step of a run keeps, a run that comes through keeps. -/
theorem foldlM_induction {f : β → α → Except ε β} {l : List α} {P : β → Prop}
    (hstep : ∀ a ∈ l, ∀ b b', P b → f b a = .ok b' → P b') {b b' : β}
    (hb : P b) (h : l.foldlM f b = .ok b') : P b' := by
  induction l generalizing b with
  | nil =>
      cases h
      exact hb
  | cons a rest ih =>
      rw [List.foldlM_cons] at h
      obtain ⟨b₁, hb₁, h⟩ := bind_eq_ok_iff.1 h
      exact ih (fun a' ha' => hstep a' (List.mem_cons_of_mem a ha'))
        (hstep a List.mem_cons_self b b₁ hb hb₁) h

end WorkRouting
