/-
The choice of a least element, read declaratively. Rule choice, holder choice
and the search for a head are one fold (`least`) under different keys; this
file says what the fold picks and on what the pick depends.

- `least_eq_some_iff`: the fold picks exactly the first of the elements with
  the least key (`FirstLeast`).
- `firstLeast_map_filter_iff`: a pick among the images of the elements that
  pass a test, read off the elements themselves.
- `least_eq_head?`: in a list sorted by its key the pick is the head.
- `least_eq_of_mem_iff`: where no two elements share a key, the pick depends
  on the elements alone, neither on their order nor on how often they stand
  in the list.
- `least_congr`: the keys matter only for how they compare.
- `least_eq_some_iff_of_keys`: where no two elements share a key, the pick is
  the one that is less than every other.
- `least_eq_of_ties`: where elements share keys, it depends on the order among
  those of one key alone, so a stable sort does not show
  (`least_filter_mergeSort`).
- `least_filter`, `least_insert`: elements other than the pick may go, and
  worse ones may come, anywhere in the list.
-/
import WorkRouting.Least

namespace WorkRouting

variable {α : Type _} {key : α → Key} {l : List α} {a b : α}

-- ===================================================== the chosen element

/-- The first element with the least key: what stands before it has a greater
key, and nothing after it has a smaller one. -/
def FirstLeast (key : α → Key) (l : List α) (a : α) : Prop :=
  ∃ before after, l = before ++ a :: after
    ∧ (∀ b ∈ before, key a < key b) ∧ ∀ b ∈ after, ¬ key b < key a

theorem FirstLeast.mem (h : FirstLeast key l a) : a ∈ l := by
  obtain ⟨before, after, hl, -, -⟩ := h
  rw [hl]
  exact List.mem_append_right before List.mem_cons_self

/-- No element at all has a smaller key. -/
theorem FirstLeast.not_lt (h : FirstLeast key l a) :
    ∀ b ∈ l, ¬ key b < key a := by
  obtain ⟨before, after, hl, hbefore, hafter⟩ := h
  intro b hb
  rw [hl] at hb
  rcases List.mem_append.1 hb with hb | hb
  · exact List.lt_asymm (hbefore b hb)
  · rcases List.mem_cons.1 hb with rfl | hb
    · exact List.lt_irrefl _
    · exact hafter b hb

/-- There is at most one: of two candidates the later one would have to be
both smaller and not smaller than the earlier one. -/
theorem FirstLeast.unique (ha : FirstLeast key l a)
    (hb : FirstLeast key l b) : a = b := by
  obtain ⟨la, ra, hla, hbefore, hafter⟩ := ha
  obtain ⟨lb, rb, hlb, hbefore', hafter'⟩ := hb
  rcases List.append_eq_append_iff.1 (hla.symm.trans hlb) with
    ⟨m, h₁, h₂⟩ | ⟨m, h₁, h₂⟩
  · cases m with
    | nil => exact (List.cons.inj h₂).1
    | cons x m =>
        -- `a` stands before `b`
        obtain ⟨rfl, hra⟩ := List.cons.inj h₂
        have hba : key b < key a := hbefore' a (by rw [h₁]; simp)
        exact absurd hba (hafter b (by rw [hra]; simp))
  · cases m with
    | nil => exact (List.cons.inj h₂).1.symm
    | cons x m =>
        obtain ⟨rfl, hrb⟩ := List.cons.inj h₂
        have hab : key a < key b := hbefore b (by rw [h₁]; simp)
        exact absurd hab (hafter' a (by rw [hrb]; simp))

/-- What the fold picks is the first least element: the pick among the rest is
kept where it is strictly better, so an earlier element wins a tie. -/
theorem firstLeast_of_least (h : least key l = some a) :
    FirstLeast key l a := by
  induction l generalizing a with
  | nil => simp [least] at h
  | cons x rest ih =>
      simp only [least] at h
      cases hrest : least key rest with
      | none =>
          rw [hrest] at h
          cases h
          rw [least_eq_none.1 hrest]
          exact ⟨[], [], rfl, by simp, by simp⟩
      | some b =>
          rw [hrest] at h
          dsimp only at h
          have hb := ih hrest
          by_cases hbx : key b < key x
          · rw [if_pos hbx] at h
            cases h
            obtain ⟨before, after, hl, hbefore, hafter⟩ := hb
            refine ⟨x :: before, after, by rw [hl]; rfl, ?_, hafter⟩
            intro c hc
            rcases List.mem_cons.1 hc with rfl | hc
            · exact hbx
            · exact hbefore c hc
          · rw [if_neg hbx] at h
            cases h
            refine ⟨[], rest, rfl, by simp, fun c hc => ?_⟩
            exact List.le_trans hbx (hb.not_lt c hc)

/-- The first least image of the elements under a test stands for the first of
them whose image is least. -/
theorem firstLeast_map_filter_iff {β : Type _} {f : β → α} {p : β → Bool}
    {l : List β} :
    FirstLeast key ((l.filter p).map f) a
      ↔ ∃ before x after, l = before ++ x :: after ∧ p x = true ∧ f x = a
        ∧ (∀ y ∈ before, p y = true → key a < key (f y))
        ∧ ∀ y ∈ after, p y = true → ¬ key (f y) < key a := by
  constructor
  · rintro ⟨lo, hi, heq, hlo, hhi⟩
    obtain ⟨passed, rest, hpassed, rfl, hrest⟩ := List.map_eq_append_iff.1 heq
    obtain ⟨x, passed', rfl, rfl, rfl⟩ := List.map_eq_cons_iff.1 hrest
    obtain ⟨l₁, l₂, rfl, rfl, hl₂⟩ := List.filter_eq_append_iff.1 hpassed
    obtain ⟨skipped, after, rfl, hskipped, hx, rfl⟩ :=
      List.filter_eq_cons_iff.1 hl₂
    refine ⟨l₁ ++ skipped, x, after, by simp, hx, rfl, fun y hy hpy => ?_,
      fun y hy hpy => ?_⟩
    · rcases List.mem_append.1 hy with hy | hy
      · exact hlo _ (List.mem_map_of_mem (List.mem_filter.2 ⟨hy, hpy⟩))
      · exact absurd hpy (hskipped y hy)
    · exact hhi _ (List.mem_map_of_mem (List.mem_filter.2 ⟨hy, hpy⟩))
  · rintro ⟨before, x, after, rfl, hx, rfl, hbefore, hafter⟩
    refine ⟨(before.filter p).map f, (after.filter p).map f, ?_, ?_, ?_⟩
    · rw [List.filter_append, List.filter_cons_of_pos hx, List.map_append,
        List.map_cons]
    · intro b hb
      obtain ⟨y, hy, rfl⟩ := List.mem_map.1 hb
      exact hbefore y (List.mem_filter.1 hy).1 (List.mem_filter.1 hy).2
    · intro b hb
      obtain ⟨y, hy, rfl⟩ := List.mem_map.1 hb
      exact hafter y (List.mem_filter.1 hy).1 (List.mem_filter.1 hy).2

theorem exists_least (key : α → Key) (h : l ≠ []) :
    ∃ a, least key l = some a := by
  cases hl : least key l with
  | none => exact absurd (least_eq_none.1 hl) h
  | some a => exact ⟨a, rfl⟩

/-- The fold picks exactly the first least element. -/
theorem least_eq_some_iff : least key l = some a ↔ FirstLeast key l a := by
  constructor
  · exact firstLeast_of_least
  · intro h
    obtain ⟨b, hb⟩ := exists_least key (List.ne_nil_of_mem h.mem)
    rw [hb, h.unique (firstLeast_of_least hb)]

/-- In a sorted list the pick is the head. -/
theorem least_eq_head? (h : l.Pairwise fun a b => ¬ key b < key a) :
    least key l = l.head? := by
  cases l with
  | nil => rfl
  | cons x rest =>
      have hfirst : FirstLeast key (x :: rest) x :=
        ⟨[], rest, rfl, by simp, (List.pairwise_cons.1 h).1⟩
      exact least_eq_some_iff.2 hfirst

-- =================================================== what it depends on

/-- Where no two elements share a key, the pick is less than all others. -/
theorem least_eq_some_iff_of_keys {p : α → Prop} (hmem : ∀ x, x ∈ l ↔ p x)
    (hkey : ∀ x y, p x → p y → key x = key y → x = y) :
    least key l = some a ↔ p a ∧ ∀ b, p b → b ≠ a → key a < key b := by
  constructor
  · intro h
    have ha := firstLeast_of_least h
    refine ⟨(hmem a).1 ha.mem, fun b hb hne => ?_⟩
    refine Decidable.byContradiction fun hlt => hne ?_
    have hle := ha.not_lt b ((hmem b).2 hb)
    exact hkey b a hb ((hmem a).1 ha.mem) (List.le_antisymm hlt hle)
  · rintro ⟨ha, hless⟩
    have ha' := (hmem a).2 ha
    obtain ⟨b, hb⟩ := exists_least key (List.ne_nil_of_mem ha')
    have hfirst := firstLeast_of_least hb
    by_cases hne : b = a
    · rw [hb, hne]
    · have hlt := hless b ((hmem b).1 hfirst.mem) hne
      exact absurd hlt (hfirst.not_lt a ha')

/-- Keys that compare the elements alike pick alike. -/
theorem least_congr {key' : α → Key}
    (h : ∀ a ∈ l, ∀ b ∈ l, key a < key b ↔ key' a < key' b) :
    least key l = least key' l := by
  refine Option.ext fun a => ?_
  rw [least_eq_some_iff, least_eq_some_iff]
  constructor
  · rintro ⟨before, after, rfl, hbefore, hafter⟩
    refine ⟨before, after, rfl, fun b hb => ?_, fun b hb => ?_⟩
    · exact (h a (by simp) b (by simp [hb])).1 (hbefore b hb)
    · exact mt (h b (by simp [hb]) a (by simp)).2 (hafter b hb)
  · rintro ⟨before, after, rfl, hbefore, hafter⟩
    refine ⟨before, after, rfl, fun b hb => ?_, fun b hb => ?_⟩
    · exact (h a (by simp) b (by simp [hb])).2 (hbefore b hb)
    · exact mt (h b (by simp [hb]) a (by simp)).1 (hafter b hb)

/-- Where no two elements share a key, lists with the same elements have the
same pick. -/
theorem least_eq_of_mem_iff {l₁ l₂ : List α} (hmem : ∀ x, x ∈ l₁ ↔ x ∈ l₂)
    (hkey : ∀ x ∈ l₁, ∀ y ∈ l₁, key x = key y → x = y) :
    least key l₁ = least key l₂ := by
  have hkey' : ∀ x y, x ∈ l₁ → y ∈ l₁ → key x = key y → x = y :=
    fun x y hx hy => hkey x hx y hy
  refine Option.ext fun a => ?_
  rw [least_eq_some_iff_of_keys (fun x => Iff.rfl) hkey',
    least_eq_some_iff_of_keys (fun x => (hmem x).symm) hkey']

-- =============================================== what leaves it unchanged

/-- Nothing has a smaller key than the first least element, and it stands first
among those that tie with it. -/
theorem firstLeast_iff_head? :
    FirstLeast key l a
      ↔ (∀ b ∈ l, ¬ key b < key a)
        ∧ (l.filter (key · = key a)).head? = some a := by
  constructor
  · intro h
    refine ⟨h.not_lt, ?_⟩
    obtain ⟨before, after, rfl, hbefore, -⟩ := h
    have hnone : before.filter (key · = key a) = [] := by
      rw [List.filter_eq_nil_iff]
      intro b hb hkey
      have hlt := hbefore b hb
      rw [of_decide_eq_true hkey] at hlt
      exact List.lt_irrefl _ hlt
    simp [List.filter_append, hnone]
  · rintro ⟨hleast, hhead⟩
    obtain ⟨ties, hties⟩ := List.head?_eq_some_iff.1 hhead
    obtain ⟨before, after, rfl, hbefore, -, -⟩ :=
      List.filter_eq_cons_iff.1 hties
    refine ⟨before, after, rfl, fun b hb => ?_, fun b hb => ?_⟩
    · have hle := hleast b (List.mem_append_left _ hb)
      refine Decidable.byContradiction fun hlt => ?_
      exact hbefore b hb (decide_eq_true (List.le_antisymm hlt hle))
    · exact hleast b (List.mem_append_right _ (List.mem_cons_of_mem a hb))

/-- Lists that hold the same elements of every key in the same order have the
same pick, however elements of different keys are mixed. -/
theorem least_eq_of_ties {l₁ l₂ : List α}
    (h : ∀ k, l₁.filter (key · = k) = l₂.filter (key · = k)) :
    least key l₁ = least key l₂ := by
  have hmem : ∀ x, x ∈ l₁ ↔ x ∈ l₂ := by
    intro x
    have hx := congrArg (x ∈ ·) (h (key x))
    simpa using hx
  refine Option.ext fun a => ?_
  rw [least_eq_some_iff, least_eq_some_iff, firstLeast_iff_head?,
    firstLeast_iff_head?, h]
  simp only [hmem]

/-- Dropping elements other than the pick leaves the pick. -/
theorem least_filter {p : α → Bool}
    (h : ∀ a, least key l = some a → p a = true) :
    least key (l.filter p) = least key l := by
  cases hl : least key l with
  | none =>
      rw [least_eq_none.1 hl]
      rfl
  | some a =>
      obtain ⟨before, after, rfl, hbefore, hafter⟩ := firstLeast_of_least hl
      rw [List.filter_append, List.filter_cons_of_pos (h a hl),
        least_eq_some_iff]
      exact ⟨_, _, rfl, fun b hb => hbefore b (List.mem_filter.1 hb).1,
        fun b hb => hafter b (List.mem_filter.1 hb).1⟩

/-- So does one more element with a greater key, wherever it is put. -/
theorem least_insert {before after : List α}
    (h : least key (before ++ after) = some a) (hb : key a < key b) :
    least key (before ++ b :: after) = some a := by
  rw [least_eq_some_iff, firstLeast_iff_head?] at h ⊢
  obtain ⟨hleast, hhead⟩ := h
  have hne : ¬ key b = key a := by
    intro heq
    rw [heq] at hb
    exact List.lt_irrefl _ hb
  constructor
  · intro c hc
    rcases List.mem_cons.1 (List.perm_middle.mem_iff.1 hc) with rfl | hc
    · exact List.lt_asymm hb
    · exact hleast c hc
  · rw [List.filter_append, List.filter_cons_of_neg (by simpa using hne),
      ← List.filter_append]
    exact hhead

/-- A stable sort keeps the order of elements that it counts as equal. -/
theorem filter_mergeSort {le : α → α → Bool}
    (htrans : ∀ a b c, le a b = true → le b c = true → le a c = true)
    (htotal : ∀ a b, (le a b || le b a) = true) {p : α → Bool}
    (hp : ∀ a b, p a = true → p b = true → le a b = true) :
    (l.mergeSort le).filter p = l.filter p := by
  have hsorted : (l.filter p).Pairwise fun a b => le a b = true := by
    refine List.pairwise_of_forall_mem_list fun a ha b hb => ?_
    exact hp a b (List.mem_filter.1 ha).2 (List.mem_filter.1 hb).2
  have hsub := (List.sublist_mergeSort htrans htotal hsorted
    List.filter_sublist).filter p
  rw [List.filter_filter] at hsub
  simp only [Bool.and_self] at hsub
  have hperm := (List.mergeSort_perm l le).filter p
  exact (hsub.eq_of_length hperm.length_eq.symm).symm

/-- A choice does not see a stable sort under which its ties are equal. -/
theorem least_filter_mergeSort {le : α → α → Bool}
    (htrans : ∀ a b c, le a b = true → le b c = true → le a c = true)
    (htotal : ∀ a b, (le a b || le b a) = true)
    (htie : ∀ a b, key a = key b → le a b = true) (p : α → Bool) :
    least key ((l.mergeSort le).filter p) = least key (l.filter p) := by
  refine least_eq_of_ties fun k => ?_
  rw [List.filter_filter, List.filter_filter]
  refine filter_mergeSort htrans htotal fun a b ha hb => ?_
  simp only [Bool.and_eq_true, decide_eq_true_eq] at ha hb
  exact htie a b (ha.1.trans hb.1.symm)

end WorkRouting
