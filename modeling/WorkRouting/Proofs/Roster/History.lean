/-
Rosters by their history. A roster is filled by three kinds of call, and the
calls say more than the entries do: an entry is active exactly when no later
call retired its id. `survivors` reads that off the calls, and
`active_run` is the agreement with the roster that the calls leave behind. It
is proved for every roster to start from, since each call after the first works
on one that is no longer empty: what was active before stays so unless retired,
and in front of the survivors of the calls.

Where every registration is either retired later or never, the survivors are a
plain filter of the registrations (`survivors_eq_filter`), and the interleaving
of the calls is gone from the statement.
-/
import WorkRouting.Roster

namespace WorkRouting.Roster

/-- A call that changes a roster. -/
inductive Call where
  | register (actor : Actor) (kind : Option PositionType)
  | addRule (rule : Rule)
  | deactivate (user : UserId)
  deriving DecidableEq, Repr

namespace Call

/-- The entry that a registration makes. -/
def registered? : Call → Option Entry
  | register actor kind => some ⟨actor, kind, true⟩
  | _ => none

/-- The rule that a call adds. -/
def added? : Call → Option Rule
  | addRule rule => some rule
  | _ => none

end Call

/-- The roster after one more call. -/
def after (r : Roster) : Call → Roster
  | .register actor kind => r.withUser actor kind
  | .addRule rule => r.withRule rule
  | .deactivate user => r.deactivate user

/-- The roster that calls make of an empty one. -/
def run (calls : List Call) : Roster := calls.foldl after {}

/-- No call retires the id of the entry. -/
def spares (calls : List Call) (e : Entry) : Bool :=
  .deactivate e.actor.id ∉ calls

/-- The entries that no later call retires. -/
def survivors : List Call → List Entry
  | [] => []
  | .register actor kind :: rest =>
      if .deactivate actor.id ∈ rest then survivors rest
      else ⟨actor, kind, true⟩ :: survivors rest
  | .addRule _ :: rest => survivors rest
  | .deactivate _ :: rest => survivors rest

/-- An active entry is what its registration makes. -/
theorem registered?_register {e : Entry} (h : e.active = true) :
    (Call.register e.actor e.kind).registered? = some e := by
  obtain ⟨actor, kind, active⟩ := e
  cases h
  rfl

-- ================================================================ one call

theorem active_withUser (r : Roster) (actor : Actor)
    (kind : Option PositionType) :
    (r.withUser actor kind).active = r.active ++ [⟨actor, kind, true⟩] := by
  simp [active, withUser, List.filter_append]

/-- A retirement leaves the active entries of other ids, in their order. -/
theorem active_deactivate (r : Roster) (user : UserId) :
    (r.deactivate user).active
      = r.active.filter fun e => e.actor.id ≠ user := by
  unfold active deactivate
  dsimp only
  induction r.entries with
  | nil => rfl
  | cons e rest ih =>
      rw [List.map_cons]
      by_cases huser : e.actor.id = user
      · rw [if_pos huser, List.filter_cons_of_neg (by simp), ih]
        by_cases hactive : e.active = true
        · rw [List.filter_cons_of_pos hactive,
            List.filter_cons_of_neg (by simp [huser])]
        · rw [List.filter_cons_of_neg hactive]
      · rw [if_neg huser]
        by_cases hactive : e.active = true
        · rw [List.filter_cons_of_pos hactive, List.filter_cons_of_pos hactive,
            List.filter_cons_of_pos (by simp [huser]), ih]
        · rw [List.filter_cons_of_neg hactive,
            List.filter_cons_of_neg hactive, ih]

-- ================================================================ all calls

/-- Calls leave what was active before them and is not retired by them, and
what they register and do not retire themselves. -/
theorem active_foldl (calls : List Call) (r : Roster) :
    (calls.foldl after r).active
      = r.active.filter (spares calls) ++ survivors calls := by
  induction calls generalizing r with
  | nil =>
      rw [survivors, List.append_nil, List.foldl_nil]
      exact (List.filter_eq_self.2 fun e _ => by simp [spares]).symm
  | cons call rest ih =>
      rw [List.foldl_cons, ih]
      cases call with
      | register actor kind =>
          have hsame :
              spares (.register actor kind :: rest) = spares rest := by
            funext e
            simp [spares]
          rw [after, active_withUser, List.filter_append, List.append_assoc,
            hsame, survivors]
          by_cases hretired : .deactivate actor.id ∈ rest
          · rw [if_pos hretired,
              List.filter_cons_of_neg (by simp [spares, hretired])]
            rfl
          · rw [if_neg hretired,
              List.filter_cons_of_pos (by simp [spares, hretired])]
            rfl
      | addRule rule =>
          have hsame : spares (.addRule rule :: rest) = spares rest := by
            funext e
            simp [spares]
          rw [hsame]
          rfl
      | deactivate user =>
          have hboth : r.active.filter (spares (.deactivate user :: rest))
              = (r.deactivate user).active.filter (spares rest) := by
            rw [active_deactivate, List.filter_filter]
            refine List.filter_congr fun e _ => ?_
            simp [spares, Bool.and_comm]
          rw [hboth]
          rfl

/-- The active entries are the survivors of the calls. -/
theorem active_run (calls : List Call) :
    (run calls).active = survivors calls :=
  active_foldl calls {}

theorem rules_foldl (calls : List Call) (r : Roster) :
    (calls.foldl after r).rules = r.rules ++ calls.filterMap Call.added? := by
  induction calls generalizing r with
  | nil => simp
  | cons call rest ih =>
      rw [List.foldl_cons, ih]
      cases call with
      | register actor kind => rfl
      | addRule rule => simp [after, withRule, Call.added?]
      | deactivate user => rfl

/-- The rules are those added, in the order of the calls. -/
theorem rules_run (calls : List Call) :
    (run calls).rules = calls.filterMap Call.added? :=
  rules_foldl calls {}

/-- Where a test says of every registration whether its id is retired later,
the survivors are the registrations that pass it. -/
theorem survivors_eq_filter {p : Entry → Bool} :
    ∀ {calls : List Call},
      (∀ before actor kind rest,
        calls = before ++ .register actor kind :: rest →
        (p ⟨actor, kind, true⟩ = true ↔ .deactivate actor.id ∉ rest)) →
      survivors calls = (calls.filterMap Call.registered?).filter p := by
  intro calls
  induction calls with
  | nil => intro _; rfl
  | cons call rest ih =>
      intro h
      have hrest : survivors rest
          = (rest.filterMap Call.registered?).filter p := by
        refine ih fun before actor kind after heq => ?_
        exact h (call :: before) actor kind after (by rw [heq]; rfl)
      cases call with
      | register actor kind =>
          have hfirst := h [] actor kind rest rfl
          unfold survivors
          rw [hrest]
          by_cases hp : p ⟨actor, kind, true⟩ = true
          · rw [if_neg (hfirst.1 hp)]
            simp [Call.registered?, hp]
          · rw [if_pos (Decidable.not_not.1 fun hnot => hp (hfirst.2 hnot))]
            simp [Call.registered?, hp]
      | addRule rule => exact hrest
      | deactivate user => exact hrest

end WorkRouting.Roster
