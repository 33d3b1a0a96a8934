/-
Writes. A statement is checked row by row — first the guard on head positions,
then what must be present, then the allowed values, then uniqueness — and its
references once, when all rows are written. A statement that fails anywhere
returns no store, so nothing of it remains.
-/
import WorkRouting.Store.Schema

namespace WorkRouting

/-- Why a store refuses a statement. -/
inductive StoreError where
  | notNull (table : Table) (column : Column)
  | check (table : Table)
  | unique (table : Table) (key : List Column)
  | foreignKey
  /-- The guard on head positions. -/
  | occupiedPosition
  | notAnId
  | noTable (name : String)
  | noColumn (table : Table) (column : String) (inserting : Bool)
  | readOnly
  deriving DecidableEq, Repr

namespace StoreError

def message : StoreError → String
  | notNull t c => s!"NOT NULL constraint failed: {t.name}.{c.title}"
  | check t => s!"CHECK constraint failed: {t.name}"
  | unique t key =>
      "UNIQUE constraint failed: "
        ++ String.intercalate ", " (key.map fun c => t.name ++ "." ++ c.title)
  | foreignKey => "FOREIGN KEY constraint failed"
  | occupiedPosition => "position already has an active holder"
  | notAnId => "datatype mismatch"
  | noTable name => s!"no such table: {name}"
  | noColumn t column true => s!"table {t.name} has no column named {column}"
  | noColumn _ column false => s!"no such column: {column}"
  | readOnly => "attempt to write a readonly database"

/-- The number under which a database reports the error. -/
def code : StoreError → Nat
  | notNull .. => 1299
  | check _ => 275
  | unique _ key => if key = [.id] then 1555 else 2067
  | foreignKey => 787
  | occupiedPosition => 1811
  | notAnId => 20
  | noTable _ | noColumn .. => 1
  | readOnly => 8

end StoreError

/-- The rows of every table. -/
structure Store where
  rows : Table → List Row

namespace Store

def empty : Store := ⟨fun _ => []⟩

/-- The store with other rows in one table. -/
def withRows (s : Store) (t : Table) (rows : List Row) : Store :=
  ⟨fun u => if u = t then rows else s.rows u⟩

-- ================================================== head positions

/-- Whether a value is the id of a position of a head type. -/
def isHeadPosition (s : Store) (v : Value) : Bool :=
  (s.rows .positions).any fun p =>
    p .id == v && PositionType.all.any fun k =>
      k.isHead && p .positionType == .text k.name

/-- An employee who has not been retired. -/
def isActive (r : Row) : Bool := r .deletedAt == .null

/-- Whether a row would put a second active employee into a head position that
one of `rivals` holds. -/
def takesOccupied (s : Store) (r : Row) (rivals : List Row) : Bool :=
  isActive r && r .positionId != .null && s.isHeadPosition (r .positionId)
    && rivals.any fun u => u .positionId == r .positionId && isActive u

-- ================================================== one row

/-- What a row must be beside the other rows of its table. -/
def conforms (t : Table) (others : List Row) (r : Row) :
    Except StoreError Unit :=
  match t.mandatory.find? (r · == .null) with
  | some c => .error (.notNull t c)
  | none =>
      if !t.permits r then .error (.check t)
      else
        let shared (key : List Column) :=
          others.any fun o => key.all fun c => (o c).same (r c)
        match t.keys.find? shared with
        | some key => .error (.unique t key)
        | none => .ok ()

/-- Whether a reference of a row is open or leads to a row. -/
def follows (s : Store) (r : Row) (ref : Reference) : Bool :=
  r ref.column == .null
    || (s.rows ref.parent).any fun p => p .id == r ref.column

/-- Whether every reference in the store leads to a row. -/
def referencesHold (s : Store) : Bool :=
  Table.all.all fun t => (s.rows t).all fun r => t.references.all (s.follows r)

/-- The store, if its references hold. -/
def settled (s : Store) : Except StoreError Store :=
  if s.referencesHold then .ok s else .error .foreignKey

-- ================================================== ids

/-- The ids of a table. -/
def ids (s : Store) (t : Table) : List Int64 :=
  (s.rows t).filterMap fun r => match r .id with
    | .integer n => some n
    | _ => none

/-- Where ids are looked for once the highest one is taken: out of the way of
those that are given by hand. -/
def spareIds : Nat := Nat.pow 2 61

/-- The first spare id that is not taken. -/
def firstFreeId (taken : List Int64) : Int64 :=
  let spare := (List.range (taken.length + 1)).map fun n =>
    Int64.ofNat (spareIds + n)
  (spare.find? (!taken.contains ·)).getD (Int64.ofNat spareIds)

/-- The id of a new row that brings none: one more than the highest, 1 in an
empty table, and where there is no higher one, a spare one. -/
def nextId (s : Store) (t : Table) : Int64 :=
  match s.ids t with
  | [] => 1
  | n :: rest =>
      let top := rest.foldl max n
      if top = Int64.maxValue then firstFreeId (s.ids t) else top + 1

/-- Rows in the order in which a statement visits them: by id where they have
one, else as they came. -/
def visited (s : Store) (t : Table) : List Row :=
  if t.hasId then
    (s.rows t).mergeSort fun a b => match a .id, b .id with
      | .integer x, .integer y => x ≤ y
      | _, _ => true
  else s.rows t

-- ================================================== statements

/-- A new row from the values given for it. -/
def newRow (t : Table) (given : List (Column × Value)) : Row := fun c =>
  if t.columns.contains c then
    c.affinity.apply ((given.lookup c).getD (Table.absent c))
  else .null

/-- The new row under an id of its own. -/
def identified (s : Store) (t : Table) (r : Row) : Except StoreError Row :=
  if !t.hasId then .ok r
  else match r .id with
    | .integer _ => .ok r
    | .null => .ok fun c => if c = .id then .integer (s.nextId t) else r c
    | _ => .error .notAnId

/-- Adds a row. -/
def insert (s : Store) (t : Table) (given : List (Column × Value)) :
    Except StoreError Store := do
  let r ← s.identified t (newRow t given)
  if t = .users && s.takesOccupied r (s.rows .users) then
    throw .occupiedPosition
  conforms t (s.rows t) r
  (s.withRows t (s.rows t ++ [r])).settled

/-- A row after a change of some columns. -/
def changed (changes : List (Column × Value)) (r : Row) : Row := fun c =>
  match changes.lookup c with
  | some v => c.affinity.apply v
  | none => r c

/-- Whether a change can bring an employee into a position. -/
def touchesHolding (changes : List (Column × Value)) : Bool :=
  changes.any fun (c, _) => c = .positionId || c = .deletedAt

/-- Checks one changed row against the rows as they are at its turn. The guard
compares with every employee of another id than the new one, the row's own old
state included. -/
def admitChange (s : Store) (t : Table) (changes : List (Column × Value))
    (all others : List Row) (r : Row) : Except StoreError Unit := do
  if t.hasId then
    match r .id with
    | .integer _ => pure ()
    | _ => throw .notAnId
  if t = .users && touchesHolding changes
      && s.takesOccupied r (all.filter fun u => u .id != r .id) then
    throw .occupiedPosition
  conforms t others r

/-- Changes the selected rows one after the other: those before have been
visited, the others not yet. -/
def changeRows (s : Store) (t : Table) (changes : List (Column × Value))
    (selects : Row → Bool) :
    (before rest : List Row) → Except StoreError (List Row)
  | before, [] => .ok before
  | before, r :: rest =>
      if selects r then
        let r' := changed changes r
        let others := before ++ rest
        match s.admitChange t changes (before ++ r :: rest) others r' with
        | .error e => .error e
        | .ok () => s.changeRows t changes selects (before ++ [r']) rest
      else s.changeRows t changes selects (before ++ [r]) rest

/-- Changes columns of the selected rows. -/
def update (s : Store) (t : Table) (changes : List (Column × Value))
    (selects : Row → Bool) : Except StoreError Store := do
  let rows ← s.changeRows t changes selects [] (s.visited t)
  (s.withRows t rows).settled

/-- Whether a row goes with the deleted rows of a table. -/
def goesWith (t : Table) (deleted : List Row) (child : Table) (r : Row) :
    Bool :=
  child.references.any fun ref =>
    ref.cascades && ref.parent = t
      && deleted.any fun d => d .id == r ref.column

/-- Deletes the selected rows and the rows that go with them. -/
def delete (s : Store) (t : Table) (selects : Row → Bool) :
    Except StoreError Store :=
  let deleted := (s.rows t).filter selects
  let kept := s.withRows t ((s.rows t).filter (!selects ·))
  settled ⟨fun u => (kept.rows u).filter (!goesWith t deleted u ·)⟩

/-- How many rows a selection takes. -/
def count (s : Store) (t : Table) (selects : Row → Bool) : Nat :=
  (s.rows t).countP selects

end Store

end WorkRouting
