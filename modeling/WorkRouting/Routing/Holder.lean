/-
The choice among the holders of a position. The rule decides who is eligible,
the order decides who is preferred: inside the order's own department, branch,
otdel and office comes first, and the lowest id ends a tie.
-/
import WorkRouting.Routing.Rule

namespace WorkRouting

namespace Rule

/-- A holder without a unit at a pinned level serves the whole organization. -/
def unitAdmits (pinned held : Option Int64) : Bool :=
  match pinned, held with
  | some p, some h => p == h
  | _, _ => true

/-- Whether the holder works inside the units that the rule pins. Everybody has
a department, so a pinned one is compared as it is. -/
def admits (r : Rule) (holder : Actor) : Bool :=
  columnAdmits r.department (some holder.department)
    && unitAdmits r.otdel holder.otdel
    && unitAdmits r.branch holder.branch
    && unitAdmits r.office holder.office

end Rule

/-- The order has this unit and the holder is in it. -/
def insideUnit (ordered held : Option Int64) : Bool :=
  ordered.isSome && ordered == held

/-- The rank of a holder for an order; the least rank is preferred. -/
def Context.holderRank (ctx : Context) (holder : Actor) : Key :=
  [Key.preferring (insideUnit ctx.department (some holder.department)),
    Key.preferring (insideUnit ctx.branch holder.branch),
    Key.preferring (insideUnit ctx.otdel holder.otdel),
    Key.preferring (insideUnit ctx.office holder.office),
    holder.id.toInt]

/-- The eligible holder with the least rank; of equal ranks the first. -/
def Rule.selectHolder (r : Rule) (ctx : Context) (holders : List Actor) :
    Option Actor :=
  least ctx.holderRank (holders.filter r.admits)

end WorkRouting
