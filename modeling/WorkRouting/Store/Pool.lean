/-
The limits of a pool of database connections. A limit of zero would admit
nobody, so both limits are at least one; every connection enforces references.
-/
import WorkRouting.Event

namespace WorkRouting

structure PoolLimits where
  maxConnections : Nat
  acquireTimeoutSecs : Nat
  enforcesReferences : Bool := true
  deriving DecidableEq, Repr

/-- Opens a pool with the limits asked for. -/
def PoolLimits.opened (maxConnections timeoutSecs : Nat) :
    Reported PoolLimits :=
  let m := max maxConnections 1
  let t := max timeoutSecs 1
  ⟨{ maxConnections := m, acquireTimeoutSecs := t }, [.poolOpened m t]⟩

end WorkRouting
