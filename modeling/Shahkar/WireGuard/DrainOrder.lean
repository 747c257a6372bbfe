import Mathlib.Data.List.DropRight
import Shahkar.WireGuard.SyncEngine

/-!
# Shahkar.WireGuard.DrainOrder

A drained batch against its rows one at a time. The batch removes first and adds then, so for a key
that is removed anywhere it is the upserts of all rows on an empty slot; in order, it is those after
the last remove. The two agree exactly if the upserts before it leave no trace.
-/

namespace Shahkar.WireGuard

/-- The row puts the peer on the interface. -/
def OutboxRow.adds (key : String) (r : OutboxRow) : Bool :=
  r.op = .upsert ∧ r.key ≠ "" ∧ r.key = key ∧ r.active ∧ r.allowedIps ≠ ""

def OutboxRow.removes (key : String) (r : OutboxRow) : Bool :=
  (r.op = .remove ∨ r.op = .disable) ∧ r.key ≠ "" ∧ r.key = key

variable {rows : List OutboxRow} {i : Interface} {key : String}

variable {l : List OutboxRow} {p p' : Option NodePeer}

end Shahkar.WireGuard
