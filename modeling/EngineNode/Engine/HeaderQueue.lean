import EngineNode.Header
import EngineNode.RecencyMap

/-!
# Headers of blocks that could not be imported

The consensus layer may choose one of them as the head later, and so start a sync.
-/

namespace EngineNode

/-- About three epochs of blocks. -/
def headerQueueCapacity : Nat := 96

abbrev HeaderQueue (capacity : Nat) := BoundedMap Hash Header capacity

end EngineNode
