import Lets.Library.Heads
import Lets.Dispatcher

set_option autoImplicit false

/-!
# What the dispatcher reads

Records that wait for a target are queued by kind and ordering key, and the store keeps the head of
every queue.
-/

namespace Lets

open Library

variable {d : ℕ} {Hash : Type}

/-- Records that are neither delivered nor superseded wait for their target, by kind and ordering
key, in the order of their positions. -/
def peerDeliveryHeads (d : ℕ) : Queueing (RecordKind × String × String) (PeerDelivery d)
    (String × RecordKind × String) (ℕ ×ₗ ℕ ×ₗ String) String where
  waiting row := row.deliveredAtNs.isNone && row.supersededAtNs.isNone
  group key row := (key.2.2, key.1, row.orderingKey)
  order key row := toLex (row.streamPosition, toLex (row.createdAtNs, key.2.1))
  name order := (ofLex (ofLex order).2).2

end Lets
