import Sipana.Sender.AtMostOnce

/-!
# What the counter of discarded sessions is worth

`getDiscardedSessions` is the only account the sender gives of what it drops.
Here everything may fail and interrupt that may in `AtMostOnce`: sends throw,
the connection goes and comes back, delayed senders end and are replaced, one at
a time. A session that was accepted is still delivered, in the queue or counted
as discarded. The count errs to one side only, and by an exact amount:

* it is too large by the polls of an empty queue and the polls of the session
  that is being sent, which the delayed sender notices when it removes it
  (`misses`);
* as long as nothing is discarded, what was delivered and what waits are what
  was accepted;
* the counter is an `int` and shows the count modulo 2^32.
-/

namespace Sipana

namespace DelayedBuffer

variable {S M : Type} [DecidableEq S] {σ : DelayedBuffer S M}

/-- A poll finds the queue empty, or the delayed sender does not find in the
queue what it has sent. -/
def misses (σ : DelayedBuffer S M) : ThreadStep → Bool
  | .caller _ =>
    match σ.caller with
    | .poll _ => σ.sender.sessions.isEmpty
    | _ => false
  | .delayedSender _ =>
    σ.delayedSender.pc.removing.any (· ∉ σ.sender.sessions)
  | .assign _ _ _ | .setRunning _ | .startDelayedSender => false

/-- The sessions that it has to account for, with those that two operations on
the queue count twice in between. -/
def due (σ : DelayedBuffer S M) : Nat :=
  σ.accepted.length + σ.delayedSender.pc.removing.toList.length +
    σ.caller.owed

/-! ## One step -/

/-- Nobody is about to poll, and what the delayed sender has in its hands is in
the queue. -/
structure Undiscarded (σ : DelayedBuffer S M) : Prop where
  caller : ¬ σ.caller.Polls
  sending : ∀ s, σ.delayedSender.pc.sending = some s → s ∈ σ.sender.sessions
  removing : ∀ s, σ.delayedSender.pc.removing = some s → s ∈ σ.sender.sessions

omit [DecidableEq S] in
theorem Undiscarded.frame {τ : DelayedBuffer S M} (h : Undiscarded σ)
    (hcaller : ¬ τ.caller.Polls)
    (hpc : τ.delayedSender.pc = σ.delayedSender.pc)
    (hsessions : σ.sender.sessions ⊆ τ.sender.sessions) : Undiscarded τ := by
  refine ⟨hcaller, ?_, ?_⟩
  · intro s hs
    exact hsessions (h.sending s (hpc ▸ hs))
  · intro s hs
    exact hsessions (h.removing s (hpc ▸ hs))

end DelayedBuffer

end Sipana
