/-
A bounded broadcast channel. Every receiver sees the messages sent after it subscribed, in order. The channel
keeps the last `capacity` messages; a receiver that is further behind learns how many it lost and goes on with
the oldest kept.

All messages ever sent stay in `sent`: a receiver is a position in that list, and what it may still read is
decided by its distance from the end.
-/
namespace Redeploy

structure Channel (α : Type) where
  capacity : Nat
  sent : List α := []
deriving Repr, Inhabited

/-- the position of a receiver: how many of the messages sent are behind it -/
abbrev Cursor := Nat

/-- what a receiver finds -/
inductive Reading (α : Type) where
  /-- nothing to read yet -/
  | empty
  /-- messages that were dropped before the receiver came to them -/
  | lagged (skipped : Nat)
  | message (m : α)
deriving Repr

namespace Channel

/-- the least power of two that is at least `n`, for `n` up to `2 ^ fuel` -/
def powerAbove (n : Nat) : Nat → Nat → Nat
  | 0, p => p
  | fuel + 1, p => if n ≤ p then p else powerAbove n fuel (2 * p)

/-- the complaint about a capacity for which there can be no channel -/
def refusal? (n : Nat) : Option String :=
  if n = 0 then some "broadcast channel capacity cannot be zero"
  else if 1 <<< 63 ≤ n then some "broadcast channel capacity exceeded `usize::MAX / 2`"
  else if 1 <<< 56 < n then some "capacity overflow"
  else none

/-- a channel that keeps at least `n` messages, `n` being positive; capacities are powers of two -/
def ofCapacity {α : Type} (n : Nat) : Channel α := { capacity := powerAbove n 64 1 }

variable {α : Type}

/-- a receiver that subscribes now -/
def subscribe (c : Channel α) : Cursor := c.sent.length

def send (c : Channel α) (m : α) : Channel α := { c with sent := c.sent ++ [m] }

/-- position of the oldest message still kept -/
def oldest (c : Channel α) : Nat := c.sent.length - c.capacity

/-- what the receiver at `i` finds, and where it is afterwards -/
def receive (c : Channel α) (i : Cursor) : Reading α × Cursor :=
  if i < c.oldest then (.lagged (c.oldest - i), c.oldest)
  else match c.sent[i]? with
    | some m => (.message m, i + 1)
    | none => (.empty, i)

/-- read until the channel is empty, at most `max` readings -/
def receiveUpTo (c : Channel α) : Nat → Cursor → List (Reading α) × Cursor
  | 0, i => ([], i)
  | max + 1, i =>
    match c.receive i with
    | (.empty, i') => ([], i')
    | (r, i') =>
      let (rs, last) := c.receiveUpTo max i'
      (r :: rs, last)

/-- how many readings a receiver at `i` can get at most -/
def backlog (c : Channel α) (i : Cursor) : Nat := c.sent.length - i + 1

end Channel

end Redeploy
