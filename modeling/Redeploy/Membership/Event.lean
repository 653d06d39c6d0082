/-
A change of the membership, as subscribers hear of it.
-/
import Redeploy.Ident

namespace Redeploy.Membership

inductive Event where
  | joined (member : MemberId)
  /-- the member left of its own accord -/
  | left (member : MemberId)
  /-- the member stopped its heartbeat or was declared dead -/
  | failed (member : MemberId)
deriving DecidableEq, Repr, Inhabited

namespace Event

def member : Event → MemberId
  | joined m | left m | failed m => m

/-- after a departure the member's deployments are obsolete -/
def isDeparture : Event → Bool
  | joined _ => false
  | left _ | failed _ => true

/-- the name of the kind of event -/
def kind : Event → String
  | joined _ => "joined"
  | left _ => "left"
  | failed _ => "failed"

/-- the events of a kind, one for each member -/
def ofKind? : String → Option (MemberId → Event)
  | "joined" => some joined
  | "left" => some left
  | "failed" => some failed
  | _ => none

end Event

end Redeploy.Membership
