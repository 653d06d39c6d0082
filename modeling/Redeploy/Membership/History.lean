/-
Histories of a directory: its operations as data, each run to its end, and what they announce together.
-/
import Redeploy.Membership.Directory

namespace Redeploy.Membership

/-- an operation on a directory, with the time it reads from the wall clock where it reads one -/
inductive Op where
  | registerSelf (address : String) (clock : Timestamp)
  | register (n : Node)
  | heartbeat (m : MemberId) (clock : Timestamp)
  | leave (m : MemberId)
  | fail (m : MemberId)
  | evictStale (clock : Timestamp)
deriving DecidableEq, Repr

namespace Directory

/-- the directory after an operation, and what the operation announces -/
def apply (d : Directory) : Op → Directory × List Announcement
  | .registerSelf address clock => d.registerSelf address clock
  | .register n =>
    let (d, _, as) := d.register n
    (d, as)
  | .heartbeat m clock => ((d.heartbeat m clock).1, [])
  | .leave m =>
    let (d, _, as) := d.leave m
    (d, as)
  | .fail m =>
    let (d, _, as) := d.fail m
    (d, as)
  | .evictStale clock =>
    let (d, _, as) := d.evictStale clock
    (d, as)

/-- the directory after some operations, and all that they announce, in order -/
def run (d : Directory) : List Op → Directory × List Announcement
  | [] => (d, [])
  | o :: os =>
    let (d₁, as₁) := d.apply o
    let (d₂, as₂) := d₁.run os
    (d₂, as₁ ++ as₂)

end Directory

/-- the event of an announcement, if it is one -/
def Announcement.event? : Announcement → Option Event
  | .event e => some e
  | .notice _ => none

/-- the events among some announcements -/
def events (as : List Announcement) : List Event := as.filterMap Announcement.event?

end Redeploy.Membership
