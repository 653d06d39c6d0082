/-
A log entry before it is written: level, target, message and named values. How an entry looks on a line is
decided by the format that writes it.
-/
namespace Redeploy.Logging

/-- severities, least severe first -/
inductive Level where
  | trace
  | debug
  | info
  | warn
  | error
deriving DecidableEq, Repr, Inhabited

namespace Level

def rank : Level → Nat
  | trace => 0
  | debug => 1
  | info => 2
  | warn => 3
  | error => 4

/-- the name on a line -/
def label : Level → String
  | trace => "TRACE"
  | debug => "DEBUG"
  | info => "INFO"
  | warn => "WARN"
  | error => "ERROR"

/-- the level of a configured name; case of letters does not matter -/
def ofName? (s : String) : Option Level :=
  match s.toLower with
  | "trace" => some trace
  | "debug" => some debug
  | "info" => some info
  | "warn" | "warning" => some warn
  | "error" => some error
  | _ => none

/-- whether an entry of level `l` is at least as severe as the threshold -/
def admits (threshold l : Level) : Bool := decide (threshold.rank ≤ l.rank)

end Level

/-- the value of a field -/
inductive Value where
  /-- text that was already rendered; it stands on a line as it is -/
  | rendered (text : String)
  /-- a plain text; formats for people quote it -/
  | text (text : String)
  | number (n : Int)
deriving DecidableEq, Repr, Inhabited

structure Entry where
  level : Level
  target : String
  message : String
  fields : List (String × Value) := []
deriving DecidableEq, Repr, Inhabited

end Redeploy.Logging
