/-
A deployment request: what a remote execution says about the deployment whose module it needs. A request that no
correct member sends (an empty identifier, sequence number zero) has a `Fault`.
-/
import Redeploy.Ident
import Redeploy.Text.Quoted

namespace Redeploy

/-- how a sender keys its deployments: by the context of its request, or by an identifier of its own choice -/
inductive Mode where
  | personal
  | isolated
deriving DecidableEq, Repr, Inhabited

namespace Mode

def text : Mode → String
  | personal => "private"
  | isolated => "isolated"

/-- the name in quoted descriptions -/
def describe : Mode → String
  | personal => "Private"
  | isolated => "Isolated"

def ofText? : String → Option Mode
  | "private" => some personal
  | "isolated" => some isolated
  | _ => none

end Mode

structure Request where
  id : DeploymentId
  sender : MemberId
  /-- strictly increasing per sender, from 1 -/
  seq : UInt64
  /-- the module that is needed, by the name the sender gave it -/
  moduleAlias : String
  version : String := "0"
  mode : Mode := .personal
  /-- label of the parent of a new resolution context; the registry has a default -/
  parent : Option String := none
deriving DecidableEq, Repr, Inhabited

def MemberId.describe (m : MemberId) : String := "MemberId(" ++ Text.quote m.text ++ ")"

def DeploymentId.describe (d : DeploymentId) : String := "DeploymentId(" ++ Text.quote d.text ++ ")"

namespace Request

/-- the request as one line of text -/
def describe (q : Request) : String :=
  "DeploymentMetadata \x7b id: " ++ q.id.describe ++ ", sender_id: " ++ q.sender.describe ++
    ", sequence_number: " ++ toString q.seq ++ ", alias: " ++ Text.quote q.moduleAlias ++
    ", user_version: " ++ Text.quote q.version ++ ", mode: " ++ q.mode.describe ++
    ", has_parent: " ++ (if q.parent.isSome then "true" else "false") ++ " \x7d"

/-- what is wrong with a malformed request -/
inductive Fault where
  | emptyId
  | emptySender
  | zeroSeq
deriving DecidableEq, Repr

/-- the first fault, in the order identifier, sender, sequence number -/
def fault? (q : Request) : Option Fault :=
  if q.id.isEmpty then some .emptyId
  else if q.sender.isEmpty then some .emptySender
  else if q.seq = 0 then some .zeroSeq
  else none

def WellFormed (q : Request) : Prop := q.fault? = none

instance (q : Request) : Decidable q.WellFormed := inferInstanceAs (Decidable (_ = _))

/-- the complaint about a malformed request -/
def Fault.message (q : Request) : Fault → String
  | .emptyId => "Deployment ID must not be empty: " ++ q.describe
  | .emptySender => "Sender ID must not be empty: " ++ q.describe
  | .zeroSeq => "Invalid sequence number (must be positive): " ++ q.describe

end Request

end Redeploy
