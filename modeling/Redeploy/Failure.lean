/-
Why an operation of the registry, or of something it calls, failed. The first five are rejections of a request: the
request was well formed and understood, and the registry declines it.
-/
import Redeploy.Deployment.Request

namespace Redeploy

inductive Failure where
  | senderLeft (member : MemberId)
  | shuttingDown
  | sequenceMismatch (seq : UInt64) (existing : DeploymentId)
  | obsolete (a : String)
  | aliasNotFound (a : String) (id : DeploymentId)
  | alreadyStarted
  | moduleNotFound (name : String)
  | release (reason : String)
  | hook (reason : String)
  | configuration (reason : String)
deriving DecidableEq, Repr, Inhabited

namespace Failure

def isRejection : Failure → Bool
  | senderLeft _ | shuttingDown | sequenceMismatch .. | obsolete _ | aliasNotFound .. => true
  | _ => false

/-- the name of the kind of failure -/
def kind : Failure → String
  | senderLeft _ => "SenderLeft"
  | shuttingDown => "ShuttingDown"
  | sequenceMismatch .. => "SequenceMismatch"
  | obsolete _ => "Obsolete"
  | aliasNotFound .. => "AliasNotFound"
  | alreadyStarted => "AlreadyStarted"
  | moduleNotFound _ => "ModuleNotFound"
  | release _ => "Release"
  | hook _ => "Hook"
  | configuration _ => "Configuration"

def message : Failure → String
  | senderLeft m => "Sender node left the cluster: " ++ m.text
  | shuttingDown => "Deployment registry is shutting down"
  | sequenceMismatch n d =>
    "Sequence number does not correspond to deployment ID [seq=" ++ toString n ++ ", deployment_id=" ++ d.text ++ "]"
  | obsolete a => "Request for a module that has been redeployed: " ++ a
  | aliasNotFound a d => "Failed to resolve module [alias=" ++ a ++ ", deployment_id=" ++ d.text ++ "]"
  | alreadyStarted => "Deployment registry already started"
  | moduleNotFound n => "Module not found: " ++ n
  | release r => "Failed to release resolution context: " ++ r
  | hook r => "Undeploy hook failed: " ++ r
  | configuration r => "Configuration error: " ++ r

/-- the failure with all it carries, as one line of text -/
def describe : Failure → String
  | senderLeft m => "SenderLeft(" ++ m.describe ++ ")"
  | shuttingDown => "ShuttingDown"
  | sequenceMismatch n d => "SequenceMismatch \x7b seq: " ++ toString n ++ ", existing: " ++ d.describe ++ " \x7d"
  | obsolete a => "Obsolete(" ++ Text.quote a ++ ")"
  | aliasNotFound a d =>
    "AliasNotFound \x7b alias: " ++ Text.quote a ++ ", deployment_id: " ++ d.describe ++ " \x7d"
  | alreadyStarted => "AlreadyStarted"
  | moduleNotFound n => "ModuleNotFound(" ++ Text.quote n ++ ")"
  | release r => "Release(" ++ Text.quote r ++ ")"
  | hook r => "Hook(" ++ Text.quote r ++ ")"
  | configuration r => "Configuration(" ++ Text.quote r ++ ")"

/-- the failure to reach the runtime, which background tasks and timers run in -/
def outsideRuntime (what : String) : Failure :=
  .configuration (what ++ ": there is no reactor running, must be called from the context of a Tokio 1.x runtime")

/-- a registry cannot be started outside the runtime -/
def noRuntimeForRegistry : Failure := outsideRuntime "Deployment registry needs a tokio runtime"

/-- timers cannot be had outside the runtime -/
def noRuntimeForTimers : Failure := outsideRuntime "No tokio runtime for timeout scheduler"

end Failure

end Redeploy
