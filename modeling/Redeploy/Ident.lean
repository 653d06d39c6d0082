/-
Identifiers: members of the cluster and deployments. Both are arbitrary texts, ordered as their UTF-8 bytes are
(which is the order of their code points). A freshly made identifier has twelve characters of a 64-letter
alphabet.
-/
namespace Redeploy

/-- a member of the cluster: the node a deployment came from -/
structure MemberId where
  text : String
deriving DecidableEq, Repr, Inhabited

/-- a deployment, the key of the deployment cache -/
structure DeploymentId where
  text : String
deriving DecidableEq, Repr, Inhabited

/-- an identifier no one has chosen a text for -/
def MemberId.isEmpty (m : MemberId) : Bool := m.text.isEmpty

def DeploymentId.isEmpty (d : DeploymentId) : Bool := d.text.isEmpty

/-- order by code points -/
def MemberId.le (a b : MemberId) : Bool := decide (a.text ≤ b.text)

def DeploymentId.le (a b : DeploymentId) : Bool := decide (a.text ≤ b.text)

namespace Ident

/-- the letters of made identifiers; all of them may stand in a URL -/
def alphabet : List Char := "_-0123456789abcdefghijklmnopqrstuvwxyzABCDEFGHIJKLMNOPQRSTUVWXYZ".toList

/-- the letter for the lowest six bits of a number -/
def letter (n : Nat) : Char := alphabet.getD (n % 64) '_'

/-- `k` letters that spell the number in base 64, lowest digit first -/
def spell : Nat → Nat → List Char
  | 0, _ => []
  | k + 1, n => letter n :: spell k (n / 64)

/-- an odd multiplier, so that multiplying by it permutes the numbers below `64 ^ 12` -/
def scatter : Nat := 0x9e3779b97f4a7c15f5

/-- the identifier for the `n`-th request of a source of numbers: twelve letters, different for different
`n < 64 ^ 12` -/
def make (n : Nat) : String := String.ofList (spell 12 ((n + 1) * scatter % Nat.pow 64 12))

/-- twelve letters of the alphabet -/
def WellShaped (s : String) : Bool := s.length == 12 && s.toList.all (alphabet.contains ·)

end Ident

end Redeploy
