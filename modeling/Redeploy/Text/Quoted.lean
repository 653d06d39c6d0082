/-
Quoted text for messages: a text between double quotes in which a reader can tell every character. Quotes,
backslashes, the usual controls and all characters without a visible shape of their own are escaped.
-/
import Redeploy.Text.Unprintable
import Redeploy.Text.GraphemeExtend

namespace Redeploy.Text

/-- lower-case hexadecimal digits, most significant first -/
def hex (n : Nat) : List Char := Nat.toDigits 16 n

/-- one character as it stands between the quotes -/
def quoteChar (c : Char) : List Char :=
  match c with
  | '\x00' => ['\\', '0']
  | '\t' => ['\\', 't']
  | '\r' => ['\\', 'r']
  | '\n' => ['\\', 'n']
  | '"' => ['\\', '"']
  | '\\' => ['\\', '\\']
  | c =>
    if ' ' ≤ c ∧ c ≤ '~' then [c]
    else if graphemeExtend.contains c || unprintable.contains c then
      ['\\', 'u', '\x7b'] ++ hex c.toNat ++ ['\x7d']
    else [c]

/-- the text in double quotes -/
def quote (s : String) : String :=
  String.ofList ('"' :: (s.toList.flatMap quoteChar ++ ['"']))

end Redeploy.Text
