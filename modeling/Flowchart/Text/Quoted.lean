import Flowchart.Text.Unprinted

/-!
Quoted text in descriptions: what does not print is written as an escape.
-/
namespace Flowchart.Text

def hexDigits (n : Nat) : String := String.ofList (Nat.toDigits 16 n)

/-- Quotes, backslashes and the common controls have an escape of their own; other characters that
do not print are written by number. -/
def escape (c : Char) : String :=
  if c = '"' then "\\\""
  else if c = '\\' then "\\\\"
  else if c = '\n' then "\\n"
  else if c = '\r' then "\\r"
  else if c = '\t' then "\\t"
  else if c.toNat = 0 then "\\0"
  else if isUnprinted c then "\\u\x7b" ++ hexDigits c.toNat ++ "\x7d"
  else c.toString

def quoted (text : String) : String :=
  "\"" ++ String.join (text.toList.map escape) ++ "\""

end Flowchart.Text
