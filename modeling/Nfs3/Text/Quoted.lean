import Nfs3.Text.Hexadecimal
import Nfs3.Text.Unprintable
import Nfs3.Text.Combining

/-!
Text in double quotes. What would not show as itself is escaped: the quote, the backslash, controls
and other unprintable characters, and characters that would combine with the one before.
-/
namespace Nfs3.Text

def escape (c : Char) : String :=
  if c = '\x00' then "\\0"
  else if c = '\t' then "\\t"
  else if c = '\r' then "\\r"
  else if c = '\n' then "\\n"
  else if c = '"' then "\\\""
  else if c = '\\' then "\\\\"
  else if isPrintable c && !isCombining c then c.toString
  else "\\u\x7b" ++ hex c.toNat ++ "\x7d"

def quoted (cs : List Char) : String :=
  "\"" ++ String.join (cs.map escape) ++ "\""

end Nfs3.Text
