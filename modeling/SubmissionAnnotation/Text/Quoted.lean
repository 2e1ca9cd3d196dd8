import SubmissionAnnotation.Text.Printable
import SubmissionAnnotation.Text.Combining
import SubmissionAnnotation.Text.Hex

/-!
# Quoted text in messages

A string that a message names stands between double quotes, with every character visible: quotes
and backslashes are escaped, tab, line feed, carriage return and the null character have short
names, and any other character that shows nothing, or would join the character before it, is
written by its code point.
-/
namespace SubmissionAnnotation.Text

def visibleChar (c : Char) : String :=
  if c = '\x00' then "\\0"
  else if c = '\t' then "\\t"
  else if c = '\n' then "\\n"
  else if c = '\r' then "\\r"
  else if c = '"' then "\\\""
  else if c = '\\' then "\\\\"
  else if isCombining c || !isPrintable c then "\\u\x7b" ++ Hex.shortest c.toNat ++ "\x7d"
  else c.toString

/-- The string between double quotes, with every character visible. -/
def quoted (s : String) : String :=
  "\"" ++ String.join (s.toList.map visibleChar) ++ "\""

end SubmissionAnnotation.Text
