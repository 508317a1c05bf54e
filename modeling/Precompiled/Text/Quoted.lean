import Precompiled.Text.Hex
import Precompiled.Text.Hidden

/-! Texts between double quotes, on one line and with nothing invisible in
them. -/
namespace Precompiled.Text

/-- How a character stands inside a quoted text. -/
def quotedChar (char : Char) : String :=
  if char = '"' then "\\\""
  else if char = '\\' then "\\\\"
  else if char = '\n' then "\\n"
  else if char = '\r' then "\\r"
  else if char = '\t' then "\\t"
  else if char = '\x00' then "\\0"
  else if isHidden char then "\\u\x7b" ++ hexNumber char.toNat ++ "\x7d"
  else char.toString

/-- A text with its quotes. -/
def quoted (text : String) : String :=
  "\"" ++ String.join (text.toList.map quotedChar) ++ "\""

end Precompiled.Text
