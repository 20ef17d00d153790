import Diaporama.Text.Printable

/-!
# Quoted text in messages

A text inside a message is put between double quotes. Quotes and backslashes get a backslash, the
usual control characters their letter, and every other character that is not shown as it is its
code point in braces.
-/

namespace Diaporama.Text

def hex (n : Nat) : String :=
  String.ofList (Nat.toDigits 16 n)

def escapeQuoted (c : Char) : String :=
  if c = '"' then "\\\""
  else if c = '\\' then "\\\\"
  else if c = '\n' then "\\n"
  else if c = '\r' then "\\r"
  else if c = '\t' then "\\t"
  else if c = Char.ofNat 0 then "\\0"
  else if isPrintable c then c.toString
  else "\\u\x7b" ++ hex c.toNat ++ "\x7d"

def quoted (s : String) : String :=
  "\"" ++ String.join (s.toList.map escapeQuoted) ++ "\""

def quotedList (ss : List String) : String :=
  "[" ++ ", ".intercalate (ss.map quoted) ++ "]"

end Diaporama.Text
