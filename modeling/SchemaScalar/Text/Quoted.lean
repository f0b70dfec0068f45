import SchemaScalar.Text.Extender
import SchemaScalar.Text.Hidden

/-!
# Quoted texts in messages

A text that a message cites stands in double quotes, and a reader of the message can tell each of
its characters. Line ends, tabs and the null character have escapes of two characters; others
without a form of their own, and those that would be drawn onto the character before them, are given
by their code in hexadecimal digits. The rest stand for themselves.
-/

namespace SchemaScalar.Text

/-- A character as it stands inside a cited text. -/
def citeChar (c : Char) : List Char :=
  if c = '"' then ['\\', '"']
  else if c = '\\' then ['\\', '\\']
  else if c = '\n' then ['\\', 'n']
  else if c = '\r' then ['\\', 'r']
  else if c = '\t' then ['\\', 't']
  else if c = '\x00' then ['\\', '0']
  else if isHidden c || isExtender c then
    ['\\', 'u', '\x7b'] ++ Nat.toDigits 16 c.toNat ++ ['\x7d']
  else [c]

def cite (s : String) : String := String.ofList ('"' :: s.toList.flatMap citeChar ++ ['"'])

example : cite "été \"x\"\n" = "\"été \\\"x\\\"\\n\"" := by decide +kernel

example : cite "e\u0301\u00A0" = "\"e\\u\x7b301\x7d\\u\x7ba0\x7d\"" := by decide +kernel

end SchemaScalar.Text
