import ModalHighlight.Text.Class
import ModalHighlight.Text.Hexadecimal

/-! # Quoted texts

Reports show texts in double quotes.  A character that would end the quote or
could not be seen is escaped, so a quoted text is one line in which every
character of the text shows.
-/

namespace ModalHighlight.Text

/-- A character as it stands between quotes. -/
def quotedChar (c : Char) : List Char :=
  match c with
  | '\x00' => ['\\', '0']
  | '\t' => ['\\', 't']
  | '\n' => ['\\', 'n']
  | '\r' => ['\\', 'r']
  | '"' => ['\\', '"']
  | '\\' => ['\\', '\\']
  | c =>
    if isGraphemeExtend c || !isPrintable c then
      ['\\', 'u', '\x7b'] ++ hex c.toNat ++ ['\x7d']
    else [c]

/-- A text in double quotes. -/
def quoted (text : String) : String :=
  String.ofList ('"' :: text.toList.flatMap quotedChar ++ ['"'])

/-- Several texts, each in double quotes, as a list in brackets. -/
def quotedList (texts : List String) : String :=
  "[" ++ String.intercalate ", " (texts.map quoted) ++ "]"

example : quoted "a\t\"b\"\\" = "\"a\\t\\\"b\\\"\\\\\"" := by decide +kernel

example : quoted "e\u0301" = "\"e\\u\x7b301\x7d\"" := by decide +kernel

end ModalHighlight.Text
