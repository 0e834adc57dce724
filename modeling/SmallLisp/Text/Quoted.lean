import SmallLisp.Text.Shown

/-!
# Quoted text

Text between quotation marks, in which every character can be made out: the
quotation mark and the backslash stand behind a backslash, the common controls
have a letter, and other characters that would not show have their code point.
-/

namespace SmallLisp.Text

/-- A code point in lower-case hexadecimal between braces. -/
def codePoint (c : Char) : List Char := "\\u\x7b".toList ++ Nat.toDigits 16 c.toNat ++ ['\x7d']

/-- What stands for a character between quotation marks. -/
def quoteChar (c : Char) : List Char :=
  match c with
  | '\x00' => ['\\', '0']
  | '\t' => ['\\', 't']
  | '\r' => ['\\', 'r']
  | '\n' => ['\\', 'n']
  | '"' => ['\\', '"']
  | '\\' => ['\\', '\\']
  | c => if isShown c then [c] else codePoint c

/-- The text between quotation marks. -/
def quote (s : String) : List Char := '"' :: s.toList.flatMap quoteChar ++ ['"']

end SmallLisp.Text
