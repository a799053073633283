/-
CampusQuery.Text.Literal — texts shown in quotes.

Error messages show a text as a literal: in double quotes, with a backslash
before quotes and backslashes, short escapes for the null, tab, line feed
and carriage return, and the code point of every other character that
cannot be shown as it is.
-/
import CampusQuery.Text.Printable

namespace CampusQuery.Text

def literalChar (c : Char) : List Char :=
  match c with
  | '\x00' => ['\\', '0']
  | '\t' => ['\\', 't']
  | '\r' => ['\\', 'r']
  | '\n' => ['\\', 'n']
  | '"' => ['\\', '"']
  | '\\' => ['\\', '\\']
  | _ =>
    if isPrintable c then [c]
    else
      ['\\', 'u', '\x7b'] ++ Nat.toDigits 16 c.toNat ++ ['\x7d']

def literal (text : String) : String :=
  String.ofList ('"' :: text.toList.flatMap literalChar ++ ['"'])

end CampusQuery.Text
