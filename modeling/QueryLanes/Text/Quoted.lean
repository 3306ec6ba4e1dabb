import QueryLanes.Text.Numeral
import QueryLanes.Text.Printable

/-!
# Quoted text

A text in double quotes, as descriptions of values show it. A quote and a backslash are escaped by
a backslash, four control characters have letters of their own, and every other character that is
not printable, or that is written onto the one before it, is given by its number.
-/

namespace QueryLanes.Text

/-- How one character is written between the quotes. -/
def escape (c : Char) : List Char :=
  match c with
  | '\x00' => ['\\', '0']
  | '\t' => ['\\', 't']
  | '\r' => ['\\', 'r']
  | '\n' => ['\\', 'n']
  | '"' => ['\\', '"']
  | '\\' => ['\\', '\\']
  | c =>
    if isPrintable c && !isJoiningMark c then [c]
    else '\\' :: 'u' :: '\x7b' :: (Nat.toDigits 16 c.toNat ++ ['\x7d'])

def quote (s : String) : String :=
  String.ofList ('"' :: (s.toList.flatMap escape ++ ['"']))

end QueryLanes.Text
