/-
# Quoted text

Diagnostic output shows a name between double quotes, so that the reader sees where it
begins and ends and can tell every character apart.  A character that would end the
quotation, that moves the cursor, or that leaves no mark of its own is written as an
escape; all others stand for themselves.
-/
import DynamicLinker.Text.Printable

namespace DynamicLinker.Text

/-- The digits of a number in base sixteen, in lower case and without leading zeros. -/
def hexDigits (n : Nat) : String := String.ofList (Nat.toDigits 16 n)

/-- The way a character is written inside double quotes: the quote and the backslash
behind a backslash, the common controls by their letters, any other character that is
not `isPrintable` by its code point in braces. -/
def escape (c : Char) : String :=
  match c with
  | '\x00' => "\\0"
  | '\t' => "\\t"
  | '\n' => "\\n"
  | '\r' => "\\r"
  | '"' => "\\\""
  | '\\' => "\\\\"
  | c => if isPrintable c then c.toString else "\\u\x7b" ++ hexDigits c.toNat ++ "\x7d"

/-- A text between double quotes, with its characters escaped. -/
def quoted (s : String) : String := "\"" ++ String.join (s.toList.map escape) ++ "\""

end DynamicLinker.Text
