import ImpFront.Text.Combining
import ImpFront.Text.Printable
/-!
# ImpFront.Text.Quoted

**Quoted texts for messages.** A text is set between double quotes in such a way
that the result stays on one line and shows every character: quotes and
backslashes get a backslash, four controls have a letter, and whatever is
combining or not printable is written as its code point in braces.

This is not the notation of the language's own string literals
(`ImpFront.Text.Literal`): a reader of a message need not be able to type it.
-/

namespace ImpFront.Text

/-- A code point in lower-case hexadecimal, without leading zeros, in braces. -/
def codePoint (c : Char) : List Char :=
  ['\\', 'u', '{'] ++ Nat.toDigits 16 c.toNat ++ ['}']

/-- The quoted form of one character. -/
def quoteChar (c : Char) : List Char :=
  if c = '\x00' then ['\\', '0']
  else if c = '\t' then ['\\', 't']
  else if c = '\n' then ['\\', 'n']
  else if c = '\r' then ['\\', 'r']
  else if c = '"' then ['\\', '"']
  else if c = '\\' then ['\\', '\\']
  else if isCombining c || !isPrintable c then codePoint c
  else [c]

/-- A text between quotes, every character in its quoted form. -/
def quote (text : String) : String :=
  String.ofList ('"' :: text.toList.flatMap quoteChar ++ ['"'])

/-! ### Laws -/

@[simp] theorem toList_quote (text : String) :
    (quote text).toList = '"' :: text.toList.flatMap quoteChar ++ ['"'] := by
  simp [quote]

end ImpFront.Text
