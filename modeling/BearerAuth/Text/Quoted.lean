import BearerAuth.Text.Unprintable

/-!
# Quoted texts

The way in which messages show a text that a caller supplied: between double quotes, with a
backslash before quotes and backslashes, short escapes for tab, line feed, carriage return and the
null character, and the code point in braces for whatever else cannot be seen.
-/

namespace BearerAuth.Text

/-- A number in lower-case hexadecimal, without leading zeros. -/
def hex (n : Nat) : List Char :=
  Nat.toDigits 16 n

/-- The characters that show one character. -/
def quoteChar (c : Char) : List Char :=
  if c = '"' then ['\\', '"']
  else if c = '\\' then ['\\', '\\']
  else if c = '\t' then ['\\', 't']
  else if c = '\n' then ['\\', 'n']
  else if c = '\r' then ['\\', 'r']
  else if c = Char.ofNat 0 then ['\\', '0']
  else if isUnprintable c then ['\\', 'u', '\x7b'] ++ hex c.toNat ++ ['\x7d']
  else [c]

/-- A text as a message shows it. -/
def quoted (s : String) : String :=
  String.ofList ('"' :: s.toList.flatMap quoteChar ++ ['"'])

/-- A list of texts as a message shows it, between the given brackets. -/
def quotedList (opening closing : String) (ss : List String) : String :=
  opening ++ ", ".intercalate (ss.map quoted) ++ closing

end BearerAuth.Text
