import PatternSampler.Unicode.Unprintable

/-! # Showing characters in messages

  How a character or a text is shown inside a message: characters with a visible form stand
  for themselves, the others are written as an escape, so that a message is always one
  readable line.

  - NUL, tab, carriage return and line feed have letters of their own: `\0 \t \r \n`;
  - the backslash is doubled;
  - other characters without a form of their own are written by number, `\u` and the
    hexadecimal digits in braces;
  - quotes are escaped as far as the surrounding text needs it.
-/

namespace PatternSampler.Text

/-- Which quotes are written with a backslash. -/
structure Quoting where
  /-- Escape the apostrophe. -/
  single : Bool
  /-- Escape the double quote. -/
  double : Bool

/-- A number in hexadecimal, in small letters and without leading zeros. -/
def hex (n : Nat) : String := String.ofList (Nat.toDigits 16 n)

/-- A character as an escape where it needs one. -/
def escapeChar (quoting : Quoting) (c : Char) : String :=
  if c = '\x00' then "\\0"
  else if c = '\t' then "\\t"
  else if c = '\r' then "\\r"
  else if c = '\n' then "\\n"
  else if c = '\\' then "\\\\"
  else if c = '"' then if quoting.double then "\\\"" else "\""
  else if c = '\x27' then if quoting.single then "\\'" else "'"
  else if Symbol.ofChar c ∈ Unicode.unprintable then "\\u\x7b" ++ hex c.toNat ++ "\x7d"
  else c.toString

/-- A character shown on its own: both quotes are escaped. -/
def shown (c : Char) : String := escapeChar ⟨true, true⟩ c

/-- A text between double quotes; inside, an apostrophe stands for itself. -/
def quoted (s : String) : String :=
  "\"" ++ String.join (s.toList.map (escapeChar ⟨false, true⟩)) ++ "\""

end PatternSampler.Text
