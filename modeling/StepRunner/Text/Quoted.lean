import StepRunner.Number.Decimal

/-!
# Quoted texts

How a message quotes a value that it complains about. The quotes are single, unless the text holds
a single quote and no double one. The quote and the backslash are escaped, and so is every
character that is not printable: tab, line feed and carriage return by a letter, the others by
their code point in two, four or eight hexadecimal digits.
-/

namespace StepRunner.Text

open Number

/-- The quote that encloses a text. -/
def quoteFor (cs : List Char) : Char :=
  if cs.contains '\'' && !cs.contains '"' then '"' else '\''

/-- One character inside quotes. -/
def quoteChar (quote c : Char) : List Char :=
  if c = quote ∨ c = '\\' then ['\\', c]
  else if c = '\t' then ['\\', 't']
  else if c = '\n' then ['\\', 'n']
  else if c = '\r' then ['\\', 'r']
  else if isPrintable c then [c]
  else if c.toNat < 0x100 then '\\' :: 'x' :: hexadecimal 2 c.toNat
  else if c.toNat < 0x10000 then '\\' :: 'u' :: hexadecimal 4 c.toNat
  else '\\' :: 'U' :: hexadecimal 8 c.toNat

/-- The text in quotes. -/
def quoted (cs : List Char) : List Char :=
  quoteFor cs :: cs.flatMap (quoteChar (quoteFor cs)) ++ [quoteFor cs]

/-- The string in quotes. -/
def quote (s : String) : String := String.ofList (quoted s.toList)

end StepRunner.Text
