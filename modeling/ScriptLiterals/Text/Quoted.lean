import ScriptLiterals.Text.Printable

/-!
Quoted texts, as messages and listings show them: between single quotes, or between double quotes
when the text holds a single quote and no double one. The backslash, the quote in use, line feed,
carriage return and tab are written with a backslash; other characters that are not printable by
their code.
-/

namespace ScriptLiterals.Text

def hexDigits : Nat → Nat → Text
  | 0, _ => []
  | count + 1, n => hexDigits count (n / 16) ++ [Nat.digitChar (n % 16)]

def escapedByCode (c : Char) : Text :=
  if c.toNat < 0x100 then '\\' :: 'x' :: hexDigits 2 c.toNat
  else if c.toNat < 0x10000 then '\\' :: 'u' :: hexDigits 4 c.toNat
  else '\\' :: 'U' :: hexDigits 8 c.toNat

def escaped (quote c : Char) : Text :=
  if c = quote || c = '\\' then ['\\', c]
  else if c = '\n' then ['\\', 'n']
  else if c = '\r' then ['\\', 'r']
  else if c = '\t' then ['\\', 't']
  else if isPrintable c then [c]
  else escapedByCode c

def quoteFor (text : Text) : Char :=
  if '\x27' ∈ text && '\x22' ∉ text then '\x22' else '\x27'

def quoted (text : Text) : Text :=
  quoteFor text :: text.flatMap (escaped (quoteFor text)) ++ [quoteFor text]

def quotedGroup (texts : List Text) : Text :=
  '(' :: joined [',', ' '] (texts.map quoted) ++ if texts.length = 1 then [',', ')'] else [')']

end ScriptLiterals.Text
