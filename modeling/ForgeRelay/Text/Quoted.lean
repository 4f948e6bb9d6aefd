import ForgeRelay.Text.Unprintable

/-!
# Quoted texts in diagnostics

Diagnostic texts show a string between double quotes.  The quote, the backslash, tab, the line
ends and NUL have an escape of two characters; every other unprintable character is written by its
number, as `\u` and lower case hexadecimal digits between braces.  The rest stands for itself.
-/

namespace ForgeRelay.Quoted

def openBrace : Char := '\x7b'
def closeBrace : Char := '\x7d'

def escape (c : Char) : List Char :=
  if c = '\x00' then ['\\', '0']
  else if c = '\t' then ['\\', 't']
  else if c = '\n' then ['\\', 'n']
  else if c = '\r' then ['\\', 'r']
  else if c = '"' then ['\\', '"']
  else if c = '\\' then ['\\', '\\']
  else if 0x20 ≤ c.toNat ∧ c.toNat < 0x7f then [c]
  else if isUnprintable c then
    ['\\', 'u', openBrace] ++ Nat.toDigits 16 c.toNat ++ [closeBrace]
  else [c]

/-- the text of `s` between quotes -/
def quote (s : String) : String :=
  String.ofList ('"' :: s.toList.flatMap escape ++ ['"'])

/-- a record shown by its name and its fields, each already shown -/
def record (name : String) (fields : List (String × String)) : String :=
  name ++ " \x7b " ++ ", ".intercalate (fields.map fun f => f.1 ++ ": " ++ f.2) ++ " \x7d"

end ForgeRelay.Quoted
