import Turnstile.Text.Blank

/-!
# Quoted text

Text is shown between single quotes, or between double quotes when it holds single quotes and no
double ones.  The quote in use and the backslash are escaped by a backslash, tabs and line ends by
a letter, and other characters without a visible form by the hexadecimal digits of their code.
-/

namespace Turnstile

namespace Quoted

def hexDigit (n : Nat) : Char :=
  if n < 10 then Char.ofNat ('0'.toNat + n) else Char.ofNat ('a'.toNat + (n - 10))

def hexDigits : (width : Nat) → (n : Nat) → List Char
  | 0, _ => []
  | width + 1, n => hexDigits width (n / 16) ++ [hexDigit (n % 16)]

/-- The shortest of the three escapes that has room for a code: two digits after `x`, four after
`u` or eight after `U`. -/
def escapeCode (code : Nat) : List Char :=
  if code < 0x100 then '\\' :: 'x' :: hexDigits 2 code
  else if code < 0x10000 then '\\' :: 'u' :: hexDigits 4 code
  else '\\' :: 'U' :: hexDigits 8 code

def escape (quote c : Char) : List Char :=
  if c = quote ∨ c = '\\' then ['\\', c]
  else if c = '\t' then ['\\', 't']
  else if c = '\n' then ['\\', 'n']
  else if c = '\r' then ['\\', 'r']
  else if isBlank c then escapeCode c.toNat
  else [c]

def quoteOf (cs : List Char) : Char :=
  if cs.contains '\'' && !cs.contains '"' then '"' else '\''

end Quoted

def quoted (s : String) : String :=
  let cs := s.toList
  let quote := Quoted.quoteOf cs
  String.ofList (quote :: (cs.flatMap (Quoted.escape quote) ++ [quote]))

def quotedList (texts : List String) : String :=
  "[" ++ ", ".intercalate (texts.map quoted) ++ "]"

end Turnstile
