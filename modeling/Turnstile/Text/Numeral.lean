/-!
# Whole numbers as text

A whole number is written in decimal digits of any script.  A sign may stand in front of it,
single underscores may stand between its digits, and white space around it is ignored.  There is
a limit to the number of its digits.

## Main definitions

* `Numeral.ofText` - the number that a text stands for.
-/

namespace Turnstile
namespace Numeral

/-- The code points of all zeros, as of version 14 of the character database.  The other nine
digits of a script follow its zero. -/
def zeros : List Nat :=
  [0x30, 0x660, 0x6f0, 0x7c0, 0x966, 0x9e6, 0xa66, 0xae6, 0xb66, 0xbe6, 0xc66, 0xce6, 0xd66,
    0xde6, 0xe50, 0xed0, 0xf20, 0x1040, 0x1090, 0x17e0, 0x1810, 0x1946, 0x19d0, 0x1a80, 0x1a90,
    0x1b50, 0x1bb0, 0x1c40, 0x1c50, 0xa620, 0xa8d0, 0xa900, 0xa9d0, 0xa9f0, 0xaa50, 0xabf0,
    0xff10, 0x104a0, 0x10d30, 0x11066, 0x110f0, 0x11136, 0x111d0, 0x112f0, 0x11450, 0x114d0,
    0x11650, 0x116c0, 0x11730, 0x118e0, 0x11950, 0x11c50, 0x11d50, 0x11da0, 0x16a60, 0x16ac0,
    0x16b50, 0x1d7ce, 0x1d7d8, 0x1d7e2, 0x1d7ec, 0x1d7f6, 0x1e140, 0x1e2f0, 0x1e950, 0x1fbf0]

def digit? (c : Char) : Option Nat :=
  (zeros.find? fun first => decide (first ≤ c.toNat) && decide (c.toNat < first + 10)).map
    fun first => c.toNat - first

/-- White space, which does not include the four separators of information. -/
def isSpace (c : Char) : Bool :=
  let n := c.toNat
  (9 ≤ n && n ≤ 13) || n == 0x20 || n == 0x85 || n == 0xa0 || n == 0x1680 ||
    (0x2000 ≤ n && n ≤ 0x200a) || n == 0x2028 || n == 0x2029 || n == 0x202f || n == 0x205f ||
    n == 0x3000

def trim (cs : List Char) : List Char :=
  ((cs.dropWhile isSpace).reverse.dropWhile isSpace).reverse

inductive Defect where
  | malformed
  | tooLong (digits : Nat)
  deriving DecidableEq

def digitLimit : Nat :=
  4300

/-- The digits at the head of a text and the rest of it.  A single underscore in front of a digit
is passed over.  The digits before them are given, the last one first. -/
def digits (before : List Nat) : List Char → List Nat × List Char
  | '_' :: c :: rest =>
      match digit? c with
      | some digit => digits (digit :: before) rest
      | none => (before.reverse, '_' :: c :: rest)
  | c :: rest =>
      match digit? c with
      | some digit => digits (digit :: before) rest
      | none => (before.reverse, c :: rest)
  | [] => (before.reverse, [])

/-- A number without a sign.  An underscore is only in place between two digits.  The number of
digits is looked at before anything that follows them. -/
def unsigned (cs : List Char) : Except Defect Nat :=
  let (read, rest) := digits [] cs
  if read.isEmpty || cs.head? == some '_' || rest.head? == some '_' then .error .malformed
  else if digitLimit < read.length then .error (.tooLong read.length)
  else if rest.isEmpty then .ok (read.foldl (fun value digit => 10 * value + digit) 0)
  else .error .malformed

def signed : List Char → Except Defect Int
  | '-' :: cs => (unsigned cs).map fun n => -(n : Int)
  | '+' :: cs => (unsigned cs).map Int.ofNat
  | cs => (unsigned cs).map Int.ofNat

def ofText (text : String) : Except Defect Int :=
  signed (trim text.toList)

example : signed (trim [' ', '-', '1', '_', '2', '\n']) = .ok (-12) := by rfl

example : signed (trim ['1', '_', '_', '2']) = .error .malformed := by rfl

end Numeral
end Turnstile
