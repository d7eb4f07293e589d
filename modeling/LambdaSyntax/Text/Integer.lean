/-
  LambdaSyntax.Text.Integer — integers as a person types them, and as they are written.

  `integer?` reads blanks, an optional sign, digits and blanks again. Digits are those of
  any script (Unicode 14, category Nd), and one underscore may stand between two digits.
  Of the blank characters the information separators U+001C to U+001F do not count here.

  A number of more than `longest` digits is neither read nor written: zeros in front count
  when it is read, and `numeral?` has no text for it.
-/

import LambdaSyntax.Text.Blank

namespace LambdaSyntax.Text

/-- The digit zero of each script; the other nine digits follow it. -/
def zeros : List Nat :=
  [0x30, 0x660, 0x6f0, 0x7c0, 0x966, 0x9e6, 0xa66, 0xae6, 0xb66, 0xbe6, 0xc66, 0xce6, 0xd66, 0xde6,
   0xe50, 0xed0, 0xf20, 0x1040, 0x1090, 0x17e0, 0x1810, 0x1946, 0x19d0, 0x1a80, 0x1a90, 0x1b50,
   0x1bb0, 0x1c40, 0x1c50, 0xa620, 0xa8d0, 0xa900, 0xa9d0, 0xa9f0, 0xaa50, 0xabf0, 0xff10, 0x104a0,
   0x10d30, 0x11066, 0x110f0, 0x11136, 0x111d0, 0x112f0, 0x11450, 0x114d0, 0x11650, 0x116c0,
   0x11730, 0x118e0, 0x11950, 0x11c50, 0x11d50, 0x11da0, 0x16a60, 0x16ac0, 0x16b50, 0x1d7ce,
   0x1d7d8, 0x1d7e2, 0x1d7ec, 0x1d7f6, 0x1e140, 0x1e2f0, 0x1e950, 0x1fbf0]
def digit? (c : Char) : Option Nat :=
  (zeros.find? fun z => z ≤ c.toNat && c.toNat < z + 10).map (c.toNat - ·)

def isPadding (c : Char) : Bool := isBlank c && !(0x1c ≤ c.toNat && c.toNat ≤ 0x1f)

def trim (cs : List Char) : List Char :=
  ((cs.dropWhile isPadding).reverse.dropWhile isPadding).reverse

/-- The digits of a text in which every underscore stands between two of them; `fresh`
    says that a digit has to come next. -/
def digits? : Bool → List Char → Option (List Nat)
  | fresh, [] => if fresh then none else some []
  | fresh, c :: cs =>
    if c = '_' then if fresh then none else digits? true cs
    else match digit? c with
      | some d => (digits? false cs).map (d :: ·)
      | none => none

def ofDigits (ds : List Nat) : Nat := ds.foldl (fun n d => 10 * n + d) 0

def longest : Nat := 4300

def natural? (cs : List Char) : Option Nat :=
  match digits? true cs with
  | some ds => if ds.length ≤ longest then some (ofDigits ds) else none
  | none => none

def integer? (s : String) : Option Int :=
  match trim s.toList with
  | '-' :: cs => (natural? cs).map fun n : Nat => -(n : Int)
  | '+' :: cs => (natural? cs).map Int.ofNat
  | cs => (natural? cs).map Int.ofNat

/-- Has the number at most `longest` digits? -/
def isShort (n : Int) : Bool := n.natAbs < Nat.pow 10 longest

def numeral? (n : Int) : Option String := if isShort n then some (toString n) else none

end LambdaSyntax.Text
