/-
  LambdaSyntax.Text.Blank — the characters that separate lexemes and carry no meaning.

  These are the characters of Unicode's bidirectional classes WS, B and S together
  with the spaces of category Zs. Two characters outside ASCII that look empty, the
  zero-width space U+200B and the byte order mark U+FEFF, are not blank.
-/

namespace LambdaSyntax.Text

def blankRanges : List (Nat × Nat) :=
  [(0x9, 0xd), (0x1c, 0x20), (0x85, 0x85), (0xa0, 0xa0), (0x1680, 0x1680), (0x2000, 0x200a),
   (0x2028, 0x2029), (0x202f, 0x202f), (0x205f, 0x205f), (0x3000, 0x3000)]

/-- Does `n` lie in one of the closed ranges? -/
def inRanges (ranges : List (Nat × Nat)) (n : Nat) : Bool :=
  ranges.any fun r => r.1 ≤ n && n ≤ r.2

def isBlank (c : Char) : Bool := inRanges blankRanges c.toNat

end LambdaSyntax.Text
