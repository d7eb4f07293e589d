/-
  LambdaSyntax.Location — where a piece of text stands: a file name, a line and a
  column counted from one, and an offset in characters from the start of the text.

  A `Span` runs from the location where its first token starts to the location where
  its last token starts; `Span.cover` is the span of two parts read as one.

  Both have a short text for messages; `Location.detail` shows every field.
-/

import LambdaSyntax.Text.Quoted

namespace LambdaSyntax

structure Location where
  file : String
  line : Int
  column : Int
  offset : Int
  deriving DecidableEq, Repr, Inhabited

namespace Location

def text (l : Location) : String := l.file ++ ":" ++ toString l.line ++ ":" ++ toString l.column

def detail (l : Location) : String :=
  "SourceLocation(" ++ Text.quoted l.file ++ ", " ++ toString l.line ++ ", " ++ toString l.column
    ++ ", " ++ toString l.offset ++ ")"

/-- The place `width` characters further along the same line. -/
def shift (l : Location) (width : Nat) : Location :=
  { l with column := l.column + width, offset := l.offset + width }

end Location

structure Span where
  start : Location
  stop : Location
  deriving DecidableEq, Repr, Inhabited

namespace Span

/-- The span of a single token. -/
def point (l : Location) : Span := ⟨l, l⟩

def cover (a b : Span) : Span := ⟨a.start, b.stop⟩

/-- A file name common to both ends is written once. -/
def text (s : Span) : String :=
  if s.start.file = s.stop.file then
    s.start.text ++ "-" ++ toString s.stop.line ++ ":" ++ toString s.stop.column
  else s.start.text ++ "-" ++ s.stop.text

end Span

end LambdaSyntax
