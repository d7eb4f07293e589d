/-
  LambdaSyntax.Text.Lines — line ends: text that comes from outside may end its lines by
  a line feed, a carriage return or both in turn, and is read with line feeds only.
-/

namespace LambdaSyntax.Text

def lineFeeds : List Char → List Char
  | [] => []
  | '\r' :: '\n' :: rest => '\n' :: lineFeeds rest
  | '\r' :: rest => '\n' :: lineFeeds rest
  | c :: rest => c :: lineFeeds rest

end LambdaSyntax.Text
