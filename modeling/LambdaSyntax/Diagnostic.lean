/-
  LambdaSyntax.Diagnostic — a message with its place, for a person to read: a headline
  with the severity in capitals, the location, and under them the help and the list of
  suggestions, each only when there is something to say.
-/

import LambdaSyntax.Location

namespace LambdaSyntax

structure Diagnostic where
  message : String
  loc : Location
  severity : String
  code : Option String
  help : Option String
  suggestions : Option (List String)
  deriving DecidableEq, Repr, Inhabited

namespace Diagnostic

def helpText (d : Diagnostic) : String :=
  match d.help with
  | some h => if h = "" then "" else "  help: " ++ h ++ "\n"
  | none => ""

def suggestionText (s : String) : String := "    - " ++ s ++ "\n"

def suggestionsText (d : Diagnostic) : String :=
  match d.suggestions with
  | some (s :: ss) => "  suggestions:\n" ++ String.join ((s :: ss).map suggestionText)
  | _ => ""

def render (d : Diagnostic) : String :=
  d.severity.map Char.toUpper ++ ": " ++ d.message ++ "\n"
    ++ "  --> " ++ d.loc.text ++ "\n"
    ++ d.helpText ++ d.suggestionsText

end Diagnostic

end LambdaSyntax
