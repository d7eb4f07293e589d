/-
  LambdaSyntax.Command.Run — the command: a source is read from an argument, a file or the
  standard input, and its tree, its tree as JSON or its tokens are printed.

  The exit status is 0 with the result on standard output; 1 with a diagnostic on standard
  error when the source cannot be opened, is refused, or nests too deep for JSON; and 2 when
  the arguments are not taken, with the usage and one line behind it on standard error. A
  source that opens but is not UTF-8, a path that no file can have, a depth that was left
  open, or a number of too many digits to be written ends the command without a report.

  The usage and the help are texts that the host lays out, and how high a tree its JSON
  encoder takes is the host's matter too: all three are parts of a `Host`. For reading there
  is room for every level that the depth allows.

  With `--verbose` the steps of the reading are logged on standard error first.
-/

import LambdaSyntax.Command.Options
import LambdaSyntax.Files
import LambdaSyntax.Parse.Reading
import LambdaSyntax.Tree.Printed
import LambdaSyntax.Tree.Record

namespace LambdaSyntax.Command

def program : String := "funlang-parse"

/-- What the command leaves to its host. -/
structure Host where
  /-- How to call the command, in lines that stand before every refusal. -/
  usage : String
  /-- What `--help` prints. -/
  help : String
  /-- The greatest height of a tree that is encoded as JSON. -/
  jsonHeight : Nat
  deriving DecidableEq, Repr

/-- What the command finds around it. -/
structure Surroundings where
  /-- The standard input. -/
  input : List UInt8
  /-- The bytes of the file that a path names. -/
  bytesAt : String → Except FileFault (List UInt8)

structure Report where
  status : Nat
  output : String
  errors : String
  deriving DecidableEq, Repr

/-- Why the command ends without a report. -/
inductive Failure where
  | unreadable (path : String) (f : FileFault)
  /-- There is no depth to compare with the least one. -/
  | openDepth
  /-- A number has too many digits to be written. -/
  | longNumber
  deriving DecidableEq, Repr

def Failure.message : Failure → String
  | unreadable path f => f.message path
  | openDepth => "'<' not supported between instances of 'list' and 'int'"
  | longNumber =>
    "Exceeds the limit (" ++ toString Text.longest ++ " digits) for integer string conversion; "
      ++ "use sys.set_int_max_str_digits() to increase the limit"

inductive Outcome where
  | done (r : Report)
  | failed (f : Failure)
  deriving DecidableEq, Repr

def success (output : String) : Report := ⟨0, output, ""⟩

def failure (errors : String) : Report := ⟨1, "", errors⟩

variable (host : Host)

def refusal (r : Refusal) : Report :=
  ⟨2, "", host.usage ++ program ++ ": error: " ++ r.message ++ "\n"⟩

/-! ## Where the source comes from -/

/-- A text and the name it goes by in messages. -/
structure Source where
  name : String
  text : String
  deriving DecidableEq, Repr

/-- The path given by `--file`; an empty one counts as none. -/
def Options.path? (o : Options) : Option String := o.file.filter (· ≠ "")

/-- Is the fault reported by the command itself? -/
def reported (f : FileFault) : Option String := f.system?.map (·.2)

def cannotRead (path words : String) : Report :=
  failure ("error: cannot read " ++ path ++ ": " ++ words ++ "\n")

def fileSource (around : Surroundings) (path : String) : Except Outcome Source :=
  match (around.bytesAt path).bind decodeText with
  | .ok text => .ok ⟨path, text⟩
  | .error f =>
    match reported f with
    | some words => .error (.done (cannotRead path words))
    | none => .error (.failed (.unreadable path f))

def source (o : Options) (around : Surroundings) : Except Outcome Source :=
  match o.path?, o.expression with
  | some _, some _ => .error (.done (refusal host .twoSources))
  | some path, none => fileSource around path
  | none, some text => .ok ⟨"<argument>", text⟩
  | none, none =>
    match decodeText around.input with
    | .ok text => .ok ⟨"<stdin>", text⟩
    | .error f => .error (.failed (.unreadable "<stdin>" f))

/-! ## The log -/

def logLine (topic words : String) : String := "DEBUG funlang." ++ topic ++ ": " ++ words ++ "\n"

def logScan (name : String) (s : Scan) : String :=
  logLine "lexer.lexer" ("Tokenized " ++ name ++ " into " ++ toString s.tokens.length ++ " tokens ("
    ++ toString s.errors.length ++ " errors)")

def logRead (g : Goal) (ts : List Token) (t : Tree Span) : String :=
  logLine "parser.parser" ("Parsed " ++ toString (Stream.ofTokens ts).size ++ " tokens into "
    ++ (if g = .type then "type " else "") ++ t.form)

def logRefused (e : SyntaxError) : String :=
  logLine "parser.parser" ("Parse failed at token " ++ toString e.position ++ ": " ++ e.headline)

def logRejected (name : String) : String := logLine "cli" ("Rejected " ++ name)

/-! ## Reading and printing -/

def tokenLine (t : Token) : String := t.loc.text ++ "\t" ++ t.text ++ "\n"

def goal (o : Options) : Goal := if o.type then .type else .expression

/-- The report with a text, if there is one. -/
def reporting (f : String → Report) : Option String → Except Failure Report
  | some text => .ok (f text)
  | none => .error .longNumber

def printLine (text : String) : Report := success (text ++ "\n")

def printTree (o : Options) (name : String) (t : Tree Span) : Except Failure Report :=
  if o.json = false then reporting printLine t.printed?
  else if t.height ≤ host.jsonHeight then reporting printLine t.toRecord.json?
  else .ok (failure ("error: syntax tree of " ++ name ++ " is too deep to encode as JSON\n"))

/-- The report on tokens that were cut without an error, and the log of reading them. -/
def readTree (o : Options) (depth : Int) (name : String) (ts : List Token) :
    String × Except Failure Report :=
  match readTokens (goal o) depth ts with
  | .ok t => (logRead (goal o) ts t, printTree host o name t)
  | .error e => (logRefused e ++ logRejected name, reporting failure e.message?)

def readSource (o : Options) (depth : Int) (s : Source) : String × Except Failure Report :=
  let scan := Scan.ofText s.name s.text
  let log := logScan s.name scan
  match scan.errors with
  | e :: _ => (log ++ logRejected s.name, .ok (failure e.message))
  | [] =>
    if o.tokens then (log, .ok (success (String.join (scan.tokens.map tokenLine))))
    else
      let (more, report) := readTree host o depth s.name scan.tokens
      (log ++ more, report)

/-- Puts the log in front of the errors if it is wanted. -/
def withLog (o : Options) (log : String) (r : Report) : Report :=
  if o.verbose then { r with errors := log ++ r.errors } else r

def perform (o : Options) (around : Surroundings) : Outcome :=
  match o.maxDepth with
  | none => .failed .openDepth
  | some depth =>
    if depth < 1 then .done (refusal host .depthTooSmall)
    else match source host o around with
      | .error outcome => outcome
      | .ok s =>
        match readSource host o depth s with
        | (log, .ok report) => .done (withLog o log report)
        | (_, .error f) => .failed f

def run (arguments : List String) (around : Surroundings) : Outcome :=
  match Options.ofArguments Parse.defaultLimit arguments with
  | .ok o => perform host o around
  | .error .help => .done (success host.help)
  | .error (.refused r) => .done (refusal host r)

end LambdaSyntax.Command
