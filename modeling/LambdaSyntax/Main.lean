/-
  LambdaSyntax.Main — the command as a program: it reads the standard input or the file that
  is asked for, and prints what `Command.run` reports. The usage and the help are laid out for
  80 columns.
-/

import LambdaSyntax.Command.Run

open LambdaSyntax LambdaSyntax.Command

def usageText : String :=
  "usage: " ++ program ++ " [-h] [-f FILE] [--type] [--tokens] [--json]\n"
    ++ "                     [--max-depth MAX_DEPTH] [-v]\n"
    ++ "                     [expression]\n"

def helpText : String :=
  usageText ++ "\nParse a funlang expression and print its syntax tree\n\n"
    ++ "positional arguments:\n"
    ++ "  expression            Source text to parse (default: read stdin)\n\n"
    ++ "options:\n"
    ++ "  -h, --help            show this help message and exit\n"
    ++ "  -f FILE, --file FILE  Read source text from FILE\n"
    ++ "  --type                Parse the input as a type annotation\n"
    ++ "  --tokens              Print the token stream instead of the tree\n"
    ++ "  --json                Print the tree as JSON\n"
    ++ "  --max-depth MAX_DEPTH\n"
    ++ "                        Maximum nesting depth (default: " ++ toString Parse.defaultLimit ++ ")\n"
    ++ "  -v, --verbose         Enable debug logging\n\n"
    ++ "Examples:\n"
    ++ "    " ++ program ++ " '1 + 2 * 3'                       # (+ 1 (* 2 3))\n"
    ++ "    " ++ program ++ " --type 'int -> int -> bool'       # int -> int -> bool\n"
    ++ "    " ++ program ++ " --json -f program.fun             # JSON tree of a file\n"
    ++ "    echo 'f x + 1' | " ++ program ++ "                  # read from stdin\n"
    ++ "        \n"

/-- The height of trees is bounded only because the host's encoder recurses. -/
def plainHost : Host := ⟨usageText, helpText, 1000⟩

/-- The fault behind an error of the system. -/
def faultOf : IO.Error → FileFault
  | .inappropriateType _ code _ => if code = 21 then .isDirectory else .notDirectory
  | .invalidArgument .. => .nameTooLong
  | _ => .missing

def fileBytes (path : String) : IO (Except FileFault (List UInt8)) := do
  try
    let bytes ← IO.FS.readBinFile path
    return .ok bytes.toList
  catch e => return .error (faultOf e)

/-- What the command finds when it is called with these options. -/
def surroundings (o : Options) : IO Surroundings := do
  match o.path?, o.expression with
  | some path, none =>
    let bytes ← fileBytes path
    return ⟨[], fun _ => bytes⟩
  | none, none =>
    let bytes ← (← IO.getStdin).readBinToEnd
    return ⟨bytes.toList, fun _ => .error .missing⟩
  | _, _ => return ⟨[], fun _ => .error .missing⟩

def main (arguments : List String) : IO UInt32 := do
  let around ← match Options.ofArguments Parse.defaultLimit arguments with
    | .ok o => surroundings o
    | .error _ => pure ⟨[], fun _ => .error .missing⟩
  match run plainHost arguments around with
  | .done r =>
    IO.print r.output
    IO.eprint r.errors
    return r.status.toUInt32
  | .failed f =>
    IO.eprintln f.message
    return 1
