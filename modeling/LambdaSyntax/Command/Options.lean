/-
  LambdaSyntax.Command.Options — the arguments of the command.

  There are seven options and one optional expression. An argument counts as an option when
  it starts with `-` and names one: in full, by an unambiguous beginning of a long name, or
  by a short name with more behind it. What is attached to a name, behind `=` or right behind
  a short name, is the option's value; attached to the short name of an option that takes no
  value, it is read as further short names, of which the first that takes a value has the
  rest attached. An argument that names no option is an expression all the same if it is `-`
  alone, a negative number, or holds a space; other ones are left over, as are expressions
  after the first. From `--` on nothing is an option.

  The text `--` is never a value: an option that has it attached is given without one, and so
  names no file, or leaves the depth open.

  All arguments are classified first. Then they are taken from left to right, and the first
  one that cannot be taken is reported; what was left over is reported last. An option that
  is given again replaces its value.
-/

import LambdaSyntax.Text.Integer
import LambdaSyntax.Text.Quoted

namespace LambdaSyntax.Command

inductive Switch where
  | help
  | file
  | type
  | tokens
  | json
  | maxDepth
  | verbose
  deriving DecidableEq, Repr

namespace Switch

def all : List Switch := [help, file, type, tokens, json, maxDepth, verbose]

def names : Switch → List String
  | help => ["-h", "--help"]
  | file => ["-f", "--file"]
  | type => ["--type"]
  | tokens => ["--tokens"]
  | json => ["--json"]
  | maxDepth => ["--max-depth"]
  | verbose => ["-v", "--verbose"]

def takesValue : Switch → Bool
  | file | maxDepth => true
  | _ => false

def title (s : Switch) : String := String.intercalate "/" s.names

/-- Every name with its switch, in listing order. -/
def listing : List (String × Switch) := all.flatMap fun s => s.names.map fun n => (n, s)

def named? (name : String) : Option Switch := listing.lookup name

end Switch

structure Options where
  expression : Option String
  file : Option String
  type : Bool
  tokens : Bool
  json : Bool
  /-- Open when the option was given without a number. -/
  maxDepth : Option Int
  verbose : Bool
  deriving DecidableEq, Repr

/-- The options when none is given. -/
def Options.initial (maxDepth : Int) : Options := ⟨none, none, false, false, false, some maxDepth, false⟩

/-- Why the arguments are not taken. -/
inductive Refusal where
  | ambiguous (argument : String) (names : List String)
  | missingValue (s : Switch)
  | ignoredValue (s : Switch) (value : String)
  | notANumber (s : Switch) (value : String)
  | leftOver (arguments : List String)
  | depthTooSmall
  | twoSources
  deriving DecidableEq, Repr

namespace Refusal

def about (s : Switch) (words : String) : String := "argument " ++ s.title ++ ": " ++ words

def message : Refusal → String
  | ambiguous argument names =>
    "ambiguous option: " ++ argument ++ " could match " ++ String.intercalate ", " names
  | missingValue s => about s "expected one argument"
  | ignoredValue s value => about s ("ignored explicit argument " ++ Text.quoted value)
  | notANumber s value => about s ("invalid int value: " ++ Text.quoted value)
  | leftOver arguments => "unrecognized arguments: " ++ String.intercalate " " arguments
  | depthTooSmall => "--max-depth must be at least 1"
  | twoSources => "give either an expression or --file, not both"

end Refusal

/-! ## Classifying -/

inductive Class where
  | plain
  | dashes
  | option (name : String) (s : Switch) (attached : Option String)
  | unknown
  deriving DecidableEq, Repr

/-- The text before the first equals sign, and the one behind it if there is one. -/
def splitEquals (cs : List Char) : List Char × Option (List Char) :=
  match cs.dropWhile (· ≠ '=') with
  | [] => (cs, none)
  | _ :: rest => (cs.takeWhile (· ≠ '='), some rest)

/-- The options that an argument abbreviates: a long one by a beginning of its name, a short
    one by its name with more behind it. -/
def abbreviated (cs : List Char) : List (String × Switch × Option String) :=
  match cs with
  | '-' :: '-' :: _ =>
    let parts := splitEquals cs
    (Switch.listing.filter fun o => parts.1.isPrefixOf o.1.toList).map fun o =>
      (o.1, o.2, parts.2.map String.ofList)
  | a :: b :: tail =>
    (Switch.listing.filter fun o => o.1.toList = [a, b]).map fun o =>
      (o.1, o.2, some (String.ofList tail))
  | _ => []

def allDigits (cs : List Char) : Bool := !cs.isEmpty && cs.all fun c => (Text.digit? c).isSome

def withoutLineEnd (cs : List Char) : List Char := if cs.getLast? = some '\n' then cs.dropLast else cs

/-- A minus sign with digits, or with digits after a point that may have some before it. -/
def isNegativeNumber (cs : List Char) : Bool :=
  match withoutLineEnd cs with
  | '-' :: number =>
    allDigits number ||
      (match number.dropWhile fun c => (Text.digit? c).isSome with
       | '.' :: fraction => allDigits fraction
       | _ => false)
  | _ => false

/-- Classifies an argument that starts with `-` and is no option's name in full. -/
def classifyLong (argument : String) : Except Refusal Class :=
  let cs := argument.toList
  let parts := splitEquals cs
  match parts.2, Switch.named? (String.ofList parts.1) with
  | some v, some s => .ok (.option (String.ofList parts.1) s (some (String.ofList v)))
  | _, _ =>
    match abbreviated cs with
    | [(name, s, attached)] => .ok (.option name s attached)
    | [] => if isNegativeNumber cs || cs.contains ' ' then .ok .plain else .ok .unknown
    | several => .error (.ambiguous argument (several.map (·.1)))

def classify (argument : String) : Except Refusal Class :=
  match argument.toList with
  | '-' :: rest =>
    match Switch.named? argument with
    | some s => .ok (.option argument s none)
    | none => if rest.isEmpty then .ok .plain else classifyLong argument
  | _ => .ok .plain

def classifyAll : List String → Except Refusal (List (String × Class))
  | [] => .ok []
  | argument :: rest =>
    if argument = "--" then .ok ((argument, .dashes) :: rest.map fun a => (a, .plain))
    else
      match classify argument with
      | .error e => .error e
      | .ok c => (classifyAll rest).map ((argument, c) :: ·)

/-! ## Taking -/

/-- The options so far, whether the expression is still to come, and what is left over. -/
structure Taken where
  options : Options
  waiting : Bool
  left : List String
  deriving DecidableEq, Repr

/-- Ends the reading of arguments early. -/
inductive Stop where
  | help
  | refused (r : Refusal)
  deriving DecidableEq, Repr

namespace Taken

def leave (t : Taken) (arguments : List String) : Taken := { t with left := t.left ++ arguments }

def set (t : Taken) (f : Options → Options) : Taken := { t with options := f t.options }

/-- Takes an option that has no value. -/
def flag (t : Taken) : Switch → Except Stop Taken
  | .help => .error .help
  | .type => .ok (t.set fun o => { o with type := true })
  | .tokens => .ok (t.set fun o => { o with tokens := true })
  | .json => .ok (t.set fun o => { o with json := true })
  | .verbose => .ok (t.set fun o => { o with verbose := true })
  | .file | .maxDepth => .ok t

/-- The value in an option's text. -/
def given (v : String) : Option String := if v = "--" then none else some v

/-- Takes an option with its text. -/
def value (t : Taken) (s : Switch) (v : String) : Except Stop Taken :=
  match s, given v with
  | .file, v => .ok (t.set fun o => { o with file := v })
  | .maxDepth, none => .ok (t.set fun o => { o with maxDepth := none })
  | .maxDepth, some v =>
    match Text.integer? v with
    | some n => .ok (t.set fun o => { o with maxDepth := some n })
    | none => .error (.refused (.notANumber s v))
  | _, _ => .ok t

def flags (t : Taken) : List Switch → Except Stop Taken
  | [] => .ok t
  | s :: ss => match t.flag s with
    | .ok t => t.flags ss
    | .error e => .error e

end Taken

/-- What one argument asks for: flags, then perhaps an option with its text, or with none if
    that is the next argument. -/
structure Demand where
  flags : List Switch
  valued : Option (Switch × Option String)
  deriving DecidableEq, Repr

/-- Reads what is attached to the short name of the flag `s`, after the flags `done`. -/
def cluster (s : Switch) (done : List Switch) : List Char → Except Refusal Demand
  | [] => .ok ⟨done ++ [s], none⟩
  | c :: cs =>
    match Switch.named? (String.ofList ['-', c]) with
    | none => .error (.ignoredValue s (String.ofList (c :: cs)))
    | some next =>
      if next.takesValue then
        .ok ⟨done ++ [s], some (next, if cs.isEmpty then none else some (String.ofList cs))⟩
      else cluster next (done ++ [s]) cs

def isShort (name : String) : Bool := name.length = 2

/-- What an option asks for that is given by this name with this text attached. -/
def demand (name : String) (s : Switch) : Option String → Except Refusal Demand
  | none => if s.takesValue then .ok ⟨[], some (s, none)⟩ else .ok ⟨[s], none⟩
  | some v =>
    if s.takesValue then .ok ⟨[], some (s, some v)⟩
    else if isShort name && v ≠ "" then cluster s [] v.toList
    else .error (.ignoredValue s v)

/-- Takes the classified arguments one by one. -/
def take : List (String × Class) → Taken → Except Stop Taken
  | [], t => .ok t
  | (argument, .unknown) :: rest, t => take rest (t.leave [argument])
  | (_, .option name s attached) :: rest, t =>
    match demand name s attached with
    | .error r => .error (.refused r)
    | .ok d =>
      match d.valued, rest with
      | none, rest => (t.flags d.flags).bind (take rest)
      | some (s, some v), rest =>
        ((t.flags d.flags).bind (·.value s v)).bind (take rest)
      | some (s, none), (v, .plain) :: rest =>
        ((t.flags d.flags).bind (·.value s v)).bind (take rest)
      | some (s, none), _ => .error (.refused (.missingValue s))
  | (argument, .plain) :: rest, t =>
    if t.waiting then
      let t := { t with waiting := false }.set fun o => { o with expression := some argument }
      match rest with
      | (_, .dashes) :: rest => take rest t
      | rest => take rest t
    else take rest (t.leave [argument])
  | (argument, .dashes) :: rest, t =>
    if t.waiting then
      let t := { t with waiting := false }
      match rest with
      | (value, .plain) :: rest => take rest (t.set fun o => { o with expression := some value })
      | rest => take rest t
    else take rest (t.leave [argument])

/-- The options that some arguments ask for, when `maxDepth` is the depth by default. -/
def Options.ofArguments (maxDepth : Int) (arguments : List String) : Except Stop Options :=
  match classifyAll arguments with
  | .error r => .error (.refused r)
  | .ok classified =>
    match take classified ⟨.initial maxDepth, true, []⟩ with
    | .error e => .error e
    | .ok t => if t.left.isEmpty then .ok t.options else .error (.refused (.leftOver t.left))

end LambdaSyntax.Command
