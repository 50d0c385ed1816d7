/-!
This module contains the grammar of command lines. An option has a long name and may have a short one of
one letter. Its value follows in the next argument or is attached to its name, and short options without
a value may share a dash. After two dashes everything is positional.
-/

namespace PadRelay.CommandLine

inductive OptionKind where
  /-- It has no value and may be given any number of times. -/
  | count
  | once
  /-- It has a value that has to be accepted, and may be given once. -/
  | value (accepts : String → Bool)

structure OptionSpec where
  long : String
  short : Option Char := none
  kind : OptionKind

/--
A grammar. All positional arguments have to be there.
-/
structure Grammar where
  positionals : List (String → Bool) := []
  options : List OptionSpec := []

structure Arguments where
  positionals : List String := []
  /-- The long names of the options with their values, first one first. -/
  options : List (String × String) := []
deriving DecidableEq, Repr

namespace Arguments

def count (a : Arguments) (long : String) : Nat :=
  (a.options.filter fun o => o.1 == long).length

def has (a : Arguments) (long : String) : Bool :=
  a.options.any fun o => o.1 == long

def value? (a : Arguments) (long : String) : Option String :=
  a.options.lookup long

def positional (a : Arguments) (i : Nat) : String :=
  a.positionals.getD i ""

def addOption? (a : Arguments) (spec : OptionSpec) (value : String) : Option Arguments :=
  let added := { a with options := a.options ++ [(spec.long, value)] }
  match spec.kind with
  | .count => some added
  | .once => if a.has spec.long then none else some added
  | .value accepts => if a.has spec.long || !accepts value then none else some added

end Arguments

inductive Reading where
  | help
  | rejected
  | accepted (a : Arguments)
deriving DecidableEq, Repr

inductive DashReading where
  | help
  | rejected
  | added (a : Arguments)
  /-- The value of the option is still to come. -/
  | needsValue (spec : OptionSpec)

namespace Grammar

def long? (g : Grammar) (name : String) : Option OptionSpec :=
  g.options.find? fun spec => spec.long == name

def short? (g : Grammar) (name : Char) : Option OptionSpec :=
  g.options.find? fun spec => spec.short == some name

def add (a : Arguments) (spec : OptionSpec) (value : String) : DashReading :=
  match a.addOption? spec value with
  | none => .rejected
  | some a => .added a

/--
Reads a long option without its dashes. Only an option that has a value may have one attached.
-/
def readLong (g : Grammar) (a : Arguments) (text : List Char) : DashReading :=
  let name := String.ofList (text.takeWhile (· != '='))
  match text.dropWhile (· != '=') with
  | [] =>
    if name = "help" then .help
    else
      match g.long? name with
      | none => .rejected
      | some spec =>
        match spec.kind with
        | .value _ => .needsValue spec
        | _ => add a spec ""
  | _ :: value =>
    match g.long? name with
    | none => .rejected
    | some spec =>
      match spec.kind with
      | .value _ => add a spec (.ofList value)
      | _ => .rejected

/--
Reads short options without their dash. The first one that has a value takes the rest, which may start
with an equals sign.
-/
def readShorts (g : Grammar) : List Char → Arguments → DashReading
  | [], a => .added a
  | c :: rest, a =>
    if c = 'h' then .help
    else
      match g.short? c with
      | none => .rejected
      | some spec =>
        match spec.kind with
        | .value _ =>
          match rest with
          | [] => .needsValue spec
          | '=' :: value => add a spec (.ofList value)
          | value => add a spec (.ofList value)
        | _ =>
          match a.addOption? spec "" with
          | none => .rejected
          | some a => readShorts g rest a

def addPositional? (g : Grammar) (a : Arguments) (text : String) : Option Arguments :=
  match g.positionals[a.positionals.length]? with
  | none => none
  | some accepts =>
    if accepts text then some { a with positionals := a.positionals ++ [text] } else none

def finish (g : Grammar) (a : Arguments) : Reading :=
  if a.positionals.length < g.positionals.length then .rejected else .accepted a

def readPositionals (g : Grammar) : List String → Arguments → Reading
  | [], a => g.finish a
  | text :: rest, a =>
    match g.addPositional? a text with
    | none => .rejected
    | some a => readPositionals g rest a

/--
Whether an argument starts like an option. A single dash is an ordinary text.
-/
def isDashed (text : String) : Bool :=
  match text.toList with
  | '-' :: _ :: _ => true
  | _ => false

/--
Reads arguments. `pending` is the option whose value is still to come; no value starts like an option.
-/
def readArguments (g : Grammar) : (pending : Option OptionSpec) → List String → Arguments → Reading
  | some _, [], _ => .rejected
  | none, [], a => g.finish a
  | some spec, text :: rest, a =>
    if isDashed text then .rejected
    else
      match a.addOption? spec text with
      | none => .rejected
      | some a => readArguments g none rest a
  | none, text :: rest, a =>
    if text = "--" then readPositionals g rest a
    else if isDashed text then
      let read :=
        match text.toList with
        | '-' :: '-' :: name => g.readLong a name
        | cs => g.readShorts (cs.drop 1) a
      match read with
      | .help => .help
      | .rejected => .rejected
      | .added a => readArguments g none rest a
      | .needsValue spec => readArguments g (some spec) rest a
    else
      match g.addPositional? a text with
      | none => .rejected
      | some a => readArguments g none rest a

def read (g : Grammar) (arguments : List String) : Reading :=
  g.readArguments none arguments {}

end Grammar

def readDecimal? (cs : List Char) : Option Nat :=
  if cs ≠ [] ∧ cs.all Char.isDigit then
    some (cs.foldl (fun n c => n * 10 + (c.toNat - '0'.toNat)) 0)
  else
    none

/--
The integer that a text stands for. It may have a sign.
-/
def readInteger? (text : String) : Option Int :=
  match text.toList with
  | '-' :: digits => (readDecimal? digits).map fun n => -(n : Int)
  | '+' :: digits => (readDecimal? digits).map Int.ofNat
  | digits => (readDecimal? digits).map Int.ofNat

def readIntegerWithin? (low high : Int) (text : String) : Option Int :=
  (readInteger? text).filter fun n => low ≤ n && n ≤ high

def readPort? (text : String) : Option UInt16 :=
  (readIntegerWithin? 0 65535 text).map fun n => UInt16.ofNat n.toNat

def verboseOption : OptionSpec :=
  { long := "verbose", short := some 'v', kind := .count }

def configOption : OptionSpec :=
  { long := "config", short := some 'c', kind := .value (· != "") }

end PadRelay.CommandLine
