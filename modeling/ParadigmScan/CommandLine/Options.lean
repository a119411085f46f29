import ParadigmScan.CommandLine.Suggestion
import ParadigmScan.FileTree.Resolve
import ParadigmScan.Table

/-!
This module contains the options of the command line: how they are written, which mistakes can be made, and
what is asked of their values.
-/

namespace ParadigmScan

namespace CommandLine

inductive Flag where
  | exclude
  | json
  | output
  | config
  | verbose
  | quiet
  | version
  | help
  deriving DecidableEq, Repr, Inhabited

namespace Flag

def all : List Flag := [exclude, json, output, config, verbose, quiet, version, help]

def long : Flag → String
  | exclude => "--exclude"
  | json => "--json"
  | output => "--output"
  | config => "--config"
  | verbose => "--verbose"
  | quiet => "--quiet"
  | version => "--version"
  | help => "--help"

def letter? : Flag → Option Char
  | exclude => some 'e'
  | output => some 'o'
  | config => some 'c'
  | verbose => some 'v'
  | quiet => some 'q'
  | _ => none

def takesValue : Flag → Bool
  | exclude | output | config => true
  | _ => false

def ofLong? (text : String) : Option Flag := all.find? (·.long == text)

def ofLetter? (letter : Char) : Option Flag := all.find? (·.letter? == some letter)

def short (letter : Char) : String := String.ofList ['-', letter]

def spellings : List String :=
  all.flatMap fun flag => flag.long :: (flag.letter?.map short).toList

def label (flag : Flag) : String :=
  " / ".intercalate ((flag.long :: (flag.letter?.map short).toList).map Text.quoted)

end Flag

inductive UsageError where
  | noSuchOption (name : String) (suggestions : List String)
  | missingValue (name : String)
  | unexpectedValue (name : String)
  | extraArguments (arguments : List String)
  /-- The parameter with this label has a value that it cannot have. -/
  | invalidValue (label reason : String)
  deriving DecidableEq, Repr, Inhabited

namespace UsageError

def message : UsageError → String
  | noSuchOption name [] => s!"No such option: {name}"
  | noSuchOption name suggestions =>
    let sorted := ", ".intercalate (suggestions.mergeSort (. ≤ ·))
    s!"No such option: {name} (Possible options: {sorted})"
  | missingValue name => s!"Option {Text.quoted name} requires an argument."
  | unexpectedValue name => s!"Option {Text.quoted name} does not take a value."
  | extraArguments arguments =>
    let joined := " ".intercalate arguments
    s!"Got unexpected extra argument(s) ({joined})"
  | invalidValue label reason => s!"Invalid value for {label}: {reason}"

end UsageError

/--
A command line cut into options with their values and the other arguments, each in order.
-/
structure Arguments where
  flags : List (Flag × String) := []
  others : List String := []
  deriving DecidableEq, Repr, Inhabited

namespace Arguments

def addFlag (arguments : Arguments) (flag : Flag) (value : String) : Arguments :=
  { arguments with flags := arguments.flags ++ [(flag, value)] }

def addOthers (arguments : Arguments) (others : List String) : Arguments :=
  { arguments with others := arguments.others ++ others }

def value? (arguments : Arguments) (flag : Flag) : Option String :=
  (arguments.flags.reverse.find? (·.1 == flag)).map (·.2)

def has (arguments : Arguments) (flag : Flag) : Bool :=
  arguments.flags.any (·.1 == flag)

end Arguments

/--
Reads the letters behind a single dash. The first one that takes a value takes the letters behind it, or
else the next argument. Returns the options and the arguments that are left.
-/
def readLetters (rest : List String) : List Char → Arguments →
    Except UsageError (Arguments × List String)
  | [], read => .ok (read, rest)
  | letter :: letters, read =>
    match Flag.ofLetter? letter with
    | none => .error (.noSuchOption (Flag.short letter) [])
    | some flag =>
      if flag.takesValue then
        match letters, rest with
        | [], [] => .error (.missingValue (Flag.short letter))
        | [], value :: rest => .ok (read.addFlag flag value, rest)
        | letters, rest => .ok (read.addFlag flag (String.ofList letters), rest)
      else
        readLetters rest letters (read.addFlag flag "")

def cutValue (argument : String) : String × Option String :=
  let name := argument.toList.takeWhile (. != '=')
  match argument.toList.drop name.length with
  | [] => (argument, none)
  | _ :: value => (String.ofList name, some (String.ofList value))

def readLong (argument : String) (rest : List String) (read : Arguments) :
    Except UsageError (Arguments × List String) :=
  let (name, value) := cutValue argument
  match Flag.ofLong? name with
  | none => .error (.noSuchOption name (closeTo name Flag.spellings))
  | some flag =>
    match flag.takesValue, value, rest with
    | true, some value, rest => .ok (read.addFlag flag value, rest)
    | true, none, value :: rest => .ok (read.addFlag flag value, rest)
    | true, none, [] => .error (.missingValue name)
    | false, some _, _ => .error (.unexpectedValue name)
    | false, none, rest => .ok (read.addFlag flag "", rest)

theorem length_readLetters_le {rest : List String} {letters : List Char} {read : Arguments}
    {result : Arguments × List String} (h : readLetters rest letters read = .ok result) :
    result.2.length ≤ rest.length := by
  induction letters generalizing read with
  | nil =>
    simp only [readLetters, Except.ok.injEq] at h
    subst h
    simp
  | cons letter letters ih =>
    simp only [readLetters] at h
    split at h
    . contradiction
    . split at h
      . split at h
        . contradiction
        . simp only [Except.ok.injEq] at h
          subst h
          simp
        . simp only [Except.ok.injEq] at h
          subst h
          simp
      . exact ih h

theorem length_readLong_le {argument : String} {rest : List String} {read : Arguments}
    {result : Arguments × List String} (h : readLong argument rest read = .ok result) :
    result.2.length ≤ rest.length := by
  simp only [readLong] at h
  split at h
  . contradiction
  . split at h <;>
      first
      | contradiction
      | (simp only [Except.ok.injEq] at h; subst h; simp)

/--
Cuts a command line. Behind two dashes alone there are no options.
-/
def readArguments (arguments : List String) (read : Arguments) : Except UsageError Arguments :=
  match arguments with
  | [] => .ok read
  | argument :: rest =>
    if argument == "--" then
      .ok (read.addOthers rest)
    else if argument.startsWith "--" then
      match _h : readLong argument rest read with
      | .ok result => readArguments result.2 result.1
      | .error error => .error error
    else if argument.startsWith "-" && argument != "-" then
      match _h : readLetters rest (argument.toList.drop 1) read with
      | .ok result => readArguments result.2 result.1
      | .error error => .error error
    else
      readArguments rest (read.addOthers [argument])
termination_by arguments.length
decreasing_by
  . have := length_readLong_le _h
    simp only [List.length_cons]
    omega
  . have := length_readLetters_le _h
    simp only [List.length_cons]
    omega
  . simp

/--
Checks the path given for a parameter: whether something has to be there, and what must not be there.
Whatever is found may be read.
-/
def checkPath (host : Host) (label : String) (mustExist : Bool) (noun : String)
    (isBad : Node → Bool) (bad : String) (text : String) : Except UsageError Unit :=
  let shown := Text.quoted text
  match host.resolve (Path.ofText text).text with
  | .ok node =>
    if isBad node then .error (.invalidValue label s!"{noun} {shown} is a {bad}.") else .ok ()
  | .error _ =>
    if mustExist then .error (.invalidValue label s!"{noun} {shown} does not exist.") else .ok ()

def checkFlag (host : Host) (arguments : Arguments) (flag : Flag) : Except UsageError Unit :=
  match flag, arguments.value? flag with
  | .config, some text =>
    checkPath host flag.label true "file" Node.isDirectory "directory" text
  | .output, some text =>
    checkPath host flag.label false "file" Node.isDirectory "directory" text
  | _, _ => .ok ()

structure Request where
  directory : String := "."
  exclude : Option String := none
  json : Bool := false
  output : Option Path := none
  config : Option Path := none
  verbose : Bool := false
  quiet : Bool := false
  version : Bool := false
  help : Bool := false
  deriving DecidableEq, Repr, Inhabited

/--
Reads a command line. Mistakes in how options are written come first, then values in the order of their
options, then arguments that are too many.
-/
def readRequest (host : Host) (argv : List String) : Except UsageError Request := do
  let arguments ← readArguments argv {}
  if arguments.has .help then return { help := true }
  for (flag, _) in arguments.flags do
    checkFlag host arguments flag
  let directory := arguments.others.head?.getD "."
  checkPath host (Text.quoted "directory") false "dir" Node.isFile "file" directory
  if 1 < arguments.others.length then throw (.extraArguments (arguments.others.drop 1))
  return {
    directory := (Path.ofText directory).text
    exclude := arguments.value? .exclude
    json := arguments.has .json
    output := (arguments.value? .output).map Path.ofText
    config := (arguments.value? .config).map Path.ofText
    verbose := arguments.has .verbose
    quiet := arguments.has .quiet
    version := arguments.has .version }

end CommandLine

end ParadigmScan
