import BuildWatch.Files.Path

/-!
The arguments of the command line.  Some options may stand before the command
as well as after it; where both give a value, the one after it holds.
-/

namespace BuildWatch.CommandLine

inductive Command where
  | serve
  | ports (container project : String)
  | detect (location : Files.Path)
  | config (isExample : Bool)
deriving Repr, DecidableEq

structure Invocation where
  configuration : Option Files.Path
  command : Command
deriving Repr, DecidableEq

inductive CommandName where
  | serve
  | ports
  | detect
  | config
deriving Repr, DecidableEq

def CommandName.ofWord? (word : String) : Option CommandName :=
  [("serve", CommandName.serve), ("ports", .ports), ("detect", .detect),
    ("config", .config)].lookup word

structure Given where
  configuration : Option Files.Path := none
  verbose : Bool := false
  quiet : Bool := false
  isExample : Bool := false
  values : List String := []
deriving Repr, DecidableEq

/-- An option without a value. -/
inductive Flag where
  | verbose
  | quiet
  | isExample
deriving Repr, DecidableEq

namespace Given

def addFlag? (given : Given) : Flag → Option Given
  | .verbose => if given.verbose then none else some { given with verbose := true }
  | .quiet => if given.quiet then none else some { given with quiet := true }
  | .isExample => if given.isExample then none else some { given with isExample := true }

/-- Take in a configuration file, which must have a name and not be repeated. -/
def addConfiguration? (given : Given) (path : Files.Path) : Option Given :=
  if given.configuration.isSome || path.isEmpty then none
  else some { given with configuration := some path }

def addValue (given : Given) (value : String) : Given :=
  { given with values := given.values ++ [value] }

def isConsistent (given : Given) : Bool :=
  !(given.verbose && given.quiet)

end Given

def flagOfLetter? : Char → Option Flag
  | 'v' => some .verbose
  | 'q' => some .quiet
  | _ => none

/-- The flag of a long name; one belongs to a single command. -/
def flagOfName? (inConfig : Bool) (name : String) : Option Flag :=
  if name = "--verbose" then some .verbose
  else if name = "--quiet" then some .quiet
  else if name = "--example" && inConfig then some .isExample
  else none

def isOption (word : String) : Bool :=
  word.startsWith "-" && word != "-"

/-- What gives the configuration file its value in the same word. -/
def configurationSign : List Char := "--config=".toList

def addOption? (inConfig : Bool) (given : Given) (word : String) : Option Given :=
  if configurationSign.isPrefixOf word.toList then
    given.addConfiguration? (String.ofList (word.toList.drop configurationSign.length))
  else if word.startsWith "--" then do given.addFlag? (← flagOfName? inConfig word)
  else (word.toList.drop 1).foldlM (fun given letter => do given.addFlag? (← flagOfLetter? letter))
    given

/-- What was given, and the words from the first value on.  After a double dash
everything is a value. -/
def takeOptions? (inConfig : Bool) (given : Given) : List String → Option (Given × List String)
  | [] => some (given, [])
  | "--config" :: path :: rest => do
      if isOption path then none
      else takeOptions? inConfig (← given.addConfiguration? path) rest
  | word :: rest => do
      if word = "--" || !isOption word then return (given, word :: rest)
      else takeOptions? inConfig (← addOption? inConfig given word) rest

/-- Everything that was given after the command; `bound` limits the number of values. -/
def takeAll? (inConfig : Bool) (given : Given) : Nat → List String → Option Given
  | 0, _ => none
  | bound + 1, words => do
      match ← takeOptions? inConfig given words with
      | (given, []) => return given
      | (given, word :: rest) =>
          if word = "--" then return rest.foldl Given.addValue given
          else takeAll? inConfig (given.addValue word) bound rest

def commandOf? (given : Given) : CommandName → Option Command
  | .serve => if given.values.isEmpty then some .serve else none
  | .ports =>
      match given.values with
      | [container, project] => some (.ports container project)
      | _ => none
  | .detect =>
      match given.values with
      | [location] => if location.isEmpty then none else some (.detect location)
      | _ => none
  | .config => if given.values.isEmpty then some (.config given.isExample) else none

def Invocation.ofArguments? (arguments : List String) : Option Invocation := do
  let (before, rest) ← takeOptions? false {} arguments
  match rest with
  | [] => none
  | word :: rest =>
      let name ← CommandName.ofWord? word
      let after ← takeAll? (name = .config) {} (rest.length + 1) rest
      let command ← commandOf? after name
      if before.isConsistent && after.isConsistent then
        return { configuration := after.configuration.or before.configuration, command := command }
      else none

end BuildWatch.CommandLine
