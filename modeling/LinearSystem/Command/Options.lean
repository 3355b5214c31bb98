/-!
The arguments of the command.

At most one source is named, by a positional argument (`-` is the standard input, as is no source at
all) or inline after `-e` or `--expr`. `--format` chooses the form of equations; `--tokens` and
`--lint-only` ask for something else than equations and exclude each other. `-v` may be repeated and
changes no result. Short options can share a dash. An option's value follows directly, after an
equals sign, or as the next argument, which then does not start with a dash unless it is `-`. After
`--` every argument is positional. All else is a usage error, reported when it is reached; a request
for the version is granted if no error comes before it.
-/
namespace LinearSystem.Command

/-- The form of equations in output. -/
inductive Format where
  | text
  | json
  deriving DecidableEq, Repr

/-- Where the source is. -/
inductive Input where
  | standard
  | file (path : String)
  | inline (source : String)
  deriving DecidableEq, Repr

/-- What is asked of a source. -/
inductive Task where
  | equations (format : Format)
  | tokens
  | check
  deriving DecidableEq, Repr

/-- What arguments ask for. -/
inductive Request where
  | run (task : Task) (input : Input)
  | version
  deriving DecidableEq, Repr

/-- How arguments can be wrong. -/
inductive UsageError where
  | unknownOption (argument : String)
  | unexpectedValue (option : String)
  | missingValue (option : String)
  | invalidValue (option value : String)
  | repeated (option : String)
  | unexpectedArgument (argument : String)
  | conflict (first second : String)
  deriving DecidableEq, Repr

/-- The wording of a usage error. -/
def UsageError.message : UsageError → String
  | unknownOption argument => "unexpected argument '" ++ argument ++ "' found"
  | unexpectedValue option => "unexpected value for '" ++ option ++ "'"
  | missingValue option => "a value is required for '" ++ option ++ "'"
  | invalidValue option value => "invalid value '" ++ value ++ "' for '" ++ option ++ "'"
  | repeated option => "the argument '" ++ option ++ "' cannot be used multiple times"
  | unexpectedArgument argument => "unexpected argument '" ++ argument ++ "' found"
  | conflict first second =>
    "the argument '" ++ first ++ "' cannot be used with '" ++ second ++ "'"

/-- The options that have been read. -/
structure Settings where
  positional : Option String
  expression : Option String
  format : Option Format
  lintOnly : Bool
  tokens : Bool
  deriving DecidableEq, Repr

namespace Settings

/-- Before the first argument. -/
def initial : Settings := ⟨none, none, none, false, false⟩

/-- Takes a positional argument, which is a path or a dash. -/
def addPositional (settings : Settings) (argument : String) : Except UsageError Settings :=
  if settings.positional.isSome then .error (.unexpectedArgument argument)
  else if argument.isEmpty then .error (.invalidValue "[INPUT]" argument)
  else .ok { settings with positional := some argument }

/-- Takes an inline source. -/
def addExpression (settings : Settings) (source : String) : Except UsageError Settings :=
  if settings.expression.isSome then .error (.repeated "--expr")
  else .ok { settings with expression := some source }

/-- Takes the name of a format, in small letters. -/
def addFormat (settings : Settings) (name : String) : Except UsageError Settings :=
  if settings.format.isSome then .error (.repeated "--format")
  else if name = "text" then .ok { settings with format := some .text }
  else if name = "json" then .ok { settings with format := some .json }
  else .error (.invalidValue "--format" name)

/-- Takes the request to check only. -/
def addLintOnly (settings : Settings) : Except UsageError Settings :=
  if settings.lintOnly then .error (.repeated "--lint-only")
  else .ok { settings with lintOnly := true }

/-- Takes the request for tokens. -/
def addTokens (settings : Settings) : Except UsageError Settings :=
  if settings.tokens then .error (.repeated "--tokens")
  else .ok { settings with tokens := true }

/-- The source that has been named. -/
def input (settings : Settings) : Input :=
  match settings.expression, settings.positional with
  | some source, _ => .inline source
  | none, some path => if path = "-" then .standard else .file path
  | none, none => .standard

/-- What has been asked of the source. -/
def task (settings : Settings) : Task :=
  if settings.tokens then .tokens
  else if settings.lintOnly then .check
  else .equations (settings.format.getD .text)

/-- The request, once all arguments have been read. -/
def request (settings : Settings) : Except UsageError Request :=
  if settings.expression.isSome && settings.positional.isSome then
    .error (.conflict "--expr" "[INPUT]")
  else if settings.tokens && settings.lintOnly then .error (.conflict "--tokens" "--lint-only")
  else .ok (.run settings.task settings.input)

end Settings

/-- The options that take a value. -/
inductive Valued where
  | expression
  | format
  deriving DecidableEq, Repr

namespace Valued

/-- The spelling of an option. -/
def spelling : Valued → String
  | expression => "--expr"
  | format => "--format"

/-- Gives an option its value. -/
def give (option : Valued) (settings : Settings) (value : String) : Except UsageError Settings :=
  match option with
  | expression => settings.addExpression value
  | format => settings.addFormat value

end Valued

/-- What follows from one argument: settings to go on with, an option that waits for its value, an
end of options, or the version. -/
inductive Step where
  | proceed (settings : Settings)
  | await (option : Valued) (settings : Settings)
  | onlyPositional
  | version

/-- Reads options that share a dash. -/
def shortOptions (settings : Settings) : List Char → Except UsageError Step
  | [] => .ok (.proceed settings)
  | 'v' :: rest => shortOptions settings rest
  | 'V' :: _ => .ok .version
  -- What is left after `e` is its value; without it the next argument is.
  | ['e'] => .ok (.await .expression settings)
  | 'e' :: '=' :: value =>
    (Valued.expression.give settings (String.ofList value)).map Step.proceed
  | 'e' :: value => (Valued.expression.give settings (String.ofList value)).map Step.proceed
  | c :: _ => .error (.unknownOption (String.ofList ['-', c]))

/-- Reads a long option without a value of its own. -/
def longOption (settings : Settings) (name : String) : Except UsageError Step :=
  match name with
  | "expr" => .ok (.await .expression settings)
  | "format" => .ok (.await .format settings)
  | "lint-only" => settings.addLintOnly.map Step.proceed
  | "tokens" => settings.addTokens.map Step.proceed
  | "verbose" => .ok (.proceed settings)
  | "version" => .ok .version
  | _ => .error (.unknownOption ("--" ++ name))

/-- Reads a long option with a value after an equals sign. -/
def longOptionWith (settings : Settings) (name value : String) : Except UsageError Step :=
  match name with
  | "expr" => (Valued.expression.give settings value).map Step.proceed
  | "format" => (Valued.format.give settings value).map Step.proceed
  | "lint-only" | "tokens" | "verbose" | "version" => .error (.unexpectedValue ("--" ++ name))
  | _ => .error (.unknownOption ("--" ++ name))

/-- Reads one argument. -/
def readArgument (settings : Settings) (argument : String) : Except UsageError Step :=
  match argument.toList with
  | ['-', '-'] => .ok .onlyPositional
  | '-' :: '-' :: rest =>
    match rest.dropWhile (· ≠ '=') with
    | [] => longOption settings (String.ofList rest)
    | _ :: value =>
      longOptionWith settings (String.ofList (rest.takeWhile (· ≠ '='))) (String.ofList value)
  | '-' :: c :: rest => shortOptions settings (c :: rest)
  | _ => (settings.addPositional argument).map Step.proceed

/-- Whether an argument can be the value of the option before it. -/
def canBeValue (argument : String) : Bool :=
  match argument.toList with
  | '-' :: _ :: _ => false
  | _ => true

/-- Reads arguments that are all positional. -/
def readPositional (settings : Settings) : List String → Except UsageError Request
  | [] => settings.request
  | argument :: rest =>
    match settings.addPositional argument with
    | .error error => .error error
    | .ok settings => readPositional settings rest

/-- Reads arguments from left to right. -/
def readArguments (settings : Settings) : List String → Except UsageError Request
  | [] => settings.request
  | argument :: rest =>
    match readArgument settings argument with
    | .error error => .error error
    | .ok (.proceed settings) => readArguments settings rest
    | .ok .version => .ok .version
    | .ok .onlyPositional => readPositional settings rest
    | .ok (.await option settings) =>
      match rest with
      | [] => .error (.missingValue option.spelling)
      | value :: rest =>
        if canBeValue value then
          match option.give settings value with
          | .error error => .error error
          | .ok settings => readArguments settings rest
        else .error (.missingValue option.spelling)

/-- The request that a list of arguments makes. -/
def Request.ofArguments (arguments : List String) : Except UsageError Request :=
  readArguments .initial arguments

end LinearSystem.Command
