import Agenterm.Control.CommandSpecs
import Agenterm.Control.Operations

/-!
# Readers of command lines

Several functions of `commands.rs` go through the words of a command line, each on its own:
`validate_control_command`, which decides whether a command is let through, `has_option` and
`option_value`, and for new tabs `parse_new_command` and `parse_tab_environment`.
-/

namespace Agenterm

/-! ## The validator -/

/-- What the validator takes a word for. -/
inductive WordRole where
  | command
  | option (value : String)
  | value
  | flag
  /-- A single dash. -/
  | dash
  | positional
  /-- The `--` at which the validator stops. -/
  | separator
  /-- A word that the validator does not look at. -/
  | unexamined
deriving DecidableEq

def startsWithDash (word : String) : Bool := word.toList.head? == some '-'

section
variable (specification : ControlCommandSpec) (command : String)

def requiresValue (option : String) : String :=
  command ++ " option " ++ option ++ " requires a value\nUsage: " ++ specification.usage

def unknownOption (option : String) : String :=
  "unknown option '" ++ option ++ "' for '" ++ command ++ "'. To target an AgenTerm instance, put "
    ++ "`--endpoint ENDPOINT`, legacy `--address HOST:PORT`, or `--instance NAME` before the "
    ++ "command.\nUsage: " ++ specification.usage

/-- The loop of the validator over the words behind the command, with what it takes each word for.
The first argument says that the next word is the value of the option before it. -/
def examineWords : Bool → List String → Except String (List WordRole)
  | _, [] => .ok []
  | true, _ :: words => (examineWords false words).map (.value :: ·)
  | false, argument :: words =>
    if argument = "--" then
      .ok (.separator :: words.map fun _ => .unexamined)
    else if argument = "-" then
      (examineWords false words).map (.dash :: ·)
    else if specification.childAtFirstPositional ∧ !startsWithDash argument then
      .ok (.unexamined :: words.map fun _ => .unexamined)
    else if !startsWithDash argument then
      (examineWords false words).map (.positional :: ·)
    else if specification.valueOptions.contains argument then
      match words.head? with
      | none => .error (requiresValue specification command argument)
      | some value =>
        if value = "--" then
          .error (requiresValue specification command argument)
        else
          (examineWords true words).map (.option value :: ·)
    else if specification.flagOptions.contains argument then
      (examineWords false words).map (.flag :: ·)
    else
      .error (unknownOption specification command argument)

end

/-- What the validator takes the words of a command line for. -/
def examine : List String → Except String (List WordRole)
  | [] => .error "no command specified"
  | command :: words =>
    match controlCommandSpec command with
    | none =>
      .error ("unknown AgenTerm command '" ++ command ++ "'; run `agenterm cli list-commands`")
    | some specification =>
      (examineWords specification command false words).map (.command :: ·)

def validateControlCommand (args : List String) : Except String Unit :=
  (examine args).map fun _ => ()

/-! ## Readers of options -/

def hasOption (args : List String) (option : String) : Bool :=
  (args.takeWhile fun argument => argument ≠ "--").any fun argument => argument = option

/-! ## New tabs -/

/-- The words that `parse_new_command` skips together with the word behind them. -/
def newCommandSkipped : List String :=
  ["-s", "-t", "-c", "-F", "--parent", "-e", "--env", "--proxy", "--no-proxy", "--program"]

/-- The loop of `parse_new_command`. There is no result if the child command would start behind the
end of the words. -/
def parseNewWords : Bool → Option String → Bool → List String →
    Option (Option String × Bool × List String)
  | true, _, _, [] => none
  | false, title, detached, [] => some (title, detached, [])
  | true, title, detached, _ :: words => parseNewWords false title detached words
  | false, title, detached, argument :: words =>
    if argument = "-n" then
      parseNewWords true words.head? detached words
    else if argument = "-d" then
      parseNewWords false title true words
    else if argument = "-A" ∨ argument = "-P" ∨ argument = "-E" then
      parseNewWords false title detached words
    else if newCommandSkipped.contains argument then
      parseNewWords true title detached words
    else if argument = "--" then
      some (title, detached, words)
    else if startsWithDash argument then
      parseNewWords false title detached words
    else
      some (title, detached, argument :: words)

/-- `parse_new_command`: the title, whether the tab is detached, and the child command. It skips the
name of the command; without one it would panic. -/
def parseNewCommand : List String → Option (Option String × Bool × List String)
  | [] => none
  | _ :: args => parseNewWords false none false args

def eqIgnoreAsciiCase (left right : String) : Bool :=
  left.toList.map Char.toLower == right.toList.map Char.toLower

def isHttpProxyEnvironment (name : String) : Bool :=
  eqIgnoreAsciiCase name "HTTP_PROXY" || eqIgnoreAsciiCase name "HTTPS_PROXY"

def validateEnvironmentValue (value option : String) : Except String Unit :=
  if value.toList.contains (Char.ofNat 0) then
    .error (option ++ " value must not contain NUL")
  else
    .ok ()

def validateEnvironmentName (name : String) : Except String Unit :=
  if name.isEmpty ∨ name.toList.contains '=' ∨ name.toList.contains (Char.ofNat 0)
      ∨ !(name.toList.all fun character => character = '_' || character.isAlphanum)
      ∨ name.toList.head?.any Char.isDigit then
    .error ("invalid environment variable name: " ++ name)
  else if "AGENTERM_".toList.isPrefixOf (name.toList.map Char.toUpper) then
    .error (name ++ " is reserved; AgenTerm injects its own tab context")
  else
    .ok ()

def upsertEnvironment (environment : List (String × String)) (name value : String) :
    List (String × String) :=
  match environment.findIdx? fun existing => eqIgnoreAsciiCase existing.1 name with
  | some position => environment.set position (name, value)
  | none => environment ++ [(name, value)]

/-- `split_once('=')`. -/
def splitOnce (assignment : String) : Option (String × String) :=
  (assignment.toList.findIdx? (· = '=')).map fun position =>
    (String.ofList (assignment.toList.take position),
      String.ofList (assignment.toList.drop (position + 1)))

/-- What `parse_tab_environment` makes of an option with its value. -/
def environmentOption (environment : List (String × String)) (option value : String) :
    Except String (List (String × String)) :=
  if option = "-e" ∨ option = "--env" then
    match splitOnce value with
    | none => .error (option ++ " requires NAME=VALUE")
    | some (name, value) => do
      validateEnvironmentName name
      validateEnvironmentValue value option
      if !isHttpProxyEnvironment name then .ok (upsertEnvironment environment name value)
      else .ok environment
  else if option = "--proxy" then
    if value.isEmpty then
      .error "--proxy requires a non-empty URL"
    else do
      validateEnvironmentValue value "--proxy"
      .ok environment
  else if option = "--no-proxy" then do
    validateEnvironmentValue value "--no-proxy"
    .ok (upsertEnvironment environment "NO_PROXY" value)
  else
    .ok environment

/-- The options of which `parse_tab_environment` uses the value. -/
def environmentOptions : List String := ["-e", "--env", "--proxy", "--no-proxy"]

/-- The words that `parse_tab_environment` skips together with the word behind them. -/
def environmentSkipped : List String := ["-n", "-s", "-t", "-c", "-F", "--parent", "--program"]

/-- What an option of `environmentOptions` misses when no word follows. -/
def requiresAssignment (option : String) : String :=
  if option = "--proxy" then "--proxy requires a URL"
  else if option = "--no-proxy" then "--no-proxy requires a host list"
  else option ++ " requires NAME=VALUE"

/-- The loop of `parse_tab_environment`. -/
def parseEnvironmentWords : Bool → List (String × String) → List String →
    Except String (List (String × String))
  | _, environment, [] => .ok environment
  | true, environment, _ :: words => parseEnvironmentWords false environment words
  | false, environment, argument :: words =>
    if environmentOptions.contains argument then
      match words.head? with
      | none => .error (requiresAssignment argument)
      | some value =>
        match environmentOption environment argument value with
        | .error error => .error error
        | .ok environment => parseEnvironmentWords true environment words
    else if argument = "--" then
      .ok environment
    else if environmentSkipped.contains argument then
      parseEnvironmentWords true environment words
    else if startsWithDash argument then
      parseEnvironmentWords false environment words
    else
      .ok environment

def parseTabEnvironment (args : List String) : Except String (List (String × String)) :=
  parseEnvironmentWords false [] args.tail

end Agenterm
