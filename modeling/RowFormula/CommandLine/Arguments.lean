import RowFormula.Engine.Trigger

/-! The arguments of the program: an optional settings file, and a command. -/

namespace RowFormula.CommandLine

/-- What the program is asked to do. Files are given by their paths. -/
inductive Command where
  /-- Evaluate one formula. -/
  | evaluate (formula : String) (scenario bindings : Option String) (debug : Bool)
  /-- Fire an event for rows of an entity, or for all its rows when none is listed. -/
  | trigger (scenario : String) (event : LifecycleEvent) (entity : String)
      (rows : List String)

/-- A command and the settings to run it with. -/
structure Invocation where
  config : Option String
  command : Command

/-- Why arguments are not understood. -/
inductive UsageError where
  | missingCommand
  | unknownCommand (name : String)
  | unknownOption (option : String)
  | missingValue (option : String)
  | repeatedOption (option : String)
  | missingArgument (name : String)
  | unexpectedArgument (argument : String)
  | unknownEvent (normalized given : String)
  deriving Repr, DecidableEq

def UsageError.message : UsageError → String
  | missingCommand => "a command is required: eval or trigger"
  | unknownCommand name => "unrecognized subcommand '" ++ name ++ "'"
  | unknownOption option => "unexpected argument '" ++ option ++ "' found"
  | missingValue option => "a value is required for '" ++ option ++ "' but none was supplied"
  | repeatedOption option =>
    "the argument '" ++ option ++ "' cannot be used multiple times"
  | missingArgument name => "the required argument <" ++ name ++ "> was not provided"
  | unexpectedArgument argument => "unexpected argument '" ++ argument ++ "' found"
  | unknownEvent normalized given =>
    "invalid value '" ++ given ++ "' for '<EVENT>': "
      ++ LifecycleEvent.unknownMessage normalized

/-- The options that take a value. -/
inductive Setting where
  | config
  | scenario
  | bindings
  | rows
  deriving Repr, DecidableEq

def Setting.long : Setting → String
  | config => "--config"
  | scenario => "--scenario"
  | bindings => "--bindings"
  | rows => "--rows"

def Setting.short : Setting → String
  | config => "-c"
  | scenario => "-s"
  | bindings => "-b"
  | rows => "-r"

def Setting.ofName? (name : String) : Option Setting :=
  [config, scenario, bindings, rows].find? fun s => s.long == name || s.short == name

/-- Arguments sorted into options and others, each in the order given. -/
structure Arguments where
  settings : List (Setting × String) := []
  debug : Bool := false
  others : List String := []

/-- An option joined with its value, `--name=value` or `-nvalue`, cut in two. -/
def cutOption (argument : String) : String × Option String :=
  match argument.toList with
  | '-' :: '-' :: rest =>
    match rest.span (· != '=') with
    | (name, '=' :: value) => ("--" ++ String.ofList name, some (String.ofList value))
    | _ => (argument, none)
  | '-' :: letter :: rest =>
    (String.ofList ['-', letter], if rest.isEmpty then none else some (String.ofList rest))
  | _ => (argument, none)

/-- Sorts arguments. After `--` all arguments are others. -/
def sortArguments : List String → Except UsageError Arguments
  | [] => .ok {}
  | "--" :: rest => .ok { others := rest }
  | "--debug" :: rest => (sortArguments rest).map fun a => { a with debug := true }
  | argument :: rest =>
    if argument.startsWith "-" && argument != "-" then
      match cutOption argument, rest with
      | (name, value), rest =>
        match Setting.ofName? name, value, rest with
        | none, _, _ => .error (.unknownOption argument)
        | some s, some value, rest =>
          (sortArguments rest).map fun a => { a with settings := (s, value) :: a.settings }
        | some s, none, value :: rest =>
          (sortArguments rest).map fun a => { a with settings := (s, value) :: a.settings }
        | some s, none, [] => .error (.missingValue s.long)
    else (sortArguments rest).map fun a => { a with others := argument :: a.others }

def Arguments.values (a : Arguments) (s : Setting) : List String :=
  a.settings.filterMap fun (given, value) => if given = s then some value else none

/-- The value of an option that may be given once. -/
def Arguments.value? (a : Arguments) (s : Setting) : Except UsageError (Option String) :=
  match a.values s with
  | [] => .ok none
  | [value] => .ok (some value)
  | _ => .error (.repeatedOption s.long)

def Arguments.refuse (a : Arguments) (allowed : List Setting) : Except UsageError Unit :=
  match a.settings.find? fun (s, _) => !allowed.contains s with
  | some (s, _) => .error (.unknownOption s.long)
  | none => .ok ()

def Invocation.ofArguments (arguments : List String) : Except UsageError Invocation := do
  let a ← sortArguments arguments
  let config ← a.value? .config
  match a.others with
  | [] => .error .missingCommand
  | "eval" :: others =>
    a.refuse [.config, .scenario, .bindings]
    match others with
    | [] => .error (.missingArgument "FORMULA_PATH")
    | [formula] =>
      let scenario ← a.value? .scenario
      let bindings ← a.value? .bindings
      return { config, command := .evaluate formula scenario bindings a.debug }
    | _ :: extra :: _ => .error (.unexpectedArgument extra)
  | "trigger" :: others =>
    a.refuse [.config, .rows]
    if a.debug then .error (.unknownOption "--debug")
    match others with
    | [] => .error (.missingArgument "SCENARIO_PATH")
    | [_] => .error (.missingArgument "EVENT")
    | [_, _] => .error (.missingArgument "ENTITY")
    | [scenario, name, entity] =>
      match LifecycleEvent.ofText name with
      | .ok event => return { config, command := .trigger scenario event entity (a.values .rows) }
      | .error normalized => .error (.unknownEvent normalized name)
    | _ :: _ :: _ :: extra :: _ => .error (.unexpectedArgument extra)
  | name :: _ => .error (.unknownCommand name)

end RowFormula.CommandLine
