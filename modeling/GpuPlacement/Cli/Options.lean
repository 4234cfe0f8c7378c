import GpuPlacement.ReportMode
/-!
The command line: options that every command takes, the commands with their own options, and how
arguments are read. Arguments are read from left to right, so an early request for the version
wins over a later mistake.
-/
namespace GpuPlacement.Cli

/-- The colours of a terminal. Other outputs are plain. -/
inductive Theme where
  | auto
  | light
  | dark
  | plain
  deriving DecidableEq

def Theme.ofText? : String → Option Theme
  | "auto" => some .auto
  | "light" => some .light
  | "dark" => some .dark
  | "plain" => some .plain
  | _ => none

inductive OutputFormat where
  | text
  | json
  deriving DecidableEq

def OutputFormat.ofText? : String → Option OutputFormat
  | "text" => some .text
  | "json" => some .json
  | _ => none

inductive DocsTopic where
  | configs
  | rules
  deriving DecidableEq

def DocsTopic.ofText? : String → Option DocsTopic
  | "configs" => some .configs
  | "rules" => some .rules
  | _ => none

inductive Command where
  /-- Says where each node of a plan will run and why. -/
  | explain (plan : String) (mode : Option ReportMode)
  /-- Prints the placed plan. -/
  | convert (plan : String) (format : OutputFormat)
  | docs (topic : DocsTopic)
  /-- Compares the built-in converters with the parity table. -/
  | parity
  deriving DecidableEq

/-- The options that every command takes, in front of its name or behind it. -/
structure CommonOptions where
  /-- The file with the profiles. -/
  profilesFile : Option String
  profile : Option String
  settingsFile : Option String
  /-- Settings given one by one, first to last. -/
  assignments : List (String × String)
  theme : Option Theme
  deriving DecidableEq

namespace CommonOptions

def none : CommonOptions := ⟨.none, .none, .none, [], .none⟩

/-- A value for an option that may be given once. -/
def once (held value : Option α) : Option (Option α) :=
  match held, value with
  | .none, some value => some (some value)
  | _, _ => .none

/-- A path, which must not be empty. -/
def path? (text : String) : Option String :=
  if text.isEmpty then .none else some text

/-- A key and a value around the first equals sign, without the white space around them. -/
def assignment? (text : String) : Option (String × String) :=
  let chars := text.toList
  let key := trimChars (chars.takeWhile (· ≠ '='))
  match chars.dropWhile (· ≠ '=') with
  | [] => .none
  | _ :: value =>
    if key.isEmpty then .none
    else some (String.ofList key, String.ofList (trimChars value))

/-- The options with one more value; nothing when the value is refused. -/
def set? (options : CommonOptions) (name value : String) : Option CommonOptions :=
  match name with
  | "config" =>
    (once options.profilesFile (path? value)).map fun held => { options with profilesFile := held }
  | "profile" =>
    (once options.profile (some value)).map fun held => { options with profile := held }
  | "settings" =>
    (once options.settingsFile (path? value)).map fun held => { options with settingsFile := held }
  | "conf" =>
    (assignment? value).map fun pair =>
      { options with assignments := options.assignments ++ [pair] }
  | "theme" =>
    (once options.theme (Theme.ofText? value)).map fun held => { options with theme := held }
  | _ => .none

/-- The options of both places; what stands behind the command's name wins. -/
def merge (before behind : CommonOptions) : CommonOptions where
  profilesFile := behind.profilesFile.or before.profilesFile
  profile := behind.profile.or before.profile
  settingsFile := behind.settingsFile.or before.settingsFile
  assignments := if behind.assignments.isEmpty then before.assignments else behind.assignments
  theme := behind.theme.or before.theme

end CommonOptions

/-- Why no command is run. -/
inductive Interruption where
  | help
  | version
  /-- The arguments are no command line. -/
  | misuse
  deriving DecidableEq

/-- How an argument is written. -/
inductive Argument where
  /-- A word that is no option; a single hyphen is one. -/
  | word
  /-- Two hyphens: only words follow. -/
  | separator
  | long (name : String) (value : Option String)
  /-- A hyphen and letters. -/
  | short (letters : List Char)

def Argument.ofText (text : String) : Argument :=
  match text.toList with
  | ['-', '-'] => .separator
  | '-' :: '-' :: rest =>
    let name := String.ofList (rest.takeWhile (· ≠ '='))
    match rest.dropWhile (· ≠ '=') with
    | [] => .long name none
    | _ :: value => .long name (some (String.ofList value))
  | '-' :: c :: rest => .short (c :: rest)
  | _ => .word

def Argument.isWord (text : String) : Bool :=
  match ofText text with
  | .word => true
  | _ => false

/-- What stands in front of the command's name, the name, and the arguments behind it. -/
structure CommandHead where
  common : CommonOptions
  name : String
  arguments : List String

def misuseOr (value : Option α) : Except Interruption α :=
  match value with
  | some value => .ok value
  | none => .error .misuse

/-- Reads arguments up to the name of a command. -/
def readHead (common : CommonOptions) : List String → Except Interruption CommandHead
  | [] => .error .misuse
  | argument :: rest =>
    match Argument.ofText argument with
    | .word => .ok ⟨common, argument, rest⟩
    | .separator => .error .misuse
    | .short ('V' :: _) => .error .version
    | .short ('h' :: _) => .error .help
    | .short _ => .error .misuse
    | .long "version" none => .error .version
    | .long "help" none => .error .help
    | .long name (some value) =>
      match common.set? name value with
      | some common => readHead common rest
      | none => .error .misuse
    | .long name none =>
      match rest with
      | [] => .error .misuse
      | value :: rest =>
        if Argument.isWord value then
          match common.set? name value with
          | some common => readHead common rest
          | none => .error .misuse
        else .error .misuse

/-- What stands behind the command's name. -/
structure CommandTail where
  common : CommonOptions
  /-- The value of the command's own option. -/
  own : Option String
  words : List String

namespace CommandTail

def empty : CommandTail := ⟨.none, none, []⟩

def addWord (tail : CommandTail) (word : String) : CommandTail :=
  { tail with words := tail.words ++ [word] }

/-- The tail with one more value. -/
def set? (ownOption : Option String) (tail : CommandTail) (name value : String) :
    Option CommandTail :=
  if ownOption = some name then
    (CommonOptions.once tail.own (some value)).map fun own => { tail with own }
  else (tail.common.set? name value).map fun common => { tail with common }

/-- Reads the arguments of a command. -/
def read (ownOption : Option String) (tail : CommandTail) :
    List String → Except Interruption CommandTail
  | [] => .ok tail
  | argument :: rest =>
    match Argument.ofText argument with
    | .word => read ownOption (tail.addWord argument) rest
    | .separator => .ok (rest.foldl addWord tail)
    | .short ('h' :: _) => .error .help
    | .short _ => .error .misuse
    | .long "help" none => .error .help
    | .long name (some value) =>
      match tail.set? ownOption name value with
      | some tail => read ownOption tail rest
      | none => .error .misuse
    | .long name none =>
      match rest with
      | [] => .error .misuse
      | value :: rest =>
        if Argument.isWord value then
          match tail.set? ownOption name value with
          | some tail => read ownOption tail rest
          | none => .error .misuse
        else .error .misuse

/-- The value of the command's own option, read by its type, if it is given. -/
def own? (tail : CommandTail) (ofText? : String → Option α) : Option (Option α) :=
  match tail.own with
  | none => some none
  | some text => (ofText? text).map some

end CommandTail

namespace Command

/-- The option that only one command takes; nothing when there is no such command. -/
def ownOption? : String → Option (Option String)
  | "explain" => some (some "mode")
  | "convert" => some (some "format")
  | "docs" => some none
  | "parity" => some none
  | _ => none

/-- The command of a name with its words and its own option. -/
def ofTail? (name : String) (tail : CommandTail) : Option Command :=
  match name, tail.words with
  | "explain", [plan] => do
    let path ← CommonOptions.path? plan
    let mode ← tail.own? ReportMode.ofText?
    some (.explain path mode)
  | "convert", [plan] => do
    let path ← CommonOptions.path? plan
    let format ← tail.own? OutputFormat.ofText?
    some (.convert path (format.getD .text))
  | "docs", [topic] => (DocsTopic.ofText? topic).map .docs
  | "parity", [] => some .parity
  | _, _ => none

end Command

/-- A command with the options that hold for it. -/
structure Invocation where
  options : CommonOptions
  command : Command
  deriving DecidableEq

/-- Fills in the file that the environment names. Either place takes it that names no file itself,
and an empty name is refused there. -/
def withVariable (profilesVariable : Option String) (before behind : CommonOptions) :
    Option CommonOptions :=
  let options := before.merge behind
  match profilesVariable with
  | none => some options
  | some name =>
    if name.isEmpty && !(before.profilesFile.isSome && behind.profilesFile.isSome) then none
    else some { options with profilesFile := options.profilesFile.or (some name) }

/-- Reads a command line. The variable of the environment may name the file with the profiles. -/
def Invocation.ofArguments (profilesVariable : Option String) (arguments : List String) :
    Except Interruption Invocation := do
  let head ← readHead .none arguments
  let ownOption ← misuseOr (Command.ownOption? head.name)
  let tail ← CommandTail.empty.read ownOption head.arguments
  let command ← misuseOr (Command.ofTail? head.name tail)
  let options ← misuseOr (withVariable profilesVariable head.common tail.common)
  return ⟨options, command⟩

end GpuPlacement.Cli
