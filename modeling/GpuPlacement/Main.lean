import GpuPlacement.Cli.Run
/-!
The command line program: it reads files, the environment and the input, runs one command and
writes what the command says.
-/
namespace GpuPlacement.Cli

def usage : String :=
  "Usage: accelplan [OPTIONS] <COMMAND>\n\n"
    ++ "Commands: explain <PLAN>, convert <PLAN>, docs <TOPIC>, parity\n"
    ++ "Options: --config <FILE>, --profile <NAME>, --settings <FILE>, --conf <KEY=VALUE>, "
    ++ "--theme <THEME>, --version, --help\n"

/-- The number and the words of an operating system error. The number stands negated where the
error is about a file's metadata. -/
def systemError? : IO.Error → Option (Nat × String)
  | .unexpectedEof | .userError _ => none
  | .interrupted _ code details | .noFileOrDirectory _ code details
  | .alreadyExists _ code details | .invalidArgument _ code details
  | .permissionDenied _ code details | .resourceExhausted _ code details
  | .inappropriateType _ code details | .noSuchThing _ code details
  | .otherError code details | .resourceBusy code details | .resourceVanished code details
  | .unsupportedOperation code details | .hardwareFault code details
  | .unsatisfiedConstraints code details | .illegalOperation code details
  | .protocolError code details | .timeExpired code details =>
    some ((if code < 0x80000000 then code else 0 - code).toNat, details)

/-- The system's own words for the errors that paths and permissions lead to. -/
def systemText (number : Nat) (details : String) : String :=
  match number with
  | 13 => "Permission denied"
  | 36 => "File name too long"
  | 40 => "Too many levels of symbolic links"
  | _ => details

/-- The fault of an error in reading what is present or absent. -/
def faultOf (present : Bool) (error : IO.Error) : ReadFault :=
  let fault := if present then ReadFault.other else .unreachable
  match systemError? error with
  | some (2, _) => .notFound
  | some (20, _) => .notADirectory
  | some (21, _) => .isDirectory
  | some (number, details) => fault s!"{systemText number details} (os error {number})"
  | none => fault error.toString

/-- Whether a path leads to something, be it readable or not. -/
def leadsSomewhere (path : String) : IO Bool := do
  try
    let _ ← IO.FS.realPath path
    return true
  catch _ =>
    return false

def textOf (bytes : ByteArray) : Except ReadFault String :=
  match String.fromUTF8? bytes with
  | some text => .ok text
  | none => .error .notText

def readFile (path : String) : IO (Except ReadFault String) := do
  try
    return textOf (← IO.FS.readBinFile path)
  catch error =>
    return .error (faultOf (← leadsSomewhere path) error)

/-- Reads a stream to its end. -/
partial def readAll (stream : IO.FS.Stream) (bytes : ByteArray) : IO ByteArray := do
  let chunk ← stream.read 65536
  if chunk.isEmpty then return bytes else readAll stream (bytes ++ chunk)

def readInput : IO (Except ReadFault String) := do
  try
    return textOf (← readAll (← IO.getStdin) .empty)
  catch error =>
    return .error (faultOf true error)

/-- The user's file with profiles. -/
def defaultFile : IO (Option String) := do
  let base ←
    match ← IO.getEnv "XDG_CONFIG_HOME" with
    | some folder =>
      if folder.startsWith "/" then pure (some folder) else homeFolder
    | none => homeFolder
  return base.map (· ++ "/accelplan/cli.toml")
where
  homeFolder : IO (Option String) := do
    return (← IO.getEnv "HOME").map (· ++ "/.config")

def writeOutcome (outcome : Outcome) : IO UInt32 := do
  IO.print outcome.output
  for complaint in outcome.complaints do
    IO.eprintln s!"error: {complaint}"
  return UInt32.ofNat outcome.code

def runArguments (arguments : List String) : IO UInt32 := do
  match Invocation.ofArguments (← IO.getEnv "ACCELPLAN_CONFIG") arguments with
  | .error .version =>
    IO.println versionText
    return 0
  | .error .help =>
    IO.print usage
    return 0
  | .error .misuse =>
    IO.eprint usage
    return 2
  | .ok invocation =>
    match ← run ⟨readFile, readInput⟩ (← defaultFile) invocation with
    | .ok outcome => writeOutcome outcome
    | .error error => writeOutcome (.ofError error)

end GpuPlacement.Cli

def main (arguments : List String) : IO UInt32 :=
  GpuPlacement.Cli.runArguments arguments
