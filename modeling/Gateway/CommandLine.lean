import Gateway.Config.Encode
import Gateway.Lifecycle.Startup

/-! The command line: a configuration file, and a flag to print the configuration in effect instead
of serving with it. -/
namespace Gateway

/-- What a command line asks for. -/
structure CommandLine where
  path : Option String := none
  printsConfiguration : Bool := false
  deriving DecidableEq, Repr

namespace CommandLine

/-- Why a command line is not carried out. -/
inductive Stop where
  | help
  | misuse
  deriving DecidableEq, Repr

def printFlag : String := "--print-configuration"

/-- The help names the file that the environment names. -/
def helpText (environment : Option String) : String :=
  "Pluggable HTTP gateway\n\n" ++
  "Usage: gatehouse [OPTIONS] [CONFIG]\n\n" ++
  "Arguments:\n" ++
  "  [CONFIG]  Configuration file (TOML); defaults apply when omitted [env: GATEHOUSE_CONF=" ++
  environment.getD "" ++ "]\n\n" ++
  "Options:\n" ++
  "      --print-configuration  Print the effective configuration and exit\n" ++
  "  -h, --help                 Print help\n"

/-- A file may be named once. -/
def withPath (c : CommandLine) (path : String) : Except Stop CommandLine :=
  if c.path.isSome || path = "" then .error .misuse else .ok { c with path := some path }

/-- The flag may be given once. -/
def withPrinting (c : CommandLine) : Except Stop CommandLine :=
  if c.printsConfiguration then .error .misuse else .ok { c with printsConfiguration := true }

def isOption (s : String) : Bool := s.toList.head? = some '-' && s ≠ "-"

/-- One argument before a double dash. -/
def withArgument (c : CommandLine) (s : String) : Except Stop CommandLine :=
  if s = "--help" || s.toList.take 2 = ['-', 'h'] then .error .help
  else if s = printFlag then c.withPrinting
  else if isOption s then .error .misuse
  else c.withPath s

/-- Arguments in order. Those after a double dash are no options. -/
def ofArguments (c : CommandLine) : List String → Except Stop CommandLine
  | [] => .ok c
  | s :: rest =>
    if s = "--" then rest.foldlM withPath c
    else do ofArguments (← c.withArgument s) rest

/-- The environment names a file where the arguments name none. -/
def withFallback (c : CommandLine) : Option String → Except Stop CommandLine
  | some path => if c.path.isSome then .ok c else c.withPath path
  | none => .ok c

def parse (arguments : List String) (environment : Option String) : Except Stop CommandLine := do
  (← ofArguments {} arguments).withFallback environment

/-- The configuration that a command line names. -/
def configuration (c : CommandLine) (files : FileTree) : Except ConfigError Config :=
  match c.path with
  | some path => Config.load files path
  | none => .ok {}

end CommandLine

/-- What a command ends with, as far as it ends by itself. -/
structure CommandResult where
  exit : UInt32
  output : String := ""
  deriving DecidableEq, Repr

namespace CommandLine

/-- Print the configuration. -/
def print (c : CommandLine) (files : FileTree) : CommandResult :=
  match (c.configuration files).toOption.bind Config.text? with
  | some text => { exit := 0, output := text ++ "\n" }
  | none => { exit := 1 }

/-- Serve until shutdown, which is no failure. -/
def serve (c : CommandLine) (files : FileTree) (isTaken : SocketAddress → Bool) : CommandResult :=
  match c.configuration files with
  | .error _ => { exit := 1 }
  | .ok config =>
    match config.start files isTaken with
    | .error _ => { exit := 1 }
    | .ok _ => { exit := 0 }

def execute (arguments : List String) (environment : Option String) (files : FileTree)
    (isTaken : SocketAddress → Bool) : CommandResult :=
  match parse arguments environment with
  | .error .help => { exit := 0, output := helpText environment }
  | .error .misuse => { exit := 2 }
  | .ok c => if c.printsConfiguration then c.print files else c.serve files isTaken

/-- The file that has to be read before a command can be carried out, if there is one. -/
def configurationFile? (arguments : List String) (environment : Option String) : Option String :=
  (parse arguments environment).toOption.bind (·.path)

/-- The files that have to be read besides, out of what the configuration says. -/
def certificateFiles (arguments : List String) (environment : Option String) (files : FileTree) :
    List String :=
  match (parse arguments environment).toOption.bind fun c => (c.configuration files).toOption with
  | none => []
  | some config => config.listener.tls.toList.flatMap fun t => [t.certPath, t.keyPath]

end CommandLine
end Gateway
