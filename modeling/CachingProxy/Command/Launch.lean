import CachingProxy.Command.Options
import CachingProxy.Config.Document
import CachingProxy.Server.Server

/-!
# Launching a server

A launch loads the configuration, makes the server of it and lets it listen.  The first thing that
fails is reported with its causes, nearest first.
-/

set_option autoImplicit false

namespace CachingProxy.Command

/-- What a launch finds around it: the home directory, the files that it reads, and the disks that
it opens for a cache. -/
structure Surroundings where
  home : String
  read : String → Except SystemError Bytes
  volume : String → ContentCache.Volume

structure Failure where
  context : String
  cause : ProxyError

namespace Failure

/-- The causes, nearest first.  More than one are numbered. -/
def causeLines : List String → List String
  | [cause] => ["    " ++ cause]
  | causes => causes.zipIdx.map fun (cause, n) => "    " ++ toString n ++ ": " ++ cause

def report (failure : Failure) : String :=
  let causes := failure.cause.message :: failure.cause.causes
  "Error: " ++ failure.context ++ "\n\nCaused by:\n" ++
    String.join ((causeLines causes).map fun line => line ++ "\n")

end Failure

def defaultPath (home : String) : String := home ++ "/.config/masternode/config.json"

def logDirectory (home : String) : String := home ++ "/.local/share/masternode/logs"

def levels : List String :=
  ["trace", "debug", "info", "warn", "error", "off", "0", "1", "2", "3", "4", "5", ""]

def levelNotice (options : Options) : String :=
  let level := if options.debug then "debug" else options.logLevel.getD "info"
  if levels.contains (Text.lowercase level) then ""
  else "ignoring `masternode=" ++ level ++ "`: invalid filter directive\n"

def loadConfig (around : Surroundings) (options : Options) : Except Failure Config :=
  let path := options.config.getD (defaultPath around.home)
  match Config.ofFile (around.read path) with
  | .error cause => .error ⟨"failed to load configuration from " ++ path, cause⟩
  | .ok config =>
      match options.port with
      | some port => .ok (config.withPort port)
      | none => .ok config

def makeServer (around : Surroundings) (config : Config) : Except Failure Server :=
  match Server.ofConfig config (around.volume config.cache.diskPath)
      (around.read config.serviceWorker.path) with
  | .error cause => .error ⟨"failed to create proxy server", cause⟩
  | .ok server => .ok { server with edge := if config.peerNetwork.enabled then some {} else none }

def launch (around : Surroundings) (options : Options) : Except Failure (Config × Server) := do
  let config ← loadConfig around options
  let server ← makeServer around config
  match Listeners.bind [] server.address with
  | .error cause => .error ⟨"failed to start proxy server", .io cause⟩
  | .ok _ => return (config, server)

def announcement (config : Config) : String :=
  "for " ++ toString config.protectedDomains.length ++ " domain(s)"

def versionLine : String := "masternode 0.1.0\n"

def helpText : String := String.join [
  "Masternode caching reverse proxy binary\n\n",
  "Usage: masternode [OPTIONS]\n\n",
  "Options:\n",
  "  -c, --config <CONFIG>        Path to the JSON configuration file\n",
  "  -p, --port <PORT>            Override the listen port\n",
  "      --debug                  Enable debug logging\n",
  "      --log-level <LOG_LEVEL>  Set log level (error, warn, info, debug, trace) [default: info]\n",
  "  -h, --help                   Print help\n",
  "  -V, --version                Print version\n"]

/-- What a run of the program leaves behind. -/
inductive Ending where
  | usage
  | shown (text : String)
  | failed (errors : String)
  | serves (config : Config) (server : Server) (errors : String)

namespace Ending

def exitCode : Ending → UInt32
  | .usage => 2
  | .failed _ => 1
  | .shown _ | .serves _ _ _ => 0

def errors : Ending → String
  | .usage | .shown _ => ""
  | .failed errors | .serves _ _ errors => errors

def output : Ending → String
  | .shown text => text
  | _ => ""

end Ending

def run (around : Surroundings) (arguments : List String) : Ending :=
  match Options.read arguments with
  | none => .usage
  | some .help => .shown helpText
  | some .version => .shown versionLine
  | some (.run options) =>
      let notice := levelNotice options
      match launch around options with
      | .error failure => .failed (notice ++ failure.report)
      | .ok (config, server) => .serves config server notice

end CachingProxy.Command
