import CachingProxy.Command.Launch

/-!
# The program

The outer layer: it reads the files that a launch asks for, makes the directory of the cache, and
writes what the run leaves behind.  A server that can listen is announced; carrying octets between
its address and the library is left to the environment.
-/

set_option autoImplicit false

namespace CachingProxy.Program

abbrev Files := Keyed String (Except SystemError Bytes)

def failure : IO.Error → SystemError
  | .noFileOrDirectory _ _ _ => .notFound
  | .inappropriateType _ code _ => if code = 21 then .isADirectory else .notADirectory
  | cause => .other (toString cause)

def readFile (path : String) : IO (Except SystemError Bytes) := do
  try
    return .ok (← IO.FS.readBinFile path).toList
  catch cause =>
    return .error (failure cause)

def withFile (files : Files) (path : String) : IO Files := do
  return files.put path (← readFile path)

def openVolume (path : String) : IO ContentCache.Volume := do
  try
    IO.FS.createDirAll path
    return .ok .empty
  catch cause =>
    return .error (failure cause)

def surroundings (home : String) (files : Files) (volume : ContentCache.Volume) :
    Command.Surroundings :=
  { home, read := fun path => (files.get? path).getD (.error .notFound), volume := fun _ => volume }

/-- Finds out what a run with some options will look at. -/
def lookAround (home : String) (options : Command.Options) : IO Command.Surroundings := do
  let files ← withFile [] (options.config.getD (Command.defaultPath home))
  match Command.loadConfig (surroundings home files (.ok .empty)) options with
  | .error _ => return surroundings home files (.ok .empty)
  | .ok config =>
      let files ←
        if config.serviceWorker.enabled then withFile files config.serviceWorker.path
        else pure files
      let volume ←
        if config.cache.diskPath.isEmpty then pure (.ok .empty)
        else openVolume config.cache.diskPath
      return surroundings home files volume

def run (home : String) (arguments : List String) : IO Command.Ending := do
  match Command.Options.read arguments with
  | some (.run options) => return Command.run (← lookAround home options) arguments
  | _ => return Command.run (surroundings home [] (.ok .empty)) arguments

end CachingProxy.Program

def main (arguments : List String) : IO UInt32 := do
  let home := (← IO.getEnv "HOME").getD "/"
  let ending ← CachingProxy.Program.run home arguments
  IO.print ending.output
  IO.eprint ending.errors
  match ending with
  | .usage => IO.eprint CachingProxy.Command.helpText
  | .serves config server _ =>
      IO.println ("Masternode listening on " ++ server.address.text ++ " " ++
        CachingProxy.Command.announcement config)
  | _ => pure ()
  return ending.exitCode
