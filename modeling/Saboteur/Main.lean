import Saboteur.CommandLine.Help
import Saboteur.Node.Script
import Saboteur.Program

/-!
# The command

Reads the files that a command line names and hands their texts to `Program.start`. There is no
transport to a node here, so every node is out of reach and a start that gets as far as asking the
beacon node gives up when its time is over.
-/

namespace Saboteur.Main

/-- The reason why the system could not read a file. -/
def fileError : IO.Error → FileError
  | .permissionDenied .. => .denied
  | .inappropriateType .. => .directory
  | _ => .notFound

/-- Reads one more file, if a path is given. -/
def readInto (files : FileTexts) : Option String → IO FileTexts
  | none => return files
  | some path => do
    let text : Except FileError String ← try
      let bytes ← IO.FS.readBinFile path
      pure ((String.fromUTF8? bytes).elim (.error .notText) .ok)
    catch e => pure (.error (fileError e))
    return fun p => if p = path then text else files p

/-- The files that a command line names: first that of the settings, then that of the strategy,
which the settings may name. -/
def readFiles (arguments : List String) : IO FileTexts := do
  let settingsFile := match CommandLine.parse arguments with
    | .ok flags => flags.get? .configFile
    | .error _ => none
  let files ← readInto FileTexts.none settingsFile
  let strategyFile := match Program.settings files arguments with
    | .ok s => s.strategyFile
    | .error _ => none
  readInto files strategyFile

/-- How many milliseconds the beacon node may take. -/
def limit : Nat := 60000

/-- Says what there is to say about an end. -/
def announce : Ending → IO Unit
  | .commandLine .help => IO.println CommandLine.help
  | .commandLine .version => IO.println CommandLine.version
  | .commandLine s => IO.eprintln s.text
  | e => e.message?.forM fun message => IO.eprintln message

/-- Runs the program on a command line. -/
def run (arguments : List String) : IO UInt32 := do
  let files ← readFiles arguments
  let occasion : Occasion := ⟨.zero, RandomStream.progression 0 0, files, limit⟩
  let ending := match (Program.start occasion arguments Script.disconnected).1 with
    | .ok _ => .signalled
    | .error e => e
  announce ending
  return UInt32.ofNat ending.code

end Saboteur.Main

def main (arguments : List String) : IO UInt32 := Saboteur.Main.run arguments
