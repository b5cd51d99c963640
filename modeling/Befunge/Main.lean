import Befunge.CommandLine
import Befunge.Random.Seeded

/-! The command line program. -/
namespace Befunge

/-- The file that the arguments name, if there is one to read. -/
def fetch (arguments : List String) : IO (Option ByteArray) := do
  match CommandLine.parse arguments with
  | .ok (.execute options) =>
    try
      return some (← IO.FS.readBinFile (String.ofList options.file))
    catch _ =>
      return none
  | _ => return none

end Befunge

def main (arguments : List String) : IO UInt32 := do
  let content ← Befunge.fetch arguments
  let seed ← IO.rand 0 (UInt64.size - 1)
  let outcome := Befunge.CommandLine.answer arguments (fun _ => content)
    (Befunge.Random.Seeded.ofSeed (.ofNat seed))
  IO.print outcome.stdout
  (← IO.getStdout).flush
  IO.eprint outcome.stderr
  return .ofNat outcome.exitCode
