import Pitwall.Console.Request

/-!
# The command line

Reads the request, the file that it names, and prints the commentary at its times.
-/

namespace Pitwall

/-- Prints lines, each at its time; `clock` is the time now. -/
def printLines (clock : Nat) : List (Nat × String) → IO Unit
  | [] => pure ()
  | (time, line) :: rest => do
    if clock < time then IO.sleep (UInt32.ofNat ((time - clock) / 1000000))
    IO.println line
    printLines (max clock time) rest

/-- Reads the text of the file at a path. -/
def readText (path : String) : IO (Except Fault String) := do
  try
    return .ok (← IO.FS.readFile path)
  catch
    | .noFileOrDirectory .. => return .error (.noRecording path)
    | _ => return .error .recordingNotRead

/-- Prints a line to where errors go and gives the exit code of a failure. -/
def fail (message : String) : IO UInt32 := do
  IO.eprintln message
  return 1

end Pitwall

/-- Plays back the recording that the command line names. -/
def main (words : List String) : IO UInt32 := do
  match Pitwall.Request.ofWords? words with
  | none => Pitwall.fail Pitwall.Request.usage
  | some request =>
    match (← Pitwall.readText request.input) >>= request.answer with
    | .error fault => Pitwall.fail fault.message
    | .ok sources =>
      for lines in sources do Pitwall.printLines 0 lines
      return 0
