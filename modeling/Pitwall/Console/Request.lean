import Pitwall.Console.Commentary

/-!
# Requests — what is asked for on the command line

A request names a recording and how it is to be played back. Its answer is the commentary on
the recording.
-/

namespace Pitwall

/-- The request to play back a recording. -/
structure Request where
  input : String
  /-- Whether the gaps between the frames are kept. -/
  paced : Bool
  /-- Whether speeds are shown in mph. -/
  useMph : Bool
  deriving DecidableEq

namespace Request

/-- How requests are written. -/
def usage : String := "Usage: pitwall replay --input <INPUT> [--paced] [--mph]"

/-- Reads the options of a request; the name of the file has to be among them, once. -/
def ofOptions? (input : Option String) (paced useMph : Bool) : List String → Option Request
  | [] => input.map (fun file => ⟨file, paced, useMph⟩)
  | "--paced" :: rest | "-p" :: rest => ofOptions? input true useMph rest
  | "--mph" :: rest => ofOptions? input paced true rest
  | "--input" :: file :: rest | "-i" :: file :: rest =>
    if input.isSome then none else ofOptions? (some file) paced useMph rest
  | _ => none

/-- Reads the words of a command line. -/
def ofWords? : List String → Option Request
  | "replay" :: options => ofOptions? none false false options
  | _ => none

/-- The commentary that a request asks for, given the text of the recording. -/
def answer (r : Request) (text : String) : Except Fault (List (List (Nat × String))) :=
  (Recording.load text).map (fun frames =>
    Commentary.ofSources (.ofUseMph r.useMph) {}
      ((Recording.runs frames).map (Pacing.source default r.paced)))

end Request

end Pitwall
