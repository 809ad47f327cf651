/-
DiagramBoard.Main — the program: reads files, prints, and sets the exit code.
-/
import DiagramBoard.CommandLine

open DiagramBoard.CommandLine

/-- The whole content of a stream that is text. -/
partial def readStream (stream : IO.FS.Stream) (bytes : ByteArray) : IO (Option String) := do
  let chunk ← stream.read 65536
  if chunk.isEmpty then return String.fromUTF8? bytes
  else readStream stream (bytes ++ chunk)

/-- The content of a file or of the standard input, if it can be read. -/
def readSource (file : Option String) : IO (Option String) := do
  try
    match file with
    | none => readStream (← IO.getStdin) ByteArray.empty
    | some path => return some (← IO.FS.readFile path)
  catch _ => return none

def main (arguments : List String) : IO UInt32 := do
  let outcome ← run readSource arguments
  match outcome with
  | .refused => IO.eprintln "usage: (reconcile | describe | format) [FILE] [OPTIONS]"
  | .failed e => IO.eprintln ("ERROR: " ++ e.message)
  | .printed text => IO.print text
  return outcome.exitCode.toUInt32
