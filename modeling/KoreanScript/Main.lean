import KoreanScript.CommandLine

/-!
The program: the command line on the console of the process and its files. The
dialogue answers each line before it reads the next.
-/
namespace KoreanScript.Terminal

/-- The bytes of a file, or why they cannot be read. -/
def readBytes (name : String) : IO (Except FileFault (List UInt8)) := do
  try
    let bytes ← IO.FS.readBinFile name
    return .ok bytes.toList
  catch fault =>
    match fault with
    | .noFileOrDirectory .. => return .error .absent
    | .inappropriateType .. => return .error .directory
    | _ => return .error (.other (toString fault))
/-- The bytes of the next line, with its line feed. -/
partial def readLine (stdin : IO.FS.Stream) (line : List UInt8) : IO (List UInt8) := do
  let byte ← stdin.read 1
  match byte.toList with
  | [] => return line.reverse
  | b :: _ => if b = 0x0A then return (b :: line).reverse else readLine stdin (b :: line)
/-- Writes a text out at once. -/
def say (text : String) : IO Unit := do
  let stdout ← IO.getStdout
  stdout.putStr text
  stdout.flush
def console : Repl.Console IO where
  readLine := do readLine (← IO.getStdin) []
  say := say
/-- Writes an exit and answers its code. -/
def leave (e : Exit) : IO UInt32 := do
  say e.stdout
  (← IO.getStderr).putStr e.stderr
  return UInt32.ofNat e.code

end KoreanScript.Terminal

open KoreanScript in
def main (arguments : List String) : IO UInt32 := do
  Terminal.leave (← CommandLine.perform Terminal.console Terminal.readBytes callDepth arguments)
