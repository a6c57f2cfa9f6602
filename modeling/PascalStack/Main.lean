import PascalStack.Compiler
import PascalStack.Text.Decoding

/-!
# The command line

Reads a source file, compiles it, prints what the compiler has to say and writes the code file
beside the folder of the sources.
-/

namespace PascalStack.Main

/-- The fault that an error of the system is. -/
def faultOf (path : String) : IO.Error → Fault
  | .inappropriateType .. => .isADirectory path
  | _ => .noSuchFile path

/-- The text of a file. -/
def readText (path : String) : IO (Except Fault String) := do
  try
    let bytes ← IO.FS.readBinFile path
    return Text.ofBytes bytes.toList
  catch e => return .error (faultOf path e)

/-- Compiles the file that is named on the command line. -/
def compile (args : List String) : IO UInt32 := do
  let source ← match args with
    | [path] => readText path
    | _ => pure (.ok "")
  let (result, desk) := Compiler.run (Compiler.compileFile (fun _ => source) args)
  IO.print desk.out
  desk.files.forM fun (name, text) => IO.FS.writeFile (Code.directory ++ name) text
  match result with
  | .ok status => return UInt32.ofNat status
  | .error fault =>
    IO.eprintln fault.message
    return UInt32.ofNat Compiler.failure

end PascalStack.Main

def main (args : List String) : IO UInt32 := PascalStack.Main.compile args
