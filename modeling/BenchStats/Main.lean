import BenchStats.Command.Run

/-!
# The program

Runs the command that the command line asks for on the file system of the operating system.
-/

namespace BenchStats

/-- The number of a refusal; some operations report it with the opposite sign. -/
def refusalNumber (code : UInt32) : Nat := min code.toNat (-code).toNat

/-- A refusal of the operating system. -/
def FileError.ofIO (e : IO.Error) : FileError :=
  match e with
  | .noFileOrDirectory .. => .notFound
  | .alreadyExists .. => .alreadyExists
  | .inappropriateType _ code _ =>
    if refusalNumber code = 20 then .notDirectory
    else if refusalNumber code = 21 then .isDirectory
    else .other (toString e)
  | .invalidArgument _ code _ =>
    if refusalNumber code = 36 then .nameTooLong else .other (toString e)
  | .resourceExhausted _ code _ =>
    if refusalNumber code = 28 then .noSpace else .other (toString e)
  | e => .other (toString e)

/-- An action of the operating system with its refusal as a value. -/
def attempt {α : Type} (action : IO α) : IO (Except FileError α) := do
  try
    return .ok (← action)
  catch e =>
    return .error (.ofIO e)

instance : Host IO where
  Writer := IO.FS.Handle
  read path := attempt (IO.FS.readBinFile path)
  create path := attempt (IO.FS.Handle.mk path .write)
  write handle bytes := attempt do
    handle.write bytes
    return handle
  flush handle := attempt handle.flush
  createDirectory path := attempt (IO.FS.createDir path)
  isDirectory path := do
    ((← IO.currentDir) / path).isDir
  print text := attempt do
    let stdout ← IO.getStdout
    stdout.putStr text
    stdout.flush

end BenchStats

open BenchStats in
def main (words : List String) : IO UInt32 := do
  let outcome ← Command.execute (← IO.getEnv "MSTAT_CONFIG") words
  let report := outcome.report
  unless report.isEmpty do
    IO.eprintln report
  return outcome.code.toUInt32
