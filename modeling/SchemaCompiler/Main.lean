import SchemaCompiler.Command.Run
import Std.Time

/-!
# The program

The command line program around `Command.Invocation.run`: it reads the files that a run can look at,
asks the question of the run, and carries out what the run reports.
-/

namespace SchemaCompiler.Program

open Command

/-- How the program is called. -/
def usage : String :=
  "Usage: [-v | -q] gen -i FILE [-o FILE] [-y] [--no-serializers] [--config FILE] " ++
    "[--allow-redefinition]\n" ++
  "       [-v | -q] dump -i FILE [--config FILE] [--allow-redefinition]\n"

/-- A path made of names. -/
def pathOf : List String → String
  | "/" :: names => "/" ++ String.intercalate "/" names
  | names => String.intercalate "/" names

/-- What stands at a path of the file system. Reading a directory fails with the code 21. -/
def entryAt (path : String) : IO (Option Entry) := do
  try
    return some (.file (← IO.FS.readBinFile path))
  catch
    | .inappropriateType _ 21 _ => return some .directory
    | _ => return none

/-- What stands at a path and at the directories that lead to it. -/
def entriesAlong (path : String) : IO (List (Place × Entry)) := do
  let names := namesOf path
  let mut entries := []
  for count in List.range names.length do
    let start := names.take (count + 1)
    if let some entry ← entryAt (pathOf start) then
      entries := (start.foldl Place.step [], entry) :: entries
  return entries

/-- The paths that a run can look at. -/
def pathsOf (invocation : Invocation) : List String :=
  let output :=
    match invocation.task with
    | .generate output _ _ => output.toList
    | .dump => []
  invocation.input :: (invocation.config.toList ++ output)

/-- The first line of the input with its end. -/
partial def readLine (input : IO.FS.Stream) (line : ByteArray) : IO ByteArray := do
  let more ← input.read 1
  if more.isEmpty || more.toList == [10] then return line ++ more
  else readLine input (line ++ more)

/-- The time in the form of the log. -/
def now : IO String := do
  let time ← Std.Time.PlainDateTime.now
  return toString time

/-- Runs a command line that was understood. -/
def run (invocation : Invocation) : IO UInt32 := do
  let errors ← IO.getStderr
  let files : Files := ⟨(← (pathsOf invocation).mapM entriesAlong).flatten⟩
  let question :=
    match invocation.loadOptions files with
    | .ok _ => invocation.question? files
    | .error _ => none
  let mut answer := ByteArray.empty
  if let some output := question then
    errors.putStr ((Notice.question output).render invocation.verbosity "")
    errors.flush
    answer ← readLine (← IO.getStdin) ByteArray.empty
  let report := invocation.run files answer
  let time ← now
  for notice in report.notices do
    if let .compiled _ output := notice then
      if let .ok header := report.files.readText output then
        IO.FS.writeFile output header
    match notice with
    | .question _ => pure ()
    | _ => errors.putStr (notice.render invocation.verbosity time)
  IO.print report.output
  return report.status.toUInt32

end SchemaCompiler.Program

/-- The command line program. -/
def main (arguments : List String) : IO UInt32 := do
  match SchemaCompiler.Command.Invocation.ofArguments? arguments with
  | some invocation => SchemaCompiler.Program.run invocation
  | none =>
    (← IO.getStderr).putStr SchemaCompiler.Program.usage
    return 2
