import Awk.CommandLine.Run

/-!
The command line program.

A run is repeated with what it asked for until it asks for nothing more: files
are read once, when they are first needed, and so is the standard input.
-/

namespace Awk.Main

open CommandLine

def usage : String :=
  "usage: awk [-F fs] [-v name=value] [-f progfile] [--config file] " ++
    "[--max-iterations n] [--max-recursion-depth n] [program] [file ...]"

abbrev Known := List (String × DiskEntry)

def diskOf (known : Known) : Disk :=
  fun path => (known.lookup path).getD .unread

def readEntry (path : String) : IO DiskEntry := do
  try
    return .file (← IO.FS.readBinFile path)
  catch e =>
    match e with
    | .noFileOrDirectory .. => return .missing
    | .inappropriateType .. => return .directory
    | _ => return .missing

def environment (names : List String) : IO (Table String) := do
  let mut table : Table String := {}
  for name in names do
    if let some value ← IO.getEnv name then table := table.insert name value
  return table

def complainOf : Stop → String
  | .refused _ => usage
  | .notText path => "awk: " ++ path ++ ": invalid UTF-8"
  | .setting e => "awk: " ++ e.message
  | .fault (.pattern _) => "awk: invalid pattern"
  | .fault _ => "awk: value out of range"
  | .needsFile path => "awk: cannot read " ++ path
  | .needsStdin => "awk: cannot read standard input"

/-- Run, and read what the run asks for. -/
partial def serve (w : World) (known : Known) (args : List String) :
    IO UInt32 := do
  match CommandLine.run { w with disk := diskOf known } args with
  | .ok shown =>
      IO.print shown.stdout
      IO.eprint shown.stderr
      return (shown.exitCode % 256).toNat.toUInt32
  | .error (.needsFile path) => serve w ((path, ← readEntry path) :: known) args
  | .error .needsStdin =>
      serve { w with stdin := some (← (← IO.getStdin).readToEnd) } known args
  | .error (.refused .help) =>
      IO.println usage
      return 0
  | .error stop =>
      IO.eprintln (complainOf stop)
      return 2

end Awk.Main

def main (args : List String) : IO UInt32 := do
  let directory := (← IO.currentDir).toString
  let environ ← Awk.Main.environment ["AWK_MAX_ITERATIONS",
      "AWK_MAX_RECURSION_DEPTH", "AWK_DEBUG"]
  let homes ← Awk.Main.environment ["HOME"]
  let world : Awk.CommandLine.World :=
    { disk := fun _ => .unread
      directory := directory
      homes := Awk.Table.ofList (homes.entries.map fun (_, home) => ("", home))
      environ := environ
      platform := { clock := (← IO.monoMsNow) / 1000 } }
  Awk.Main.serve world [] args
