import FeedOutline.Cli.Run
import Std.Time.DateTime.Timestamp

/-!
The program: it takes in the files below the directory in which it runs and those that its arguments and its
configuration name, the environment and the time, leaves the work to `Cli.run`, and then writes what came
of it.
-/
namespace FeedOutline.Main

open Disk (Pathname FileTree)

/-- A file or directory, with all that lies below it. -/
partial def readEntry (names : List String) (e : IO.FS.DirEntry) : IO (List (List String × Disk.Entry)) := do
  let names := names ++ [e.fileName]
  if ← e.path.isDir then
    let below ← (← e.path.readDir).toList.mapM (readEntry names)
    return (names, .directory) :: below.flatten
  else
    let content ← IO.FS.readBinFile e.path
    return [(names, .file content.toList)]

def readNames (names : List String) : IO (List (List String × Disk.Entry)) := do
  let above := (List.range (names.length - 1)).map fun n => (names.take (n + 1), Disk.Entry.directory)
  let path := (← IO.currentDir) / ("/" ++ Text.joined "/" names)
  if ← path.isDir then return above ++ [(names, .directory)]
  else if ← path.pathExists then return above ++ [(names, .file (← IO.FS.readBinFile path).toList)]
  else return []

def readTree : IO FileTree := do
  let directory ← IO.currentDir
  let here := (Pathname.ofText directory.toString).names
  let entries ← (← directory.readDir).toList.mapM (readEntry here)
  return ⟨here, (← readNames here) ++ entries.flatten⟩

def withPaths (files : FileTree) (env : Environment) (paths : List String) : IO FileTree := do
  let names := paths.filterMap fun path =>
    ((Pathname.ofText path).expand env).toOption.map (Pathname.absolute files.here)
  let entries ← (names.filter fun n => (files.entry? n).isNone).mapM readNames
  return entries.flatten.foldl (fun t (n, e) => if (t.entry? n).isNone then t.set n e else t) files

def configured (files : FileTree) (env : Environment) (args : List String) : List String :=
  match Cli.Asked.ofArguments files args with
  | .ok (.request r) =>
    match (Settings.load files (Cli.sourceOf r) { env }).1.config with
    | some c => c.outline.files.map Text.AnyText.shown
    | none => []
  | _ => []

def readVariables : IO Variables := do
  let bytes ← IO.FS.readBinFile "/proc/self/environ"
  let text := (Text.decodeUtf8 bytes.toList).toOption.getD ""
  return (Text.splitOn '\x00' text.toList).filterMap fun v =>
    match v.dropWhile (· != '=') with
    | _ :: value => some (String.ofList (v.takeWhile (· != '=')), String.ofList value)
    | [] => none

def readFields (path : String) (sep : Char) : IO (List (List String)) := do
  return (Text.splitOn '\n' (← IO.FS.readFile path).toList).map fun line =>
    (Text.splitOn sep line).map String.ofList

def readEnvironment : IO Environment := do
  let users ← readFields "/etc/passwd" ':'
  let number := (← readFields "/proc/self/status" '\t').findSome? fun
    | "Uid:" :: number :: _ => some number
    | _ => none
  let homes (user : List String) : Option (String × String × String) :=
    match user with
    | [name, _, number, _, _, home, _] => some (number, name, home)
    | _ => none
  let homes := users.filterMap homes
  return ⟨← readVariables, (number.bind fun n => homes.lookup n).map (·.2), homes.map (·.2)⟩

def readTime : IO Data.Decimal := do
  let nanoseconds := (← Std.Time.Timestamp.now).toNanosecondsSinceUnixEpoch.val
  return .finite false (nanoseconds / 1000).toNat (-6)

def writeTree (before after : FileTree) : IO Unit := do
  for (names, e) in after.entries do
    if before.entries.lookup names != some e then
      match e with
      | .directory => IO.FS.createDirAll ("/" ++ Text.joined "/" names)
      | .file content => IO.FS.writeBinFile ("/" ++ Text.joined "/" names) ⟨content.toArray⟩
  for (names, e) in before.entries do
    if e != .directory && (after.entries.lookup names).isNone then
      IO.FS.removeFile ("/" ++ Text.joined "/" names)

end FeedOutline.Main

open FeedOutline in
def main (args : List String) : IO UInt32 := do
  let env ← Main.readEnvironment
  let files ← Main.withPaths (← Main.readTree) env args
  let files ← Main.withPaths files env (Main.configured files env args)
  let ended := Cli.run env files (← Main.readTime) args
  Main.writeTree files ended.outputs.files
  IO.print ended.outputs.out
  IO.eprint ended.outputs.err
  match ended.result with
  | .ok code => return UInt32.ofNat code
  | .error c =>
    IO.eprintln c.message
    return 1
