import Awk.Files.Path
import Awk.Table
import Awk.Text.Split
import Awk.Text.Utf8

/-!
Where programs read files from.

Files in memory are kept by normal absolute paths.  Local files are behind a
root, if one is set: names that lead out of it are refused.
-/

namespace Awk

inductive DiskEntry where
  | missing
  | notDirectory
  | directory
  | file (bytes : ByteArray)
  | unread

abbrev Disk := String → DiskEntry

inductive ReadError where
  | missing
  | notDirectory
  | directory
  | notText (flaw : Text.Utf8.Flaw)
  | unread
  deriving DecidableEq, Repr

def ReadError.reason : ReadError → String
  | .missing => "No such file or directory"
  | .notDirectory => "Not a directory"
  | .directory => "Is a directory"
  | .notText flaw => flaw.message
  | .unread => "not read yet"

def Disk.readText (disk : Disk) (path : String) : Except ReadError String :=
  match disk path with
  | .missing => .error .missing
  | .notDirectory => .error .notDirectory
  | .directory => .error .directory
  | .unread => .error .unread
  | .file bytes =>
      match Text.Utf8.decode bytes with
      | .ok text => .ok text
      | .error flaw => .error (.notText flaw)

structure LocalFiles where
  root : Option String
  directory : String
  homes : Table String
  disk : Disk

def LocalFiles.behind (root : Option String) (directory : String)
    (homes : Table String) (disk : Disk) :
    LocalFiles :=
  { root := root.map (Path.absolute directory), directory := directory,
    homes := homes, disk := disk }

inductive FileSystem where
  | memory (files : Table String)
  | onDisk (files : LocalFiles)

/-! ## Names -/

def givenDirectory (directory : Option String) : Option String :=
  directory.filter (· != "")

/-- A tilde and a user at the front of a name stand for a home directory. -/
def expandHome (homes : Table String) (name : String) : String :=
  match name.toList with
  | '~' :: rest =>
      let user := rest.takeWhile (· != '/')
      match homes.get? (String.ofList user) with
      | none => name
      | some home =>
          let base := (home.toList.reverse.dropWhile (· == '/')).reverse
          let expanded := String.ofList (base ++ rest.drop user.length)
          if expanded = "" then "/" else expanded
  | _ => name

def isInside (root path : String) : Bool :=
  path == root || (Text.dropFront? (root ++ "/").toList path.toList).isSome

def memoryPath (cwd : Option String) (name : String) : String :=
  Path.normalize (Path.join ((givenDirectory cwd).getD "/") name)

/-- The path of a name; none if it leads out of the root or is no name at
all. -/
def LocalFiles.resolve (files : LocalFiles) (cwd : Option String)
    (name : String) : Option String :=
  let base := (givenDirectory cwd <|> files.root).getD files.directory
  let joined := Path.join base (expandHome files.homes name)
  if joined.toList.contains '\x00' then none
  else
    let path := Path.absolute files.directory joined
    match files.root with
    | none => some path
    | some root => if isInside root path then some path else none

namespace FileSystem

def resolve (fs : FileSystem) (cwd : Option String) (name : String) :
    Option String :=
  match fs with
  | .memory _ => some (memoryPath cwd name)
  | .onDisk files => files.resolve cwd name

def read (fs : FileSystem) (path : String) : Except ReadError String :=
  match fs with
  | .memory files =>
      match files.get? path with
      | some text => .ok text
      | none => .error .missing
  | .onDisk files => files.disk.readText path

def describe (fs : FileSystem) (path : String) (e : ReadError) : String :=
  match fs with
  | .memory _ => path
  | .onDisk _ => e.reason ++ ": " ++ path

def ofFiles (files : List (String × String)) : FileSystem :=
  .memory (Table.ofList (files.map fun (name, text) =>
    (memoryPath (some "/") name, text)))

def write (fs : FileSystem) (name text : String) : FileSystem :=
  match fs with
  | .memory files => .memory (files.insert (memoryPath (some "/") name) text)
  | .onDisk files => .onDisk files

end FileSystem

end Awk
