import Awk.Files.FileSystem

/-!
A disk that holds given files.  Their directories are there too, and so is the
working directory.
-/

namespace Awk.Disk

abbrev Place := List String

def placeOf (cwd name : String) : Place :=
  (Path.reduce true (Path.components (Path.join cwd name))).reverse

def isDirectory (places : List Place) (place : Place) : Bool :=
  place.isEmpty || places.any fun p => place.length < p.length &&
    place.isSuffixOf p

def fileAt? (files : List (Place × ByteArray)) (place : Place) :
    Option ByteArray := files.lookup place

/-- Follow the components of a path from a place on. -/
def follow (files : List (Place × ByteArray)) (places : List Place)
    (place : Place) :
    List String → DiskEntry
  | [] =>
      match fileAt? files place with
      | some bytes => .file bytes
      | none => if isDirectory places place then .directory else .missing
  | part :: rest =>
      if (fileAt? files place).isSome then .notDirectory
      else if !isDirectory places place then .missing
      else if part = "" ∨ part = "." then follow files places place rest
      else if part = ".." then follow files places place.tail rest
      else follow files places (part :: place) rest

def ofFiles (cwd : String) (files : List (String × ByteArray)) : Disk :=
  let placed := files.map fun (name, bytes) => (placeOf cwd name, bytes)
  let inside := ("." :: placeOf cwd "")
  let places := inside :: placed.map Prod.fst
  fun path => follow placed places [] (Path.components (Path.join cwd path))

end Awk.Disk
