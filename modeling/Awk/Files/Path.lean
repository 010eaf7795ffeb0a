import Awk.Text.Split

/-!
Paths as texts with slashes.

`normalize` removes what a path does not need: empty components, single dots,
and each pair of a component and the double dot behind it.  Double dots at the
root go nowhere; at the front of a relative path they stay.
-/

namespace Awk.Path

def components (path : String) : List String :=
  (Text.splitOn '/' path.toList).map String.ofList

def isAbsolute (path : String) : Bool := path.toList.head? == some '/'

/-- How many slashes a path keeps at its front: two if it has exactly two. -/
def leadingSlashes (path : String) : Nat :=
  match path.toList with
  | '/' :: '/' :: '/' :: _ => 1
  | '/' :: '/' :: _ => 2
  | '/' :: _ => 1
  | _ => 0

/-- One component more, the last one first; `rooted` tells that the path starts
at the root. -/
def step (rooted : Bool) (kept : List String) (component : String) :
    List String :=
  if component = "" ∨ component = "." then kept
  else if component = ".." then
    match kept with
    | [] => if rooted then [] else [".."]
    | last :: rest => if last = ".." then ".." :: kept else rest
  else component :: kept

def reduce (rooted : Bool) (parts : List String) : List String :=
  (parts.foldl (step rooted) []).reverse

def normalize (path : String) : String :=
  let slashes := leadingSlashes path
  let parts := reduce (slashes != 0) (components path)
  let text := String.ofList (List.replicate slashes '/') ++
    "/".intercalate parts
  if text = "" then "." else text

def join (base name : String) : String :=
  if isAbsolute name then name
  else if base = "" ∨ base.toList.getLast? = some '/' then base ++ name
  else base ++ "/" ++ name

def absolute (directory name : String) : String :=
  "/" ++ "/".intercalate (reduce true (components (join directory name)))

def shown (path : String) : String :=
  let parts := (components path).filter fun part => part != "" && part != "."
  let text := String.ofList (List.replicate (leadingSlashes path) '/') ++
    "/".intercalate parts
  if text = "" then "." else text

def lastPart (path : String) : String := (components path).getLastD ""

def extension (path : String) : String :=
  let name := (lastPart path).toList
  let bare := name.dropWhile (· == '.')
  match (Text.splitOn '.' bare).reverse with
  | last :: _ :: _ => String.ofList ('.' :: last)
  | _ => ""

end Awk.Path
