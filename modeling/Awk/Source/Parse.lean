import Awk.Source.Check
import Awk.Source.Statement

/-!
Programs from source text.

`Program.parse` applies the grammar and then the checks.  A report of the
grammar points at the furthest place that was reached, one of the checks at the
word it is about.
-/

namespace Awk

def Source.Complaint.located (source : List Char) (c : Source.Complaint) :
    Source.SyntaxError :=
  ⟨c.cause, some (Source.Position.ofOffset source c.offset)⟩

def Program.parse (source : String) (nesting : Nat) :
    Except Source.SyntaxError Program :=
  let cs := source.toList
  let attempt := Source.program nesting ⟨cs, 0⟩
  match attempt.result with
  | .tooDeep => .error ⟨.nestedTooDeeply, none⟩
  | .missed => .error (.ofPosition cs (.ofOffset cs attempt.reach))
  | .found items _ =>
      (Source.checkItems [] items).mapError (Source.Complaint.located cs)

end Awk
