import Awk.Machine.Basic

/-!
What a run writes.

Output is kept as text, and so is what is redirected.  A target that is not open
is emptied by `>` when it is first written to; after that both kinds of
redirection append until it is closed.
-/

namespace Awk

namespace Output

def write (o : Output) (text : String) : Output :=
  { o with text := o.text ++ text }

def writeTo (o : Output) (target text : String) (append : Bool) : Output :=
  let kept :=
    if append || o.opened.contains target then (o.redirects.get? target).getD ""
      else ""
  { o with
    redirects := o.redirects.insert target (kept ++ text)
    opened := if o.opened.contains target then o.opened
      else target :: o.opened }

def isOpen (o : Output) (target : String) : Bool := o.opened.contains target

def close (o : Output) (target : String) : Output :=
  { o with opened := o.opened.filter (· != target) }

end Output

namespace Exec

def emit (text : String) : Exec Unit :=
  modify fun m => { m with output := m.output.write text }

def emitTo (target text : String) (append : Bool) : Exec Unit :=
  modify fun m => { m with output := m.output.writeTo target text append }

def closeTarget (target : String) : Exec Bool := do
  let wasOpen := (← get).output.isOpen target
  modify fun m => { m with output := m.output.close target }
  return wasOpen

end Exec

end Awk
