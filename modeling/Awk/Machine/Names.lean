import Awk.Machine.Record

/-!
What names stand for: special variables, scalars and arrays.

A name that holds the empty text becomes an array when it is first used as one.
Reading an element creates it.
-/

namespace Awk

/-! ## Special variables -/

inductive NumberSpecial where
  | nr
  | fnr
  | rstart
  | rlength
  deriving DecidableEq, Repr

inductive TextSpecial where
  | fs
  | ofs
  | ors
  | rs
  | subsep
  | convfmt
  | ofmt
  | filename
  deriving DecidableEq, Repr

inductive NameKind where
  | fieldCount
  | number (s : NumberSpecial)
  | text (s : TextSpecial)
  | ordinary
  deriving DecidableEq, Repr

def NameKind.ofName : String → NameKind
  | "NF" => .fieldCount
  | "NR" => .number .nr
  | "FNR" => .number .fnr
  | "RSTART" => .number .rstart
  | "RLENGTH" => .number .rlength
  | "FS" => .text .fs
  | "OFS" => .text .ofs
  | "ORS" => .text .ors
  | "RS" => .text .rs
  | "SUBSEP" => .text .subsep
  | "CONVFMT" => .text .convfmt
  | "OFMT" => .text .ofmt
  | "FILENAME" => .text .filename
  | _ => .ordinary

namespace Specials

def number (s : Specials) : NumberSpecial → Number
  | .nr => s.nr
  | .fnr => s.fnr
  | .rstart => s.rstart
  | .rlength => s.rlength

def setNumber (s : Specials) (x : Number) : NumberSpecial → Specials
  | .nr => { s with nr := x }
  | .fnr => { s with fnr := x }
  | .rstart => { s with rstart := x }
  | .rlength => { s with rlength := x }

def text (s : Specials) : TextSpecial → String
  | .fs => s.fs
  | .ofs => s.ofs
  | .ors => s.ors
  | .rs => s.rs
  | .subsep => s.subsep
  | .convfmt => s.convfmt
  | .ofmt => s.ofmt
  | .filename => s.filename

def setText (s : Specials) (t : String) : TextSpecial → Specials
  | .fs => { s with fs := t }
  | .ofs => { s with ofs := t }
  | .ors => { s with ors := t }
  | .rs => { s with rs := t }
  | .subsep => { s with subsep := t }
  | .convfmt => { s with convfmt := t }
  | .ofmt => { s with ofmt := t }
  | .filename => { s with filename := t }

end Specials

/-! ## Bindings -/

inductive Binding where
  | scalar (v : Value)
  | array (id : ArrayId)
  deriving DecidableEq, Repr

structure Slot where
  scalar : Option Value
  array : Option ArrayId
  deriving DecidableEq, Repr

def Binding.slot : Binding → Slot
  | .scalar v => ⟨some v, none⟩
  | .array id => ⟨none, some id⟩

namespace Names

def array (n : Names) (id : ArrayId) : Table Value := n.store.getD id {}

def setArray (n : Names) (id : ArrayId) (t : Table Value) : Names :=
  { n with store := n.store.setIfInBounds id t }

def newArray (n : Names) (name : String) : Names × ArrayId :=
  let id := n.store.size
  ({ scalars := n.scalars.erase name, arrays := n.arrays.insert name id,
     store := n.store.push {} }, id)

def slot (n : Names) (name : String) : Slot :=
  ⟨n.scalars.get? name, n.arrays.get? name⟩

def setSlot (n : Names) (name : String) (s : Slot) : Names :=
  { n with
    scalars := n.scalars.set name s.scalar
    arrays := n.arrays.set name s.array }

/-- The array of a name that may become one; an error if it holds a scalar that
is not empty. -/
def useArray (n : Names) (name : String) : Except Fatal (Names × ArrayId) :=
  match n.arrays.get? name with
  | some id => .ok (n, id)
  | none =>
      match n.scalars.get? name with
      | none => .ok (n.newArray name)
      | some v =>
          if v = .text "" then .ok (n.newArray name)
            else .error (.scalarAsArray name)

def peekArray (n : Names) (name : String) : Except Fatal (Table Value) :=
  match n.arrays.get? name with
  | some id => .ok (n.array id)
  | none =>
      match n.scalars.get? name with
      | none => .ok {}
      | some v => if v = .text "" then .ok {} else .error (.scalarAsArray name)

end Names

namespace Exec

/-! ## Scalars -/

def readVariable (name : String) : Exec Value := do
  match NameKind.ofName name with
  | .fieldCount => return .number (← fieldCount)
  | .number s => return .number ((← get).specials.number s)
  | .text s => return .text ((← get).specials.text s)
  | .ordinary =>
      let names := (← get).names
      if names.arrays.contains name then fatal (.arrayAsScalar name)
      else return (names.scalars.get? name).getD Value.unset

def assignVariable (name : String) (v : Value) : Exec Unit := do
  match NameKind.ofName name with
  | .fieldCount => setFieldCount v.toNumber
  | .number s =>
      modify fun m => { m with specials := m.specials.setNumber v.toNumber s }
  | .text s =>
      let text ← textOf v
      modify fun m => { m with specials := m.specials.setText text s }
  | .ordinary =>
      if (← get).names.arrays.contains name then fatal (.arrayAsScalar name)
      else modify fun m =>
        { m with names := { m.names with
          scalars := m.names.scalars.insert name v } }

/-! ## Arrays -/

def useArray (name : String) : Exec ArrayId := do
  let (names, id) ← orFatal ((← get).names.useArray name)
  modify fun m => { m with names := names }
  return id

def arrayAt (id : ArrayId) :
    Exec (Table Value) := do return (← get).names.array id

def updateArray (id : ArrayId) (f : Table Value → Table Value) : Exec Unit :=
  modify fun m => { m with names := m.names.setArray id (f (m.names.array id)) }

/-- An element, which is created if it is not there. -/
def getElement (name key : String) : Exec Value := do
  let id ← useArray name
  match (← arrayAt id).get? key with
  | some v => return v
  | none =>
      updateArray id fun t => t.insert key Value.unset
      return Value.unset

def setElement (name key : String) (v : Value) : Exec Unit := do
  let id ← useArray name
  updateArray id fun t => t.insert key v

def hasElement (name key : String) : Exec Bool := do
  let t ← orFatal ((← get).names.peekArray name)
  return t.contains key

def deleteElement (name key : String) : Exec Unit := do
  let id ← useArray name
  updateArray id fun t => t.erase key

def clearArray (name : String) : Exec Unit := do
  let id ← useArray name
  updateArray id fun _ => {}

def fillArray (id : ArrayId) (texts : List String) : Exec Unit :=
  updateArray id fun _ => Table.numbered (texts.map Value.text)

end Exec

end Awk
