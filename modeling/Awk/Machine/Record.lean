import Awk.Machine.Basic
import Awk.Splitter

/-!
The current record and its fields.

Assigning `$0` cuts it into fields anew.  Assigning another field or `NF` joins
the fields into a new `$0`.
-/

namespace Awk

def maxField : Int := 1000000

def fieldNumber (index : Number) : Except Fatal Nat :=
  match index.truncate? with
  | none => .error (.fieldNotFinite index)
  | some i =>
      if i < 0 then .error (.fieldNegative i)
      else if maxField < i then .error (.fieldTooLarge i)
      else .ok i.toNat

namespace Record

/-- Field zero is the record itself; fields that are not there are empty. -/
def get (r : Record) (i : Nat) : String :=
  match i with
  | 0 => r.line
  | n + 1 => r.fields.getD n ""

def ofFields (ofs : String) (fields : List String) : Record :=
  ⟨ofs.intercalate fields, fields⟩

def padded (fields : List String) (n : Nat) : List String :=
  fields ++ List.replicate (n - fields.length) ""

def assignField (r : Record) (ofs : String) (n : Nat) (text : String) :
    Record :=
  ofFields ofs ((padded r.fields (n + 1)).set n text)

def setCount (r : Record) (ofs : String) (n : Nat) : Record :=
  ofFields ofs (padded (r.fields.take n) n)

end Record

namespace Exec

def orFatal {α : Type} : Except Fatal α → Exec α
  | .ok a => pure a
  | .error cause => fatal cause

def splitWith (text separator : String) : Exec (List String) := do
  if text = "" then return []
  match Splitter.ofFieldSeparator? separator with
  | some s => return s.split text
  | none =>
      match Splitter.ofPattern separator (← regex separator) with
      | .ok s => return s.split text
      | .error e => throw (.pattern e)

/-- Replace the record, and cut it into fields. -/
def setLine (text : String) : Exec Unit := do
  modify fun m => { m with record := { m.record with line := text } }
  let fields ← splitWith text (← get).specials.fs
  modify fun m => { m with record := { m.record with fields := fields } }

def readField (index : Number) : Exec Value := do
  let i ← orFatal (fieldNumber index)
  return .text ((← get).record.get i)

def assignField (index : Number) (v : Value) : Exec Unit := do
  let i ← orFatal (fieldNumber index)
  let text ← textOf v
  match i with
  | 0 => setLine text
  | n + 1 =>
      modify fun m => { m with
        record := m.record.assignField m.specials.ofs n text }

def fieldCount :
    Exec Number := do return Number.ofNat (← get).record.fields.length

def setFieldCount (count : Number) : Exec Unit := do
  let n ← orFatal (fieldNumber count)
  modify fun m => { m with record := m.record.setCount m.specials.ofs n }

end Exec

end Awk
