import Awk.Machine.Record

/-!
What a run reads: the records of the main input, and the lines of files.

The main input is cut into records when the first one is needed, with the
separator of that moment.  A file is read once and then has a place of its own
to read from, until it is closed.
-/

namespace Awk

namespace Exec

/-! ## Main input -/

def attachInput (text : Option String) : Exec Unit :=
  modify fun m => { m with input := { text := text } }

def recordsWith (text separator : String) : Exec (List String) := do
  if text = "" then return []
  if separator = "" then return Splitter.paragraphs text
  match Splitter.ofRecordSeparator? separator with
  | some s => return s.records text
  | none =>
      match Splitter.ofPattern separator (← regex separator) with
      | .ok s => return s.records text
      | .error e => throw (.pattern e)

/-- The records of the main input; none if there is no input. -/
def records : Exec (Option (Array String)) := do
  let input := (← get).input
  match input.records, input.text with
  | some records, _ => return some records
  | none, none => return none
  | none, some text =>
      let records := (← recordsWith text (← get).specials.rs).toArray
      modify fun m => { m with input := { m.input with
        records := some records } }
      return some records

def countRecord : Exec Unit :=
  modify fun m =>
    { m with specials := { m.specials with
        nr := m.specials.nr + Number.one
        fnr := m.specials.fnr + Number.one } }

def setNextRecord (next : Nat) : Exec Unit :=
  modify fun m => { m with input := { m.input with next := next } }

/-! ## Files -/

def cursorAt (path : String) : Exec (Option FileCursor) := do
  return (← get).files.cursors.get? path

def setCursor (path : String) (c : Option FileCursor) : Exec Unit :=
  modify fun m => { m with files := { m.files with
    cursors := m.files.cursors.set path c } }

def pathOf (name : String) : Exec (Option String) := do
  let files := (← get).files
  return files.system.bind fun system => system.resolve files.cwd name

/-- Read a file for the first time.  A failure is remembered like a file. -/
def openFile (system : FileSystem) (path : String) : Exec FileCursor := do
  match system.read path with
  | .error .unread => throw (.unread path)
  | .error e =>
      note ["GETLINE", "read failed", path, system.describe path e]
      let cursor : FileCursor := { lines := none }
      setCursor path (some cursor)
      return cursor
  | .ok text =>
      let lines := Text.lines text
      let cursor : FileCursor := { lines := some lines.toArray }
      setCursor path (some cursor)
      note ["GETLINE", "cached", path, toString lines.length, "lines"]
      return cursor

def closeFile (name : String) : Exec Bool := do
  match ← pathOf name with
  | none => return false
  | some path =>
      let wasOpen := ((← cursorAt path)).isSome
      setCursor path none
      return wasOpen

end Exec

end Awk
