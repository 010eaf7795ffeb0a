import Awk.Proofs.Call
import Awk.Proofs.Table
import Mathlib.Data.List.DropRight
import Mathlib.Data.List.Induction

/-!
# Files as they are read by `getline`

A file is read as a whole when its first line is asked for, and every path has a
place of its own to read from, until it is closed.  So what the next line of a
path is follows from what was done before: from the files as they were at the
first read since the path was closed, and from the number of reads since then.
Names count only through the paths they stand for.
-/

namespace Awk

/-- What programs do to files in memory, and what their host does. -/
inductive FileAct where
  | read (target name : String)
  | close (name : String)
  | replace (files : Table String)

namespace FileAct

def perform : FileAct → Exec Value
  | .read v name =>
      evaluate (.getline (some (.variable v)) (some (.string name)))
  | .close name => evaluate (.call "close" [.string name])
  | .replace files => do
      modify fun m => { m with files := { m.files with
        system := some (.memory files) } }
      return Value.unset

def performAll : List FileAct → Exec Unit
  | [] => pure ()
  | a :: rest => do
      let _ ← a.perform
      performAll rest

section History

variable (cwd : Option String) (path : String)

def reads : FileAct → Bool
  | .read _ name => memoryPath cwd name == path
  | _ => false

def closes : FileAct → Bool
  | .close name => memoryPath cwd name == path
  | _ => false

def concerns : FileAct → Bool
  | .read _ name => memoryPath cwd name == path
  | .close name => memoryPath cwd name == path
  | .replace _ => true

def filesAfter (files : Table String) : List FileAct → Table String
  | [] => files
  | .replace files :: rest => filesAfter files rest
  | _ :: rest => filesAfter files rest

def untilClose (past : List FileAct) : List FileAct :=
  past.rdropWhile fun a => !a.closes cwd path

def sinceClose (past : List FileAct) : List FileAct :=
  past.rtakeWhile fun a => !a.closes cwd path

def readsSince (past : List FileAct) : Nat :=
  (sinceClose cwd path past).countP fun a => a.reads cwd path

/-- What a path held when it was first read since it was last closed; what it
holds now, if it was not. -/
def content? (files : Table String) (past : List FileAct) : Option String :=
  (filesAfter files (untilClose cwd path past ++
    (sinceClose cwd path past).takeWhile fun a => !a.reads cwd path)).get? path

/-! ## One act more -/

variable {cwd path} (files : Table String) (past : List FileAct) (a : FileAct)

theorem filesAfter_append (later : List FileAct) :
    filesAfter files (past ++ later) =
      filesAfter (filesAfter files past) later := by
  induction past generalizing files with
  | nil => rfl
  | cons a rest ih => cases a <;> exact ih _

theorem readsSince_concat_close (closes : a.closes cwd path = true) :
    readsSince cwd path (past ++ [a]) = 0 := by
  simp [readsSince, sinceClose, closes]

theorem readsSince_concat (open_ : a.closes cwd path = false) :
    readsSince cwd path (past ++ [a]) = readsSince cwd path past +
      if a.reads cwd path then 1 else 0 := by
  simp [readsSince, sinceClose, open_, List.countP_append, List.countP_cons]

theorem content?_of_unread (unread : readsSince cwd path past = 0) :
    content? cwd path files past = (filesAfter files past).get? path := by
  have none_reads : ∀ a ∈ sinceClose cwd path past,
      (!a.reads cwd path) = true := by
    simpa [readsSince, List.countP_eq_zero] using unread
  rw [content?, List.takeWhile_eq_self_iff.2 none_reads, untilClose, sinceClose,
    List.rdropWhile_append_rtakeWhile]

/-- The first read fixes the content, until the path is closed. -/
theorem content?_concat (open_ : a.closes cwd path = false)
    (read : readsSince cwd path (past ++ [a]) ≠ 0) :
    content? cwd path files (past ++ [a]) = content? cwd path files past := by
  have until_ : untilClose cwd path (past ++ [a]) =
      untilClose cwd path past := by simp [untilClose, open_]
  have since : sinceClose cwd path (past ++ [a]) = sinceClose cwd path past ++
      [a] := by simp [sinceClose, open_]
  have stops : (sinceClose cwd path past ++ [a]).takeWhile
      (fun b => !b.reads cwd path) =
      (sinceClose cwd path past).takeWhile fun b => !b.reads cwd path := by
    rw [readsSince, since] at read
    rw [List.takeWhile_append]
    split
    · rename_i whole
      have none_reads :=
        List.takeWhile_eq_self_iff.1
          ((List.takeWhile_prefix _).eq_of_length whole)
      have here : a.reads cwd path = true := by
        by_contra otherwise
        refine read (List.countP_eq_zero.2 fun b member => ?_)
        rcases List.mem_append.1 member with earlier | last
        · simpa using none_reads b earlier
        · rwa [List.mem_singleton.1 last]
      rw [List.takeWhile_eq_self_iff.2 none_reads]
      simp [here]
    · rfl
  rw [content?, until_, since, stops, content?]

end History

end FileAct

/-! ## Cursors -/

namespace FileCursor

def opened (content : Option String) : FileCursor :=
  { lines := content.map fun text => (Text.lines text).toArray }

def line? (c : FileCursor) : Option String :=
  c.lines.bind fun lines => lines[c.next]?

def advance (c : FileCursor) : FileCursor :=
  if c.line?.isSome then { c with next := c.next + 1 } else c

def answer (c : FileCursor) : Number :=
  if c.lines.isNone then -Number.one else if c.line?.isSome then Number.one
    else Number.zero

def after (content : Option String) (n : Nat) : FileCursor :=
  { opened content with
    next := min n ((content.map fun text => (Text.lines text).length).getD 0) }

theorem after_zero (content : Option String) :
    after content 0 = opened content := by
  simp [after, opened]

theorem line?_after (content : String) (n : Nat) :
    (after (some content) n).line? = (Text.lines content)[n]? := by
  simp only [after, opened, line?, Option.map_some, Option.getD_some,
    Option.bind_some, List.getElem?_toArray]
  by_cases inside : n ≤ (Text.lines content).length
  · rw [Nat.min_eq_left inside]
  · rw [List.getElem?_eq_none (by omega), List.getElem?_eq_none (by omega)]

theorem answer_after_some (content : String) (n : Nat) :
    (after (some content) n).answer = if (Text.lines content)[n]?.isSome
    then Number.one else Number.zero := by
  rw [answer, line?_after]
  rfl

theorem advance_after (content : Option String) (n : Nat) :
    (after content n).advance = after content (n + 1) := by
  cases content with
  | none => simp [advance, after, opened, line?]
  | some content =>
      rw [advance, line?_after]
      by_cases inside : n < (Text.lines content).length
      · simp [after, inside]
        omega
      · simp [after, inside]
        omega

end FileCursor

namespace FileAct

variable (cwd : Option String) (path : String) (files : Table String)
    (past : List FileAct)

def cursor? : Option FileCursor :=
  if readsSince cwd path past = 0 then none
  else some (.after (content? cwd path files past) (readsSince cwd path past))

def cursor : FileCursor :=
  .after (content? cwd path files past) (readsSince cwd path past)

variable {cwd path files past}

theorem getD_cursor? :
    (cursor? cwd path files past).getD
      (.opened ((filesAfter files past).get? path)) =
      cursor cwd path files past := by
  unfold cursor? cursor
  split
  · rename_i unread
    rw [unread, FileCursor.after_zero, content?_of_unread files past unread]
    rfl
  · rfl

theorem cursor?_concat_close {a : FileAct} (closes : a.closes cwd path = true) :
    cursor? cwd path files (past ++ [a]) = none :=
  if_pos (readsSince_concat_close past a closes)

theorem cursor?_concat_read {a : FileAct} (reads : a.reads cwd path = true) :
    cursor? cwd path files (past ++ [a]) =
      some (cursor cwd path files past).advance := by
  have open_ : a.closes cwd path = false := by
    cases a with
    | read => rfl
    | close => contradiction
    | replace => rfl
  have counted := readsSince_concat past a open_
  rw [reads, if_pos rfl] at counted
  have read : readsSince cwd path (past ++ [a]) ≠ 0 := by omega
  rw [cursor?, if_neg read, content?_concat files past a open_ read, counted,
    cursor, FileCursor.advance_after]

theorem cursor?_concat_other {a : FileAct} (open_ : a.closes cwd path = false)
    (unread : a.reads cwd path = false) :
    cursor? cwd path files (past ++ [a]) = cursor? cwd path files past := by
  have counted : readsSince cwd path (past ++ [a]) =
      readsSince cwd path past := by
    simpa [unread] using readsSince_concat past a open_
  unfold cursor?
  rw [counted]
  split
  · rfl
  · rename_i read
    rw [content?_concat files past a open_ (by rwa [counted])]

theorem cursor?_concat_congr {past' : List FileAct} (a : FileAct)
    (sameFiles : filesAfter files past' = filesAfter files past)
    (same : cursor? cwd path files past' = cursor? cwd path files past) :
    cursor? cwd path files (past' ++ [a]) =
      cursor? cwd path files (past ++ [a]) := by
  by_cases closes : a.closes cwd path = true
  · rw [cursor?_concat_close closes, cursor?_concat_close closes]
  · by_cases reads : a.reads cwd path = true
    · rw [cursor?_concat_read reads,
        cursor?_concat_read reads, ← getD_cursor?, ← getD_cursor?, same,
        sameFiles]
    · rw [Bool.not_eq_true] at closes reads
      rw [cursor?_concat_other closes reads, cursor?_concat_other closes reads,
        same]

theorem of_not_concerns {a : FileAct} (h : ¬concerns cwd path a = true) :
    a.reads cwd path = false ∧ a.closes cwd path = false ∧
    ∀ files, filesAfter files [a] = files := by
  cases a with
  | read v name => exact ⟨by simpa [concerns, reads] using h, rfl, fun _ => rfl⟩
  | close name => exact ⟨rfl, by simpa [concerns, closes] using h, fun _ => rfl⟩
  | replace files => exact absurd rfl h

/-- Only acts that have to do with a path count for its cursor. -/
theorem cursor?_filter (cwd : Option String) (path : String)
    (files : Table String) (past : List FileAct) :
    filesAfter files (past.filter (concerns cwd path)) = filesAfter files past ∧
      cursor? cwd path files (past.filter (concerns cwd path)) =
        cursor? cwd path files past := by
  induction past using List.reverseRecOn with
  | nil => exact ⟨rfl, rfl⟩
  | append_singleton past a ih =>
      obtain ⟨sameFiles, same⟩ := ih
      rw [List.filter_append]
      by_cases here : concerns cwd path a = true
      · rw [List.filter_cons_of_pos here, List.filter_nil, filesAfter_append,
          filesAfter_append, sameFiles]
        exact ⟨rfl, cursor?_concat_congr a sameFiles same⟩
      · obtain ⟨unread, open_, kept⟩ := of_not_concerns here
        rw [List.filter_cons_of_neg here, List.filter_nil, List.append_nil,
          filesAfter_append, kept, sameFiles]
        exact ⟨rfl, by rw [same, cursor?_concat_other open_ unread]⟩

theorem cursor_filter (cwd : Option String) (path : String)
    (files : Table String) (past : List FileAct) :
    cursor cwd path files (past.filter (concerns cwd path)) =
      cursor cwd path files past := by
  obtain ⟨sameFiles, same⟩ := cursor?_filter cwd path files past
  rw [← getD_cursor?, same, sameFiles, getD_cursor?]

end FileAct

/-! ## What the acts do -/

def Names.withLine (n : Names) (v : String) (line : Option String) : Names :=
  match line with
  | none => n
  | some text => { n with scalars := n.scalars.insert v (.text text) }

theorem Exec.openFile_memory (files : Table String) (path : String)
    (m : Machine) :
    ∃ trace, Exec.openFile (.memory files) path m =
      .ok (.opened (files.get? path))
      { m with
        files :=
  { m.files with cursors :=
    m.files.cursors.insert path (.opened (files.get? path)) }
        trace := trace } := by
  cases found : files.get? path with
  | none =>
      have read : FileSystem.read (.memory files) path = .error .missing := by
        simp only [FileSystem.read, found]
      obtain ⟨lines, noted⟩ :=
        m.noted_eq ["GETLINE", "read failed", path,
          FileSystem.describe (.memory files) path .missing]
      refine ⟨{ m.trace with lines := lines }, ?_⟩
      simp only [Exec.openFile, read]
      rw [Exec.bind_ok (show Exec.note _ m = .ok () _ from
        congrArg (EStateM.Result.ok ()) noted)]
      rfl
  | some text =>
      have read : FileSystem.read (.memory files) path = .ok text := by
        simp only [FileSystem.read, found]
      let stored : Machine :=
        { m with files := { m.files with
          cursors := m.files.cursors.insert path (.opened (some text)) } }
      obtain ⟨lines, noted⟩ :=
        stored.noted_eq ["GETLINE", "cached", path,
          toString (Text.lines text).length, "lines"]
      refine ⟨{ m.trace with lines := lines }, ?_⟩
      simp only [Exec.openFile, read]
      rw [Exec.bind_ok (show Exec.setCursor path _ m = .ok () stored from rfl),
        Exec.bind_ok (show Exec.note _ stored = .ok () _ from
          congrArg (EStateM.Result.ok ()) noted)]
      rfl

section Reading

variable {m : Machine} {files : Table String} {name v : String} {c : FileCursor}
    (place : Option (Exec Location))

theorem readNextLine_cached (inMemory : m.files.system = some (.memory files))
    (cached : m.files.cursors.get? (memoryPath m.files.cwd name) = some c) :
    readNextLine (pure (.text name)) place m =
      readLineAt (memoryPath m.files.cwd name) c place m := by
  unfold readNextLine
  rw [Exec.get_bind_apply, inMemory]
  simp only [pure_bind]
  rw [Exec.bind_ok (show Exec.textOf (.text name) m = .ok name m from rfl),
    Exec.get_bind_apply]
  simp only [FileSystem.resolve]
  rw [Exec.bind_ok (show Exec.cursorAt _ m = .ok (some c) m
    from congrArg (EStateM.Result.ok · m) cached)]

theorem readNextLine_opened (inMemory : m.files.system = some (.memory files))
    (uncached : m.files.cursors.get? (memoryPath m.files.cwd name) = none) :
    readNextLine (pure (.text name)) place m =
      (Exec.openFile (.memory files) (memoryPath m.files.cwd name) >>= fun c =>
        readLineAt (memoryPath m.files.cwd name) c place) m := by
  unfold readNextLine
  rw [Exec.get_bind_apply, inMemory]
  simp only [pure_bind]
  rw [Exec.bind_ok (show Exec.textOf (.text name) m = .ok name m from rfl),
    Exec.get_bind_apply]
  simp only [FileSystem.resolve]
  rw [Exec.bind_ok (show Exec.cursorAt _ m = .ok none m
    from congrArg (EStateM.Result.ok · m) uncached)]

theorem storeLine_variable (ordinary : NameKind.ofName v = .ordinary)
    (free : m.names.arrays.contains v = false) (line : String) :
    storeLine (some (pure (.variable v))) line m = .ok () { m with
      names := m.names.withLine v (some line) } := by
  simp only [storeLine, pure_bind, Exec.writeAt, Exec.assignVariable, ordinary]
  rw [Exec.get_bind_apply, free]
  rfl

theorem readLineAt_of_none (path : String) (noLine : c.line? = none) :
    readLineAt path c place m = .ok c.answer m := by
  unfold readLineAt FileCursor.answer
  cases read : c.lines with
  | none => rfl
  | some lines =>
      have behind : lines[c.next]? = none := by
        simpa [FileCursor.line?, read] using noLine
      simp only [noLine, behind]
      rfl

theorem readLineAt_of_some {line : String} (path : String)
    (found : c.line? = some line) :
    readLineAt path c place m =
      (do
        Exec.setCursor path (some c.advance)
        storeLine place line
        return c.answer : Exec Number) m := by
  unfold readLineAt FileCursor.answer FileCursor.advance
  cases read : c.lines with
  | none => simp [FileCursor.line?, read] at found
  | some lines =>
      have here : lines[c.next]? = some line := by
        simpa [FileCursor.line?, read] using found
      simp only [found, here]
      rfl

theorem readLineAt_variable (ordinary : NameKind.ofName v = .ordinary)
    (free : m.names.arrays.contains v = false) (path : String)
    (stored : m.files.cursors.get? path = some c) :
    ∃ cursors, readLineAt path c (some (pure (.variable v))) m =
        .ok c.answer { m with
          files := { m.files with cursors := cursors }
          names := m.names.withLine v c.line? } ∧
      ∀ p, cursors.get? p = if p = path then some c.advance
      else m.files.cursors.get? p := by
  cases found : c.line? with
  | none =>
      refine ⟨m.files.cursors, readLineAt_of_none _ path found, fun p => ?_⟩
      have stays : c.advance = c := by rw [FileCursor.advance, found]; rfl
      rw [stays]
      split
      · rename_i same
        rw [same, stored]
      · rfl
  | some line =>
      let moved : Machine :=
        { m with files := { m.files with
          cursors := m.files.cursors.insert path c.advance } }
      refine ⟨m.files.cursors.insert path c.advance, ?_,
        fun p => Table.get?_insert ..⟩
      rw [readLineAt_of_some _ path found,
        Exec.bind_ok (show Exec.setCursor path _ m = .ok () moved from rfl),
        Exec.bind_ok (storeLine_variable ordinary
          (show moved.names.arrays.contains v = false from free) line)]
      rfl

end Reading

/-! ## The acts -/

namespace FileAct

variable {m : Machine} {files : Table String} {v : String}

theorem perform_read (name : String)
    (inMemory : m.files.system = some (.memory files))
    (ordinary : NameKind.ofName v = .ordinary)
    (free : m.names.arrays.contains v = false) {path : String}
    (resolved : memoryPath m.files.cwd name = path) {c : FileCursor}
    (here : (m.files.cursors.get? path).getD (.opened (files.get? path)) = c) :
    ∃ cursors trace, (FileAct.read v name).perform m = .ok (.number c.answer)
        { m with
          files := { m.files with cursors := cursors }
          names := m.names.withLine v c.line?
          trace := trace } ∧
      ∀ p, cursors.get? p = if p = path then some c.advance
      else m.files.cursors.get? p := by
  subst resolved
  have evaluated : (FileAct.read v name).perform m =
      (readNextLine (pure (.text name)) (some (pure (.variable v))) >>=
        fun x => pure (.number x)) m := by
    rw [perform, evaluate, evalWhole_of_isFlat rfl]
    simp only [Expr.eval, Place.locateOption, Place.locate]
  rw [evaluated]
  cases cached : m.files.cursors.get? (memoryPath m.files.cwd name) with
  | some c' =>
      obtain rfl : c' = c := by simpa [cached] using here
      obtain ⟨cursors, read, moved⟩ :=
        readLineAt_variable ordinary free _ cached
      refine ⟨cursors, m.trace, ?_, moved⟩
      rw [Exec.bind_ok ((readNextLine_cached _ inMemory cached).trans read)]
      rfl
  | none =>
      obtain rfl : .opened (files.get? (memoryPath m.files.cwd name)) = c := by
        simpa [cached] using here
      obtain ⟨trace, opened⟩ :=
        Exec.openFile_memory files (memoryPath m.files.cwd name) m
      obtain ⟨cursors, read, moved⟩ := readLineAt_variable ordinary
        (show ({ m with
          files := { m.files with
            cursors :=
              m.files.cursors.insert (memoryPath m.files.cwd name)
                (.opened (files.get? (memoryPath m.files.cwd name))) }
          trace := trace } : Machine).names.arrays.contains v = false from free)
        (memoryPath m.files.cwd name) (by rw [Table.get?_insert, if_pos rfl])
      refine ⟨cursors, trace, ?_, fun p => ?_⟩
      · rw [Exec.bind_ok ((readNextLine_opened _ inMemory cached).trans
          ((Exec.bind_ok opened _).trans read))]
        rfl
      · rw [moved, Table.get?_insert]
        split <;> rfl

theorem perform_close (name : String)
    (inMemory : m.files.system = some (.memory files)) {path : String}
    (resolved : memoryPath m.files.cwd name = path) :
    ∃ answer output, (FileAct.close name).perform m = .ok answer
      { m with files := { m.files with cursors := m.files.cursors.erase path },
               output := output } := by
  subst resolved
  let closed : Machine := { m with output := m.output.close name }
  have path : Exec.pathOf name closed =
      .ok (some (memoryPath m.files.cwd name)) closed := by
    have here : closed.files.system = some (.memory files) := inMemory
    simp only [Exec.pathOf, Exec.get_bind_apply, here, Option.bind_some,
      FileSystem.resolve]
    rfl
  have file : ∃ wasOpen, Exec.closeFile name closed = .ok wasOpen
      { closed with files := { m.files with
        cursors := m.files.cursors.erase (memoryPath m.files.cwd name) } } :=
    ⟨_, Exec.bind_ok path _⟩
  obtain ⟨wasOpen, file⟩ := file
  have evaluated : (FileAct.close name).perform m =
      Builtin.runClose [(Expr.string name).argument runFunction] m := by
    rw [perform, evaluate, evalWhole_of_isFlat rfl]
    simp only [Expr.eval, Expr.arguments_eq_map, List.map_cons, List.map_nil]
    rfl
  have named : ((Expr.string name).argument runFunction).text m =
      .ok name m := by
    simp only [Argument.text, Expr.argument, Expr.eval]
    rfl
  refine ⟨.number (if m.output.isOpen name || wasOpen then Number.zero
    else -Number.one), m.output.close name, ?_⟩
  rw [evaluated, Builtin.runClose, Exec.bind_ok named,
    Exec.bind_ok (show Exec.closeTarget name m = .ok _ closed from rfl),
    Exec.bind_ok file]
  rfl

/-! ## After any acts -/

theorem performAll_concat (past : List FileAct) (a : FileAct) :
    performAll (past ++ [a]) =
      (performAll past >>= fun _ => a.perform >>= fun _ => pure ()) := by
  induction past with
  | nil => simp only [List.nil_append, performAll, pure_bind]
  | cons b past ih => simp only [List.cons_append, performAll, ih, bind_assoc]

def Scalars (m : Machine) (acts : List FileAct) : Prop :=
  ∀ v name, .read v name ∈ acts → NameKind.ofName v = .ordinary ∧
    m.names.arrays.contains v = false

/-- What is known of the state after some acts. -/
structure Tracks (m : Machine) (files : Table String) (past : List FileAct)
    (m' : Machine) : Prop where
  system : m'.files.system = some (.memory (filesAfter files past))
  cwd : m'.files.cwd = m.files.cwd
  arrays : m'.names.arrays = m.names.arrays
  cursors : ∀ path, m'.files.cursors.get? path =
    cursor? m.files.cwd path files past

theorem arrays_withLine (n : Names) (v : String) (line : Option String) :
    (n.withLine v line).arrays = n.arrays := by
  cases line <;> rfl

namespace Tracks

variable {past : List FileAct} {m' : Machine}

theorem cursor_eq (tracks : Tracks m files past m') (path : String) :
    (m'.files.cursors.get? path).getD
      (.opened ((filesAfter files past).get? path)) =
      cursor m.files.cwd path files past := by
  rw [tracks.cursors, getD_cursor?]

theorem read (tracks : Tracks m files past m') (name : String)
    (ordinary : NameKind.ofName v = .ordinary)
    (free : m.names.arrays.contains v = false) :
    ∃ m'', (FileAct.read v name).perform m' =
        .ok (.number (cursor m.files.cwd (memoryPath m.files.cwd name) files
          past).answer) m'' ∧
      Tracks m files (past ++ [.read v name]) m'' ∧
      m''.names = m'.names.withLine v
        (cursor m.files.cwd (memoryPath m.files.cwd name) files past).line? ∧
      m''.specials = m'.specials ∧ m''.input = m'.input ∧
      m''.record = m'.record := by
  rw [← tracks.arrays] at free
  obtain ⟨cursors, trace, performed, moved⟩ :=
    perform_read name tracks.system ordinary free
      (congrArg (memoryPath · name) tracks.cwd)
      (tracks.cursor_eq (memoryPath m.files.cwd name))
  refine ⟨_, performed, ⟨?_, tracks.cwd, ?_, fun path => ?_⟩, rfl, rfl, rfl,
    rfl⟩
  · rw [filesAfter_append]
    exact tracks.system
  · rw [arrays_withLine, tracks.arrays]
  · rw [moved]
    split
    · rename_i same
      rw [cursor?_concat_read (by simp [reads, same]), same]
    · rename_i differs
      rw [cursor?_concat_other rfl (by simpa [reads] using Ne.symm differs),
        tracks.cursors]

theorem close (tracks : Tracks m files past m') (name : String) :
    ∃ answer m'', (FileAct.close name).perform m' = .ok answer m'' ∧
    Tracks m files (past ++ [.close name]) m'' := by
  obtain ⟨answer, output, performed⟩ :=
    perform_close name tracks.system (congrArg (memoryPath · name) tracks.cwd)
  refine ⟨answer, _, performed, ⟨?_, tracks.cwd, tracks.arrays, fun path => ?_⟩⟩
  · rw [filesAfter_append]
    exact tracks.system
  · rw [Table.get?_erase]
    split
    · rename_i same
      rw [cursor?_concat_close (by simp [closes, same])]
    · rename_i differs
      rw [cursor?_concat_other (by simpa [closes] using Ne.symm differs) rfl,
        tracks.cursors]

theorem replace (tracks : Tracks m files past m') (files' : Table String) :
    ∃ answer m'', (FileAct.replace files').perform m' = .ok answer m'' ∧
      Tracks m files (past ++ [.replace files']) m'' := by
  refine ⟨_, _, rfl, ⟨?_, tracks.cwd, tracks.arrays, fun path => ?_⟩⟩
  · rw [filesAfter_append]
    rfl
  · rw [cursor?_concat_other rfl rfl]
    exact tracks.cursors path

end Tracks

def start (m : Machine) (files : Table String) : Machine :=
  { m with files := { system := some (.memory files), cwd := m.files.cwd } }

/-- Any acts can be performed, and what the past says of the cursors is what
they are. -/
theorem performAll_tracks (files : Table String) {past : List FileAct}
    (scalars : Scalars m past) :
    ∃ m', performAll past (start m files) = .ok () m' ∧
    Tracks m files past m' := by
  induction past using List.reverseRecOn with
  | nil => exact ⟨_, rfl, ⟨rfl, rfl, rfl, fun path => rfl⟩⟩
  | append_singleton past a ih =>
      obtain ⟨m', performed, tracks⟩ :=
        ih fun v name member => scalars v name (List.mem_append_left _ member)
      have last : ∃ answer m'', a.perform m' = .ok answer m'' ∧
          Tracks m files (past ++ [a]) m'' := by
        cases a with
        | read v name =>
            obtain ⟨ordinary, free⟩ := scalars v name (by simp)
            obtain ⟨m'', read, tracks', -⟩ := tracks.read name ordinary free
            exact ⟨_, m'', read, tracks'⟩
        | close name => exact tracks.close name
        | replace files' => exact tracks.replace files'
      obtain ⟨answer, m'', here, tracks'⟩ := last
      refine ⟨m'', ?_, tracks'⟩
      rw [performAll_concat, Exec.bind_ok performed, Exec.bind_ok here]
      rfl

end FileAct

/-! ## The next line of a path -/

theorem recordsWith_newline (compile : String →
    Except Regex.PatternError Regex.Pattern) (text : String) :
    Splitter.recordsWith compile text "\n" = .ok (Text.lines text) := by
  by_cases empty : text = ""
  · subst empty
    rfl
  · have separator : Splitter.ofRecordSeparator? "\n" =
        some (.literal ['\n']) := by decide
    rw [Splitter.recordsWith, if_neg empty, if_neg (by decide), separator]
    simp only [Splitter.records, Splitter.split, if_neg empty]
    rfl

open FileAct in
/-- The next line that `getline` reads from a path is the one with the number of
the reads since the path was closed, of the content that it had at the first of
them.  A path that could not be read stays so, other paths have no part in it,
and neither the record nor the main input is touched. -/
theorem getline_reads_from_cursor_of_path (m : Machine) (files : Table String)
    (past : List FileAct) (v name : String)
    (scalars : ∀ w n, .read w n ∈ past ++ [.read v name] →
      NameKind.ofName w = .ordinary ∧ m.names.arrays.contains w = false) :
    ∃ m₁ answer m₂,
      performAll past (start m files) = .ok () m₁ ∧
      (FileAct.read v name).perform m₁ = .ok (.number answer) m₂ ∧
      (content? m.files.cwd (memoryPath m.files.cwd name) files past = none →
        answer = -Number.one ∧ m₂.names = m₁.names) ∧
      (∀ content, content? m.files.cwd (memoryPath m.files.cwd name) files
        past = some content →
        ∃ records, Splitter.recordsWith Regex.compile content "\n" =
          .ok records ∧
          (∀ line,
            records[readsSince m.files.cwd (memoryPath m.files.cwd name)
              past]? = some line →
            answer = Number.one ∧
              m₂.names = { m₁.names with
                scalars := m₁.names.scalars.insert v (.text line) }) ∧
          (records[readsSince m.files.cwd (memoryPath m.files.cwd name) past]? =
            none →
            answer = Number.zero ∧ m₂.names = m₁.names)) ∧
      (∃ m₁' m₂',
        performAll (past.filter (concerns m.files.cwd
          (memoryPath m.files.cwd name))) (start m files) = .ok () m₁' ∧
        (FileAct.read v name).perform m₁' = .ok (.number answer) m₂' ∧
        m₁'.files.cursors.get? (memoryPath m.files.cwd name) =
          m₁.files.cursors.get? (memoryPath m.files.cwd name)) ∧
      m₂.specials = m₁.specials ∧ m₂.input = m₁.input ∧
      m₂.record = m₁.record := by
  have before : Scalars m past := fun w n member =>
    scalars w n (List.mem_append_left _ member)
  have alone :
      Scalars m (past.filter (concerns m.files.cwd
        (memoryPath m.files.cwd name))) :=
    fun w n member => before w n (List.mem_of_mem_filter member)
  obtain ⟨ordinary, free⟩ := scalars v name (by simp)
  obtain ⟨m₁, performed, tracks⟩ := performAll_tracks files before
  obtain ⟨m₁', performed', tracks'⟩ := performAll_tracks files alone
  obtain ⟨m₂, read, -, names, unchanged⟩ := tracks.read name ordinary free
  obtain ⟨m₂', read', -, -, -⟩ := tracks'.read name ordinary free
  rw [cursor_filter] at read'
  refine ⟨m₁, _, m₂, performed, read, ?_, ?_, ⟨m₁', m₂', performed', read', ?_⟩,
    unchanged⟩
  · intro failed
    rw [cursor, failed] at names ⊢
    exact ⟨rfl, names⟩
  · intro content fixed
    rw [cursor, fixed, FileCursor.line?_after] at names
    rw [cursor, fixed, FileCursor.answer_after_some]
    refine ⟨Text.lines content, recordsWith_newline _ content,
      fun line found => ?_, fun behind => ?_⟩
    · rw [found] at names ⊢
      exact ⟨rfl, names⟩
    · rw [behind] at names ⊢
      exact ⟨rfl, names⟩
  · rw [tracks'.cursors, tracks.cursors, (cursor?_filter _ _ files past).2]

open FileAct in
/-- The third line of a file that is gone by then, read under three names and
with other files in between. -/
theorem third_line_under_other_name :
    ∃ m₁ m₂,
      performAll [.read "x" "f", .replace (Table.ofList [("/g", "1")]),
        .read "y" "d/../f", .read "x" "h", .close "g"]
        (start {} (Table.ofList [("/f", "a\nb\nc\n")])) = .ok () m₁ ∧
      (FileAct.read "z" "/f").perform m₁ = .ok (.number Number.one) m₂ ∧
      m₂.names.scalars.get? "z" = some (.text "c") := by
  have scalars : ∀ w n, .read w n ∈ [.read "x" "f",
      .replace (Table.ofList [("/g", "1")]), .read "y" "d/../f", .read "x" "h",
      .close "g"] ++ [FileAct.read "z" "/f"] → NameKind.ofName w = .ordinary ∧
      ({} : Machine).names.arrays.contains w = false := by
    intro w n member
    simp only [List.cons_append, List.nil_append, List.mem_cons,
      FileAct.read.injEq, reduceCtorEq, List.not_mem_nil, or_false, false_or]
      at member
    rcases member with ⟨rfl, -⟩ | ⟨rfl, -⟩ | ⟨rfl, -⟩ | ⟨rfl, -⟩ <;>
      exact ⟨by decide, rfl⟩
  obtain ⟨m₁, answer, m₂, performed, read, -, lines, -⟩ :=
    getline_reads_from_cursor_of_path {} (Table.ofList [("/f", "a\nb\nc\n")])
      _ "z" "/f" scalars
  obtain ⟨records, cut, found, -⟩ := lines "a\nb\nc\n" (by decide)
  rw [recordsWith_newline] at cut
  obtain rfl : Text.lines "a\nb\nc\n" = records := Except.ok.inj cut
  obtain ⟨rfl, names⟩ := found "c" (by decide)
  exact ⟨m₁, m₂, performed, read, by rw [names, Table.get?_insert, if_pos rfl]⟩

end Awk
