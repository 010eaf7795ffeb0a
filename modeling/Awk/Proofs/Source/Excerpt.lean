import Awk.Host
import Awk.Proofs.Source.Position

/-!
# Excerpts of a source

Reports count lines by newlines, while excerpts divide a source at line ends of
every kind and leave out an empty line at its end.  The excerpt marks the line
that a report means if no other line end stands in the lines up to that one, a
return before a newline aside, and if the line is not the empty one behind the
last newline.
-/

namespace Awk.Source

def withoutReturn (line : List Char) : List Char :=
  if line.getLast? = some '\r' then line.dropLast else line

def IsPlain (line : List Char) : Prop :=
  ∀ c ∈ withoutReturn line, Text.isLineEnd c = false

instance (line : List Char) : Decidable (IsPlain line) :=
  decidable_of_iff ((withoutReturn line).all fun c => !Text.isLineEnd c)
    (by simp [IsPlain])

/-! ## Lines at every line end -/

theorem linesFrom_append {body : List Char}
    (plain : ∀ c ∈ body, Text.isLineEnd c = false) (line rest : List Char) :
    linesFrom line (body ++ rest) = linesFrom (body.reverse ++ line) rest := by
  induction body generalizing line with
  | nil => rfl
  | cons c body ih =>
      simp only [List.forall_mem_cons] at plain
      have other : c ≠ '\r' := by
        rintro rfl
        exact absurd plain.1 (by decide)
      have next : linesFrom line (c :: (body ++ rest)) =
          linesFrom (c :: line) (body ++ rest) := by
        rw [linesFrom]
        · simp [plain.1]
        · simp [other]
      rw [List.cons_append, next, ih plain.2]
      simp

theorem linesFrom_newline (line rest : List Char) :
    linesFrom line ('\n' :: rest) = line.reverse :: linesFrom [] rest := by
  rw [linesFrom]
  · simp [Text.isLineEnd]
  · simp

theorem linesFrom_return_newline (line rest : List Char) :
    linesFrom line ('\r' :: '\n' :: rest) = line.reverse ::
      linesFrom [] rest := by
  rw [linesFrom]

theorem linesFrom_return (line : List Char) :
    linesFrom line ['\r'] = [line.reverse] := by
  rw [linesFrom]
  · simp [Text.isLineEnd, linesFrom]
  · simp

theorem eq_withoutReturn (line : List Char) :
    line = withoutReturn line ∨ line = withoutReturn line ++ ['\r'] := by
  unfold withoutReturn
  split
  · rename_i returns
    right
    exact (List.dropLast_append_getLast? '\r' returns).symm
  · exact .inl rfl

theorem linesFrom_line {line : List Char} (plain : IsPlain line)
    (rest : List Char) :
    linesFrom [] (line ++ '\n' :: rest) = withoutReturn line ::
      linesFrom [] rest := by
  have shape := eq_withoutReturn line
  unfold IsPlain at plain
  generalize withoutReturn line = body at plain shape ⊢
  rcases shape with rfl | rfl
  · rw [linesFrom_append plain, linesFrom_newline]
    simp
  · rw [List.append_assoc, linesFrom_append plain, List.singleton_append,
      linesFrom_return_newline]
    simp

theorem linesFrom_last {line : List Char} (plain : IsPlain line) :
    linesFrom [] line = if line = [] then [] else [withoutReturn line] := by
  have shape := eq_withoutReturn line
  unfold IsPlain at plain
  generalize withoutReturn line = body at plain shape ⊢
  rcases shape with rfl | rfl
  · have whole := linesFrom_append plain [] []
    simpa [linesFrom] using whole
  · rw [linesFrom_append plain, linesFrom_return]
    simp

theorem linesFrom_endLines {lines : List (List Char)}
    (plain : ∀ line ∈ lines, IsPlain line) (rest : List Char) :
    linesFrom [] (endLines lines ++ rest) = lines.map withoutReturn ++
      linesFrom [] rest := by
  induction lines with
  | nil => rfl
  | cons line lines ih =>
      simp only [List.forall_mem_cons] at plain
      rw [endLines, List.append_assoc, List.cons_append, linesFrom_line plain.1,
        ih plain.2]
      rfl

theorem inline_of_mem_linesFrom {line : List Char}
    (inline : ∀ c ∈ line, Text.isLineEnd c = false) (cs : List Char) :
    ∀ found ∈ linesFrom line cs, ∀ c ∈ found, Text.isLineEnd c = false := by
  fun_induction linesFrom line cs with
  | case1 line empty => simp
  | case2 line filled => simpa using inline
  | case3 line rest ih =>
      rw [List.forall_mem_cons]
      exact ⟨by simpa using inline, ih (by simp)⟩
  | case4 line c rest _ ends ih =>
      rw [List.forall_mem_cons]
      exact ⟨by simpa using inline, ih (by simp)⟩
  | case5 line c rest _ goesOn ih =>
      apply ih
      rw [List.forall_mem_cons]
      exact ⟨by simpa using goesOn, inline⟩

theorem endLines_append (front back : List (List Char)) :
    endLines (front ++ back) = endLines front ++ endLines back := by
  induction front with
  | nil => rfl
  | cons line front ih => simp [endLines, ih]

/-- Up to a line that no other line ends come before, the lines of a source are
those between newlines, without returns at their ends and without an empty one
at the end of the source. -/
theorem linesFrom_getElem? {cs : List Char} {i : Nat} {line : List Char}
    (here : (Text.splitOn '\n' cs)[i]? = some line)
    (plain : ∀ earlier ∈ (Text.splitOn '\n' cs).take (i + 1), IsPlain earlier) :
    (linesFrom [] cs)[i]? =
      if i + 1 = (Text.splitOn '\n' cs).length ∧ line = [] then none
      else some (withoutReturn line) := by
  obtain ⟨lines, last, rfl, ended, inline⟩ := exists_lines cs
  have single : Text.splitOn '\n' last = [last] := by
    rw [Text.splitOn_eq, List.splitOn_eq_singleton inline]
  rw [splitOn_endLines ended, single] at here plain ⊢
  by_cases before : i < lines.length
  · -- The line is followed by a newline, and what comes behind does not matter.
    have parted : endLines lines ++ last = endLines (lines.take (i + 1)) ++
        (endLines (lines.drop (i + 1)) ++ last) := by
      rw [← List.append_assoc, ← endLines_append, List.take_append_drop]
    rw [List.getElem?_append_left before] at here
    rw [List.take_append_of_le_length (by omega)] at plain
    have within : i < ((lines.take (i + 1)).map withoutReturn).length := by
      rw [List.length_map, List.length_take]
      omega
    have later : ¬(i + 1 = (lines ++ [last]).length ∧ line = []) := by
      rw [List.length_append, List.length_singleton]
      omega
    rw [parted, linesFrom_endLines plain, List.getElem?_append_left within,
      if_neg later, List.getElem?_map, List.getElem?_take_of_lt (by omega),
      here]
    rfl
  · have atEnd : i = lines.length := by
      have inside := (List.getElem?_eq_some_iff.1 here).1
      rw [List.length_append, List.length_singleton] at inside
      omega
    subst atEnd
    obtain rfl : last = line := by simpa using here
    rw [List.take_of_length_le (by simp)] at plain
    simp only [List.forall_mem_append, List.forall_mem_singleton] at plain
    rw [linesFrom_endLines plain.1, List.getElem?_append_right (by simp),
      linesFrom_last plain.2]
    by_cases empty : last = []
    · simp [empty]
    · simp [empty]

/-! ## What an excerpt shows -/

def markedLine (width line : Nat) (text : String) : String :=
  "> " ++ lineNumber width line ++ " | " ++ text

def caretLine (width column : Nat) : String :=
  "  " ++ blanks width ++ " | " ++ blanks (column - 1) ++ "^"

/-- One line of an excerpt is marked, and it shows the text; below it stands the
caret. -/
def MarksLine (shown : String) (line : Nat) (text : String) (column : Nat) :
    Prop :=
  ∃ width before after, (lineNumber width line).length = width ∧
    Text.splitOn '\n' shown.toList =
      (before ++ markedLine width line text :: caretLine width column ::
        after).map String.toList ∧ ∀ other ∈ before ++ after,
    other.toList.head? ≠ some '>'

theorem length_repr_le {m n : Nat} (le : m ≤ n) :
    m.repr.length ≤ n.repr.length := by
  rw [Nat.length_repr_le_iff Nat.length_repr_pos]
  exact Nat.lt_of_le_of_lt le ((Nat.length_repr_le_iff Nat.length_repr_pos).1
    (Nat.le_refl _))

theorem length_lineNumber {m n : Nat} (le : m ≤ n) :
    (lineNumber n.repr.length m).length = n.repr.length := by
  have short := length_repr_le le
  simp only [lineNumber, blanks, String.length_append, String.length_ofList,
    List.length_replicate, Nat.toString_eq_repr]
  omega

theorem newline_not_mem_lineNumber (width n : Nat) :
    '\n' ∉ (lineNumber width n).toList := by
  have digits : '\n' ∉ Nat.toDigits 10 n := by
    intro among
    exact absurd (Nat.isDigit_of_mem_toDigits (by decide) (by decide) among)
      (by decide)
  simp [lineNumber, blanks, digits]

section

variable (width : Nat) (line : Int) (column : Option Int)

theorem excerptLines_append (front back : List (String × Nat)) :
    excerptLines width line column (front ++ back) =
      excerptLines width line column front ++
        excerptLines width line column back := by
  induction front with
  | nil => rfl
  | cons entry front ih => simp [excerptLines, ih]

theorem mem_excerptLines_of_ne {entries : List (String × Nat)}
    (apart : ∀ entry ∈ entries, (entry.2 : Int) ≠ line) {shown : String}
    (among : shown ∈ excerptLines width line column entries) :
    ∃ entry ∈ entries, shown = "  " ++ lineNumber width entry.2 ++ " | " ++
      entry.1 := by
  induction entries with
  | nil => simp [excerptLines] at among
  | cons entry entries ih =>
      simp only [List.forall_mem_cons] at apart
      have plain : (line == (entry.2 : Int)) = false := by
        simpa using Ne.symm apart.1
      have first : excerptLines width line column (entry :: entries) =
          ("  " ++ lineNumber width entry.2 ++ " | " ++ entry.1) ::
          excerptLines width line column entries := by
        cases column <;> simp [excerptLines, plain]
      rw [first, List.mem_cons] at among
      rcases among with rfl | later
      · exact ⟨entry, by simp, rfl⟩
      · obtain ⟨found, there, rfl⟩ := ih apart.2 later
        exact ⟨found, by simp [there], rfl⟩

end

theorem excerptLines_marked (width line column : Nat) (text : String)
    (after : List (String × Nat)) :
    excerptLines width line (some column) ((text, line) :: after) =
      markedLine width line text :: caretLine width column ::
        excerptLines width line (some column) after := by
  have columns : ((column : Int) - 1).toNat = column - 1 := by omega
  simp [excerptLines, markedLine, caretLine, columns]

theorem splitOn_intercalate_lines {lines : List String}
    (inline : ∀ line ∈ lines, '\n' ∉ line.toList) (filled : lines ≠ []) :
    Text.splitOn '\n' ("\n".intercalate lines).toList =
      lines.map String.toList := by
  have cut : (['\n'].intercalate (lines.map String.toList)).splitOn '\n' =
      lines.map String.toList :=
    List.splitOn_intercalate '\n' (by simpa using inline)
      (by simpa using filled)
  simpa [Text.splitOn_eq, String.toList_intercalate] using cut

theorem newline_not_mem_sourceLines {source text : String}
    (among : text ∈ sourceLines source) : '\n' ∉ text.toList := by
  obtain ⟨line, found, rfl⟩ := List.mem_map.1 among
  rw [String.toList_ofList]
  intro newline
  exact absurd (inline_of_mem_linesFrom (by simp) source.toList line found '\n'
    newline) (by decide)

theorem marksLine_intercalate {width line column : Nat} {text : String}
    {front back : List (String × Nat)}
    (wide : (lineNumber width line).length = width)
    (inline : '\n' ∉ text.toList)
    (apart : ∀ entry ∈ front ++ back, entry.2 ≠ line ∧ '\n' ∉ entry.1.toList) :
    MarksLine ("\n".intercalate (excerptLines width line (some column) (front ++
      (text, line) :: back))) line text
      column := by
  have unmarked :
      ∀ other ∈ excerptLines width line
        (some column) front ++ excerptLines width line (some column) back,
      ∃ entry ∈ front ++ back, other = "  " ++ lineNumber width entry.2 ++
        " | " ++ entry.1 := by
    intro other among
    rw [← excerptLines_append] at among
    exact mem_excerptLines_of_ne width line (some column)
      (fun entry there => by exact_mod_cast (apart entry there).1) among
  refine ⟨width, excerptLines width line (some column) front,
    excerptLines width line (some column) back, wide, ?_, ?_⟩
  · rw [excerptLines_append, excerptLines_marked]
    apply splitOn_intercalate_lines
    · intro shown among
      simp only [List.mem_append, List.mem_cons] at among
      have numberInline := newline_not_mem_lineNumber width
      have others :
          ∀ other ∈ excerptLines width line
            (some column) front ++ excerptLines width line (some column) back,
          '\n' ∉ other.toList := by
        intro other there
        obtain ⟨entry, member, rfl⟩ := unmarked other there
        simp [numberInline, (apart entry member).2]
      rcases among with before | rfl | rfl | after
      · exact others shown (List.mem_append_left _ before)
      · simp [markedLine, numberInline, inline]
      · simp [caretLine, blanks]
      · exact others shown (List.mem_append_right _ after)
    · simp
  · intro other among
    obtain ⟨entry, -, rfl⟩ := unmarked other among
    simp

theorem exists_append_of_getElem? {α : Type} {xs : List α} {i : Nat} {x : α}
    (here : xs[i]? = some x) :
    ∃ front back, xs = front ++ x :: back ∧ front.length = i := by
  obtain ⟨inside, rfl⟩ := List.getElem?_eq_some_iff.1 here
  refine ⟨xs.take i, xs.drop (i + 1), ?_, by simp [inside.le]⟩
  rw [← List.drop_eq_getElem_cons, List.take_append_drop]

theorem excerpt_marksLine {source text : String} {i : Nat}
    (here : (sourceLines source)[i]? = some text) (column radius : Nat) :
    MarksLine (excerpt source (i + 1 : Nat) (some column) radius)
      (i + 1) text column := by
  obtain ⟨front, back, parted, rfl⟩ := exists_append_of_getElem? here
  have inline : ∀ line ∈ front ++ text :: back, '\n' ∉ line.toList := by
    rw [← parted]
    exact fun line among => newline_not_mem_sourceLines among
  have zipped : (front ++ text :: back).zipIdx 1 = front.zipIdx 1 ++
      (text, front.length + 1) :: back.zipIdx (front.length + 2) := by
    simp [List.zipIdx_append, Nat.add_comm 1]
  have apart : ∀ entry ∈ front.zipIdx 1 ++ back.zipIdx (front.length + 2),
      entry.2 ≠ front.length + 1 ∧ '\n' ∉ entry.1.toList := by
    intro entry among
    rcases List.mem_append.1 among with before | after
    · have number := List.snd_lt_of_mem_zipIdx before
      have member := List.fst_mem_of_mem_zipIdx before
      exact ⟨by omega, inline entry.1 (by simp [member])⟩
    · have number := List.le_snd_of_mem_zipIdx after
      have member := List.fst_mem_of_mem_zipIdx after
      exact ⟨by omega, inline entry.1 (by simp [member])⟩
  have inRange : ¬(((front.length + 1 : Nat) : Int) < 1 ∨
      ((front.length + 1 : Nat) : Int) >
        ((front ++ text :: back).length : Int)) := by
    rw [List.length_append, List.length_cons]
    omega
  have last : min ((front ++ text :: back).length : Int)
      (((front.length + 1 : Nat) : Int) + radius) =
      ((min (front ++ text :: back).length (front.length + 1 + radius) : Nat) :
        Int) := by omega
  simp only [excerpt, parted, if_neg inRange, zipped, List.filter_append]
  rw [List.filter_cons_of_pos, last]
  · apply marksLine_intercalate
    · refine length_lineNumber ?_
      rw [List.length_append, List.length_cons]
      omega
    · exact inline text (by simp)
    · intro entry among
      refine apart entry ?_
      rw [← List.filter_append] at among
      exact List.mem_of_mem_filter among
  · rw [Bool.and_eq_true, decide_eq_true_iff, decide_eq_true_iff,
      List.length_append, List.length_cons]
    omega

theorem excerpt_eq_empty {source : String} {i : Nat}
    (beyond : (sourceLines source)[i]? = none) (column : Option Int)
    (radius : Int) : excerpt source (i + 1 : Nat) column radius = "" := by
  rw [List.getElem?_eq_none_iff] at beyond
  simp only [excerpt]
  exact if_pos (by omega)

/-! ## Lines that reports mean -/

def reportedPosition (source : String) (nesting : Nat) : Option Position :=
  match Program.parse source nesting with
  | .error e => e.position
  | .ok _ => none

theorem exists_offset_of_reportedPosition {source : String} {nesting : Nat}
    {p : Position} (reported : reportedPosition source nesting = some p) :
    ∃ offset, p = Position.ofOffset source.toList offset := by
  cases result : (program nesting ⟨source.toList, 0⟩).result with
  | tooDeep => simp [reportedPosition, Program.parse, result] at reported
  | missed =>
      simp only [reportedPosition, Program.parse, result,
        SyntaxError.ofPosition, Option.some.injEq] at reported
      exact ⟨_, reported.symm⟩
  | found items next =>
      cases checked : checkItems [] items with
      | ok program =>
          simp [reportedPosition, Program.parse, result, checked,
            Except.mapError] at reported
      | error complaint =>
          simp only [reportedPosition, Program.parse, result, checked,
            Except.mapError, Complaint.located, Option.some.injEq] at reported
          exact ⟨complaint.offset, reported.symm⟩

theorem length_splitOn_newline (cs : List Char) :
    (Text.splitOn '\n' cs).length = cs.count '\n' + 1 := by
  obtain ⟨lines, last, rfl, ended, inline⟩ := exists_lines cs
  rw [splitOn_endLines ended, Text.splitOn_eq, List.splitOn_eq_singleton inline,
    List.count_append, count_endLines ended, List.count_eq_zero.2 inline]
  simp

theorem reportedPosition_inside {source : String} {nesting : Nat} {p : Position}
    (reported : reportedPosition source nesting = some p) :
    1 ≤ p.line ∧ p.line ≤ (Text.splitOn '\n' source.toList).length ∧
    1 ≤ p.column := by
  obtain ⟨offset, rfl⟩ := exists_offset_of_reportedPosition reported
  have fewer : (source.toList.take offset).count '\n' ≤
      source.toList.count '\n' :=
    (List.take_sublist offset source.toList).count_le '\n'
  rw [Position.line_ofOffset, Position.column_ofOffset, length_splitOn_newline]
  omega

theorem report_of_reportedPosition {source : String} {host : Host}
    {p : Position}
    (reported : reportedPosition source host.platform.nesting = some p)
    (inputs : List NamedInput) (options : Options) :
    ∃ report, (runScript source inputs options host).result = .ok report ∧
    report.position = some p ∧
      report.excerpt = some (excerpt source p.line (some p.column) 2) := by
  cases parsed : Program.parse source host.platform.nesting with
  | ok program => simp [reportedPosition, parsed] at reported
  | error e =>
      have placed : e.position = some p := by
        simpa [reportedPosition, parsed] using reported
      refine ⟨Report.ofSyntaxError source e, by simp only [runScript, parsed],
        placed, ?_⟩
      simp [Report.ofSyntaxError, placed]

theorem sourceLines_getElem? {source : String} {i : Nat} {line : List Char}
    (here : (Text.splitOn '\n' source.toList)[i]? = some line)
    (plain : ∀ earlier ∈ (Text.splitOn '\n' source.toList).take (i + 1),
      IsPlain earlier) :
    (sourceLines source)[i]? =
      if i + 1 = (Text.splitOn '\n' source.toList).length ∧ line = [] then none
      else some (String.ofList (withoutReturn line)) := by
  rw [sourceLines, List.getElem?_map, linesFrom_getElem? here plain]
  split <;> rfl

/-- The report on a source names one of the lines between its newlines and shows
the excerpt there.  An excerpt marks the line with its number among those at
every line end, and nothing is shown if there are fewer.  That is the line
between newlines, without a return at its end, if the lines up to it have no
other line ends; but for the empty line at the end of a source nothing is shown.
-/
theorem excerpt_marks_reported_line (source : String) :
    let lines := Text.splitOn '\n' source.toList
    lines.length = source.toList.count '\n' + 1 ∧
    (∀ nesting p, reportedPosition source nesting = some p →
      (1 ≤ p.line ∧ p.line ≤ lines.length ∧ 1 ≤ p.column) ∧
      ∀ inputs options host, host.platform.nesting = nesting →
      ∃ report, (runScript source inputs options host).result = .ok report ∧
      report.position = some p ∧
      report.excerpt = some (excerpt source p.line (some p.column) 2)) ∧
    ∀ line column radius : Nat, 1 ≤ line →
        let shown := excerpt source line (some column) radius
        ((sourceLines source)[line - 1]? = none → shown = "") ∧
        (∀ text, (sourceLines source)[line - 1]? = some text →
          MarksLine shown line text column) ∧ ∀ text,
        lines[line - 1]? = some text →
        (∀ earlier ∈ lines.take line, IsPlain earlier) →
        (line = lines.length ∧ text = [] → shown = "") ∧
        (¬(line = lines.length ∧ text = []) →
          MarksLine shown line (String.ofList (withoutReturn text))
            column) := by
  intro lines
  refine ⟨length_splitOn_newline _, ?_, ?_⟩
  · intro nesting p reported
    refine ⟨reportedPosition_inside reported, ?_⟩
    rintro inputs options host rfl
    exact report_of_reportedPosition reported inputs options
  intro line column radius counted shown
  obtain ⟨i, rfl⟩ : ∃ i, line = i + 1 := ⟨line - 1, by omega⟩
  rw [Nat.add_sub_cancel]
  refine ⟨fun beyond => excerpt_eq_empty beyond _ _,
    fun text here => excerpt_marksLine here column radius, ?_⟩
  intro text here plain
  have found := sourceLines_getElem? here plain
  constructor
  · intro final
    rw [if_pos final] at found
    exact excerpt_eq_empty found _ _
  · intro ended
    rw [if_neg ended] at found
    exact excerpt_marksLine found column radius

theorem line_behind_return_marked :
    let source := "# c\r\n)\n"
    reportedPosition source ({} : Platform).nesting = some ⟨2, 1⟩ ∧
    2 ≤ (Text.splitOn '\n' source.toList).length ∧
    MarksLine (excerpt source 2 (some 1) 2) 2 ")" 1 ∧
    excerpt source 3 (some 1) 2 = "" := by
  intro source
  have whole := excerpt_marks_reported_line source
  have reported : reportedPosition source ({} : Platform).nesting =
      some ⟨2, 1⟩ := by
    decide +kernel
  have second := (whole.2.2 2 1 2 (by decide)).2.2 [')'] (by decide) (by decide)
  have third := (whole.2.2 3 1 2 (by decide)).2.2 [] (by decide) (by decide)
  exact ⟨reported, (whole.2.1 _ _ reported).1.2.1, second.2 (by decide),
    third.1 (by decide)⟩

/-- A form feed in a comment ends a line of the excerpt, but not one that the
report counts. -/
theorem line_behind_form_feed_not_marked :
    let source := "# a\x0cb\n)"
    reportedPosition source ({} : Platform).nesting = some ⟨2, 1⟩ ∧
    (Text.splitOn '\n' source.toList)[1]? = some [')'] ∧
    excerpt source 2 (some 1) 2 = "  1 | # a\n> 2 | b\n    | ^\n  3 | )" ∧
    ¬MarksLine (excerpt source 2 (some 1) 2) 2 ")" 1 := by
  intro source
  have shown : excerpt source 2 (some 1) 2 =
      "  1 | # a\n> 2 | b\n    | ^\n  3 | )" := by decide
  refine ⟨by decide +kernel, by decide, shown, ?_⟩
  rintro ⟨width, before, after, -, cut, -⟩
  have marked : (markedLine width 2 ")").toList ∈
      Text.splitOn '\n' (excerpt source 2 (some 1) 2).toList := by
    rw [cut]
    simp
  have ends : ∀ line ∈ Text.splitOn '\n' (excerpt source 2 (some 1) 2).toList,
      line.head? = some '>' → line.getLast? ≠ some ')' := by
    rw [shown]
    decide
  exact ends _ marked (by simp [markedLine])
    (by simp [markedLine, List.getLast?_cons, List.getLast?_append])

end Awk.Source
