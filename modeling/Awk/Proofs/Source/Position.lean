import Awk.Proofs.Text.Pieces
import Awk.Proofs.Text.Strip
import Awk.Source.Error

/-!
# Places in source text

A source is a number of lines with a newline behind each, and a last one
without.  The place of a character tells how many such lines stand in front of
it and how many characters of its own line, and the lines in front of it are
what its number is found from again.  What stands there is reported by the token
that white space leaves in front.
-/

namespace Awk.Source

def endLines : List (List Char) → List Char
  | [] => []
  | line :: lines => line ++ '\n' :: endLines lines

/-! ## Lines of a text -/

theorem exists_lines (cs : List Char) :
    ∃ lines last, cs = endLines lines ++ last ∧ (∀ line ∈ lines, '\n' ∉ line) ∧
    '\n' ∉ last := by
  induction cs with
  | nil => exact ⟨[], [], by simp [endLines]⟩
  | cons c cs ih =>
      obtain ⟨lines, last, rfl, ended, inline⟩ := ih
      by_cases newline : c = '\n'
      · exact ⟨[] :: lines, last, by simp [endLines, newline], by
          simpa using ended, inline⟩
      · cases lines with
        | nil =>
            exact ⟨[], c :: last, by simp [endLines], by simp, by
              simp [inline, Ne.symm newline]⟩
        | cons line lines =>
            refine ⟨(c :: line) :: lines, last, by simp [endLines], ?_, inline⟩
            simp_all [Ne.symm newline]

theorem splitOn_endLines {lines : List (List Char)}
    (ended : ∀ line ∈ lines, '\n' ∉ line) (rest : List Char) :
    Text.splitOn '\n' (endLines lines ++ rest) = lines ++
      Text.splitOn '\n' rest := by
  induction lines with
  | nil => simp [endLines]
  | cons line lines ih =>
      simp only [List.forall_mem_cons] at ended
      have cut := ih ended.2
      simp only [Text.splitOn_eq] at cut ⊢
      simp [endLines, List.splitOn_append_cons_self_of_not_mem ended.1, cut]

theorem count_endLines {lines : List (List Char)}
    (ended : ∀ line ∈ lines, '\n' ∉ line) :
    (endLines lines).count '\n' = lines.length := by
  induction lines with
  | nil => rfl
  | cons line lines ih =>
      simp only [List.forall_mem_cons] at ended
      simp [endLines, List.count_eq_zero.2 ended.1, ih ended.2]

theorem rtakeWhile_endLines (lines : List (List Char)) {last : List Char}
    (inline : '\n' ∉ last) :
    (endLines lines ++ last).rtakeWhile (· != '\n') = last := by
  have within : ∀ c ∈ last.reverse, (c != '\n') = true := by
    intro c among
    rw [bne_iff_ne]
    rintro rfl
    exact inline (List.mem_reverse.1 among)
  have stop : (endLines lines).reverse.takeWhile (· != '\n') = [] := by
    induction lines with
    | nil => rfl
    | cons line lines ih =>
        rw [endLines, List.reverse_append, List.reverse_cons, List.append_assoc,
          Text.takeWhile_append_stop (by simp), ih]
  rw [List.rtakeWhile, List.reverse_append, List.takeWhile_append_of_pos within,
    stop]
  simp

/-! ## Places and numbers -/

namespace Position

theorem foldl_advance_line {line : List Char} (ended : '\n' ∉ line)
    (p : Position) :
    line.foldl advance p = ⟨p.line, p.column + line.length⟩ := by
  induction line generalizing p with
  | nil => rfl
  | cons c line ih =>
      simp only [List.mem_cons, not_or] at ended
      rw [List.foldl_cons, ih ended.2, advance, if_neg (Ne.symm ended.1)]
      simp [Nat.add_assoc, Nat.add_comm 1]

theorem foldl_advance_endLines {lines : List (List Char)}
    (ended : ∀ line ∈ lines, '\n' ∉ line) (n : Nat) :
    (endLines lines).foldl advance ⟨n, 1⟩ = ⟨n + lines.length, 1⟩ := by
  induction lines generalizing n with
  | nil => rfl
  | cons line lines ih =>
      simp only [List.forall_mem_cons] at ended
      rw [endLines, List.foldl_append, foldl_advance_line ended.1,
        List.foldl_cons, advance, if_pos rfl, ih ended.2]
      simp [Nat.add_assoc, Nat.add_comm 1]

theorem foldl_advance {lines : List (List Char)}
    (ended : ∀ line ∈ lines, '\n' ∉ line) {last : List Char}
    (inline : '\n' ∉ last) :
    (endLines lines ++ last).foldl advance start =
      ⟨lines.length + 1, last.length + 1⟩ := by
  rw [List.foldl_append, start, foldl_advance_endLines ended,
    foldl_advance_line inline]
  simp [Nat.add_comm 1]

theorem foldl_length (lines : List (List Char)) (n : Nat) :
    lines.foldl (fun total line => total + line.length + 1) n =
      n + (endLines lines).length := by
  induction lines generalizing n with
  | nil => rfl
  | cons line lines ih =>
      rw [List.foldl_cons, ih]
      simp [endLines]
      omega

theorem toOffset_eq {lines : List (List Char)}
    (ended : ∀ line ∈ lines, '\n' ∉ line) (rest : List Char) (column : Nat) :
    toOffset (endLines lines ++ rest) ⟨lines.length + 1, column + 1⟩ =
      (endLines lines).length + column := by
  have before : (Text.splitOn '\n' (endLines lines ++ rest)).take
      (lines.length + 1 - 1) = lines := by
    rw [splitOn_endLines ended]
    simp
  simp only [toOffset, before, foldl_length]
  omega

theorem line_ofOffset (source : List Char) (offset : Nat) :
    (ofOffset source offset).line = (source.take offset).count '\n' + 1 := by
  obtain ⟨lines, last, front, ended, inline⟩ :=
    exists_lines (source.take offset)
  rw [ofOffset, front, foldl_advance ended inline, List.count_append,
    count_endLines ended, List.count_eq_zero.2 inline]

theorem column_ofOffset (source : List Char) (offset : Nat) :
    (ofOffset source offset).column =
      ((source.take offset).rtakeWhile (· != '\n')).length + 1 := by
  obtain ⟨lines, last, front, ended, inline⟩ :=
    exists_lines (source.take offset)
  rw [ofOffset, front, foldl_advance ended inline,
    rtakeWhile_endLines lines inline]

theorem toOffset_ofOffset {source : List Char} {offset : Nat}
    (inside : offset ≤ source.length) :
    toOffset source (ofOffset source offset) = offset := by
  obtain ⟨lines, last, front, ended, inline⟩ :=
    exists_lines (source.take offset)
  have whole : source = endLines lines ++ (last ++ source.drop offset) := by
    rw [← List.append_assoc, ← front, List.take_append_drop]
  have length : (endLines lines).length + last.length = offset := by
    rw [← List.length_append, ← front, List.length_take, Nat.min_eq_left inside]
  rw [ofOffset, front, foldl_advance ended inline]
  nth_rewrite 1 [whole]
  rw [toOffset_eq ended, length]

end Position

/-! ## What stands at a place -/

def IsBlank (rest : List Char) : Prop := ∀ c ∈ rest, Text.isSpace c = true

def ContinuesWithLineEnd (rest : List Char) : Prop :=
  ∃ blanks behind, (∀ c ∈ blanks, c = ' ' ∨ c = '\t' ∨ c = '\r') ∧
    rest = blanks ++ '\n' :: behind

/-- As many letters, digits, underscores and points as there are, or else one
character that is no white space. -/
inductive IsFirstToken : (text token : List Char) → Prop where
  | word (token behind : List Char) (written : token ≠ [])
      (inside : ∀ c ∈ token, isTokenChar c = true)
      (stop : ∀ c ∈ behind.head?, isTokenChar c = false) :
      IsFirstToken (token ++ behind) token
  | mark (c : Char) (behind : List Char) (other : isTokenChar c = false)
      (solid : Text.isSpace c = false) : IsFirstToken (c :: behind) [c]

theorem isFirstToken_firstToken {c : Char} (solid : Text.isSpace c = false)
    (behind : List Char) :
    IsFirstToken (c :: behind) (firstToken (c :: behind)) := by
  by_cases inWord : isTokenChar c = true
  · rw [firstToken, if_pos inWord]
    have whole : c :: behind = (c :: behind.takeWhile isTokenChar) ++
        behind.dropWhile isTokenChar := by
      rw [List.cons_append, List.takeWhile_append_dropWhile]
    nth_rewrite 1 [whole]
    refine .word _ _ (by simp) ?_ ?_
    · simp only [List.forall_mem_cons]
      exact ⟨inWord, fun x among => List.mem_takeWhile_imp among⟩
    · intro x first
      have stopped := List.head?_dropWhile_not isTokenChar behind
      rw [Option.mem_def.1 first] at stopped
      simpa using stopped
  · rw [firstToken, if_neg inWord]
    exact .mark c behind (by simpa using inWord) solid

theorem continuesWithLineEnd_iff (rest : List Char) :
    (rest.dropWhile fun c => c == ' ' || c == '\t' || c == '\r').head? =
      some '\n' ↔ ContinuesWithLineEnd rest := by
  constructor
  · intro first
    obtain ⟨behind, stopped⟩ := List.head?_eq_some_iff.1 first
    refine ⟨rest.takeWhile fun c => c == ' ' || c == '\t' || c == '\r', behind,
      ?_, ?_⟩
    · intro c among
      simpa [or_assoc] using List.mem_takeWhile_imp among
    · rw [← stopped, List.takeWhile_append_dropWhile]
  · rintro ⟨blanks, behind, blank, rfl⟩
    rw [List.dropWhile_append_of_pos fun c among => by
      simpa [or_assoc] using blank c among]
    simp

namespace Near

variable {rest : List Char}

theorem ofRest_of_isBlank (blank : IsBlank rest) :
    ofRest rest = .endOfFile := by
  rw [ofRest, if_pos (List.all_eq_true.2 blank)]

theorem ofRest_of_lineEnd (solid : ¬IsBlank rest)
    (ends : ContinuesWithLineEnd rest) : ofRest rest = .endOfLine := by
  rw [ofRest, if_neg (mt List.all_eq_true.1 solid),
    if_pos ((continuesWithLineEnd_iff rest).2 ends)]

theorem ofRest_of_token (solid : ¬IsBlank rest)
    (goesOn : ¬ContinuesWithLineEnd rest) :
    ∃ blanks text token, rest = blanks ++ text ∧ IsBlank blanks ∧
    (∀ c ∈ text.head?, Text.isSpace c = false) ∧
      IsFirstToken text token ∧ ofRest rest = .token (String.ofList token) := by
  have filled : rest.dropWhile Text.isSpace ≠ [] := by
    rw [Ne, List.dropWhile_eq_nil_iff]
    exact solid
  obtain ⟨c, behind, stopped⟩ := List.exists_cons_of_ne_nil filled
  have first : Text.isSpace c = false := by
    have left := List.head?_dropWhile_not Text.isSpace rest
    simpa [stopped] using left
  refine ⟨rest.takeWhile Text.isSpace, c :: behind, firstToken (c :: behind),
    ?_, ?_, ?_, ?_, ?_⟩
  · rw [← stopped, List.takeWhile_append_dropWhile]
  · exact fun x among => List.mem_takeWhile_imp among
  · simpa using first
  · exact isFirstToken_firstToken first behind
  · rw [ofRest, if_neg (mt List.all_eq_true.1 solid),
      if_neg (mt (continuesWithLineEnd_iff rest).1 goesOn), stopped]

end Near

theorem SyntaxError.message_ofPosition (source : List Char) (p : Position) :
    (ofPosition source p).message =
      "syntax error at or near " ++
        (Near.ofRest (source.drop (p.toOffset source))).text := rfl

/-- The place of a character tells the newlines in front of it and the
characters behind the last of them, and the number of the character is found
again from it.  A report on that place says that the text ends there if only
white space is left, that the line ends there if its newline comes next, and
else shows the first token of what is left. -/
theorem place_leads_back_to_offset (source : List Char) {offset : Nat}
    (inside : offset ≤ source.length) :
    let p := Position.ofOffset source offset
    let rest := source.drop offset
    let report := SyntaxError.ofPosition source p
    p.line = (source.take offset).count '\n' + 1 ∧
    p.column = ((source.take offset).rtakeWhile (· != '\n')).length + 1 ∧
    p.toOffset source = offset ∧ report.position = some p ∧
    (IsBlank rest → report.message = "syntax error at or near end of file") ∧
    (¬IsBlank rest → ContinuesWithLineEnd rest →
      report.message = "syntax error at or near end of line") ∧
    (¬IsBlank rest → ¬ContinuesWithLineEnd rest →
      ∃ blanks text token, rest = blanks ++ text ∧ IsBlank blanks ∧
      (∀ c ∈ text.head?, Text.isSpace c = false) ∧ IsFirstToken text token ∧
      report.message = "syntax error at or near \x60" ++ String.ofList token ++
        "'") := by
  intro p rest report
  have back : p.toOffset source = offset := Position.toOffset_ofOffset inside
  have message : report.message = "syntax error at or near " ++
      (Near.ofRest rest).text := by
    rw [SyntaxError.message_ofPosition, back]
  refine ⟨Position.line_ofOffset source offset,
    Position.column_ofOffset source offset, back, rfl, ?_, ?_, ?_⟩
  · intro blank
    rw [message, Near.ofRest_of_isBlank blank]
    rfl
  · intro solid ends
    rw [message, Near.ofRest_of_lineEnd solid ends]
    rfl
  · intro solid goesOn
    obtain ⟨blanks, text, token, whole, blank, first, isToken, shown⟩ :=
      Near.ofRest_of_token solid goesOn
    refine ⟨blanks, text, token, whole, blank, first, isToken, ?_⟩
    rw [message, shown, Near.text,
      ticked, ← String.append_assoc, ← String.append_assoc]
    rfl

theorem parenthesis_on_second_line :
    let source := "x > 1\n  ) y".toList
    let p := Position.ofOffset source 6
    let rest := source.drop 6
    6 ≤ source.length ∧ p = ⟨2, 1⟩ ∧ p.toOffset source = 6 ∧ ¬IsBlank rest ∧
    ¬ContinuesWithLineEnd rest ∧ ∃ blanks text token, rest = blanks ++ text ∧
    IsBlank blanks ∧ (∀ c ∈ text.head?, Text.isSpace c = false) ∧
    IsFirstToken text token ∧ (SyntaxError.ofPosition source p).message =
      "syntax error at or near \x60" ++ String.ofList token ++ "'" := by
  intro source p rest
  have inside : 6 ≤ source.length := by decide
  have whole := place_leads_back_to_offset source inside
  have solid : ¬IsBlank rest :=
    fun blank => absurd (blank ')' (by decide)) (by decide)
  have goesOn : ¬ContinuesWithLineEnd rest := by
    rw [← continuesWithLineEnd_iff]
    decide
  exact ⟨inside, by decide, whole.2.2.1, solid, goesOn,
    whole.2.2.2.2.2.2 solid goesOn⟩

end Awk.Source
