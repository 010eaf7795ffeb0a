import Awk.Regex.Matcher

/-!
# How far a match goes

Whatever has to follow a node is tried inside the text, and behind as many
characters as the node is wide at least.  So a match ends inside the text, and a
node of some width never matches without taking a character.
-/

namespace Awk.Regex

def Moves (text : Array Char) (n : Nat) (run : Runner) : Prop :=
  ∀ st k r, run st k = some r → st.pos ≤ text.size →
    ∃ st', st.pos + n ≤ st'.pos ∧ st'.pos ≤ text.size ∧ k st' = some r

section Moves

variable {text : Array Char} {m n : Nat} {run run' : Runner}

theorem Moves.mono (h : Moves text n run) (le : m ≤ n) : Moves text m run := by
  intro st k r matched inside
  obtain ⟨st', further, inside', rest⟩ := h st k r matched inside
  exact ⟨st', by omega, inside', rest⟩

theorem moves_stay : Moves text 0 fun st k => k st :=
  fun st _ _ matched inside => ⟨st, Nat.le_refl _, inside, matched⟩

theorem Moves.seq (first : Moves text m run) (second : Moves text n run') :
    Moves text (m + n) fun st k => run st fun st' => run' st' k := by
  intro st k r matched inside
  obtain ⟨st₁, further₁, inside₁, rest⟩ := first st _ r matched inside
  obtain ⟨st₂, further₂, inside₂, rest⟩ := second st₁ k r rest inside₁
  exact ⟨st₂, by omega, inside₂, rest⟩

theorem moves_takeChar (p : Char → Bool) : Moves text 1 fun st k =>
  (takeChar text p st).bind k := by
  intro st k r matched inside
  obtain ⟨st', taken, rest⟩ := Option.bind_eq_some_iff.1 matched
  unfold takeChar at taken
  split at taken
  · rename_i c here
    split at taken
    · cases taken
      have before : st.pos < text.size := (Array.getElem?_eq_some_iff.1 here).1
      exact ⟨{ st with pos := st.pos + 1 }, Nat.le_refl _, before, rest⟩
    · contradiction
  · contradiction

theorem Moves.atomic (h : Moves text n run) :
    Moves text n fun st k => (run st some).bind k := by
  intro st k r matched inside
  obtain ⟨st', here, rest⟩ := Option.bind_eq_some_iff.1 matched
  obtain ⟨st₁, further, inside₁, same⟩ := h st some st' here inside
  cases same
  exact ⟨st', further, inside₁, rest⟩

/-! ## Repetition -/

theorem moves_mustRun {turn : Runner} (h : Moves text n turn) (least : Nat) :
    Moves text (n * least) (mustRun turn least) := by
  induction least with
  | zero => exact moves_stay
  | succ least ih => exact (h.seq ih).mono (by rw [Nat.mul_succ]; omega)

theorem moves_mayRunGreedy {turn : Runner} (h : Moves text 0 turn) (fuel : Nat)
    (most last : Option Nat) :
    Moves text 0 (mayRunGreedy turn fuel most last) := by
  induction fuel generalizing most last with
  | zero => exact moves_stay
  | succ fuel ih =>
      intro st k r matched inside
      rw [mayRunGreedy] at matched
      split at matched
      · exact ⟨st, Nat.le_refl _, inside, matched⟩
      · split at matched
        · rename_i r' again
          cases matched
          exact (h.seq (ih (oneLess most) (some st.pos))) st k r again inside
        · exact ⟨st, Nat.le_refl _, inside, matched⟩

theorem moves_mayRunLazy {turn : Runner} (h : Moves text 0 turn) (fuel : Nat)
    (most last : Option Nat) :
    Moves text 0 (mayRunLazy turn fuel most last) := by
  induction fuel generalizing most last with
  | zero => exact moves_stay
  | succ fuel ih =>
      intro st k r matched inside
      rw [mayRunLazy] at matched
      split at matched
      · rename_i r' done
        exact ⟨st, Nat.le_refl _, inside, done.trans matched⟩
      · split at matched
        · contradiction
        · exact (h.seq (ih (oneLess most) (some st.pos))) st k r matched inside

theorem runPossessive_pos {turn : Runner} (h : Moves text 0 turn) (fuel : Nat)
    (most last : Option Nat) {st : Progress} (inside : st.pos ≤ text.size) :
    st.pos ≤ (runPossessive turn fuel most last st).pos ∧
    (runPossessive turn fuel most last st).pos ≤ text.size := by
  induction fuel generalizing most last st with
  | zero => exact ⟨Nat.le_refl _, inside⟩
  | succ fuel ih =>
      rw [runPossessive]
      split
      · exact ⟨Nat.le_refl _, inside⟩
      · split
        · rename_i st' turned
          obtain ⟨st₁, further, inside₁, same⟩ := h st some st' turned inside
          cases same
          have later := ih (oneLess most) (some st.pos) inside₁
          exact ⟨by omega, later.2⟩
        · exact ⟨Nat.le_refl _, inside⟩

theorem countChars_le (p : Char → Bool) (n pos : Nat)
    (inside : pos ≤ text.size) :
    pos + countChars text p n pos ≤ text.size := by
  induction n generalizing pos with
  | zero => exact inside
  | succ n ih =>
      rw [countChars]
      split
      · rename_i c here
        have := (Array.getElem?_eq_some_iff.1 here).1
        split
        · have := ih (pos + 1) (by omega)
          omega
        · exact inside
      · exact inside

theorem tryDown_eq_some {st : Progress} {least extra : Nat} {k : Continuation}
    {r : Progress} (h : tryDown st least k extra = some r) :
    ∃ st', st.pos + least ≤ st'.pos ∧ st'.pos ≤ st.pos + least + extra ∧
    k st' = some r := by
  induction extra with
  | zero => exact ⟨_, Nat.le_refl _, Nat.le_refl _, h⟩
  | succ extra ih =>
      rw [tryDown] at h
      split at h
      · rename_i r' here
        cases h
        exact ⟨_, by simp, Nat.le_refl _, here⟩
      · obtain ⟨st', low, high, rest⟩ := ih h
        exact ⟨st', low, by omega, rest⟩

theorem moves_runChars (p : Char → Bool) (least : Nat) (most : Option Nat) :
    Moves text least (runChars text p least most) := by
  intro st k r matched inside
  have counted (n : Nat) (tried : (if countChars text p n st.pos < least
      then none
      else tryDown st least k (countChars text p n st.pos - least)) = some r) :
      ∃ st', st.pos + least ≤ st'.pos ∧ st'.pos ≤ text.size ∧
      k st' = some r := by
    split at tried
    · contradiction
    · obtain ⟨st', low, high, rest⟩ := tryDown_eq_some tried
      have count := countChars_le p n st.pos inside
      exact ⟨st', low, by omega, rest⟩
  exact counted _ matched

end Moves

/-! ## Nodes -/

theorem repeatsText_le {text : Array Char} {folding : Folding} {i j n : Nat}
    (h : repeatsText text folding i j n = true) (inside : i ≤ text.size) :
    i + n ≤ text.size := by
  induction n generalizing i j with
  | zero => exact inside
  | succ n ih =>
      rw [repeatsText] at h
      split at h
      · rename_i c d here _
        have := (Array.getElem?_eq_some_iff.1 here).1
        have := ih (Bool.and_eq_true_iff.1 h).2 (by omega)
        omega
      · contradiction

def Node.least (node : Node) : Nat := (node.width fun _ => (0, 0)).1

def turnByTurn (text : Array Char) (turn : Runner) (greed : Greed) (least : Nat)
    (most : Option Nat) : Runner := fun st k =>
  match greed with
  | .greedy =>
      mustRun turn least st fun st' =>
        mayRunGreedy turn (text.size + 2) (most.map (· - least)) none st' k
  | .lazy =>
      mustRun turn least st fun st' =>
        mayRunLazy turn (text.size + 2) (most.map (· - least)) none st' k
  | .possessive =>
      match mustRun (fun st k => (turn st some).bind k) least st some with
      | some st' =>
          k (runPossessive turn (text.size + 2) (most.map (· - least)) none st')
      | none => none

theorem moves_turnByTurn {text : Array Char} {turn : Runner} {n : Nat}
    (h : Moves text n turn) (greed : Greed) (least : Nat) (most : Option Nat) :
    Moves text (n * least) (turnByTurn text turn greed least most) := by
  have any : Moves text 0 turn := h.mono (Nat.zero_le _)
  cases greed with
  | greedy => exact (moves_mustRun h least).seq (moves_mayRunGreedy any _ _ _)
  | lazy => exact (moves_mustRun h least).seq (moves_mayRunLazy any _ _ _)
  | possessive =>
      intro st k r matched inside
      unfold turnByTurn at matched
      dsimp only at matched
      split at matched
      · rename_i st₁ taken
        obtain ⟨st₂, further, inside₂, same⟩ :=
          moves_mustRun h.atomic least st some st₁ taken inside
        cases same
        have last :=
          runPossessive_pos any (text.size + 2) (most.map (· - least)) none
            inside₂
        exact ⟨_, Nat.le_trans further last.1, last.2, matched⟩
      · contradiction

theorem Node.run_repeat (text : Array Char) (greed : Greed) (least : Nat)
    (most : Option Nat) (body : Node) :
    (∃ p, (Node.repeat greed least most body).run text =
      runChars text p least most ∧ body.least = 1) ∨
      (Node.repeat greed least most body).run text =
        turnByTurn text (body.run text) greed least most := by
  cases greed with
  | greedy =>
      cases body with
      | chars s => exact .inl ⟨_, rfl, rfl⟩
      | any newline => exact .inl ⟨_, rfl, rfl⟩
      | _ => exact .inr rfl
  | lazy => exact .inr rfl
  | possessive => exact .inr rfl

theorem Node.run_moves (text : Array Char) (node : Node) :
    Moves text node.least (node.run text) := by
  induction node with
  | empty => exact moves_stay
  | chars s => exact moves_takeChar s.contains
  | any newline => exact moves_takeChar _
  | anchor a =>
      intro st k r matched inside
      rw [Node.run] at matched
      split at matched
      · exact ⟨st, Nat.le_refl _, inside, matched⟩
      · contradiction
  | seq a b first second => exact (first.seq second).mono (Nat.min_le_left ..)
  | alt a b first second =>
      intro st k r matched inside
      rw [Node.run] at matched
      split at matched
      · rename_i r' here
        exact first.mono (Nat.min_le_left ..) st k r (here.trans matched) inside
      · exact second.mono (Nat.min_le_right ..) st k r matched inside
  | group i body h =>
      intro st k r matched inside
      rw [Node.run] at matched
      obtain ⟨st', further, inside', rest⟩ := h st _ r matched inside
      refine ⟨_, ?_, ?_, rest⟩
      · exact further
      · exact inside'
  | «repeat» greed least most body h =>
      have width : (Node.repeat greed least most body).least ≤ body.least *
          least := Nat.min_le_left ..
      obtain ⟨p, chars, one⟩ | turns :=
        Node.run_repeat text greed least most body
      · rw [one, Nat.one_mul] at width
        rw [chars]
        exact (moves_runChars p least most).mono width
      · rw [turns]
        exact (moves_turnByTurn h greed least most).mono width
  | atomic body h => exact h.atomic
  | look back negated body h =>
      intro st k r matched inside
      have stays : ∀ groups, k { st with groups := groups } = some r →
          ∃ st', st.pos + 0 ≤ st'.pos ∧ st'.pos ≤ text.size ∧ k st' = some r :=
        fun groups rest => ⟨{ st with groups := groups }, Nat.le_refl _, inside,
          rest⟩
      rw [Node.run] at matched
      split at matched
      · split at matched
        · exact stays st.groups matched
        · contradiction
      · split at matched
        · split at matched
          · contradiction
          · exact stays _ matched
        · split at matched
          · exact stays st.groups matched
          · contradiction
  | backref i folding =>
      intro st k r matched inside
      rw [Node.run] at matched
      split at matched
      · contradiction
      · dsimp only at matched
        split at matched
        · rename_i same
          refine ⟨_, ?_, ?_, matched⟩
          · exact Nat.le_add_right ..
          · exact repeatsText_le same inside
        · contradiction
  | whenGroup i yes no positive negative =>
      intro st k r matched inside
      rw [Node.run] at matched
      split at matched
      · exact positive.mono (Nat.min_le_left ..) st k r matched inside
      · exact negative.mono (Nat.min_le_right ..) st k r matched inside

/-- A match ends inside the text, and behind as many characters as its node is
wide at least. -/
theorem Pattern.matchAt?_stop {p : Pattern} {text : Array Char} {pos : Nat}
    {mustMove : Bool} {m : Match}
    (matched : p.matchAt? text pos mustMove = some m)
    (inside : pos ≤ text.size) :
    pos + p.node.least ≤ m.whole.stop ∧ m.whole.stop ≤ text.size := by
  obtain ⟨r, ran, rfl⟩ := Option.map_eq_some_iff.1 matched
  obtain ⟨st', further, inside', rest⟩ := p.node.run_moves text _ _ r ran inside
  split at rest
  · contradiction
  · cases rest
    exact ⟨further, inside'⟩

end Awk.Regex
