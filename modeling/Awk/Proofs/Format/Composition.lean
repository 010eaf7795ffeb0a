import Awk.Format.Printf
import Mathlib.Data.List.TakeDrop

/-!
# Formats one behind the other

A format is read piece by piece, and each piece takes its arguments from the
front of those that are left.  A directive with a conversion letter ends at this
letter, so what follows a format of such directives does not change its pieces.
What a piece is filled with depends on no more arguments than it takes, and an
argument that is missing is an empty text. Whether a format is refused depends
on no arguments at all.
-/

namespace Awk.Format

variable {α β : Type} {cs rest : List Char}

/-! ## Scanning in stages -/

def Settled (scan : List Char → α × List Char) : Prop :=
  ∀ cs, (scan cs).2.length ≤ cs.length ∧
    ((scan cs).2 ≠ [] → ∀ more, scan (cs ++ more) = ((scan cs).1,
      (scan cs).2 ++ more))

def andThen (first : List Char → α × List Char)
    (second : List Char → β × List Char) (cs : List Char) :
    (α × β) × List Char :=
  (((first cs).1, (second (first cs).2).1), (second (first cs).2).2)

theorem Settled.andThen {first : List Char → α × List Char}
    {second : List Char → β × List Char} (h : Settled first)
    (h' : Settled second) : Settled (andThen first second) := by
  intro cs
  refine ⟨Nat.le_trans (h' _).1 (h cs).1, fun left more => ?_⟩
  have between : (first cs).2 ≠ [] := by
    intro none
    have shrinks := (h' (first cs).2).1
    rw [none] at shrinks
    apply left
    rw [Format.andThen, none]
    exact List.eq_nil_of_length_eq_zero (by simpa using shrinks)
  simp only [Format.andThen, (h cs).2 between, (h' _).2 left]

theorem settled_dropWhile (p : Char → Bool) :
    Settled fun cs => ((), cs.dropWhile p) := by
  intro cs
  refine ⟨(List.dropWhile_sublist p).length_le, fun left more => ?_⟩
  have left : cs.dropWhile p ≠ [] := left
  simp [List.dropWhile_append, left]

theorem settled_span (p : Char → Bool) : Settled (List.span p) := by
  intro cs
  simp only [List.span_eq_takeWhile_dropWhile]
  obtain ⟨shrinks, append⟩ := settled_dropWhile p cs
  refine ⟨shrinks, fun left more => ?_⟩
  have shorter : (cs.takeWhile p).length ≠ cs.length := by
    have apart :=
      congrArg List.length (List.takeWhile_append_dropWhile (p := p) (l := cs))
    have filled := List.length_pos_iff.2 left
    rw [List.length_append] at apart
    omega
  have behind := congrArg Prod.snd (append left more)
  simp_all [List.takeWhile_append]

theorem settled_scanWidth : Settled scanWidth := by
  have digits (c : Char) (cs : List Char) (other : c ≠ '*') :
      scanWidth (c :: cs) = (if ((c :: cs).span Text.isDigit).1.isEmpty
        then none
        else some (.given ((c :: cs).span Text.isDigit).1),
      ((c :: cs).span Text.isDigit).2) := by
    unfold scanWidth
    split
    · simp_all
    · dsimp only
      split <;> rfl
  intro cs
  cases cs with
  | nil => exact ⟨Nat.le_refl 0, absurd rfl⟩
  | cons c cs =>
      by_cases star : c = '*'
      · subst star
        exact ⟨Nat.le_succ _, fun _ _ => rfl⟩
      · rw [digits c cs star]
        obtain ⟨shrinks, append⟩ := settled_span Text.isDigit (c :: cs)
        refine ⟨shrinks, fun left more => ?_⟩
        rw [List.cons_append, digits c _ star, ← List.cons_append, append left]

theorem settled_scanPrecision : Settled scanPrecision := by
  have digits (c : Char) (cs : List Char) (other : c ≠ '*') :
      scanPrecision ('.' :: c :: cs) =
        (some (.given ((c :: cs).span Text.isDigit).1),
          ((c :: cs).span Text.isDigit).2) := by
    unfold scanPrecision
    split <;> simp_all
  have none (c : Char) (cs : List Char) (other : c ≠ '.') :
      scanPrecision (c :: cs) = (none, c :: cs) := by
    unfold scanPrecision
    split <;> simp_all
  intro cs
  cases cs with
  | nil => exact ⟨Nat.le_refl 0, absurd rfl⟩
  | cons c cs =>
      by_cases point : c = '.'
      · subst point
        cases cs with
        | nil => exact ⟨Nat.le_succ 0, absurd rfl⟩
        | cons d cs =>
            by_cases star : d = '*'
            · subst star
              exact ⟨Nat.le_add_right _ 2, fun _ _ => rfl⟩
            · rw [digits d cs star]
              obtain ⟨shrinks, append⟩ := settled_span Text.isDigit (d :: cs)
              refine ⟨Nat.le_succ_of_le shrinks, fun left more => ?_⟩
              rw [List.cons_append, List.cons_append,
                digits d _ star, ← List.cons_append, append left]
      · rw [none c cs point]
        exact ⟨Nat.le_refl _, fun _ more => none c (cs ++ more) point⟩

def scanStages : List Char → (List Char × Option Size × Option Size × Unit) ×
    List Char :=
  andThen (List.span isFlag) (andThen scanWidth
    (andThen scanPrecision fun cs => ((), cs.dropWhile isLengthMark)))

theorem settled_scanStages : Settled scanStages :=
  (settled_span isFlag).andThen (settled_scanWidth.andThen
    (settled_scanPrecision.andThen (settled_dropWhile isLengthMark)))

theorem scan_eq_some {s : Spec} :
    Spec.scan cs = some (s, rest) ↔
      isConversion s.conversion = true ∧
      scanStages cs = ((s.flags, s.width, s.precision, ()),
        s.conversion :: rest) := by
  unfold Spec.scan
  dsimp only
  split
  · rename_i c left behind
    have stages : scanStages cs = (((scanStages cs).1.1, (scanStages cs).1.2.1,
        (scanStages cs).1.2.2.1, ()), c :: left) :=
      Prod.ext rfl behind
    obtain ⟨flags, width, precision, conversion⟩ := s
    split
    · rename_i known
      constructor
      · rintro ⟨⟩
        exact ⟨known, stages⟩
      · rintro ⟨-, same⟩
        rw [stages] at same
        cases same
        rfl
    · rename_i unknown
      simp only [reduceCtorEq, false_iff]
      rintro ⟨known, same⟩
      rw [stages] at same
      cases same
      exact unknown known
  · rename_i behind
    have stages : (scanStages cs).2 = [] := behind
    simp [Prod.ext_iff, stages]

theorem scan_append {s : Spec} (scanned : Spec.scan cs = some (s, rest))
    (more : List Char) :
    Spec.scan (cs ++ more) = some (s, rest ++ more) := by
  obtain ⟨known, stages⟩ := scan_eq_some.1 scanned
  rw [scan_eq_some, (settled_scanStages cs).2 (by simp [stages]), stages]
  exact ⟨known, rfl⟩

theorem length_of_scan {s : Spec} (scanned : Spec.scan cs = some (s, rest)) :
    rest.length < cs.length := by
  obtain ⟨-, stages⟩ := scan_eq_some.1 scanned
  have shrinks := (settled_scanStages cs).1
  simp [stages] at shrinks
  omega

/-! ## Pieces -/

theorem nextPiece_length (c : Char) (rest : List Char) :
    (nextPiece c rest).2.length ≤ rest.length := by
  unfold nextPiece
  split
  · split
    · exact Nat.le_refl _
    · rename_i scanned
      have shorter := length_of_scan scanned
      split <;> exact Nat.le_of_lt shorter
  · exact Nat.le_refl _

theorem piecesFrom_of_le {n : Nat} (enough : cs.length ≤ n) :
    piecesFrom n cs = pieces cs := by
  suffices same : ∀ n m, ∀ cs : List Char, cs.length ≤ n → cs.length ≤ m →
      piecesFrom n cs = piecesFrom m cs from
      same n cs.length cs enough (Nat.le_refl _)
  intro n
  induction n with
  | zero =>
      intro m cs enough _
      obtain rfl : cs = [] := List.eq_nil_of_length_eq_zero (by omega)
      cases m <;> rfl
  | succ n ih =>
      intro m cs enough enough'
      cases cs with
      | nil => cases m <;> rfl
      | cons c rest =>
          cases m with
          | zero => simp at enough'
          | succ m =>
              have shrinks := nextPiece_length c rest
              simp only [List.length_cons] at enough enough'
              simp only [piecesFrom,
                ih m (nextPiece c rest).2 (by omega) (by omega)]

theorem pieces_cons (c : Char) (rest : List Char) :
    pieces (c :: rest) = (nextPiece c rest).1 ::
      pieces (nextPiece c rest).2 := by
  rw [← piecesFrom_of_le (nextPiece_length c rest)]
  rfl

/-- Induction over a format, piece by piece. -/
theorem pieces_induction {P : List Char → Prop} (nil : P [])
    (cons : ∀ c rest, P (nextPiece c rest).2 → P (c :: rest)) (cs : List Char) :
    P cs := by
  induction size : cs.length using Nat.strongRecOn generalizing cs with
  | _ n ih =>
      cases cs with
      | nil => exact nil
      | cons c rest =>
          have shrinks := nextPiece_length c rest
          exact cons c rest (ih _ (by simp at size; omega) _ rfl)

/-- Reading a format comes upon a percent sign that is followed by `rest`. -/
inductive Meets : List Char → List Char → Prop
  | here (rest : List Char) : Meets ('%' :: rest) rest
  | later {c : Char} {format rest : List Char} :
      Meets (nextPiece c format).2 rest → Meets (c :: format) rest

def Complete (format : List Char) : Prop :=
  ∀ rest, Meets format rest → (Spec.scan rest).isSome

theorem Complete.scan_isSome (complete : Complete ('%' :: rest)) :
    (Spec.scan rest).isSome := complete rest (.here rest)

theorem Complete.tail {c : Char} (complete : Complete (c :: rest)) :
    Complete (nextPiece c rest).2 :=
  fun behind met => complete behind (.later met)

theorem nextPiece_append {c : Char} (complete : Complete (c :: rest))
    (more : List Char) :
    nextPiece c (rest ++ more) = ((nextPiece c rest).1,
      (nextPiece c rest).2 ++ more) := by
  by_cases percent : c = '%'
  · subst percent
    obtain ⟨⟨s, after⟩, scanned⟩ :=
      Option.isSome_iff_exists.1 complete.scan_isSome
    simp only [nextPiece, scanned, scan_append scanned, if_true]
    split <;> rfl
  · simp [nextPiece, percent]

theorem pieces_append {format : List Char} (complete : Complete format)
    (more : List Char) :
    pieces (format ++ more) = pieces format ++ pieces more := by
  induction format using pieces_induction with
  | nil => rfl
  | cons c rest ih =>
      rw [List.cons_append, pieces_cons, nextPiece_append complete,
        ih complete.tail, pieces_cons, List.cons_append]

/-- A directive without a conversion letter would leave a percent sign that
stands for itself. -/
theorem complete_of_pieces {format : List Char}
    (free : .literal '%' ∉ pieces format) : Complete format := by
  induction format using pieces_induction with
  | nil => rintro _ ⟨⟩
  | cons c rest ih =>
      rw [pieces_cons, List.mem_cons, not_or] at free
      intro behind met
      cases met with
      | here =>
          by_contra none
          rw [Option.not_isSome_iff_eq_none] at none
          exact free.1 (by simp [nextPiece, none])
      | later met => exact ih free.2 behind met

/-! ## Arguments -/

def Size.arity : Option Size → Nat
  | some .argument => 1
  | _ => 0

def Spec.stars (s : Spec) : Nat := Size.arity s.width + Size.arity s.precision

def Piece.arity : Piece → Nat
  | .directive s => s.stars + 1
  | _ => 0

def arity : List Piece → Nat
  | [] => 0
  | p :: ps => p.arity + arity ps

def argument (args : List Value) (i : Nat) : Value := args.getD i Value.unset

def AgreeUpTo (n : Nat) (args args' : List Value) : Prop :=
  ∀ i < n, argument args i = argument args' i

variable {args args' : List Value} {n k : Nat} {template : String}
    {memory : Nat}

theorem argument_drop (args : List Value) (k i : Nat) :
    argument (args.drop k) i = argument args (k + i) := by
  simp [argument, List.getD_eq_getElem?_getD]

theorem AgreeUpTo.drop (agree : AgreeUpTo (k + n) args args') :
    AgreeUpTo n (args.drop k) (args'.drop k) := by
  intro i low
  rw [argument_drop, argument_drop]
  exact agree (k + i) (by omega)

theorem AgreeUpTo.mono (agree : AgreeUpTo n args args') (le : k ≤ n) :
    AgreeUpTo k args args' :=
  fun i low => agree i (by omega)

theorem argument_tail (args : List Value) (i : Nat) :
    argument args.tail i = argument args (i + 1) := by
  rw [← List.drop_one, argument_drop, Nat.add_comm]

theorem nextArgument_eq (args : List Value) :
    nextArgument args = (argument args 0, args.tail) := by
  cases args <;> rfl

theorem resolve_rest (s : Spec) (args : List Value) :
    (s.resolve args).2 = args.drop s.stars := by
  obtain ⟨flags, width, precision, conversion⟩ := s
  rcases width with _ | _ | _ <;> rcases precision with _ | _ | _ <;>
    simp [Spec.resolve, Spec.stars, Size.arity, nextArgument_eq]
  rw [← List.drop_one, ← List.drop_one, List.drop_drop]

theorem resolve_congr {s : Spec} (agree : AgreeUpTo s.stars args args') :
    (s.resolve args).1 = (s.resolve args').1 := by
  obtain ⟨flags, width, precision, conversion⟩ := s
  have first := agree 0
  have second := agree 1
  rcases width with _ | _ | _ <;> rcases precision with _ | _ | _ <;>
    simp_all [Spec.resolve, Spec.stars, Size.arity, nextArgument_eq,
      argument_tail]

theorem fillPieces_directive (s : Spec) (ps : List Piece) (args : List Value) :
    fillPieces template memory (.directive s :: ps) args = (do
      s.check.mapError .size
      let shown ← (convert (s.resolve args).1 s.conversion
          (argument args s.stars)
        template memory).mapError .template
      return shown ++
        (← fillPieces template memory ps (args.drop (s.stars + 1)))) := by
  simp only [fillPieces, nextArgument_eq, resolve_rest, argument_drop,
    List.tail_drop, Nat.add_zero]

theorem fillPieces_congr {ps : List Piece}
    (agree : AgreeUpTo (arity ps) args args') :
    fillPieces template memory ps args =
      fillPieces template memory ps args' := by
  induction ps generalizing args args' with
  | nil => rfl
  | cons p ps ih =>
      rw [arity] at agree
      have behind := ih agree.drop
      cases p with
      | literal c =>
          simp only [Piece.arity, List.drop_zero] at behind
          rw [fillPieces, fillPieces, behind]
      | percent =>
          simp only [Piece.arity, List.drop_zero] at behind
          rw [fillPieces, fillPieces, behind]
      | directive s =>
          have sizes : AgreeUpTo s.stars args args' :=
            agree.mono (by simp [Piece.arity]; omega)
          have value : argument args s.stars = argument args' s.stars :=
            agree _ (by simp [Piece.arity]; omega)
          simp only [Piece.arity] at behind
          rw [fillPieces_directive, fillPieces_directive, resolve_congr sizes,
            value, behind]

theorem fillPieces_append (ps qs : List Piece) (args : List Value) :
    fillPieces template memory (ps ++ qs) args = (do
      let front ← fillPieces template memory ps args
      let back ← fillPieces template memory qs (args.drop (arity ps))
      return front ++ back) := by
  induction ps generalizing args with
  | nil => exact (bind_pure (fillPieces template memory qs args)).symm
  | cons p ps ih =>
      cases p with
      | literal c => simp [fillPieces, ih, arity, Piece.arity]
      | percent => simp [fillPieces, ih, arity, Piece.arity]
      | directive s =>
          simp only [List.cons_append, fillPieces_directive, ih, arity,
            Piece.arity, bind_assoc, pure_bind, List.append_assoc,
            List.drop_drop]

theorem agreeUpTo_append_empty (n k : Nat) (args : List Value) :
    AgreeUpTo n (args ++ List.replicate k (.text "")) args := by
  intro i _
  simp only [argument, List.getD_eq_getElem?_getD, List.getElem?_append,
    List.getElem?_replicate]
  split
  · rfl
  · rename_i behind
    rw [List.getElem?_eq_none (by omega)]
    split <;> rfl

theorem agreeUpTo_append {n : Nat} (enough : n ≤ args.length)
    (more : List Value) : AgreeUpTo n (args ++ more) args := by
  intro i low
  simp only [argument, List.getD_eq_getElem?_getD,
    List.getElem?_append_left (show i < args.length by omega)]

/-! ## Formats that are refused -/

/-- A directive of a format has a width or a precision of so many digits, more
than are read. -/
def Overlong (format : String) (digits : Nat) : Prop :=
  Text.digitLimit < digits ∧ ∃ (s : Spec) (ds : List Char),
    .directive s ∈ pieces format.toList ∧ ds.length = digits ∧
    (s.width = some (.given ds) ∨ s.precision = some (.given ds))

theorem check_size_eq_error {size : Option Size} {e : SizeError} :
    forM size Size.check = .error e ↔
      ∃ ds, size = some (.given ds) ∧ ds.length = e.digits ∧
      Text.digitLimit < e.digits := by
  rcases size with _ | _ | ds
  · simp [pure, Except.pure]
  · simp [Size.check]
  · by_cases long : Text.digitLimit < ds.length
    · have refused : forM (some (Size.given ds)) Size.check =
          .error ⟨ds.length⟩ := if_pos long
      rw [refused]
      constructor
      · rintro ⟨⟩
        exact ⟨ds, rfl, rfl, long⟩
      · rintro ⟨_, ⟨⟩, same, -⟩
        rw [same]
    · have taken : forM (some (Size.given ds)) Size.check = .ok () :=
        if_neg long
      rw [taken]
      simp only [reduceCtorEq, false_iff]
      rintro ⟨_, ⟨⟩, same, excess⟩
      exact long (same ▸ excess)

theorem check_of_given {s : Spec} {ds : List Char}
    (long : Text.digitLimit < ds.length)
    (given : s.width = some (.given ds) ∨ s.precision = some (.given ds)) :
    ∃ e, s.check = .error e := by
  change ∃ e, (do forM s.width Size.check; forM s.precision Size.check) = _
  cases width : forM s.width Size.check with
  | error e => exact ⟨e, rfl⟩
  | ok u =>
      have refused {size : Option Size} (h : size = some (.given ds)) :
          forM size Size.check = .error ⟨ds.length⟩ :=
        check_size_eq_error.2 ⟨ds, h, rfl, long⟩
      rcases given with given | given
      · rw [refused given] at width
        contradiction
      · exact ⟨_, refused given⟩

theorem given_of_check {s : Spec} {e : SizeError}
    (refused : s.check = .error e) :
    ∃ ds, ds.length = e.digits ∧ Text.digitLimit < e.digits ∧
      (s.width = some (.given ds) ∨ s.precision = some (.given ds)) := by
  change (do forM s.width Size.check; forM s.precision Size.check) =
    _ at refused
  cases width : forM s.width Size.check with
  | error e' =>
      rw [width] at refused
      cases refused
      obtain ⟨ds, given, count, long⟩ := check_size_eq_error.1 width
      exact ⟨ds, count, long, .inl given⟩
  | ok u =>
      rw [width] at refused
      obtain ⟨ds, given, count, long⟩ := check_size_eq_error.1 refused
      exact ⟨ds, count, long, .inr given⟩

theorem of_bind_eq_error {ε : Type} {x : Except ε α} {f : α → Except ε β}
    {e : ε} (h : (x >>= f) = .error e) : x = .error e ∨ ∃ a, x = .ok a ∧
    f a = .error e := by
  cases x with
  | error e' =>
      cases h
      exact .inl rfl
  | ok a => exact .inr ⟨a, rfl, h⟩

theorem of_return_eq_error {ε : Type} {x : Except ε α} {f : α → β} {e : ε}
    (h : (do return f (← x)) = .error e) : x = .error e := by
  rcases of_bind_eq_error h with failed | ⟨a, -, returned⟩
  · exact failed
  · contradiction

theorem toText_of_convert_error {r : Ready} {c : Char} {v : Value}
    {e : TemplateError} (h : convert r c v template memory = .error e) :
    v.toText template memory = .error e := by
  unfold convert at h
  dsimp only at h
  split at h
  case h_14 => exact of_return_eq_error h
  case h_1 | h_2 | h_3 => split at h <;> contradiction
  all_goals contradiction

theorem argument_mem {i : Nat} {e : TemplateError}
    (h : (argument args i).toText template memory = .error e) :
    argument args i ∈ args := by
  unfold argument at h ⊢
  rw [List.getD_eq_getElem?_getD] at h ⊢
  cases at_i : args[i]? with
  | none =>
      rw [at_i] at h
      contradiction
  | some v => exact List.mem_of_getElem? at_i

/-- Why pieces are not filled: a size is too long, or an argument has no
text. -/
theorem fillPieces_eq_error {ps : List Piece} {e : FormatError}
    (h : fillPieces template memory ps args = .error e) :
    (∃ s t, .directive s ∈ ps ∧ e = .size t ∧ s.check = .error t) ∨
      ∃ v ∈ args, ∃ t, e = .template t ∧
      v.toText template memory = .error t := by
  induction ps generalizing args with
  | nil => contradiction
  | cons p ps ih =>
      have later {args' : List Value} (among : ∀ v ∈ args', v ∈ args)
          (h : fillPieces template memory ps args' = .error e) :
          (∃ s t, .directive s ∈ p :: ps ∧ e = .size t ∧ s.check = .error t) ∨
            ∃ v ∈ args, ∃ t, e = .template t ∧
              v.toText template memory = .error t := by
        rcases ih h with ⟨s, t, inside, rest⟩ | ⟨v, inside, rest⟩
        · exact .inl ⟨s, t, List.mem_cons_of_mem p inside, rest⟩
        · exact .inr ⟨v, among v inside, rest⟩
      cases p with
      | literal c => exact later (fun _ => id) (of_return_eq_error h)
      | percent => exact later (fun _ => id) (of_return_eq_error h)
      | directive s =>
          rw [fillPieces_directive] at h
          rcases of_bind_eq_error h with refused | ⟨u, -, h⟩
          · cases checked : s.check with
            | ok u =>
                rw [checked] at refused
                contradiction
            | error t =>
                rw [checked] at refused
                cases refused
                exact .inl ⟨s, t, List.mem_cons_self, rfl, checked⟩
          rcases of_bind_eq_error h with refused | ⟨shown, -, h⟩
          · generalize converted : convert _ _ _ _ _ = c at refused
            cases c with
            | ok shown => contradiction
            | error t =>
                cases refused
                have lacking := toText_of_convert_error converted
                exact .inr ⟨_, argument_mem lacking, t, rfl, lacking⟩
          · exact later (fun _ => List.mem_of_mem_drop) (of_return_eq_error h)

theorem fillPieces_of_mem {ps : List Piece} {s : Spec} {t : SizeError}
    (among : .directive s ∈ ps) (refused : s.check = .error t) :
    ∃ e, fillPieces template memory ps args = .error e := by
  obtain ⟨front, back, rfl⟩ := List.append_of_mem among
  rw [fillPieces_append, fillPieces_directive, refused]
  cases fillPieces template memory front args with
  | error e => exact ⟨e, rfl⟩
  | ok shown => exact ⟨.size t, rfl⟩

theorem printf_eq_error {format : String} {e : FormatError} :
    printf format args template memory = .error e ↔
      fillPieces template memory (pieces format.toList) args = .error e := by
  unfold printf
  cases fillPieces template memory (pieces format.toList) args <;>
    simp [Except.map]

theorem printf_refused {format : String} {e : FormatError}
    (h : printf format args template memory = .error e) :
    (∃ s, e = .size s ∧ Overlong format s.digits) ∨
      ∃ v ∈ args, ∃ t, e = .template t ∧
      v.toText template memory = .error t := by
  rcases fillPieces_eq_error (printf_eq_error.1 h) with
    ⟨s, t, among, rfl, refused⟩ | lacking
  · obtain ⟨ds, count, long, given⟩ := given_of_check refused
    exact .inl ⟨t, rfl, long, s, ds, among, count, given⟩
  · exact .inr lacking

/-! ## Text as a format -/

def doubled (t : List Char) : List Char :=
  t.flatMap fun c => if c = '%' then ['%', '%'] else [c]

theorem nextPiece_percent (rest : List Char) :
    nextPiece '%' ('%' :: rest) = (.percent, rest) := by
  have scanned : Spec.scan ('%' :: rest) = some (⟨[], none, none, '%'⟩, rest) :=
    rfl
  simp [nextPiece, scanned]

theorem pieces_doubled (t : List Char) :
    pieces (doubled t) = t.map fun c => if c = '%' then .percent
    else .literal c := by
  induction t with
  | nil => rfl
  | cons c t ih =>
      by_cases percent : c = '%'
      · subst percent
        have text : doubled ('%' :: t) = '%' :: '%' :: doubled t := rfl
        simp [text, pieces_cons, nextPiece_percent, ih]
      · have text : doubled (c :: t) = c :: doubled t := by
          simp [doubled, percent]
        simp [text, pieces_cons, nextPiece, ih, percent]

theorem complete_doubled (t : List Char) : Complete (doubled t) := by
  apply complete_of_pieces
  rw [pieces_doubled, List.mem_map]
  rintro ⟨c, -, same⟩
  split at same
  · contradiction
  · cases same
    contradiction

theorem fillPieces_doubled (t : List Char) (args : List Value) :
    fillPieces template memory (pieces (doubled t)) args = .ok t := by
  rw [pieces_doubled]
  induction t with
  | nil => rfl
  | cons c t ih =>
      by_cases percent : c = '%'
      · subst percent
        rw [List.map_cons, if_pos rfl, fillPieces, ih]
        rfl
      · rw [List.map_cons, if_neg percent, fillPieces, ih]
        rfl

theorem printf_congr {format : String}
    (agree : AgreeUpTo (arity (pieces format.toList)) args args') :
    printf format args template memory =
      printf format args' template memory := by
  rw [printf, fillPieces_congr agree, printf]

def consumed (format : String) : Nat := arity (pieces format.toList)

theorem consumed_doubled (t : List Char) :
    consumed (String.ofList (doubled t)) = 0 := by
  rw [consumed, String.toList_ofList, pieces_doubled]
  induction t with
  | nil => rfl
  | cons c t ih =>
      by_cases percent : c = '%' <;> simpa [arity, Piece.arity, percent]
        using ih

theorem printf_append {f g : String} {a b : List Value}
    (complete : Complete f.toList) (enough : a.length = consumed f) :
    printf (f ++ g) (a ++ b) template memory = (do
      let front ← printf f a template memory
      let back ← printf g b template memory
      return front ++ back) := by
  have parts : pieces (f ++ g).toList = pieces f.toList ++ pieces g.toList := by
    rw [String.toList_append, pieces_append complete]
  have front : AgreeUpTo (arity (pieces f.toList)) (a ++ b) a :=
    agreeUpTo_append (Nat.le_of_eq enough.symm) b
  have back : (a ++ b).drop (arity (pieces f.toList)) = b :=
    List.drop_left' enough
  unfold printf
  rw [parts, fillPieces_append, fillPieces_congr front, back]
  cases fillPieces template memory (pieces f.toList) a with
  | error e => rfl
  | ok shown =>
      cases fillPieces template memory (pieces g.toList) b with
      | error e => rfl
      | ok shown' => exact congrArg Except.ok String.ofList_append

/--
A format whose directives are all complete is filled apart from what follows it.
Arguments that are missing are empty texts, and those that are left over do not
matter.  Every text is a format that stands for it, with its percent signs
doubled.  A format is refused if a size in it has too many digits, and otherwise
only if an argument has no text through the template.
-/
theorem formats_compose (template : String) (memory : Nat) :
    (∀ f g a b, Complete f.toList → a.length = consumed f →
      printf (f ++ g) (a ++ b) template memory = (do
        let front ← printf f a template memory
        let back ← printf g b template memory
        return front ++ back)) ∧
    (∀ f args n,
      printf f (args ++ List.replicate n (.text "")) template memory =
        printf f args template memory) ∧
    (∀ f args more, consumed f ≤ args.length →
      printf f (args ++ more) template memory = printf f args template memory) ∧
    (∀ t : String,
      let format := String.ofList (doubled t.toList)
      Complete format.toList ∧ consumed format = 0 ∧
        ∀ args, printf format args template memory = .ok t) ∧
    (∀ f args digits, Overlong f digits →
      ∃ e, printf f args template memory = .error e) ∧
    ∀ f args e, printf f args template memory = .error e →
      (∃ s, e = .size s ∧ Overlong f s.digits) ∨
        ∃ v ∈ args, ∃ t, e = .template t ∧
        v.toText template memory = .error t := by
  refine ⟨?_, ?_, ?_, ?_, ?_, ?_⟩
  · intro f g a b complete enough
    exact printf_append complete enough
  · intro f args n
    exact printf_congr (agreeUpTo_append_empty _ n args)
  · intro f args more enough
    exact printf_congr (agreeUpTo_append enough more)
  · intro t
    refine ⟨?_, consumed_doubled t.toList, fun args => ?_⟩
    · rw [String.toList_ofList]
      exact complete_doubled t.toList
    · rw [printf, String.toList_ofList, fillPieces_doubled]
      exact congrArg Except.ok String.ofList_toList
  · rintro f args digits ⟨long, s, ds, among, rfl, given⟩
    obtain ⟨t, refused⟩ := check_of_given long given
    obtain ⟨e, failed⟩ := fillPieces_of_mem among refused
    exact ⟨e, printf_eq_error.2 failed⟩
  · intro f args e failed
    exact printf_refused failed

/-- An incomplete directive takes its conversion from what follows. -/
example :
    printf ("%2" ++ "s") [.text "x"] "%.6g" 0 = .ok " x" ∧
      (do
        let front ← printf "%2" [] "%.6g" 0
        let back ← printf "s" [.text "x"] "%.6g" 0
        return front ++ back) = .ok "%2s" := by
  decide +kernel

end Awk.Format
