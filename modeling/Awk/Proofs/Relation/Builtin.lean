import Awk.Proofs.Relation.Basic

/-!
# Built-in functions transport relations

A built-in function evaluates arguments and operates on the state.  Related
arguments give related computations, since each operation is primitive; a
substitution also writes at the location of its third argument.
-/

namespace Awk

open List (Forall₂)

namespace Builtin

variable {Q : ExecRelation} {C : Machine → Machine → Prop}
  {args₁ args₂ : List Argument}

/-! ## Texts and numbers -/

theorem runLength_related (hQ : Sequential Q C)
    (h : Forall₂ (Argument.Related Q) args₁ args₂) :
    Q Value (runLength args₁) (runLength args₂) := by
  cases h with
  | nil => exact hQ.primitive (.view fun _ _ => rfl)
  | cons first _ =>
      refine hQ.bind (first.array? hQ) fun array => ?_
      cases array with
      | some id =>
          exact hQ.bind (hQ.primitive (Exec.arrayAt_primitive id)) fun t =>
            hQ.pure _
      | none => exact hQ.bind (first.text hQ) fun text => hQ.pure _

theorem runSubstr_related (hQ : Sequential Q C)
    (h : Forall₂ (Argument.Related Q) args₁ args₂) :
    Q Value (runSubstr args₁) (runSubstr args₂) := by
  rcases h with _ | ⟨first, _ | ⟨second, rest⟩⟩
  · exact hQ.primitive (.fatal .substrArguments)
  · exact hQ.primitive (.fatal .substrArguments)
  · refine hQ.bind (first.text hQ) fun text => ?_
    refine hQ.bind (second.number hQ) fun start => ?_
    have length : ∀ {r₁ r₂ : List Argument},
        Forall₂ (Argument.Related Q) r₁ r₂ →
        Q (Option Number) (r₁.head?.mapM Argument.number)
          (r₂.head?.mapM Argument.number) := by
      intro r₁ r₂ related
      cases related with
      | nil => exact hQ.pure none
      | cons third _ =>
          exact hQ.bind (third.number hQ) fun n => hQ.pure (some n)
    refine hQ.bind (length rest) fun length => ?_
    cases cut : substring text start length with
    | ok part => exact hQ.pure _
    | error e => exact hQ.primitive (.throw fun _ => .window cut)

theorem runIndex_related (hQ : Sequential Q C)
    (h : Forall₂ (Argument.Related Q) args₁ args₂) :
    Q Value (runIndex args₁) (runIndex args₂) := by
  rcases h with _ | ⟨first, _ | ⟨second, _⟩⟩
  · exact hQ.primitive (.fatal .indexArguments)
  · exact hQ.primitive (.fatal .indexArguments)
  · refine hQ.bind (first.text hQ) fun text => ?_
    refine hQ.bind (second.text hQ) fun part => ?_
    cases Text.find? part.toList 0 text.toList with
    | some i => exact hQ.pure _
    | none => exact hQ.pure _

theorem values_related (hQ : Sequential Q C)
    (h : Forall₂ (Argument.Related Q) args₁ args₂) :
    Q (List Value) (args₁.mapM Argument.value) (args₂.mapM Argument.value) :=
  hQ.mapM (h.imp fun _ _ related => related.value)

theorem runSprintf_related (hQ : Sequential Q C)
    (h : Forall₂ (Argument.Related Q) args₁ args₂) :
    Q Value (runSprintf args₁) (runSprintf args₂) := by
  cases h with
  | nil => exact hQ.pure _
  | cons first rest =>
      refine hQ.bind first.value fun format => ?_
      refine hQ.bind (values_related hQ rest) fun values => ?_
      exact hQ.bind (hQ.primitive (Exec.formatted_primitive format values))
        fun text => hQ.pure _

theorem mapText_related (hQ : Sequential Q C) (f : String → String)
    (h : Forall₂ (Argument.Related Q) args₁ args₂) :
    Q Value (mapText f args₁) (mapText f args₂) := by
  cases h with
  | nil => exact hQ.pure _
  | cons first _ => exact hQ.bind (first.text hQ) fun text => hQ.pure _

theorem mapNumber_related (hQ : Sequential Q C) (f : Number → Number)
    (default : Number) (h : Forall₂ (Argument.Related Q) args₁ args₂) :
    Q Value (mapNumber f default args₁) (mapNumber f default args₂) := by
  cases h with
  | nil => exact hQ.pure _
  | cons first _ => exact hQ.bind (first.number hQ) fun n => hQ.pure _

theorem runAtan2_related (hQ : Sequential Q C)
    (h : Forall₂ (Argument.Related Q) args₁ args₂) :
    Q Value (runAtan2 args₁) (runAtan2 args₂) := by
  rcases h with _ | ⟨first, _ | ⟨second, _⟩⟩
  · exact hQ.primitive (.fatal .atan2Arguments)
  · exact hQ.primitive (.fatal .atan2Arguments)
  · refine hQ.bind (first.number hQ) fun y => ?_
    exact hQ.bind (second.number hQ) fun x => hQ.pure _

theorem runFflush_related (hQ : Sequential Q C)
    (h : Forall₂ (Argument.Related Q) args₁ args₂) :
    Q Value (runFflush args₁) (runFflush args₂) := by
  refine hQ.bind ?_ fun _ => hQ.pure _
  induction h with
  | nil => exact hQ.pure _
  | cons first _ ih =>
      simp only [List.forIn_cons, bind_assoc, pure_bind]
      exact hQ.bind first.value fun _ => ih

/-! ## Patterns -/

section Changing

variable [Admits C]

theorem splitAtLiteral_primitive (text pattern : String) :
    Primitive C (splitAtLiteral text pattern) := by
  refine (Exec.regex?_primitive pattern).bind fun found => ?_
  cases found with
  | some p => exact .pure _
  | none => exact .pure _

theorem pieces_related (hQ : Sequential Q C) (text : String)
    (h : Forall₂ (Argument.Related Q) args₁ args₂) :
    Q (List String) (pieces text args₁.head?) (pieces text args₂.head?) := by
  cases h with
  | nil =>
      refine hQ.get_bind (fun _ _ => rfl) (fun _ _ => rfl) fun m => ?_
      exact hQ.primitive (Exec.splitWith_primitive text m.specials.fs)
  | cons first _ =>
      simp only [List.head?_cons, pieces, first.pattern]
      split
      · exact hQ.primitive (splitAtLiteral_primitive text _)
      · refine hQ.bind (first.text hQ) fun separator => ?_
        exact hQ.primitive (Exec.splitWith_primitive text separator)

theorem runSplit_related (hQ : Sequential Q C)
    (h : Forall₂ (Argument.Related Q) args₁ args₂) :
    Q Value (runSplit args₁) (runSplit args₂) := by
  rcases h with _ | ⟨first, _ | ⟨second, rest⟩⟩
  · exact hQ.primitive (.fatal .splitTarget)
  · exact hQ.primitive (.fatal .splitTarget)
  · simp only [runSplit, second.name]
    split
    · exact hQ.primitive (.fatal .splitTarget)
    · rename_i array _
      refine hQ.bind (first.text hQ) fun text => ?_
      refine hQ.bind (pieces_related hQ text rest) fun parts => ?_
      refine hQ.bind (hQ.primitive (Exec.useArray_primitive array)) fun id => ?_
      exact hQ.bind (hQ.primitive (Exec.updateArray_primitive id _)) fun _ =>
        hQ.pure _

def TargetWritable (Q : ExecRelation) (C : Machine → Machine → Prop)
    (args₁ args₂ : List Argument) : Prop :=
  ∀ a₁ a₂, args₁[2]? = some a₁ → args₂[2]? = some a₂ →
    Option.Rel (Into Q (Writable C)) a₁.location a₂.location

theorem substitutionTarget_into (hQ : Sequential Q C)
    (h : Forall₂ (Argument.Related Q) args₁ args₂)
    (writable : ∀ a₁ a₂, args₁.head? = some a₁ → args₂.head? = some a₂ →
      Option.Rel (Into Q (Writable C)) a₁.location a₂.location) :
    Into Q (fun target : String × Option Location => ∀ l, target.2 = some l →
      Writable C l)
      (substitutionTarget args₁.head?) (substitutionTarget args₂.head?) := by
  have located : ∀ {l : Location}, Writable C l →
      Into Q (fun target : String × Option Location => ∀ l, target.2 = some l →
        Writable C l) (do return (← Exec.textOf (← Exec.readAt l), some l))
        (do return (← Exec.textOf (← Exec.readAt l), some l)) := by
    intro l writable
    refine Into.bind hQ (hQ.primitive (Exec.readAt_primitive l)) fun v => ?_
    refine Into.bind hQ (hQ.primitive (Exec.textOf_primitive v)) fun text =>
      Into.pure ?_
    rintro _ ⟨⟩
    exact writable
  cases h with
  | nil =>
      have field : Writable C (.field Number.zero) :=
        Exec.assignField_primitive Number.zero
      exact located field
  | @cons a b _ _ first _ =>
      have location := writable a b rfl rfl
      simp only [List.head?_cons, substitutionTarget]
      generalize a.location = l₁, b.location = l₂ at location
      cases location with
      | none => exact Into.bind hQ (first.text hQ) fun text => Into.pure nofun
      | some related =>
          intro β f₁ f₂ hf
          simp only [bind_assoc]
          refine related fun l writable => ?_
          have next := located writable hf
          simpa only [bind_assoc] using next

theorem runSubstitute_related (hQ : Sequential Q C) (everywhere : Bool)
    (h : Forall₂ (Argument.Related Q) args₁ args₂)
    (target : TargetWritable Q C args₁ args₂) :
    Q Value (runSubstitute everywhere args₁)
      (runSubstitute everywhere args₂) := by
  rcases h with _ | ⟨first, _ | ⟨second, rest⟩⟩
  · exact hQ.primitive (.fatal .substituteArguments)
  · exact hQ.primitive (.fatal .substituteArguments)
  · refine hQ.bind (first.patternText hQ) fun pattern => ?_
    refine hQ.bind (second.text hQ) fun replacement => ?_
    refine substitutionTarget_into hQ rest ?_ fun target writable => ?_
    · intro a₁ a₂ found₁ found₂
      rw [List.head?_eq_getElem?] at found₁ found₂
      exact target a₁ a₂ found₁ found₂
    · refine hQ.bind (hQ.primitive (Exec.regex?_primitive pattern)) fun found =>
        ?_
      cases found with
      | none => exact hQ.pure _
      | some regex =>
          refine hQ.primitive ?_
          dsimp only
          split
          · cases place : target.2 with
            | none => exact .pure _
            | some place' =>
                exact (writable place' place _).bind fun _ => .pure _
          · exact .pure _

theorem storeGroups_related (hQ : Sequential Q C) (text : Array Char)
    (found : Option Regex.Match)
    (h : Forall₂ (Argument.Related Q) args₁ args₂) :
    Q Unit (storeGroups text found args₁.head?)
      (storeGroups text found args₂.head?) := by
  cases h with
  | nil => exact hQ.pure ()
  | cons first _ =>
      simp only [List.head?_cons, storeGroups, first.name]
      split
      · exact hQ.primitive (.fatal .matchTarget)
      · rename_i array _
        refine hQ.bind (hQ.primitive (Exec.useArray_primitive array)) fun id =>
          ?_
        exact hQ.primitive (Exec.updateArray_primitive id _)

theorem setMatch_primitive (start length : Number) :
    Primitive C (setMatch start length) :=
  Exec.setSpecials_silent (fun s => { s with rstart := start,
                                             rlength := length }) fun _ =>
                                               ⟨rfl, rfl, rfl⟩

theorem runMatch_related (hQ : Sequential Q C)
    (h : Forall₂ (Argument.Related Q) args₁ args₂) :
    Q Value (runMatch args₁) (runMatch args₂) := by
  rcases h with _ | ⟨first, _ | ⟨second, rest⟩⟩
  · exact hQ.primitive (.fatal .matchArguments)
  · exact hQ.primitive (.fatal .matchArguments)
  · refine hQ.bind (first.text hQ) fun text => ?_
    refine hQ.bind (second.patternText hQ) fun pattern => ?_
    refine hQ.bind (hQ.primitive (Exec.regex?_primitive pattern)) fun regex =>
      ?_
    refine hQ.bind (storeGroups_related hQ _ _ rest) fun _ => ?_
    have start : Primitive C
        (do return Value.number (← get).specials.rstart) := .view fun _ _ => rfl
    refine hQ.primitive ?_
    split
    · exact (setMatch_primitive _ _).bind fun _ => start
    · exact (setMatch_primitive _ _).bind fun _ => start

/-! ## Random numbers -/

theorem setRandom_primitive (f : Platform → Random → Random) :
    Primitive C (modify fun m => { m with random := f m.platform m.random }) :=
  .modify (fun m => Admits.of_change (.random (f m.platform m.random)) rfl rfl)
    (fun _ => rfl) fun _ _ => rfl

theorem runRand_primitive : Primitive C runRand := by
  refine .get_bind (fun _ _ => rfl) fun m => ?_
  exact (setRandom_primitive fun _ _ => m.random.next.2).bind
    (fun _ => .pure _) m

theorem runSrand_related (hQ : Sequential Q C)
    (h : Forall₂ (Argument.Related Q) args₁ args₂) :
    Q Value (runSrand args₁) (runSrand args₂) := by
  refine hQ.get_bind (fun _ _ => rfl) (fun _ _ => rfl) fun m => ?_
  have seed : ∀ {x₁ x₂ : Exec Number}, Q Number x₁ x₂ →
      Q Value (x₁ >>= fun seed => do
          modify fun m =>
            { m with random := m.random.reseed m.platform.nanSeed seed }
          return .number m.random.seed)
        (x₂ >>= fun seed => do
          modify fun m =>
            { m with random := m.random.reseed m.platform.nanSeed seed }
          return .number m.random.seed) := by
    intro x₁ x₂ related
    refine hQ.bind related fun seed => hQ.primitive ?_
    have reseed : Primitive C (modify fun m =>
        { m with random := m.random.reseed m.platform.nanSeed seed }) :=
      setRandom_primitive fun p r => r.reseed p.nanSeed seed
    exact reseed.bind fun _ => .pure _
  cases h with
  | nil => exact seed (hQ.primitive (.view fun _ _ => rfl))
  | cons first _ => exact seed (first.number hQ)

/-! ## Files -/

theorem runClose_related (hQ : Sequential Q C)
    (h : Forall₂ (Argument.Related Q) args₁ args₂) :
    Q Value (runClose args₁) (runClose args₂) := by
  cases h with
  | nil => exact hQ.pure _
  | cons first _ =>
      refine hQ.bind (first.text hQ) fun name => ?_
      refine hQ.bind (hQ.primitive (Exec.closeTarget_primitive name))
        fun redirect => ?_
      exact hQ.bind (hQ.primitive (Exec.closeFile_primitive name)) fun file =>
        hQ.pure _

/-- Related arguments give related calls of a built-in function. -/
theorem run_related (hQ : Sequential Q C) (b : Builtin)
    (h : Forall₂ (Argument.Related Q) args₁ args₂)
    (target : b = .sub ∨ b = .gsub → TargetWritable Q C args₁ args₂) :
    Q Value (b.run args₁) (b.run args₂) := by
  cases b with
  | length => exact runLength_related hQ h
  | substr => exact runSubstr_related hQ h
  | index => exact runIndex_related hQ h
  | split => exact runSplit_related hQ h
  | sub => exact runSubstitute_related hQ false h (target (.inl rfl))
  | gsub => exact runSubstitute_related hQ true h (target (.inr rfl))
  | «match» => exact runMatch_related hQ h
  | sprintf => exact runSprintf_related hQ h
  | tolower => exact mapText_related hQ _ h
  | toupper => exact mapText_related hQ _ h
  | int => exact mapNumber_related hQ _ _ h
  | sqrt => exact mapNumber_related hQ _ _ h
  | exp => exact mapNumber_related hQ _ _ h
  | log => exact mapNumber_related hQ _ _ h
  | sin => exact mapNumber_related hQ _ _ h
  | cos => exact mapNumber_related hQ _ _ h
  | atan2 => exact runAtan2_related hQ h
  | rand => exact hQ.primitive runRand_primitive
  | srand => exact runSrand_related hQ h
  | close => exact runClose_related hQ h
  | fflush => exact runFflush_related hQ h

end Changing

end Builtin

end Awk
