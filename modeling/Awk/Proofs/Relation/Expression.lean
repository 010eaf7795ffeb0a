import Awk.Proofs.Call
import Awk.Proofs.Parts
import Awk.Proofs.Relation.Builtin

/-!
# Expressions transport relations

`Compatible Q run₁ run₂` asks of a relation what expressions need beside
built-in functions: reading the next record of the main input and the next line
of a file, and calling functions whose bodies are run by `run₁` on one side and
by `run₂` on the other.  The main statement is `Expr.eval_related`, by induction
on expressions and places.

`Compatible Q run₁ run₂ P` asks it for expressions whose parts have the property
`P` only, and `Expr.eval_related` holds of these.
-/

namespace Awk

open List (Forall₂)

/-- A relation that expressions keep, given how the bodies of functions are run
on either side. -/
structure Compatible (Q : ExecRelation) (run₁ run₂ : Services)
    (P : Part → Prop := fun _ => True)
    (C : Machine → Machine → Prop := Change) :
    Prop extends Sequential Q C where
  write : ∀ {e : Expr}, P (.expr e) → ∀ place ∈ e.assigned, ∀ l : Location,
    l.At place → Writable C l := by
    exact fun _ _ _ l _ v => Exec.writeAt_primitive l v
  nextRecord : ∀ {place : Option Place}, P (.expr (.getline place none)) →
    (∀ x ∈ Place.partsOption place, P x) →
    (∀ text, Q Unit (storeLine (Place.locateOption run₁ place) text)
      (storeLine (Place.locateOption run₂ place) text)) →
    Q Number (run₁.nextRecord (Place.locateOption run₁ place))
      (run₂.nextRecord (Place.locateOption run₂ place))
  nextLine : ∀ {place : Option Place} {file : Expr},
    P (.expr (.getline place (some file))) →
    Q Value (file.eval run₁) (file.eval run₂) →
    (∀ text, Q Unit (storeLine (Place.locateOption run₁ place) text)
      (storeLine (Place.locateOption run₂ place) text)) →
    Q Number (readNextLine (file.eval run₁) (Place.locateOption run₁ place))
      (readNextLine (file.eval run₂) (Place.locateOption run₂ place))
  call : ∀ {name : String} {args : List Expr}, P (.expr (.call name args)) →
    Builtin.ofName? name = none →
    Forall₂ (Argument.Related Q) (Expr.arguments run₁ args)
      (Expr.arguments run₂ args) →
    Q Value (callByName run₁.body name (Expr.arguments run₁ args))
      (callByName run₂.body name (Expr.arguments run₂ args))

variable {Q : ExecRelation} {run₁ run₂ : Services} {P : Part → Prop}
  {C : Machine → Machine → Prop}

theorem assigned_of_substitution {name : String} {b : Builtin}
    (found : Builtin.ofName? name = some b)
    (substitution : b = .sub ∨ b = .gsub) (args : List Expr) :
    (Expr.call name args).assigned = (substituted args).toList := by
  have either : name = "sub" ∨ name = "gsub" := by
    unfold Builtin.ofName? at found
    rcases substitution with rfl | rfl
    · split at found <;> simp_all
    · split at found <;> simp_all
  rcases either with rfl | rfl <;> rfl

theorem targetWritable_of_into {args : List Expr}
    (locate : ∀ place, args[2]? = some (.read place) →
      Into Q (Writable C) (place.locate run₁) (place.locate run₂)) :
    Builtin.TargetWritable Q C (Expr.arguments run₁ args)
    (Expr.arguments run₂ args) := by
  intro a₁ a₂ found₁ found₂
  have nth : ∀ (run : Services) (i : Nat), (Expr.arguments run args)[i]? =
      args[i]?.map (Expr.argument run) := by
    intro run i
    rw [Expr.arguments_eq_map, List.getElem?_map]
  rw [nth] at found₁ found₂
  cases third : args[2]? with
  | none => simp [third] at found₁
  | some e =>
      simp only [third, Option.map_some, Option.some.injEq] at found₁ found₂
      subst found₁ found₂
      cases e with
      | read place => exact .some (locate place third)
      | _ => exact .none

theorem plainArgument_related {x₁ x₂ : Exec Value} (h : Q Value x₁ x₂)
    (pattern : Option String) :
    Argument.Related Q ⟨x₁, none, pattern, none⟩ ⟨x₂, none, pattern, none⟩ :=
  ⟨h, rfl, rfl, .none⟩

/-! ## Reading lines -/

section Lines

variable {place₁ place₂ : Option (Exec Location)}

/-- Reading a record is compatible with a relation that also holds of setting
the cursor. -/
theorem readNextRecord_related (hQ : Sequential Q)
    (advance : ∀ next, Q Unit (Exec.setNextRecord next)
      (Exec.setNextRecord next))
    (store : ∀ text, Q Unit (storeLine place₁ text) (storeLine place₂ text)) :
    Q Number (readNextRecord place₁) (readNextRecord place₂) := by
  refine hQ.bind (hQ.primitive Exec.records_primitive) fun records => ?_
  cases records with
  | none => exact hQ.pure _
  | some records =>
      refine hQ.get_bind_input (fun _ _ => rfl) (fun _ _ => rfl) fun m => ?_
      dsimp only
      cases records[m.input.next]? with
      | none => exact hQ.pure _
      | some line =>
          refine hQ.bind (store line) fun _ => ?_
          refine hQ.bind (hQ.primitive Exec.countRecord_primitive) fun _ => ?_
          exact hQ.bind (advance (m.input.next + 1)) fun _ => hQ.pure _

variable [Admits C]

theorem readLineAt_related (hQ : Sequential Q C) (path : String)
    (cursor : FileCursor)
    (store : ∀ text, Q Unit (storeLine place₁ text) (storeLine place₂ text)) :
    Q Number (readLineAt path cursor place₁)
      (readLineAt path cursor place₂) := by
  unfold readLineAt
  cases cursor.lines with
  | none => exact hQ.pure _
  | some lines =>
      dsimp only
      cases lines[cursor.next]? with
      | none => exact hQ.pure _
      | some line =>
          refine hQ.bind (hQ.primitive (Exec.setCursor_primitive path _))
            fun _ => ?_
          exact hQ.bind (store line) fun _ => hQ.pure _

theorem openFile_related (hQ : Sequential Q C)
    (refuse : ∀ path, Q FileCursor (throw (.unread path))
      (throw (.unread path))) (system : FileSystem) (path : String) :
    Q FileCursor (Exec.openFile system path) (Exec.openFile system path) := by
  rcases Exec.openFile_cases (C := C) system path with unread | primitive
  · rw [unread]
    exact refuse path
  · exact hQ.primitive primitive

theorem readNextLine_related (hQ : Sequential Q C)
    (refuse : ∀ path, Q FileCursor (throw (.unread path))
      (throw (.unread path))) {file₁ file₂ : Exec Value}
    (hfile : Q Value file₁ file₂) (store : ∀ text,
      Q Unit (storeLine place₁ text) (storeLine place₂ text)) :
    Q Number (readNextLine file₁ place₁) (readNextLine file₂ place₂) := by
  refine hQ.get_bind (fun _ _ => rfl) (fun _ _ => rfl) fun m => ?_
  cases m.files.system with
  | none => exact hQ.pure _
  | some system =>
      refine hQ.bind hfile fun v => ?_
      refine hQ.bind (hQ.primitive (Exec.textOf_primitive v)) fun name => ?_
      refine hQ.get_bind (fun _ _ => rfl) (fun _ _ => rfl) fun m => ?_
      cases system.resolve m.files.cwd name with
      | none =>
          exact hQ.bind (hQ.primitive (Exec.note_primitive _)) fun _ =>
            hQ.pure _
      | some path =>
          refine hQ.bind (hQ.primitive (Exec.cursorAt_primitive path))
            fun cursor => ?_
          cases cursor with
          | some cursor => exact readLineAt_related hQ path cursor store
          | none =>
              refine hQ.bind (openFile_related hQ refuse system path)
                fun cursor => ?_
              exact readLineAt_related hQ path cursor store

end Lines

/-! ## Expressions -/

theorem callByName_related [Admits C] (hQ : Sequential Q C)
    {args₁ args₂ : List Argument} {body₁ body₂ : BodyRunner}
    (call : ∀ f, Q Value (callFunction body₁ f args₁)
      (callFunction body₂ f args₂)) {name : String}
    (other : Builtin.ofName? name = none) :
    Q Value (callByName body₁ name args₁) (callByName body₂ name args₂) := by
  unfold callByName
  rw [other]
  refine hQ.get_bind (fun _ _ => rfl) (fun _ _ => rfl) fun m => ?_
  cases m.functions.get? name with
  | some f => exact call f
  | none =>
      exact hQ.bind (hQ.primitive (Exec.note_primitive _)) fun _ => hQ.pure _

theorem storeLine_related [Admits C] (hQ : Sequential Q C)
    {place : Option Place} (locate : ∀ p ∈ place,
      Into Q (Writable C) (p.locate run₁) (p.locate run₂)) (text : String) :
    Q Unit (storeLine (Place.locateOption run₁ place) text)
      (storeLine (Place.locateOption run₂ place) text) := by
  cases place with
  | none =>
      simp only [Place.locateOption]
      exact hQ.primitive (Exec.setLine_primitive text)
  | some place =>
      simp only [Place.locateOption]
      exact locate place rfl fun l writable => hQ.primitive (writable _)

mutual

theorem Place.locate_into [Admits C] (hQ : Compatible Q run₁ run₂ P C) :
    ∀ place : Place, (∀ x ∈ place.parts, P x) →
      Into Q (·.At place) (place.locate run₁) (place.locate run₂)
  | .variable name, _ => by
      simp only [Place.locate]
      exact Into.pure rfl
  | .element array keys, parts => by
      simp only [Place.parts] at parts
      simp only [Place.locate]
      refine Into.bind hQ.toSequential (Expr.texts_related hQ keys parts)
        fun texts => ?_
      intro β f₁ f₂ hf
      exact hQ.get_bind (fun _ _ => rfl) (fun _ _ => rfl) fun m => hf _ rfl
  | .field index, parts => by
      simp only [Place.parts] at parts
      simp only [Place.locate]
      exact Into.bind hQ.toSequential (Expr.eval_related hQ index parts)
        fun v => Into.pure trivial

/-- Related runners of bodies give related evaluations of every expression. -/
theorem Expr.eval_related [Admits C] (hQ : Compatible Q run₁ run₂ P C) :
    ∀ e : Expr, (∀ x ∈ e.parts, P x) → Q Value (e.eval run₁) (e.eval run₂)
  | .number x, _ => by
      simp only [Expr.eval]
      exact hQ.pure _
  | .string s, _ => by
      simp only [Expr.eval]
      exact hQ.pure _
  | .regex pattern, _ => by
      simp only [Expr.eval]
      refine hQ.get_bind (fun _ _ => rfl) (fun _ _ => rfl) fun m => ?_
      exact hQ.bind (hQ.primitive (Exec.occurs_primitive pattern _)) fun b =>
        hQ.pure _
  | .read place, parts => by
      simp only [Expr.parts, List.forall_mem_cons] at parts
      simp only [Expr.eval]
      exact Place.locate_into hQ place parts.2 fun l _ =>
        hQ.primitive (Exec.readAt_primitive l)
  | .binary .and left right, parts => by
      simp only [Expr.parts, List.forall_mem_cons, List.forall_mem_append]
        at parts
      simp only [Expr.eval]
      refine hQ.bind (Expr.eval_related hQ left parts.2.1) fun v => ?_
      split
      · exact hQ.bind (Expr.eval_related hQ right parts.2.2) fun w => hQ.pure _
      · exact hQ.pure _
  | .binary .or left right, parts => by
      simp only [Expr.parts, List.forall_mem_cons, List.forall_mem_append]
        at parts
      simp only [Expr.eval]
      refine hQ.bind (Expr.eval_related hQ left parts.2.1) fun v => ?_
      split
      · exact hQ.pure _
      · exact hQ.bind (Expr.eval_related hQ right parts.2.2) fun w => hQ.pure _
  | .binary (.matching negated) left right, parts => by
      simp only [Expr.parts, List.forall_mem_cons, List.forall_mem_append]
        at parts
      simp only [Expr.eval]
      refine hQ.bind (Expr.eval_related hQ left parts.2.1) fun v => ?_
      refine hQ.bind (hQ.primitive (Exec.textOf_primitive v)) fun text => ?_
      have found : ∀ pattern, Q Value
          (do return .ofBool ((← Exec.occurs pattern text) != negated))
          (do return .ofBool ((← Exec.occurs pattern text) != negated)) := by
        intro pattern
        exact hQ.bind (hQ.primitive (Exec.occurs_primitive pattern text))
          fun b => hQ.pure _
      cases right.literalPattern? with
      | some pattern => exact found pattern
      | none =>
          dsimp only
          refine hQ.bind (Expr.eval_related hQ right parts.2.2) fun w => ?_
          exact hQ.bind (hQ.primitive (Exec.textOf_primitive w)) found
  | .binary (.arithmetic op) left right, parts => by
      simp only [Expr.parts, List.forall_mem_cons, List.forall_mem_append]
        at parts
      simp only [Expr.eval]
      refine hQ.bind (Expr.eval_related hQ left parts.2.1) fun a => ?_
      refine hQ.bind (Expr.eval_related hQ right parts.2.2) fun b => ?_
      exact hQ.primitive (applyArithmetic_primitive op a b)
  | .binary (.comparison op) left right, parts => by
      simp only [Expr.parts, List.forall_mem_cons, List.forall_mem_append]
        at parts
      simp only [Expr.eval]
      refine hQ.bind (Expr.eval_related hQ left parts.2.1) fun a => ?_
      refine hQ.bind (Expr.eval_related hQ right parts.2.2) fun b => ?_
      exact hQ.bind (hQ.primitive (Exec.compare_primitive op a b)) fun c =>
        hQ.pure _
  | .binary .concat left right, parts => by
      simp only [Expr.parts, List.forall_mem_cons, List.forall_mem_append]
        at parts
      simp only [Expr.eval]
      refine hQ.bind (Expr.eval_related hQ left parts.2.1) fun a => ?_
      refine hQ.bind (Expr.eval_related hQ right parts.2.2) fun b => ?_
      refine hQ.bind (hQ.primitive (Exec.textOf_primitive a)) fun s => ?_
      exact hQ.bind (hQ.primitive (Exec.textOf_primitive b)) fun t => hQ.pure _
  | .unary op operand, parts => by
      simp only [Expr.parts, List.forall_mem_cons] at parts
      simp only [Expr.eval]
      exact hQ.bind (Expr.eval_related hQ operand parts.2) fun v => hQ.pure _
  | .ternary condition yes no, parts => by
      simp only [Expr.parts, List.forall_mem_cons, List.forall_mem_append]
        at parts
      obtain ⟨-, ⟨test, first⟩, second⟩ := parts
      simp only [Expr.eval]
      refine hQ.bind (Expr.eval_related hQ condition test) fun v => ?_
      split
      · exact Expr.eval_related hQ yes first
      · exact Expr.eval_related hQ no second
  | .call name args, parts => by
      simp only [Expr.parts, List.forall_mem_cons] at parts
      obtain ⟨node, parts⟩ := parts
      have arguments := Expr.arguments_related hQ args parts
      have targets := Expr.targets_into hQ args parts
      simp only [Expr.eval]
      cases found : Builtin.ofName? name with
      | none => exact hQ.call node found arguments
      | some b =>
          unfold callByName
          rw [found]
          refine b.run_related hQ.toSequential arguments fun substitution => ?_
          refine targetWritable_of_into fun place third => ?_
          have assigned : place ∈ (Expr.call name args).assigned := by
            rw [assigned_of_substitution found substitution,
              substituted_of_third third]
            exact List.mem_singleton.2 rfl
          exact (targets 2 place third).imp (hQ.write node place assigned)
  | .assign op place value, parts => by
      simp only [Expr.parts, List.forall_mem_cons, List.forall_mem_append]
        at parts
      obtain ⟨node, target, parts⟩ := parts
      simp only [Expr.eval]
      refine hQ.bind (Expr.eval_related hQ value parts) fun v => ?_
      refine Place.locate_into hQ place target fun l here => ?_
      have writable := hQ.write node place (List.mem_singleton.2 rfl) l here
      cases op with
      | none => exact hQ.bind (hQ.primitive (writable v)) fun _ => hQ.pure _
      | some op =>
          refine hQ.bind (hQ.primitive (Exec.readAt_primitive l)) fun w => ?_
          exact hQ.bind (hQ.primitive (writable _)) fun _ => hQ.pure _
  | .increment place up returnsOld, parts => by
      simp only [Expr.parts, List.forall_mem_cons] at parts
      obtain ⟨node, target⟩ := parts
      simp only [Expr.eval]
      refine Place.locate_into hQ place target fun l here => ?_
      have writable := hQ.write node place (List.mem_singleton.2 rfl) l here
      refine hQ.bind (hQ.primitive (Exec.readAt_primitive l)) fun w => ?_
      exact hQ.bind (hQ.primitive (writable _)) fun _ => hQ.pure _
  | .member keys array, parts => by
      simp only [Expr.parts, List.forall_mem_cons] at parts
      simp only [Expr.eval]
      refine hQ.bind (Expr.texts_related hQ keys parts.2) fun texts => ?_
      refine hQ.get_bind (fun _ _ => rfl) (fun _ _ => rfl) fun m => ?_
      exact hQ.bind (hQ.primitive (Exec.hasElement_primitive array _)) fun b =>
        hQ.pure _
  | .getline place none, parts => by
      simp only [Expr.parts, List.forall_mem_cons] at parts
      obtain ⟨node, target⟩ := parts
      have locate := Place.locateOption_into hQ place target
      simp only [Expr.eval]
      refine hQ.bind (hQ.nextRecord node target
        (storeLine_related hQ.toSequential fun p inside => ?_)) fun n =>
          hQ.pure _
      exact (locate p inside).imp (hQ.write node p (Option.mem_toList.2 inside))
  | .getline place (some file), parts => by
      simp only [Expr.parts, List.forall_mem_cons, List.forall_mem_append]
        at parts
      obtain ⟨node, target, parts⟩ := parts
      have locate := Place.locateOption_into hQ place target
      simp only [Expr.eval]
      refine hQ.bind (hQ.nextLine node (Expr.eval_related hQ file parts)
        (storeLine_related hQ.toSequential fun p inside => ?_)) fun n =>
          hQ.pure _
      exact (locate p inside).imp (hQ.write node p (Option.mem_toList.2 inside))
  | .tuple elements, parts => by
      simp only [Expr.parts, List.forall_mem_cons] at parts
      simp only [Expr.eval]
      exact Expr.evalLast_related hQ Value.unset elements parts.2

theorem Expr.evalLast_related [Admits C] (hQ : Compatible Q run₁ run₂ P C)
    (last : Value) :
    ∀ es : List Expr, (∀ x ∈ Expr.partsAll es, P x) →
      Q Value (Expr.evalLast run₁ last es) (Expr.evalLast run₂ last es)
  | [], _ => by
      simp only [Expr.evalLast]
      exact hQ.pure _
  | e :: rest, parts => by
      simp only [Expr.partsAll, List.forall_mem_append] at parts
      simp only [Expr.evalLast]
      exact hQ.bind (Expr.eval_related hQ e parts.1) fun v =>
        Expr.evalLast_related hQ v rest parts.2

theorem Expr.texts_related [Admits C] (hQ : Compatible Q run₁ run₂ P C) :
    ∀ es : List Expr, (∀ x ∈ Expr.partsAll es, P x) →
      Q (List String) (Expr.texts run₁ es) (Expr.texts run₂ es)
  | [], _ => by
      simp only [Expr.texts]
      exact hQ.pure _
  | e :: rest, parts => by
      simp only [Expr.partsAll, List.forall_mem_append] at parts
      simp only [Expr.texts]
      refine hQ.bind (Expr.eval_related hQ e parts.1) fun v => ?_
      refine hQ.bind (hQ.primitive (Exec.textOf_primitive v)) fun text => ?_
      exact hQ.bind (Expr.texts_related hQ rest parts.2) fun texts => hQ.pure _

theorem Place.locateOption_into [Admits C] (hQ : Compatible Q run₁ run₂ P C) :
    ∀ place : Option Place, (∀ x ∈ Place.partsOption place, P x) →
      ∀ p ∈ place, Into Q (·.At p) (p.locate run₁) (p.locate run₂)
  | none, _ => nofun
  | some place, parts => by
      simp only [Place.partsOption] at parts
      rintro p ⟨⟩
      exact Place.locate_into hQ place parts

theorem Expr.arguments_related [Admits C] (hQ : Compatible Q run₁ run₂ P C) :
    ∀ es : List Expr, (∀ x ∈ Expr.partsAll es, P x) →
      Forall₂ (Argument.Related Q) (Expr.arguments run₁ es)
        (Expr.arguments run₂ es)
  | [], _ => by
      simp only [Expr.arguments]
      exact .nil
  | e :: rest, parts => by
      simp only [Expr.partsAll, List.forall_mem_append] at parts
      have tail := Expr.arguments_related hQ rest parts.2
      have head := Expr.eval_related hQ e parts.1
      cases e with
      | read place =>
          simp only [Expr.parts, List.forall_mem_cons] at parts
          have locate :=
            (Place.locate_into hQ place parts.1.2).related hQ.toSequential
          simp only [Expr.arguments]
          refine .cons ⟨?_, rfl, rfl, .some locate⟩ tail
          simpa only [Expr.eval] using head
      | _ =>
          simp only [Expr.arguments]
          exact .cons (plainArgument_related head _) tail

theorem Expr.targets_into [Admits C] (hQ : Compatible Q run₁ run₂ P C) :
    ∀ es : List Expr, (∀ x ∈ Expr.partsAll es, P x) →
    ∀ (i : Nat) (place : Place), es[i]? = some (.read place) →
      Into Q (·.At place) (place.locate run₁) (place.locate run₂)
  | [], _ => by simp
  | e :: rest, parts => by
      simp only [Expr.partsAll, List.forall_mem_append] at parts
      intro i place found
      cases i with
      | zero =>
          cases e with
          | read place' =>
              simp only [Expr.parts, List.forall_mem_cons] at parts
              simp only [List.getElem?_cons_zero, Option.some.injEq,
                Expr.read.injEq] at found
              subst found
              exact Place.locate_into hQ place' parts.1.2
          | _ => simp at found
      | succ i => exact Expr.targets_into hQ rest parts.2 i place found

end

end Awk
