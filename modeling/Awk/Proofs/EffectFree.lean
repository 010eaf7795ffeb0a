import Awk.Proofs.Operations

/-!
# Expressions without effects

Reading can write: a subscript creates an element, and a name becomes an array
when it is used as one.  Expressions that contain no elements, assignments,
increments, calls and `getline` do nothing of the kind.  Evaluating them, to a
value or to a fault, leaves the state as it was, apart from the patterns that
are kept.
-/

namespace Awk

/-- Expressions of literals, variables, fields, operators, tuples and membership
tests. -/
inductive Expr.EffectFree : Expr → Prop
  | number (x : Number) : EffectFree (.number x)
  | string (s : String) : EffectFree (.string s)
  | regex (pattern : String) : EffectFree (.regex pattern)
  | variable (name : String) : EffectFree (.read (.variable name))
  | field {index : Expr} : EffectFree index → EffectFree (.read (.field index))
  | binary (op : BinaryOp) {left right : Expr} :
      EffectFree left → EffectFree right → EffectFree (.binary op left right)
  | unary (op : UnaryOp) {operand : Expr} : EffectFree operand →
      EffectFree (.unary op operand)
  | ternary {condition yes no : Expr} : EffectFree condition → EffectFree yes →
      EffectFree no → EffectFree (.ternary condition yes no)
  | member (array : String) {keys : List Expr} :
      (∀ e ∈ keys, EffectFree e) → EffectFree (.member keys array)
  | tuple {elements : List Expr} : (∀ e ∈ elements, EffectFree e) →
      EffectFree (.tuple elements)

def Machine.SameButPatterns (m m' : Machine) : Prop :=
  ∃ c, m' = { m with regexes := c }

instance : IsPreorder Machine Machine.SameButPatterns where
  refl m := ⟨m.regexes, rfl⟩
  trans := by
    rintro m _ _ ⟨c, rfl⟩ ⟨c', rfl⟩
    exact ⟨c', rfl⟩

namespace Exec

abbrev Reads {α : Type} (x : Exec α) : Prop := Keeps Machine.SameButPatterns x

variable {α : Type}

theorem fatal_reads (cause : Fatal) : Reads (fatal cause : Exec α) :=
  fun m => refl_of _ m

theorem orFatal_reads (r : Except Fatal α) : Reads (orFatal r) := by
  cases r with
  | ok a => exact .pure a
  | error cause => exact fatal_reads cause

theorem ofTemplate_reads (x : Except Format.TemplateError α) :
    Reads (ofTemplate x) := by
  cases x with
  | ok a => exact .pure a
  | error e => exact fun m => refl_of _ m

theorem textOf_reads (v : Value) : Reads (textOf v) :=
  Keeps.get_bind fun m => Keeps.get_bind (fun _ => ofTemplate_reads _ _) m

theorem compare_reads (op : Comparison) (a b : Value) :
    Reads (compare op a b) :=
  Keeps.get_bind fun m => Keeps.get_bind (fun _ => ofTemplate_reads _ _) m

theorem regex_reads (pattern : String) : Reads (regex pattern) := by
  intro m
  cases looked : m.regexes.lookup { text := pattern } with
  | ok entry =>
      rw [final_ok (regex_ok looked)]
      exact ⟨entry.2, rfl⟩
  | error e =>
      rw [final_ok (regex_error looked)]
      exact refl_of _ m

theorem occurs_reads (pattern text : String) : Reads (occurs pattern text) := by
  refine (regex_reads pattern).bind fun found m => ?_
  cases answer : Regex.occurs found text with
  | ok b => exact refl_of _ m
  | error e => exact refl_of _ m

theorem readField_reads (index : Number) : Reads (readField index) :=
  (orFatal_reads _).bind fun _ m => refl_of _ m

/-- A name that was never assigned is read without being created. -/
theorem readVariable_reads (name : String) : Reads (readVariable name) := by
  intro m
  unfold readVariable
  cases NameKind.ofName name with
  | ordinary =>
      change Machine.SameButPatterns m
        (final (ite (m.names.arrays.contains name = true) _ _) m)
      split
      · exact fatal_reads _ m
      · exact refl_of _ m
  | _ => exact refl_of _ m

/-- Asking for an element creates neither the element nor the array. -/
theorem hasElement_reads (name key : String) : Reads (hasElement name key) :=
  Keeps.get_bind fun m => (orFatal_reads _).bind (fun _ m => refl_of _ m) m

end Exec

open Exec (Reads Keeps)

theorem applyArithmetic_reads (op : Arithmetic) (left right : Value) :
    Reads (applyArithmetic op left right) := by
  unfold applyArithmetic
  cases op.apply left.toNumber right.toNumber with
  | ok x => exact .pure _
  | error e => exact Exec.fatal_reads _

section Operators

variable {run : Services} {left right : Expr}

theorem evalLast_reads {elements : List Expr}
    (parts : ∀ e ∈ elements, Reads (e.eval run)) (last : Value) :
    Reads (Expr.evalLast run last elements) := by
  induction elements generalizing last with
  | nil =>
      rw [Expr.evalLast]
      exact .pure last
  | cons e rest ih =>
      simp only [List.forall_mem_cons] at parts
      rw [Expr.evalLast]
      exact parts.1.bind fun v => ih parts.2 v

theorem texts_reads {keys : List Expr}
    (parts : ∀ e ∈ keys, Reads (e.eval run)) : Reads (Expr.texts run keys) := by
  induction keys with
  | nil =>
      rw [Expr.texts]
      exact .pure []
  | cons e rest ih =>
      simp only [List.forall_mem_cons] at parts
      rw [Expr.texts]
      refine parts.1.bind fun v => (Exec.textOf_reads v).bind fun text => ?_
      exact (ih parts.2).bind fun texts => .pure _

theorem matching_reads (negated : Bool) (first : Reads (left.eval run))
    (second : Reads (right.eval run)) :
    Reads ((Expr.binary (.matching negated) left right).eval run) := by
  have found : ∀ text pattern,
      Reads
        (do return Value.ofBool ((← Exec.occurs pattern text) != negated)) :=
    fun text pattern => (Exec.occurs_reads pattern text).bind fun b => .pure _
  simp only [Expr.eval]
  refine first.bind fun v => (Exec.textOf_reads v).bind fun text => ?_
  cases right.literalPattern? with
  | some pattern => exact found text pattern
  | none => exact second.bind fun w => (Exec.textOf_reads w).bind (found text)

theorem binary_reads (op : BinaryOp) (first : Reads (left.eval run))
    (second : Reads (right.eval run)) :
    Reads ((Expr.binary op left right).eval run) := by
  cases op with
  | matching negated => exact matching_reads negated first second
  | and =>
      simp only [Expr.eval]
      refine first.bind fun v => ?_
      split
      · exact second.bind fun w => .pure _
      · exact .pure _
  | or =>
      simp only [Expr.eval]
      refine first.bind fun v => ?_
      split
      · exact .pure _
      · exact second.bind fun w => .pure _
  | arithmetic op =>
      simp only [Expr.eval]
      exact first.bind fun a => second.bind fun b =>
        applyArithmetic_reads op a b
  | comparison op =>
      simp only [Expr.eval]
      exact first.bind fun a => second.bind fun b =>
        (Exec.compare_reads op a b).bind fun c => .pure _
  | concat =>
      simp only [Expr.eval]
      exact first.bind fun a => second.bind fun b =>
        (Exec.textOf_reads a).bind fun s => (Exec.textOf_reads b).bind fun t =>
          .pure _

end Operators

theorem Expr.EffectFree.eval_reads {e : Expr} (free : e.EffectFree)
    (run : Services) : Reads (e.eval run) := by
  induction free with
  | number x =>
      simp only [Expr.eval]
      exact .pure _
  | string s =>
      simp only [Expr.eval]
      exact .pure _
  | regex pattern =>
      simp only [Expr.eval]
      exact Keeps.get_bind fun m =>
        (Exec.occurs_reads pattern _).bind (fun b => .pure _) m
  | «variable» name =>
      simp only [Expr.eval, Place.locate]
      exact Exec.readVariable_reads name
  | field _ index =>
      simp only [Expr.eval, Place.locate, bind_assoc, pure_bind]
      exact index.bind fun v => Exec.readField_reads v.toNumber.floor
  | binary op _ _ left right => exact binary_reads op left right
  | unary op _ operand =>
      simp only [Expr.eval]
      exact operand.bind fun v => .pure _
  | ternary _ _ _ condition yes no =>
      simp only [Expr.eval]
      refine condition.bind fun v => ?_
      split
      · exact yes
      · exact no
  | member array _ keys =>
      simp only [Expr.eval]
      refine (texts_reads keys).bind fun parts => Keeps.get_bind fun m => ?_
      exact (Exec.hasElement_reads array _).bind (fun b => .pure _) m
  | tuple _ elements =>
      simp only [Expr.eval]
      exact evalLast_reads elements Value.unset

theorem Expr.EffectFree.evalWhole_reads {e : Expr} (free : e.EffectFree)
    (run : Services) :
    Reads (evalWhole run e) := by
  refine Keeps.get_bind fun m => ?_
  split
  · exact free.eval_reads run m
  · exact refl_of _ m

/-- An expression without effects leaves behind the state in which it was
evaluated, apart from the patterns that are kept, whether it ends with a value
or with a fault. -/
theorem effectFree_keeps_state {e : Expr} (free : e.EffectFree) (run : Services)
    (m : Machine) :
    (∃ c, (e.eval run).final m = { m with regexes := c }) ∧
      ∃ c, (evalWhole run e).final m = { m with regexes := c } :=
  ⟨free.eval_reads run m, free.evalWhole_reads run m⟩

/-- A membership test with an unset name in its subscript, and a match of the
first field with what it selects. -/
theorem membership_keeps_state :
    let seen : Expr := .member [.read (.variable "x"),
        .number Number.zero] "seen"
    let e : Expr :=
      .binary (.matching false) (.read (.field (.number Number.one)))
        (.ternary seen (.string "(") (.unary .minus (.tuple [.regex "a",
          .string "b"])))
    e.EffectFree ∧ (∃ c, (e.eval runFunction).final {} = { ({} : Machine) with
      regexes := c }) ∧ ∃ c, (evalWhole runFunction e).final {} =
      { ({} : Machine) with regexes := c } := by
  intro seen e
  have test : seen.EffectFree :=
    .member "seen" (by simp [Expr.EffectFree.number, Expr.EffectFree.variable])
  have list : (Expr.tuple [.regex "a", .string "b"]).EffectFree :=
    .tuple (by simp [Expr.EffectFree.regex, Expr.EffectFree.string])
  have free : e.EffectFree :=
    .binary _ (.field (.number _)) (.ternary test (.string _) (.unary _ list))
  exact ⟨free, effectFree_keeps_state free runFunction {}⟩

end Awk
