import Awk.Evaluator.Builtin
import Awk.Program.Basic
import Awk.Proofs.Table

/-!
# The parts of a program

The expressions and statements in a program, at any depth, as a list.  What is
asked of a program by its text alone is asked of its parts: which places they
assign, whether they read records, which functions they call.
-/

namespace Awk

/-- An expression or a statement somewhere in a program. -/
inductive Part where
  | expr (e : Expr)
  | stmt (s : Stmt)

mutual

def Place.parts : Place → List Part
  | .variable _ => []
  | .element _ keys => Expr.partsAll keys
  | .field index => index.parts

def Expr.parts : Expr → List Part
  | .read place => .expr (.read place) :: place.parts
  | .binary op left right =>
      .expr (.binary op left right) :: (left.parts ++ right.parts)
  | .unary op operand => .expr (.unary op operand) :: operand.parts
  | .ternary condition yes no =>
      .expr (.ternary condition yes no) ::
        (condition.parts ++ yes.parts ++ no.parts)
  | .call name args => .expr (.call name args) :: Expr.partsAll args
  | .assign op place value =>
      .expr (.assign op place value) :: (place.parts ++ value.parts)
  | .increment place up returnsOld =>
      .expr (.increment place up returnsOld) :: place.parts
  | .member keys array => .expr (.member keys array) :: Expr.partsAll keys
  | .getline place none =>
      .expr (.getline place none) :: Place.partsOption place
  | .getline place (some file) =>
      .expr (.getline place (some file)) ::
        (Place.partsOption place ++ file.parts)
  | .tuple elements => .expr (.tuple elements) :: Expr.partsAll elements
  | e => [.expr e]

def Expr.partsAll : List Expr → List Part
  | [] => []
  | e :: rest => e.parts ++ Expr.partsAll rest

def Place.partsOption : Option Place → List Part
  | none => []
  | some place => place.parts

end

def Redirect.parts (r : Redirect) : List Part := r.target.parts

def partsOf {α : Type} (parts : α → List Part) (a : Option α) : List Part :=
  a.toList.flatMap parts

theorem forall_mem_partsOf {α : Type} {parts : α → List Part} {a : Option α}
    {P : Part → Prop} :
    (∀ x ∈ partsOf parts a, P x) ↔ ∀ b ∈ a, ∀ x ∈ parts b, P x := by
  simp only [partsOf, List.forall_mem_flatMap, Option.mem_toList,
    Option.mem_def]

mutual

def Stmt.parts : Stmt → List Part
  | .block body => .stmt (.block body) :: Stmt.partsAll body
  | .expr e => .stmt (.expr e) :: e.parts
  | .print args redirect =>
      .stmt (.print args redirect) ::
        (args.flatMap Expr.parts ++ partsOf Redirect.parts redirect)
  | .printf format args redirect =>
      .stmt (.printf format args redirect) ::
        (format.parts ++ args.flatMap Expr.parts ++
          partsOf Redirect.parts redirect)
  | .ifElse condition yes no =>
      .stmt (.ifElse condition yes no) ::
        (condition.parts ++ yes.parts ++ Stmt.partsOption no)
  | .whileLoop condition body =>
      .stmt (.whileLoop condition body) :: (condition.parts ++ body.parts)
  | .doLoop body condition =>
      .stmt (.doLoop body condition) :: (body.parts ++ condition.parts)
  | .forLoop init condition update body =>
      .stmt (.forLoop init condition update body) ::
        (partsOf Expr.parts init ++ partsOf Expr.parts condition ++
          partsOf Expr.parts update ++ body.parts)
  | .forIn name array body => .stmt (.forIn name array body) :: body.parts
  | .exit code => .stmt (.exit code) :: partsOf Expr.parts code
  | .returnValue value => .stmt (.returnValue value) :: partsOf Expr.parts value
  | .delete array keys =>
      .stmt (.delete array keys) :: (keys.getD []).flatMap Expr.parts
  | s => [.stmt s]

def Stmt.partsAll : List Stmt → List Part
  | [] => []
  | s :: rest => s.parts ++ Stmt.partsAll rest

def Stmt.partsOption : Option Stmt → List Part
  | none => []
  | some s => s.parts

end

def Guard.tests : Guard → List Expr
  | .regex _ => []
  | .expr e => [e]

def Trigger.tests : Trigger → List Expr
  | .when guard => guard.tests
  | .range start stop => start.tests ++ stop.tests
  | _ => []

def Rule.parts (r : Rule) : List Part :=
  r.trigger.tests.flatMap Expr.parts ++ Stmt.partsAll r.action

def Program.parts (p : Program) : List Part :=
  p.rules.flatMap Rule.parts ++ p.functions.flatMap fun f =>
    Stmt.partsAll f.body

/-! ## What a part does -/

def Part.callee? : Part → Option String
  | .expr (.call name _) =>
      if (Builtin.ofName? name).isNone then some name else none
  | _ => none

def substituted : List Expr → Option Place
  | _ :: _ :: .read place :: _ => some place
  | _ => none

theorem substituted_of_third {args : List Expr} {place : Place}
    (third : args[2]? = some (.read place)) :
    substituted args = some place := by
  rcases args with _ | ⟨a, _ | ⟨b, _ | ⟨c, rest⟩⟩⟩
  all_goals simp at third
  subst third
  rfl

/-- The places that an expression assigns, apart from those that the expressions
in it assign. -/
def Expr.assigned : Expr → List Place
  | .assign _ place _ => [place]
  | .increment place _ _ => [place]
  | .getline place _ => place.toList
  | .call "sub" args => (substituted args).toList
  | .call "gsub" args => (substituted args).toList
  | _ => []

def Part.assigns : Part → List String
  | .expr e => e.assigned.filterMap Place.variableName?
  | .stmt (.forIn name _ _) => [name]
  | _ => []

def Part.SparesNumbers (x : Part) : Prop := "NR" ∉ x.assigns ∧ "FNR" ∉ x.assigns

instance (x : Part) : Decidable x.SparesNumbers :=
  inferInstanceAs (Decidable (_ ∧ _))

/-- Whether a part neither reads a record of the main input nor calls a function
that is not built in. -/
def Part.isPlain : Part → Bool
  | .expr (.getline _ none) => false
  | x => x.callee?.isNone

/-- Whether a part reads a record, if it does, into a place with a plain
subscript or field number. -/
def Part.hasPlainTarget : Part → Bool
  | .expr (.getline place none) => (Place.partsOption place).all Part.isPlain
  | _ => true

def Location.At : Location → Place → Prop
  | .field _, .field _ => True
  | .variable name, .variable name' => name = name'
  | .element array _, .element array' _ => array = array'
  | _, _ => False

theorem Location.At.mem_assigns {e : Expr} {place : Place}
    (assigned : place ∈ e.assigned) {name : String}
    (here : (Location.variable name).At place) :
    name ∈ (Part.expr e).assigns := by
  cases place with
  | «variable» name' =>
      obtain rfl : name = name' := here
      exact List.mem_filterMap.2 ⟨.variable name, assigned, rfl⟩
  | _ => exact here.elim

theorem Part.SparesNumbers.ne {e : Expr} (spares : (Part.expr e).SparesNumbers)
    {place : Place} (assigned : place ∈ e.assigned) {l : Location}
    (here : l.At place) :
    l ≠ .variable "NR" ∧ l ≠ .variable "FNR" := by
  constructor
  · rintro rfl
    exact spares.1 (here.mem_assigns assigned)
  · rintro rfl
    exact spares.2 (here.mem_assigns assigned)

/-! ## Programs -/

def Program.PlainTargets (p : Program) : Prop :=
  ∀ x ∈ p.parts, x.hasPlainTarget = true

def Program.SparesNumbers (p : Program) : Prop := ∀ x ∈ p.parts, x.SparesNumbers

instance (p : Program) : Decidable p.PlainTargets := List.decidableBAll _ _

instance (p : Program) : Decidable p.SparesNumbers := List.decidableBAll _ _

/-- The functions of a program by their names; of two with one name, the
second. -/
def Program.table (p : Program) : Table Function :=
  p.functions.foldl (fun t f => t.insert f.name f) {}

theorem mem_of_get?_foldl {fs : List Function} {t : Table Function}
    {name : String} {f : Function}
    (found : (fs.foldl (fun t f => t.insert f.name f) t).get? name = some f) :
    (f ∈ fs ∧ f.name = name) ∨ t.get? name = some f := by
  induction fs generalizing t with
  | nil => exact .inr found
  | cons g rest ih =>
      rcases ih found with ⟨later, named⟩ | here
      · exact .inl ⟨List.mem_cons_of_mem _ later, named⟩
      · rw [Table.get?_insert] at here
        split at here
        case isTrue same =>
          cases here
          exact .inl ⟨List.mem_cons_self, same.symm⟩
        case isFalse => exact .inr here

theorem Program.mem_of_table {p : Program} {name : String} {f : Function}
    (found : p.table.get? name = some f) : f ∈ p.functions ∧ f.name = name := by
  rcases mem_of_get?_foldl found with inside | nowhere
  · exact inside
  · contradiction

def Covers (parts : List Part) (functions : Table Function) : Prop :=
  ∀ name f, functions.get? name = some f → ∀ x ∈ Stmt.partsAll f.body, x ∈ parts

theorem Program.covers (p : Program) : Covers p.parts p.table := by
  intro name f found x inside
  have defined := (Program.mem_of_table found).1
  exact List.mem_append_right _ (List.mem_flatMap.2 ⟨f, defined, inside⟩)

section Rules

variable {p : Program} {r : Rule} (rule : r ∈ p.rules) {x : Part}

include rule

theorem Program.mem_parts_of_test {e : Expr} (test : e ∈ r.trigger.tests)
    (inside : x ∈ e.parts) : x ∈ p.parts := by
  have part : x ∈ r.parts :=
    List.mem_append_left _ (List.mem_flatMap.2 ⟨e, test, inside⟩)
  exact List.mem_append_left _ (List.mem_flatMap.2 ⟨r, rule, part⟩)

theorem Program.mem_parts_of_action (inside : x ∈ Stmt.partsAll r.action) :
    x ∈ p.parts := by
  have part : x ∈ r.parts := List.mem_append_right _ inside
  exact List.mem_append_left _ (List.mem_flatMap.2 ⟨r, rule, part⟩)

end Rules

end Awk
