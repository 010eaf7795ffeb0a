import Awk.Host
import Awk.Program.Outline
import Awk.Proofs.Source.Soundness
import Mathlib

/-!
# Programs that are parsed are well formed

What the grammar and the checks let pass: functions and parameters with names of
their own, and trees in which only places are assigned to.
-/

namespace Awk

/-! ## Nodes of an outline -/

namespace Outline

structure Node where
  name : String
  fields : List (String × Outline)

mutual

def nodes : Outline → List Node
  | .node name fields => ⟨name, fields⟩ :: fieldNodes fields
  | .list items | .tuple items => allNodes items
  | .text _ | .number _ | .integer _ | .flag _ | .nothing => []

def allNodes : List Outline → List Node
  | [] => []
  | item :: rest => item.nodes ++ allNodes rest

def fieldNodes : List (String × Outline) → List Node
  | [] => []
  | (_, value) :: rest => value.nodes ++ fieldNodes rest

end

def isPlace : Outline → Bool
  | .node name _ => ["Variable", "ArrayAccess", "FieldRef"].contains name
  | _ => false

def isNothing : Outline → Bool
  | .nothing => true
  | _ => false

def isNonempty : Outline → Bool
  | .list (_ :: _) => true
  | _ => false

def isMode : Outline → Bool
  | .text mode => [">", ">>"].contains mode
  | _ => false

def Node.regular (n : Node) : Bool :=
  let has (field : String) (test : Outline → Bool) :=
    (n.fields.lookup field).any test
  match n.name with
  | "Assignment" | "IncDec" => has "target" isPlace
  | "Getline" => has "target" fun o => o.isNothing || o.isPlace
  | "Printf" => has "args" isNonempty
  | "OutputRedirect" => has "mode" isMode
  | _ => true

def Regular (o : Outline) : Prop := ∀ n ∈ o.nodes, n.regular = true

def AllRegular (os : List Outline) : Prop := ∀ n ∈ allNodes os, n.regular = true

def FieldsRegular (fields : List (String × Outline)) : Prop :=
  ∀ n ∈ fieldNodes fields, n.regular = true

variable {o : Outline} {os : List Outline} {name : String}
    {fields : List (String × Outline)}

@[simp] theorem regular_node :
    (node name fields).Regular ↔ (Node.mk name fields).regular = true ∧
    FieldsRegular fields := by
  simp [Regular, FieldsRegular, nodes]

@[simp] theorem regular_list : (list os).Regular ↔ AllRegular os := by
  simp [Regular, AllRegular, nodes]

@[simp] theorem regular_tuple : (tuple os).Regular ↔ AllRegular os := by
  simp [Regular, AllRegular, nodes]

@[simp] theorem regular_text (s : String) : (text s).Regular := by
  simp [Regular, nodes]

@[simp] theorem regular_number (x : Number) : (number x).Regular := by
  simp [Regular, nodes]

@[simp] theorem regular_integer (n : Int) : (integer n).Regular := by
  simp [Regular, nodes]

@[simp] theorem regular_flag (b : Bool) : (flag b).Regular := by
  simp [Regular, nodes]

@[simp] theorem regular_nothing : nothing.Regular := by simp [Regular, nodes]

@[simp] theorem allRegular_nil : AllRegular [] := by simp [AllRegular, allNodes]

@[simp] theorem allRegular_cons : AllRegular (o :: os) ↔ o.Regular ∧
    AllRegular os := by
  simp [Regular, AllRegular, allNodes, or_imp, forall_and]

@[simp] theorem fieldsRegular_nil : FieldsRegular [] := by
  simp [FieldsRegular, fieldNodes]

@[simp] theorem fieldsRegular_cons :
    FieldsRegular ((name, o) :: fields) ↔ o.Regular ∧ FieldsRegular fields := by
  simp [Regular, FieldsRegular, fieldNodes, or_imp, forall_and]

theorem allRegular_iff : AllRegular os ↔ ∀ o ∈ os, o.Regular := by
  induction os with
  | nil => simp
  | cons o os ih => simp [ih]

theorem regular_subscript (h : AllRegular os) : (subscript os).Regular := by
  match os with
  | [] => simp [subscript, Node.regular]
  | [key] => simpa [subscript] using h
  | key₁ :: key₂ :: rest => simpa [subscript, Node.regular] using h

theorem regular_option {o? : Option Outline} (h : ∀ o ∈ o?, o.Regular) :
    (option o?).Regular := by
  cases o? with
  | none => simp [option]
  | some o => exact h o rfl

end Outline

/-! ## The outline of a program -/

theorem Place.isPlace_outline (place : Place) :
    place.outline.isPlace = true := by
  cases place <;> simp [Place.outline, Outline.isPlace]

mutual

theorem Place.outline_regular (place : Place) : place.outline.Regular := by
  match place with
  | .variable name => simp [Place.outline, Outline.Node.regular]
  | .element array keys =>
      have subscript := Outline.regular_subscript (Expr.outlines_regular keys)
      simp [Place.outline, Outline.Node.regular, subscript]
  | .field index =>
      have inner := Expr.outline_regular index
      simp [Place.outline, Outline.Node.regular, inner]

theorem Expr.outline_regular (e : Expr) : e.outline.Regular := by
  match e with
  | .number x => simp [Expr.outline, Outline.Node.regular]
  | .string s => simp [Expr.outline, Outline.Node.regular]
  | .regex pattern => simp [Expr.outline, Outline.Node.regular]
  | .read place =>
      rw [Expr.outline]
      exact Place.outline_regular place
  | .binary op left right =>
      simp [Expr.outline, Outline.Node.regular, Expr.outline_regular left,
        Expr.outline_regular right]
  | .unary op operand =>
      simp [Expr.outline, Outline.Node.regular, Expr.outline_regular operand]
  | .ternary condition yes no =>
      simp [Expr.outline, Outline.Node.regular, Expr.outline_regular condition,
        Expr.outline_regular yes, Expr.outline_regular no]
  | .call name args =>
      simp [Expr.outline, Outline.Node.regular, Expr.outlines_regular args]
  | .assign op place value =>
      simp [Expr.outline, Outline.Node.regular, List.lookup,
        place.isPlace_outline, Place.outline_regular place,
        Expr.outline_regular value]
  | .increment place up returnsOld =>
      simp [Expr.outline, Outline.Node.regular, List.lookup,
        place.isPlace_outline, Place.outline_regular place]
  | .member keys array =>
      have subscript := Outline.regular_subscript (Expr.outlines_regular keys)
      simp [Expr.outline, Outline.Node.regular, subscript]
  | .getline none file =>
      simp [Expr.outline, Place.outline?, Outline.Node.regular, List.lookup,
        Outline.isNothing, Expr.outline?_regular file]
  | .getline (some place) file =>
      simp [Expr.outline, Place.outline?, Outline.Node.regular, List.lookup,
        place.isPlace_outline, Place.outline_regular place,
        Expr.outline?_regular file]
  | .tuple elements =>
      simp [Expr.outline, Outline.Node.regular, Expr.outlines_regular elements]

theorem Expr.outlines_regular (es : List Expr) :
    Outline.AllRegular (Expr.outlines es) := by
  match es with
  | [] => simp [Expr.outlines]
  | e :: rest =>
      simp [Expr.outlines, Expr.outline_regular e, Expr.outlines_regular rest]

theorem Expr.outline?_regular (e : Option Expr) :
    (Expr.outline? e).Regular := by
  match e with
  | none => simp [Expr.outline?]
  | some e =>
      rw [Expr.outline?]
      exact Expr.outline_regular e

end

theorem Redirect.outline_regular (r : Redirect) : r.outline.Regular := by
  have mode : (Outline.text (if r.append then ">>" else ">")).isMode =
      true := by
    cases r.append <;> decide
  simp [Redirect.outline, Outline.Node.regular, List.lookup, mode,
    r.target.outline_regular]

theorem redirect_outline_regular (r : Option Redirect) :
    (Outline.option (r.map Redirect.outline)).Regular := by
  apply Outline.regular_option
  intro o mem
  obtain ⟨r, -, rfl⟩ := Option.map_eq_some_iff.1 mem
  exact r.outline_regular

mutual

theorem Stmt.outline_regular (s : Stmt) : s.outline.Regular := by
  cases s with
  | block body =>
      simp [Stmt.outline, Outline.Node.regular, Stmt.outlines_regular body]
  | expr e => simp [Stmt.outline, Outline.Node.regular, e.outline_regular]
  | print args redirect =>
      simp [Stmt.outline, outputOutline, Outline.Node.regular,
        Expr.outlines_regular args, redirect_outline_regular redirect]
  | printf format args redirect =>
      simp [Stmt.outline, outputOutline, Outline.Node.regular, Expr.outlines,
        List.lookup, Outline.isNonempty, format.outline_regular,
        Expr.outlines_regular args, redirect_outline_regular redirect]
  | ifElse condition yes no =>
      simp [Stmt.outline, Outline.Node.regular, condition.outline_regular,
        Stmt.outline_regular yes, Stmt.outline?_regular no]
  | whileLoop condition body =>
      simp [Stmt.outline, Outline.Node.regular, condition.outline_regular,
        Stmt.outline_regular body]
  | doLoop body condition =>
      simp [Stmt.outline, Outline.Node.regular, condition.outline_regular,
        Stmt.outline_regular body]
  | forLoop init condition update body =>
      simp [Stmt.outline, Outline.Node.regular, Expr.outline?_regular,
        Stmt.outline_regular body]
  | forIn name array body =>
      simp [Stmt.outline, Outline.Node.regular, Stmt.outline_regular body]
  | breakLoop | continueLoop | nextRecord | nextFile =>
      simp [Stmt.outline, Outline.leaf, Outline.Node.regular]
  | exit code =>
      simp [Stmt.outline, Outline.Node.regular, Expr.outline?_regular code]
  | returnValue value =>
      simp [Stmt.outline, Outline.Node.regular, Expr.outline?_regular value]
  | delete array keys =>
      have subscript :
          (Outline.option (keys.map fun keys =>
            .subscript (Expr.outlines keys))).Regular := by
        apply Outline.regular_option
        intro o mem
        obtain ⟨keys, -, rfl⟩ := Option.map_eq_some_iff.1 mem
        exact Outline.regular_subscript (Expr.outlines_regular keys)
      simp [Stmt.outline, Outline.Node.regular, subscript]

theorem Stmt.outlines_regular (ss : List Stmt) :
    Outline.AllRegular (Stmt.outlines ss) := by
  cases ss with
  | nil => simp [Stmt.outlines]
  | cons s rest =>
      simp [Stmt.outlines, Stmt.outline_regular s, Stmt.outlines_regular rest]

theorem Stmt.outline?_regular (s : Option Stmt) :
    (Stmt.outline? s).Regular := by
  cases s with
  | none => simp [Stmt.outline?]
  | some s =>
      rw [Stmt.outline?]
      exact Stmt.outline_regular s

end

theorem Guard.outline_regular (g : Guard) : g.outline.Regular := by
  cases g with
  | regex pattern => simp [Guard.outline, Outline.Node.regular]
  | expr e => simp [Guard.outline, Outline.Node.regular, e.outline_regular]

theorem Rule.outline_regular (r : Rule) : r.outline.Regular := by
  have trigger : r.trigger.outline.Regular := by
    cases r.trigger <;>
      simp [Trigger.outline, Outline.leaf, Outline.Node.regular,
        Guard.outline_regular]
  simp [Rule.outline, Outline.Node.regular, trigger, Stmt.outline_regular]

theorem Function.outline_regular (f : Function) : f.outline.Regular := by
  have params : Outline.AllRegular (Outline.texts f.params) := by
    simp [Outline.texts, Outline.allRegular_iff]
  simp [Function.outline, Outline.Node.regular, params, Stmt.outline_regular]

/-- Only places are assigned to, every `printf` has an argument and output goes
to files. -/
theorem Program.outline_regular (p : Program) : p.outline.Regular := by
  have rules : Outline.AllRegular (p.rules.map Rule.outline) := by
    simp [Outline.allRegular_iff, Rule.outline_regular]
  have functions : Outline.AllRegular (p.functions.map Function.outline) := by
    simp [Outline.allRegular_iff, Function.outline_regular]
  simp [Program.outline, Outline.Node.regular, rules, functions]

/-! ## Programs from source text -/

def Source.Reads (source : String) (nesting : Nat) (items : List Source.Item) :
    Prop :=
  ∃ rest, (Source.program nesting ⟨source.toList, 0⟩).result = .found items rest

theorem Program.parse_eq_ok {source : String} {nesting : Nat} {p : Program} :
    Program.parse source nesting = .ok p ↔
      ∃ items, Source.Reads source nesting items ∧
        Source.checkItems [] items = .ok p := by
  unfold Program.parse Source.Reads
  dsimp only
  cases (Source.program nesting ⟨source.toList, 0⟩).result with
  | tooDeep => simp
  | missed => simp
  | found items rest =>
      cases checked : Source.checkItems [] items with
      | error c => simp [Except.mapError, checked]
      | ok q => simp [Except.mapError, checked]

structure Program.WellFormed (p : Program) : Prop where
  names_nodup : (p.functions.map Function.name).Nodup
  names_fit : ∀ f ∈ p.functions, Source.NamesFit f.name f.params
  regular : p.outline.Regular

theorem Source.checkItems_wellFormed {items : List Source.Item} {p : Program}
    (h : Source.checkItems [] items = .ok p) : p.WellFormed := by
  obtain ⟨sound, distinct, -⟩ := (Source.checkItems_accepts [] items).1 ⟨p, h⟩
  have signatures := Source.checkItems_signatures h
  refine ⟨?_, fun f mem => ?_, p.outline_regular⟩
  · have names : p.functions.map Function.name = Source.definedNames items := by
      rw [Source.definedNames, ← signatures, List.map_map]
      rfl
    rw [names]
    exact distinct
  · have signed : (f.name, f.params) ∈
        items.filterMap Source.Item.signature? := by
      rw [← signatures]
      exact List.mem_map_of_mem mem
    obtain ⟨item, mem, signature⟩ := List.mem_filterMap.1 signed
    cases item with
    | rule head action => simp [Source.Item.signature?] at signature
    | function word params body =>
        have fits := (sound _ mem).1
        simp only [Source.Item.signature?, Option.some.injEq, Prod.mk.injEq]
          at signature
        rw [← signature.1, ← signature.2]
        exact fits

/-! ## What a run cannot complain about -/

def invalidTargetMessage (kind : String) : String :=
  "awk: fatal: invalid assignment target " ++ kind

section

variable {n : Nat} {s : String} {opening : List Char}

theorem take_toList_append (long : n ≤ s.length) (t : String) :
    (s ++ t).toList.take n = s.toList.take n := by
  rw [String.toList_append, List.take_append_of_le_length]
  rwa [String.length_toList]

theorem opening_ne (long : n ≤ s.length) (differs : s.toList.take n ≠ opening)
    (t u : String) :
    (s ++ t ++ u).toList.take n ≠ opening := by
  rw [String.append_assoc, take_toList_append long]
  exact differs

end

theorem Fatal.detail_opening (cause : Fatal) :
    cause.detail.toList.take 3 ≠ "inv".toList := by
  cases cause with
  | arrayAsScalar name | scalarAsArray name | fieldTooLarge index =>
      exact opening_ne (by decide) (by decide) _ _
  | fieldNotFinite index | fieldNegative index =>
      rw [← String.append_empty (s := Fatal.detail _)]
      exact opening_ne (by decide) (by decide) _ _
  | division e => cases e <;> decide +kernel
  | emptyRedirect | substrArguments | indexArguments | splitTarget
  | substituteArguments | matchArguments | matchTarget | atan2Arguments =>
      decide +kernel

theorem Fatal.message_ne (cause : Fatal) (kind : String) :
    cause.message ≠ invalidTargetMessage kind := by
  intro same
  have split : "awk: fatal: " ++ cause.detail = "awk: fatal: " ++
      ("invalid assignment target " ++ kind) := by
    rw [← String.append_assoc]
    exact same
  have detail := (String.append_right_inj _).1 split
  have opening := cause.detail_opening
  have long : 3 ≤ "invalid assignment target ".length := by decide
  rw [detail, take_toList_append long] at opening
  exact opening rfl

theorem invalidTargetMessage_opening (kind : String) :
    (invalidTargetMessage kind).toList.take 7 = "awk: fa".toList := by
  have long : 7 ≤ "awk: fatal: invalid assignment target ".length := by decide
  exact (take_toList_append long kind).trans (by decide)

theorem iterationsMessage_opening (kind : LoopKind) (e : Exceeded) :
    (iterationsMessage kind e).toList.take 7 ≠ "awk: fa".toList := by
  cases kind <;> exact opening_ne (by decide +kernel) (by decide +kernel) _ _

theorem Report.ofFault?_error_ne {m : Machine} {e : Fault} {report : Report}
    (h : Report.ofFault? m e = some report) (kind : String) :
    report.error ≠ some (invalidTargetMessage kind) := by
  have apart {message : String} (opening : message.toList.take 7 ≠
      "awk: fa".toList) : some message ≠ some (invalidTargetMessage kind) := by
    rintro ⟨⟩
    exact opening (invalidTargetMessage_opening kind)
  cases e with
  | fatal cause =>
      cases h
      exact fun same => cause.message_ne kind (Option.some.inj same)
  | iterations kind e =>
      cases h
      exact apart (iterationsMessage_opening kind e)
  | calls e =>
      cases h
      exact apart (opening_ne (by decide) (by decide) _ _)
  | noRoom =>
      cases h
      exact apart (by decide)
  | pattern | window | size | template | frames | recordNumber | unread =>
      contradiction

theorem runScript_error_ne {source : String} {p : Program} {host : Host}
    (parsed : Program.parse source host.platform.nesting = .ok p)
    {inputs : List NamedInput} {options : Options} {report : Report}
    (h : (runScript source inputs options host).result = .ok report)
    (kind : String) :
    report.error ≠ some (invalidTargetMessage kind) := by
  simp only [runScript, parsed] at h
  cases ran : runLoaded p inputs options (startMachine options host) with
  | ok a m =>
      rw [ran] at h
      cases h
      simp [Report.ofMachine]
  | error e m =>
      rw [ran] at h
      simp only [Ending.ofResult] at h
      cases told : Report.ofFault? m e with
      | none => simp [told] at h
      | some other =>
          simp only [told] at h
          cases h
          exact Report.ofFault?_error_ne told kind

/-! ## The theorem -/

/-- A program that is parsed is well formed.  It comes from items in which every
literal is closed, nothing is piped into `getline` or out of `print`, and what
is assigned to can be assigned to, since no others are accepted; and no run of
it ends with the complaint about an assignment to anything else. -/
theorem parsed_program_wellFormed {source : String} {nesting : Nat}
    {p : Program} (parsed : Program.parse source nesting = .ok p) :
    p.WellFormed ∧
      (∃ items, Source.Reads source nesting items ∧
        Source.checkItems [] items = .ok p ∧ ∀ item ∈ items, item.Sound) ∧
      ∀ inputs options host report, host.platform.nesting = nesting →
        (runScript source inputs options host).result = .ok report →
        ∀ kind, report.error ≠ some (invalidTargetMessage kind) := by
  obtain ⟨items, read, checked⟩ := Program.parse_eq_ok.1 parsed
  obtain ⟨sound, -, -⟩ := (Source.checkItems_accepts [] items).1 ⟨p, checked⟩
  refine ⟨Source.checkItems_wellFormed checked, ⟨items, read, checked, sound⟩,
    ?_⟩
  rintro inputs options host report rfl ran kind
  exact runScript_error_ne parsed ran kind

/-- Two functions, an assignment in parentheses, a `getline` with a target, and
a `printf` into a file. -/
theorem two_functions_wellFormed :
    let source :=
      "function f(a) \x7b(a[1])+=getline $2\x7d " ++
        "function g(f) \x7bprintf(f)>>f\x7d"
    ∃ p, Program.parse source ({} : Platform).nesting = .ok p ∧
      p.functions.map Function.name = ["f", "g"] ∧ p.WellFormed := by
  intro source
  have names : (Program.parse source ({} : Platform).nesting).toOption.map
      (fun p => p.functions.map Function.name) = some ["f", "g"] := by
    decide +kernel
  cases parsed : Program.parse source ({} : Platform).nesting with
  | error e => simp [parsed, Except.toOption] at names
  | ok p =>
      simp only [parsed, Except.toOption, Option.map_some, Option.some.injEq]
        at names
      exact ⟨p, rfl, names, (parsed_program_wellFormed parsed).1⟩

end Awk
