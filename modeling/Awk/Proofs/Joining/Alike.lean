import Awk.Source.Check
import Mathlib.Data.List.Forall2
import Mathlib.Data.Option.Defs

/-!
# Trees that differ in places only

The places of words are kept in source trees for the reports, and where a tree
is accepted nothing depends on them.  Two trees are alike if they are accepted
as the same program part or both refused.
-/

namespace Awk.Source

variable {α β : Type}

def Agrees (x y : Checked α) : Prop := x.toOption = y.toOption

theorem Agrees.bind {x y : Checked α} {f g : α → Checked β} (h : Agrees x y)
    (behind : ∀ a, Agrees (f a) (g a)) :
    Agrees (x >>= f) (y >>= g) := by
  cases x with
  | error e =>
      cases y with
      | error e' => rfl
      | ok b => contradiction
  | ok a =>
      cases y with
      | error e => contradiction
      | ok b =>
          cases h
          exact behind a

theorem Agrees.map {x y : Checked α} (h : Agrees x y) (f : α → β) :
    Agrees (do let a ← x; return f a) (do let a ← y; return f a) :=
  h.bind fun _ => rfl

theorem Agrees.ok {x y : Checked α} (h : Agrees x y) {a : α}
    (accepted : x = .ok a) : y = .ok a := by
  subst accepted
  cases y with
  | error e => contradiction
  | ok b =>
      cases h
      rfl

def Word.Alike (w w' : Word) : Prop := w.text = w'.text

def Target.Alike (t t' : Target) : Prop := Agrees t.check t'.check

def Term.Alike (t t' : Term) : Prop := Agrees t.check t'.check

def Statement.Alike (s s' : Statement) : Prop := Agrees s.check s'.check

def Redirection.Alike (r r' : Redirection) : Prop := Agrees r.check r'.check

/-! ## Lists -/

theorem Term.checkAll_alike {ts ts' : List Term}
    (h : List.Forall₂ Term.Alike ts ts') :
    Agrees (Term.checkAll ts) (Term.checkAll ts') := by
  induction h with
  | nil => rfl
  | cons alike _ ih =>
      rw [Term.checkAll, Term.checkAll]
      exact alike.bind fun e => ih.map (e :: ·)

theorem Term.checkOption_alike {t t' : Option Term}
    (h : Option.Rel Term.Alike t t') :
    Agrees (Term.checkOption t) (Term.checkOption t') := by
  cases h with
  | none => rfl
  | some alike => exact alike.map some

theorem Target.checkOption_alike {t t' : Option Target}
    (h : Option.Rel Target.Alike t t') :
    Agrees (Target.checkOption t) (Target.checkOption t') := by
  cases h with
  | none => rfl
  | some alike => exact alike.map some

theorem Statement.checkAll_alike {ss ss' : List Statement}
    (h : List.Forall₂ Statement.Alike ss ss') :
    Agrees (Statement.checkAll ss) (Statement.checkAll ss') := by
  induction h with
  | nil => rfl
  | cons alike _ ih =>
      rw [Statement.checkAll, Statement.checkAll]
      exact alike.bind fun s => ih.map (s :: ·)

theorem Statement.checkOption_alike {s s' : Option Statement}
    (h : Option.Rel Statement.Alike s s') :
    Agrees (Statement.checkOption s) (Statement.checkOption s') := by
  cases h with
  | none => rfl
  | some alike => exact alike.map some

theorem Redirection.checkOption_alike {r r' : Option Redirection}
    (h : Option.Rel Redirection.Alike r r') :
    Agrees (Redirection.checkOption r) (Redirection.checkOption r') := by
  cases h with
  | none => rfl
  | some alike => exact alike.map some

/-! ## Targets and terms -/

namespace Target.Alike

theorem element {array array' : String} {keys keys' : List Term}
    (name : array = array') (h : List.Forall₂ Term.Alike keys keys') :
    (Target.element array keys).Alike (.element array' keys') := by
  subst name
  exact (Term.checkAll_alike h).map _

theorem field {index index' : Term} (h : index.Alike index') :
    (Target.field index).Alike (.field index') :=
  h.map _

end Target.Alike

namespace Term.Alike

theorem refl (t : Term) : t.Alike t := rfl

theorem target {t t' : Target} (h : t.Alike t') :
    (Term.target t).Alike (.target t') :=
  h.map _

theorem group {parts parts' : List Term}
    (h : List.Forall₂ Term.Alike parts parts') :
    (Term.group parts).Alike (.group parts') :=
  (Term.checkAll_alike h).map _

theorem getline {place place' : Option Target} {file file' : Option Term}
    (h : Option.Rel Target.Alike place place')
    (h' : Option.Rel Term.Alike file file') :
    (Term.getline place file).Alike (.getline place' file') :=
  (Target.checkOption_alike h).bind fun _ => (Term.checkOption_alike h').map _

theorem call {name name' : String} {args args' : List Term}
    (same : name = name') (h : List.Forall₂ Term.Alike args args') :
    (Term.call name args).Alike (.call name' args') := by
  subst same
  exact (Term.checkAll_alike h).map _

theorem bareBuiltin {w w' : Word} (h : w.Alike w') :
    (Term.bareBuiltin w).Alike (.bareBuiltin w') := by
  unfold Word.Alike at h
  simp only [Term.Alike, Term.check, h]
  split <;> rfl

theorem unary {operand operand' : Term} (op : UnaryOp)
    (h : operand.Alike operand') :
    (Term.unary op operand).Alike (.unary op operand') :=
  h.map _

theorem binary {left left' right right' : Term} (op : BinaryOp)
    (h : left.Alike left') (h' : right.Alike right') :
    (Term.binary op left right).Alike (.binary op left' right') :=
  h.bind fun _ => h'.map _

theorem member {key key' : Term} {array array' : String} (h : key.Alike key')
    (same : array = array') :
    (Term.member key array).Alike (.member key' array') := by
  subst same
  exact h.map _

theorem ternary {condition condition' yes yes' no no' : Term}
    (h : condition.Alike condition') (hy : yes.Alike yes') (hn : no.Alike no') :
    (Term.ternary condition yes no).Alike (.ternary condition' yes' no') :=
  h.bind fun _ => hy.bind fun _ => hn.map _

theorem placeOf_agrees (e : Expr) (c c' : Complaint) :
    Agrees (placeOf e c) (placeOf e c') := by
  cases e <;> rfl

theorem assign {op op' : Option Arithmetic} {word word' : Word}
    {target target' value value' : Term} (same : op = op')
    (h : target.Alike target') (h' : value.Alike value') :
    (Term.assign op word target value).Alike
      (.assign op' word' target' value') := by
  subst same
  exact h.bind fun e => (placeOf_agrees e _ _).bind fun _ => h'.map _

theorem preIncrement {up up' : Bool} {word word' : Word}
    {operand operand' : Term} (same : up = up') (h : operand.Alike operand') :
    (Term.preIncrement up word operand).Alike
      (.preIncrement up' word' operand') := by
  subst same
  exact h.bind fun e => (placeOf_agrees e _ _).map _

theorem postIncrement {t t' : Target} {up up' : Bool} (h : t.Alike t')
    (same : up = up') :
    (Term.postIncrement t up).Alike (.postIncrement t' up') := by
  subst same
  exact h.map _

end Term.Alike

/-! ## Statements -/

namespace Statement.Alike

theorem refl (s : Statement) : s.Alike s := rfl

theorem block {body body' : List Statement}
    (h : List.Forall₂ Statement.Alike body body') :
    (Statement.block body).Alike (.block body') :=
  (Statement.checkAll_alike h).map _

theorem expr {e e' : Term} (h : e.Alike e') :
    (Statement.expr e).Alike (.expr e') :=
  h.map _

theorem outputStatement_agrees {keyword keyword' : Word}
    (h : keyword.Alike keyword') (args : List Expr) (r : Option Redirect) :
    Agrees (outputStatement keyword args r)
      (outputStatement keyword' args r) := by
  unfold Word.Alike at h
  unfold outputStatement
  rw [h]
  split
  · cases args <;> rfl
  · rfl

theorem print {keyword keyword' : Word} {args args' : List Term}
    {r r' : Option Redirection} (hk : keyword.Alike keyword')
    (h : List.Forall₂ Term.Alike args args')
    (hr : Option.Rel Redirection.Alike r r') :
    (Statement.print keyword args r).Alike (.print keyword' args' r') :=
  (Term.checkAll_alike h).bind fun _ =>
    (Redirection.checkOption_alike hr).bind fun _ =>
      outputStatement_agrees hk _ _

theorem ifElse {condition condition' : Term} {yes yes' : Statement}
    {no no' : Option Statement} (h : condition.Alike condition')
    (hy : yes.Alike yes') (hn : Option.Rel Statement.Alike no no') :
    (Statement.ifElse condition yes no).Alike (.ifElse condition' yes' no') :=
  h.bind fun _ => hy.bind fun _ => (Statement.checkOption_alike hn).map _

theorem whileLoop {condition condition' : Term} {body body' : Statement}
    (h : condition.Alike condition') (hb : body.Alike body') :
    (Statement.whileLoop condition body).Alike (.whileLoop condition' body') :=
  h.bind fun _ => hb.map _

theorem doLoop {condition condition' : Term} {body body' : Statement}
    (hb : body.Alike body') (h : condition.Alike condition') :
    (Statement.doLoop body condition).Alike (.doLoop body' condition') :=
  hb.bind fun _ => h.map _

theorem forLoop {init init' test test' update update' : Option Term}
    {body body' : Statement} (hi : Option.Rel Term.Alike init init')
    (ht : Option.Rel Term.Alike test test')
    (hu : Option.Rel Term.Alike update update') (hb : body.Alike body') :
    (Statement.forLoop init test update body).Alike
      (.forLoop init' test' update' body') :=
  (Term.checkOption_alike hi).bind fun _ =>
    (Term.checkOption_alike ht).bind fun _ =>
    (Term.checkOption_alike hu).bind fun _ => hb.map _

theorem forIn {name name' array array' : String} {body body' : Statement}
    (hn : name = name') (ha : array = array') (hb : body.Alike body') :
    (Statement.forIn name array body).Alike (.forIn name' array' body') := by
  subst hn ha
  exact hb.map _

theorem exit {code code' : Option Term} (h : Option.Rel Term.Alike code code') :
    (Statement.exit code).Alike (.exit code') :=
  (Term.checkOption_alike h).map _

theorem returnValue {value value' : Option Term}
    (h : Option.Rel Term.Alike value value') :
    (Statement.returnValue value).Alike (.returnValue value') :=
  (Term.checkOption_alike h).map _

theorem delete {array array' : String} {keys keys' : List Term}
    (same : array = array') (h : List.Forall₂ Term.Alike keys keys') :
    (Statement.delete array keys).Alike (.delete array' keys') := by
  subst same
  cases h with
  | nil => rfl
  | cons first others =>
      exact (Term.checkAll_alike (.cons first others)).map _

end Statement.Alike

theorem Redirection.Alike.mk {channel channel' : Channel} {word word' : Word}
    {destination destination' : Term} (same : channel = channel')
    (h : destination.Alike destination') :
    (Redirection.mk channel word destination).Alike ⟨channel', word',
      destination'⟩ := by
  subst same
  simp only [Redirection.Alike, Redirection.check]
  cases channel with
  | pipe => rfl
  | append => exact h.map _
  | truncate => exact h.map _

/-! ## Items -/

def Head.Alike (h h' : Head) : Prop := Agrees h.check h'.check

theorem Head.Alike.pattern {e e' : Term} (h : e.Alike e') :
    (Head.pattern e).Alike (.pattern e') := h.map _

theorem Head.Alike.range {start start' stop stop' : Term}
    (h : start.Alike start') (h' : stop.Alike stop') :
    (Head.range start stop).Alike (.range start' stop') :=
  Agrees.bind h fun _ => h'.map _

inductive Item.Alike : Item → Item → Prop
  | function {name name' : Word} {params params' : List Word}
      {body body' : List Statement} (hn : name.Alike name')
      (hp : List.Forall₂ Word.Alike params params')
        (hb : List.Forall₂ Statement.Alike body body') :
      Item.Alike (.function name params body) (.function name' params' body')
  | rule {head head' : Head} {action action' : Option (List Statement)}
      (hh : head.Alike head')
      (ha : Option.Rel (List.Forall₂ Statement.Alike) action action') :
      Item.Alike (.rule head action) (.rule head' action')

theorem checkFunctionName_alike {word word' : Word} (h : word.Alike word')
    (defined : List String) :
    Agrees (checkFunctionName defined word)
      (checkFunctionName defined word') := by
  rw [checkFunctionName, checkFunctionName, h]
  split
  · rfl
  · split
    · rfl
    · split <;> rfl

theorem checkParam_alike {word word' : Word} (h : word.Alike word')
    (function : String) (before : List String) :
    Agrees (checkParam function before word)
      (checkParam function before word') := by
  rw [checkParam, checkParam, h]
  split
  · rfl
  · split
    · rfl
    · split <;> rfl

theorem checkParams_alike {params params' : List Word}
    (h : List.Forall₂ Word.Alike params params') (function : String)
    (before : List String) :
    Agrees (checkParams function before params)
      (checkParams function before params') := by
  induction h generalizing before with
  | nil => rfl
  | @cons word word' _ _ alike _ ih =>
      have same : word.text = word'.text := alike
      rw [checkParams, checkParams, same]
      exact (checkParam_alike alike function before).bind fun _ => ih _

theorem checkRule_alike {head head' : Head}
    {action action' : Option (List Statement)} (hh : head.Alike head')
    (ha : Option.Rel (List.Forall₂ Statement.Alike) action action') :
    Agrees (checkRule head action) (checkRule head' action') := by
  refine hh.bind fun trigger => ?_
  cases ha with
  | none => rfl
  | some alike => exact (Statement.checkAll_alike alike).map _

theorem checkItems_alike {items items' : List Item}
    (h : List.Forall₂ Item.Alike items items') (defined : List String) :
    Agrees (checkItems defined items) (checkItems defined items') := by
  induction h generalizing defined with
  | nil => rfl
  | cons alike _ ih =>
      cases alike with
      | @function name name' _ _ _ _ hn hp hb =>
          have same : name.text = name'.text := hn
          rw [checkItems, checkItems, checkFunction, checkFunction, same]
          refine Agrees.bind ?_ fun function => (ih _).map _
          exact (checkFunctionName_alike hn defined).bind fun _ =>
            (checkParams_alike hp _ _).bind fun _ =>
            (Statement.checkAll_alike hb).map _
      | rule hh ha =>
          rw [checkItems, checkItems]
          exact (checkRule_alike hh ha).bind fun rule => (ih defined).map _

end Awk.Source
