import Awk.Proofs.Source.Parameters

/-!
# Which source trees the checks accept

The checks accept a tree exactly if it is sound: its literals are closed,
nothing is piped, what is assigned to or incremented can be assigned to, every
`printf` has a format, and functions and parameters have names of their own.
-/

namespace Awk.Source

/-! ## Sound terms -/

mutual

def Term.assignable : Term → Bool
  | .target _ => true
  | .group parts => Term.assignableAlone parts
  | _ => false

def Term.assignableAlone : List Term → Bool
  | [t] => t.assignable
  | _ => false

end

mutual

def Term.hollow : Term → Bool
  | .group parts => Term.allHollow parts
  | _ => false

def Term.allHollow : List Term → Bool
  | [] => true
  | [t] => t.hollow
  | _ => false

end

mutual

def Target.Sound : Target → Prop
  | .variable _ => True
  | .element _ keys => Term.AllSound keys
  | .field index => index.Sound

def Term.Sound : Term → Prop
  | .number _ | .string _ | .regex _ => True
  | .openString _ | .openRegex _ | .pipe _ => False
  | .target t => t.Sound
  | .group parts => Term.AllSound parts
  | .getline target file => Target.OptionSound target ∧ Term.OptionSound file
  | .call _ args => Term.AllSound args
  -- Of the built-in functions only `length` can do without parentheses.
  | .bareBuiltin word => word.text = "length"
  | .unary _ operand => operand.Sound
  | .binary _ left right => left.Sound ∧ right.Sound
  | .member key _ => key.Sound
  | .ternary condition yes no => condition.Sound ∧ yes.Sound ∧ no.Sound
  | .assign _ _ target value => target.Sound ∧ target.assignable ∧ value.Sound
  | .preIncrement _ _ operand => operand.Sound ∧ operand.assignable
  | .postIncrement target _ => target.Sound

def Term.AllSound : List Term → Prop
  | [] => True
  | t :: rest => t.Sound ∧ Term.AllSound rest

def Term.OptionSound : Option Term → Prop
  | none => True
  | some t => t.Sound

def Target.OptionSound : Option Target → Prop
  | none => True
  | some t => t.Sound

end

/-! ## What the checks of terms accept -/

section

variable {α β : Type}

theorem checked_bind_iff {x : Checked α} {f : α → Checked β} {b : β} :
    x >>= f = .ok b ↔ ∃ a, x = .ok a ∧ f a = .ok b := by
  constructor
  · exact checked_bind
  · rintro ⟨a, rfl, h⟩
    exact h

def Accepts (x : Checked α) : Prop := ∃ a, x = .ok a

@[simp] theorem accepts_ok (a : α) : Accepts (.ok a : Checked α) := ⟨a, rfl⟩

@[simp] theorem accepts_pure (a : α) : Accepts (pure a : Checked α) := ⟨a, rfl⟩

@[simp] theorem not_accepts_error (c : Complaint) :
    ¬Accepts (.error c : Checked α) := by
  rintro ⟨a, h⟩
  contradiction

theorem accepts_bind {x : Checked α} {f : α → Checked β} :
    Accepts (x >>= f) ↔ ∃ a, x = .ok a ∧ Accepts (f a) := by
  constructor
  · rintro ⟨b, h⟩
    obtain ⟨a, first, later⟩ := checked_bind h
    exact ⟨a, first, b, later⟩
  · rintro ⟨a, rfl, b, later⟩
    exact ⟨b, later⟩

theorem accepts_bind_pure {x : Checked α} {f : α → β} :
    Accepts (do let a ← x; return f a) ↔ Accepts x := by
  rw [accepts_bind]
  constructor
  · rintro ⟨a, h, -⟩
    exact ⟨a, h⟩
  · rintro ⟨a, h⟩
    exact ⟨a, h, accepts_pure _⟩

theorem accepts_bind_of_forall {x : Checked α} {f : α → Checked β}
    {later : Prop} (h : ∀ a, x = .ok a → (Accepts (f a) ↔ later)) :
    Accepts (x >>= f) ↔ Accepts x ∧ later := by
  rw [accepts_bind]
  constructor
  · rintro ⟨a, first, second⟩
    exact ⟨⟨a, first⟩, (h a first).1 second⟩
  · rintro ⟨⟨a, first⟩, second⟩
    exact ⟨a, first, (h a first).2 second⟩

end

theorem placeOf_accepts {e : Expr} {c : Complaint} :
    Accepts (placeOf e c) ↔ ∃ place, e = .read place := by
  cases e <;> simp [placeOf]

theorem grouped_of_length {es : List Expr} (h : es.length ≠ 1) :
    grouped es = .tuple es := by
  match es with
  | [] => rfl
  | [_] => exact absurd rfl h
  | _ :: _ :: _ => rfl

theorem Term.checkAll_length {ts : List Term} {es : List Expr}
    (h : Term.checkAll ts = .ok es) :
    es.length = ts.length := by
  induction ts generalizing es with
  | nil => cases h; rfl
  | cons t rest ih =>
      obtain ⟨e, -, h⟩ := checked_bind h
      obtain ⟨later, checked, h⟩ := checked_bind h
      cases h
      simp [ih checked]

theorem Term.checkAll_singleton {t : Term} {es : List Expr}
    (h : Term.checkAll [t] = .ok es) :
    ∃ e, t.check = .ok e ∧ es = [e] := by
  obtain ⟨e, checked, h⟩ := checked_bind h
  cases h
  exact ⟨e, checked, rfl⟩

/-- Only a target becomes a place, and only a list in parentheses a tuple. -/
theorem Term.check_other {t : Term} {e : Expr} (h : t.check = .ok e)
    (target : ∀ t', t ≠ .target t') (group : ∀ parts, t ≠ .group parts) :
    (∀ place, e ≠ .read place) ∧ ∀ es, e ≠ .tuple es := by
  cases t with
  | target t => exact absurd rfl (target t)
  | group parts => exact absurd rfl (group parts)
  | bareBuiltin word =>
      rw [Term.check] at h
      split at h <;> cases h
      constructor <;> intros <;> exact Expr.noConfusion
  | _ =>
      simp only [Term.check, checked_bind_iff, pure, Except.pure,
        Except.ok.injEq, reduceCtorEq] at h <;> grind

theorem Term.assignable_iff (t : Term) {e : Expr} (h : t.check = .ok e) :
    t.assignable = true ↔ ∃ place, e = .read place := by
  match t with
  | .target t =>
      obtain ⟨place, -, h⟩ := checked_bind h
      cases h
      simp [Term.assignable]
  | .group [t] =>
      obtain ⟨es, checked, h⟩ := checked_bind h
      obtain ⟨e', alone, rfl⟩ := Term.checkAll_singleton checked
      cases h
      have inner := Term.assignable_iff t alone
      simpa only [Term.assignable, Term.assignableAlone, grouped] using inner
  | .group [] =>
      cases h
      simp [Term.assignable, Term.assignableAlone, grouped]
  | .group (t₁ :: t₂ :: rest) =>
      obtain ⟨es, checked, h⟩ := checked_bind h
      cases h
      have several : es.length ≠ 1 := by simp [Term.checkAll_length checked]
      simp [Term.assignable, Term.assignableAlone, grouped_of_length several]
  | .number _ | .string _ | .regex _ | .openString _ | .openRegex _ | .getline
      _ _ | .pipe _ | .call _ _
  | .bareBuiltin _ | .unary _ _ | .binary _ _ _ | .member _ _ | .ternary
      _ _ _ | .assign _ _ _ _
  | .preIncrement _ _ _ | .postIncrement _ _ =>
      have other := (Term.check_other h nofun nofun).1
      simp [Term.assignable, other]

theorem Term.hollow_iff (t : Term) {e : Expr} (h : t.check = .ok e) :
    t.hollow = true ↔ e = .tuple [] := by
  match t with
  | .target t =>
      obtain ⟨place, -, h⟩ := checked_bind h
      cases h
      simp [Term.hollow]
  | .group [t] =>
      obtain ⟨es, checked, h⟩ := checked_bind h
      obtain ⟨e', alone, rfl⟩ := Term.checkAll_singleton checked
      cases h
      have inner := Term.hollow_iff t alone
      simpa only [Term.hollow, Term.allHollow, grouped] using inner
  | .group [] =>
      cases h
      simp [Term.hollow, Term.allHollow, grouped]
  | .group (t₁ :: t₂ :: rest) =>
      obtain ⟨es, checked, h⟩ := checked_bind h
      cases h
      have several := Term.checkAll_length checked
      rw [grouped_of_length (by simp [several])]
      simp only [Term.hollow, Term.allHollow,
        Expr.tuple.injEq, ← List.length_eq_zero_iff, several]
      simp
  | .number _ | .string _ | .regex _ | .openString _ | .openRegex _ | .getline
      _ _ | .pipe _ | .call _ _
  | .bareBuiltin _ | .unary _ _ | .binary _ _ _ | .member _ _ | .ternary
      _ _ _ | .assign _ _ _ _
  | .preIncrement _ _ _ | .postIncrement _ _ =>
      have other := (Term.check_other h nofun nofun).2
      simp [Term.hollow, other]

theorem Term.allHollow_iff {ts : List Term} {es : List Expr}
    (h : Term.checkAll ts = .ok es) :
    Term.allHollow ts = true ↔ printArguments es = [] := by
  match ts with
  | [] => cases h; simp [Term.allHollow, printArguments]
  | [t] =>
      obtain ⟨e, alone, rfl⟩ := Term.checkAll_singleton h
      rw [Term.allHollow, Term.hollow_iff t alone]
      cases e <;> simp [printArguments]
  | t₁ :: t₂ :: rest =>
      have several := Term.checkAll_length h
      match es with
      | e₁ :: e₂ :: later => simp [Term.allHollow, printArguments]

mutual

theorem Target.check_accepts (t : Target) : Accepts t.check ↔ t.Sound := by
  match t with
  | .variable name => simp [Target.check, Target.Sound]
  | .element array keys =>
      rw [Target.check, accepts_bind_pure, Target.Sound]
      exact Term.checkAll_accepts keys
  | .field index =>
      rw [Target.check, accepts_bind_pure, Target.Sound]
      exact Term.check_accepts index

theorem Term.check_accepts (t : Term) : Accepts t.check ↔ t.Sound := by
  cases t with
  | number x | string body | regex body => simp [Term.check, Term.Sound]
  | openString offset | openRegex offset | pipe bar =>
      simp [Term.check, Term.Sound]
  | target t =>
      rw [Term.check, accepts_bind_pure, Term.Sound]
      exact Target.check_accepts t
  | group parts =>
      rw [Term.check, accepts_bind_pure, Term.Sound]
      exact Term.checkAll_accepts parts
  | getline target file =>
      rw [Term.check,
        Term.Sound, ← Target.checkOption_accepts
          target, ← Term.checkOption_accepts file]
      exact accepts_bind_of_forall fun _ _ => accepts_bind_pure
  | call name args =>
      rw [Term.check, accepts_bind_pure, Term.Sound]
      exact Term.checkAll_accepts args
  | bareBuiltin word =>
      rw [Term.check, Term.Sound]
      split <;> simp_all
  | unary op operand =>
      rw [Term.check, accepts_bind_pure, Term.Sound]
      exact Term.check_accepts operand
  | binary op left right =>
      rw [Term.check,
        Term.Sound, ← Term.check_accepts left, ← Term.check_accepts right]
      exact accepts_bind_of_forall fun _ _ => accepts_bind_pure
  | member key array =>
      rw [Term.check, accepts_bind_pure, Term.Sound]
      exact Term.check_accepts key
  | ternary condition yes no =>
      rw [Term.check,
        Term.Sound, ← Term.check_accepts condition, ← Term.check_accepts
          yes, ← Term.check_accepts no]
      exact accepts_bind_of_forall fun _ _ => accepts_bind_of_forall fun _ _ =>
        accepts_bind_pure
  | assign op word target value =>
      rw [Term.check,
        Term.Sound, ← Term.check_accepts target, ← Term.check_accepts value]
      refine accepts_bind_of_forall fun left checked => ?_
      rw [Term.assignable_iff target checked, ← placeOf_accepts (e := left)]
      exact accepts_bind_of_forall fun _ _ => accepts_bind_pure
  | preIncrement up word operand =>
      rw [Term.check, Term.Sound, ← Term.check_accepts operand]
      refine accepts_bind_of_forall fun left checked => ?_
      rw [Term.assignable_iff operand checked, accepts_bind_pure,
        placeOf_accepts]
  | postIncrement target up =>
      rw [Term.check, accepts_bind_pure, Term.Sound]
      exact Target.check_accepts target

theorem Term.checkAll_accepts (ts : List Term) :
    Accepts (Term.checkAll ts) ↔ Term.AllSound ts := by
  cases ts with
  | nil => simp [Term.checkAll, Term.AllSound]
  | cons t rest =>
      rw [Term.checkAll,
        Term.AllSound, ← Term.check_accepts t, ← Term.checkAll_accepts rest]
      exact accepts_bind_of_forall fun _ _ => accepts_bind_pure

theorem Term.checkOption_accepts (t : Option Term) :
    Accepts (Term.checkOption t) ↔ Term.OptionSound t := by
  cases t with
  | none => simp [Term.checkOption, Term.OptionSound]
  | some t =>
      rw [Term.checkOption, accepts_bind_pure, Term.OptionSound]
      exact Term.check_accepts t

theorem Target.checkOption_accepts (t : Option Target) :
    Accepts (Target.checkOption t) ↔ Target.OptionSound t := by
  cases t with
  | none => simp [Target.checkOption, Target.OptionSound]
  | some t =>
      rw [Target.checkOption, accepts_bind_pure, Target.OptionSound]
      exact Target.check_accepts t

end

/-! ## Statements -/

def Redirection.Sound (r : Redirection) : Prop :=
  r.channel ≠ .pipe ∧ r.destination.Sound

def Redirection.OptionSound : Option Redirection → Prop
  | none => True
  | some r => r.Sound

mutual

def Statement.Sound : Statement → Prop
  | .block body => Statement.AllSound body
  | .expr e => e.Sound
  | .print keyword args redirect =>
      Term.AllSound args ∧ Redirection.OptionSound redirect ∧
        (keyword.text = "printf" → Term.allHollow args = false)
  | .ifElse condition yes no =>
      condition.Sound ∧ yes.Sound ∧ Statement.OptionSound no
  | .whileLoop condition body => condition.Sound ∧ body.Sound
  | .doLoop body condition => body.Sound ∧ condition.Sound
  | .forLoop init condition update body =>
      Term.OptionSound init ∧ Term.OptionSound condition ∧
        Term.OptionSound update ∧ body.Sound
  | .forIn _ _ body => body.Sound
  | .breakLoop | .continueLoop | .nextRecord | .nextFile => True
  | .exit code => Term.OptionSound code
  | .returnValue value => Term.OptionSound value
  | .delete _ keys => Term.AllSound keys

def Statement.AllSound : List Statement → Prop
  | [] => True
  | s :: rest => s.Sound ∧ Statement.AllSound rest

def Statement.OptionSound : Option Statement → Prop
  | none => True
  | some s => s.Sound

end

theorem Redirection.check_accepts (r : Redirection) :
    Accepts r.check ↔ r.Sound := by
  rw [Redirection.Sound, ← Term.check_accepts]
  unfold Redirection.check
  cases r.channel with
  | pipe => simp
  | append | truncate =>
      rw [accepts_bind_pure]
      simp

theorem Redirection.checkOption_accepts (r : Option Redirection) :
    Accepts (Redirection.checkOption r) ↔ Redirection.OptionSound r := by
  cases r with
  | none => simp [Redirection.checkOption, Redirection.OptionSound]
  | some r =>
      rw [Redirection.checkOption, accepts_bind_pure, Redirection.OptionSound]
      exact Redirection.check_accepts r

theorem outputStatement_accepts (keyword : Word) (args : List Expr)
    (redirect : Option Redirect) :
    Accepts (outputStatement keyword args redirect) ↔
    (keyword.text = "printf" → args ≠ []) := by
  unfold outputStatement
  split
  · cases args <;> simp_all
  · simp_all

mutual

theorem Statement.check_accepts (s : Statement) :
    Accepts s.check ↔ s.Sound := by
  cases s with
  | block body =>
      rw [Statement.check, accepts_bind_pure, Statement.Sound]
      exact Statement.checkAll_accepts body
  | expr e =>
      rw [Statement.check, accepts_bind_pure, Statement.Sound]
      exact Term.check_accepts e
  | print keyword args redirect =>
      rw [Statement.check, Statement.Sound, ← Term.checkAll_accepts args,
        ← Redirection.checkOption_accepts redirect]
      refine accepts_bind_of_forall fun es checked =>
        accepts_bind_of_forall fun r _ => ?_
      rw [outputStatement_accepts, Ne, ← Term.allHollow_iff checked,
        Bool.not_eq_true]
  | ifElse condition yes no =>
      rw [Statement.check,
        Statement.Sound, ← Term.check_accepts
          condition, ← Statement.check_accepts
          yes, ← Statement.checkOption_accepts no]
      exact accepts_bind_of_forall fun _ _ => accepts_bind_of_forall fun _ _ =>
        accepts_bind_pure
  | whileLoop condition body =>
      rw [Statement.check,
        Statement.Sound, ← Term.check_accepts
          condition, ← Statement.check_accepts body]
      exact accepts_bind_of_forall fun _ _ => accepts_bind_pure
  | doLoop body condition =>
      rw [Statement.check,
        Statement.Sound, ← Term.check_accepts
          condition, ← Statement.check_accepts body]
      exact accepts_bind_of_forall fun _ _ => accepts_bind_pure
  | forLoop init condition update body =>
      rw [Statement.check,
        Statement.Sound, ← Term.checkOption_accepts
          init, ← Term.checkOption_accepts condition, ← Term.checkOption_accepts
          update, ← Statement.check_accepts body]
      exact accepts_bind_of_forall fun _ _ => accepts_bind_of_forall fun _ _ =>
        accepts_bind_of_forall fun _ _ => accepts_bind_pure
  | forIn name array body =>
      rw [Statement.check, accepts_bind_pure, Statement.Sound]
      exact Statement.check_accepts body
  | breakLoop | continueLoop | nextRecord | nextFile =>
      simp [Statement.check, Statement.Sound]
  | exit code =>
      rw [Statement.check, accepts_bind_pure, Statement.Sound]
      exact Term.checkOption_accepts code
  | returnValue value =>
      rw [Statement.check, accepts_bind_pure, Statement.Sound]
      exact Term.checkOption_accepts value
  | delete array keys =>
      rw [Statement.Sound, ← Term.checkAll_accepts keys]
      cases keys with
      | nil => simp [Statement.check, Term.checkAll]
      | cons key rest =>
          rw [Statement.check, accepts_bind_pure]
          simp

theorem Statement.checkAll_accepts (ss : List Statement) :
    Accepts (Statement.checkAll ss) ↔ Statement.AllSound ss := by
  cases ss with
  | nil => simp [Statement.checkAll, Statement.AllSound]
  | cons s rest =>
      rw [Statement.checkAll,
        Statement.AllSound, ← Statement.check_accepts
          s, ← Statement.checkAll_accepts rest]
      exact accepts_bind_of_forall fun _ _ => accepts_bind_pure

theorem Statement.checkOption_accepts (s : Option Statement) :
    Accepts (Statement.checkOption s) ↔ Statement.OptionSound s := by
  cases s with
  | none => simp [Statement.checkOption, Statement.OptionSound]
  | some s =>
      rw [Statement.checkOption, accepts_bind_pure, Statement.OptionSound]
      exact Statement.check_accepts s

end

/-! ## Rules and functions -/

def Head.Sound : Head → Prop
  | .begin | .finish | .always => True
  | .pattern t => t.Sound
  | .range start stop => start.Sound ∧ stop.Sound

structure NamesFit (function : String) (params : List String) : Prop where
  notBuiltin : function ∉ builtinNames
  notKeyword : function ∉ keywords
  distinct : params.Nodup
  notFunction : function ∉ params
  notSpecial : ∀ param ∈ params, param ∉ specialNames

def Item.Sound : Item → Prop
  | .function word params body =>
      NamesFit word.text (params.map Word.text) ∧ Statement.AllSound body
  | .rule head action => head.Sound ∧ Statement.AllSound (action.getD [])

def Item.signature? : Item → Option (String × List String)
  | .function word params _ => some (word.text, params.map Word.text)
  | .rule _ _ => none

def definedNames (items : List Item) : List String :=
  (items.filterMap Item.signature?).map Prod.fst

theorem Head.check_accepts (head : Head) : Accepts head.check ↔ head.Sound := by
  cases head with
  | begin | finish | always => simp [Head.check, Head.Sound]
  | pattern t =>
      rw [Head.check, accepts_bind_pure, Head.Sound]
      exact Term.check_accepts t
  | range start stop =>
      rw [Head.check,
        Head.Sound, ← Term.check_accepts start, ← Term.check_accepts stop]
      exact accepts_bind_of_forall fun _ _ => accepts_bind_pure

theorem checkRule_accepts (head : Head) (action : Option (List Statement)) :
    Accepts (checkRule head action) ↔ (Item.rule head action).Sound := by
  rw [checkRule, Item.Sound, ← Head.check_accepts head]
  refine accepts_bind_of_forall fun trigger _ => ?_
  cases action with
  | none => simp [Statement.AllSound]
  | some statements =>
      rw [accepts_bind_pure]
      exact Statement.checkAll_accepts statements

theorem checkFunctionName_accepts (defined : List String) (word : Word) :
    Accepts (checkFunctionName defined word) ↔
      (word.text ∉ builtinNames ∧ word.text ∉ keywords) ∧
      word.text ∉ defined := by
  simp only [checkFunctionName, List.contains_iff_mem]
  grind [not_accepts_error, accepts_ok]

theorem checkParam_accepts (function : String) (before : List String)
    (word : Word) :
    Accepts (checkParam function before word) ↔
      word.text ∉ before ∧ word.text ≠ function ∧ word.text ∉ specialNames := by
  simp only [checkParam, List.contains_iff_mem]
  grind [not_accepts_error, accepts_ok]

theorem checkParams_accepts (function : String) (before : List String)
    (words : List Word) :
    Accepts (checkParams function before words) ↔
      (words.map Word.text).Nodup ∧
        ∀ param ∈ words.map Word.text, param ∉ before ∧ param ≠ function ∧
        param ∉ specialNames := by
  induction words generalizing before with
  | nil => simp [checkParams]
  | cons word rest ih =>
      rw [checkParams, accepts_bind_of_forall fun _ _ =>
        ih (word.text :: before), checkParam_accepts]
      simp only [List.map_cons, List.nodup_cons, List.mem_cons]
      grind

theorem checkParams_eq {function : String} {before params : List String}
    {words : List Word} (h : checkParams function before words = .ok params) :
    params = before.reverse ++ words.map Word.text := by
  induction words generalizing before with
  | nil =>
      cases h
      simp
  | cons word rest ih =>
      obtain ⟨-, -, later⟩ := checked_bind h
      rw [ih later]
      simp

theorem checkFunction_accepts (defined : List String) (word : Word)
    (params : List Word) (body : List Statement) :
    Accepts (checkFunction defined word params body) ↔
      (Item.function word params body).Sound ∧ word.text ∉ defined := by
  have names : NamesFit word.text (params.map Word.text) ↔
      (word.text ∉ builtinNames ∧ word.text ∉ keywords) ∧
      (params.map Word.text).Nodup ∧ ∀ param ∈ params.map Word.text,
      param ∉ [] ∧ param ≠ word.text ∧ param ∉ specialNames := by
    constructor
    · rintro ⟨builtin, keyword, distinct, own, special⟩
      refine ⟨⟨builtin, keyword⟩, distinct,
        fun param mem => ⟨List.not_mem_nil, ?_, special param mem⟩⟩
      rintro rfl
      exact own mem
    · rintro ⟨⟨builtin, keyword⟩, distinct, each⟩
      exact ⟨builtin, keyword, distinct, fun mem => (each _ mem).2.1 rfl,
        fun param mem => (each param mem).2.2⟩
  rw [checkFunction, Item.Sound,
    names, ← checkParams_accepts, ← Statement.checkAll_accepts]
  rw [accepts_bind_of_forall fun _ _ => accepts_bind_of_forall fun _ _ =>
    accepts_bind_pure, checkFunctionName_accepts]
  grind

theorem checkFunction_signature {defined : List String} {word : Word}
    {params : List Word} {body : List Statement} {f : Function}
    (h : checkFunction defined word params body = .ok f) :
    f.name = word.text ∧ f.params = params.map Word.text := by
  obtain ⟨-, -, h⟩ := checked_bind h
  obtain ⟨names, checked, h⟩ := checked_bind h
  obtain ⟨stmts, -, h⟩ := checked_bind h
  cases h
  exact ⟨rfl, checkParams_eq checked⟩

/-- A program is accepted exactly if its items are sound and its functions have
different names. -/
theorem checkItems_accepts (defined : List String) (items : List Item) :
    Accepts (checkItems defined items) ↔
      (∀ item ∈ items, item.Sound) ∧ (definedNames items).Nodup ∧
      ∀ name ∈ definedNames items, name ∉ defined := by
  induction items generalizing defined with
  | nil => simp [checkItems, definedNames]
  | cons item rest ih =>
      cases item with
      | function word params body =>
          rw [checkItems, accepts_bind_of_forall fun _ _ =>
            accepts_bind_pure.trans (ih (word.text :: defined)),
            checkFunction_accepts]
          simp only [definedNames, List.filterMap_cons, Item.signature?,
            List.map_cons, List.nodup_cons, List.mem_cons]
          grind
      | rule head action =>
          rw [checkItems, accepts_bind_of_forall fun _ _ =>
            accepts_bind_pure.trans (ih defined), checkRule_accepts]
          simp only [definedNames, List.filterMap_cons, Item.signature?,
            List.forall_mem_cons, and_assoc]

theorem checkItems_signatures {defined : List String} {items : List Item}
    {p : Program} (h : checkItems defined items = .ok p) :
    p.functions.map (fun f => (f.name, f.params)) =
      items.filterMap Item.signature? := by
  induction items generalizing defined p with
  | nil =>
      cases h
      rfl
  | cons item rest ih =>
      cases item with
      | function word params body =>
          obtain ⟨f, checked, h⟩ := checked_bind h
          obtain ⟨q, later, h⟩ := checked_bind h
          cases h
          obtain ⟨name, parameters⟩ := checkFunction_signature checked
          simp [Item.signature?, ih later, name, parameters]
      | rule head action =>
          obtain ⟨r, -, h⟩ := checked_bind h
          obtain ⟨q, later, h⟩ := checked_bind h
          cases h
          simp only [List.filterMap_cons, Item.signature?]
          exact ih later

end Awk.Source
