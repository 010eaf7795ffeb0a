import Awk.Proofs.Relation.Expression

/-!
# Statements transport relations

`Straight` adds to `Compatible` what statements need that do not jump, and
`Looping` adds the jumps and the loops, which two runners may repeat in
different ways.  Like `Compatible`, they may be restricted to programs whose
parts have a property, and to effects of a kind: `Emits`, `Steers` and `Leaps`
tell which effects the kind has to contain.
-/

namespace Awk

class Emits (E : Machine → Machine → Prop) : Prop where
  write : ∀ {m : Machine} (text : String), E m { m with
    output := m.output.write text }
  writeTo : ∀ {m : Machine} (target text : String) (append : Bool),
    E m { m with output := m.output.writeTo target text append }

class Steers (E : Machine → Machine → Prop) : Prop extends Emits E where
  exitCode : ∀ {m : Machine} (n : Int), E m { m with
    output := { m.output with exitCode := n } }
  steer : ∀ {m : Machine} (f : Flow), f.SameJumps m.flow →
    (f.nextFile = true → m.flow.nextFile = true) → E m { m with flow := f }

class Leaps (E : Machine → Machine → Prop) : Prop extends Steers E where
  leap : ∀ {m : Machine} (f : Flow), (f.nextFile = true →
    m.flow.nextFile = true) → E m { m with flow := f }

instance : Steers StraightEffect where
  write := .write
  writeTo := .writeTo
  exitCode := .exitCode
  steer f same _ := .flow f same

instance : Leaps Effect where
  write := .write
  writeTo := .writeTo
  exitCode := .exitCode
  steer f _ _ := .flow f
  leap f _ := .flow f

structure Straight (Q : ExecRelation) (run₁ run₂ : Services)
    (P : Part → Prop := fun _ => True)
    (C : Machine → Machine → Prop := Change)
    (E : Machine → Machine → Prop := StraightEffect) : Prop
    extends Compatible Q run₁ run₂ P C where
  straight : ∀ {α : Type} {x : Exec α}, Primitive E x → Q α x x
  whole : ∀ {e : Expr}, Q Value (e.eval run₁) (e.eval run₂) →
    Q Value (evalWhole run₁ e) (evalWhole run₂ e)

/-- A relation that the loops of two runners keep as well, for a kind of effects
that contains asking for the next input. -/
structure Looping (Q : ExecRelation) (run₁ run₂ : Runner)
    (P : Part → Prop := fun _ => True)
    (C : Machine → Machine → Prop := Change)
    (E : Machine → Machine → Prop := Effect) : Prop
    extends Straight Q run₁.services run₂.services P C E where
  whileLoop : ∀ (kind : LoopKind) {test₁ test₂ turn₁ turn₂ : Exec Bool},
    Q Bool test₁ test₂ → Q Bool turn₁ turn₂ →
    Q Unit (run₁.whileLoop kind test₁ turn₁) (run₂.whileLoop kind test₂ turn₂)
  doLoop : ∀ {test₁ test₂ turn₁ turn₂ : Exec Bool}, Q Bool test₁ test₂ →
    Q Bool turn₁ turn₂ →
    Q Unit (run₁.doLoop test₁ turn₁) (run₂.doLoop test₂ turn₂)
  keyVariable : ∀ {name array : String} {body : Stmt},
    P (.stmt (.forIn name array body)) → Writable C (.variable name) := by
      exact fun _ v => Exec.writeAt_primitive _ v
  keyLoop :
    ∀ (id : ArrayId) {name : String} {turn₁ turn₂ : Exec Bool}
      (keys : List String), Writable C (.variable name) → Q Bool turn₁ turn₂ →
    Q Unit (run₁.keyLoop id name turn₁ keys) (run₂.keyLoop id name turn₂ keys)
  skip : P (.stmt .nextFile) → ∀ m : Machine, E m { m with
    flow := { m.flow with nextFile := true } } := by
    exact fun _ _ => .flow _

variable {Q : ExecRelation} {run₁ run₂ : Services} {P : Part → Prop}
  {C E : Machine → Machine → Prop}

/-! ## Effects -/

theorem leap_primitive [Leaps E] (f : Flow → Flow)
    (here : ∀ flow, (f flow).nextFile = true → flow.nextFile = true) :
    Primitive E (modify fun m => { m with flow := f m.flow }) :=
  .modify (fun m => Leaps.leap (f m.flow) (here m.flow))
    (fun _ => rfl) fun _ _ => rfl

theorem endTurn_primitive [Leaps E] : Primitive E endTurn := by
  refine .get_bind (fun _ _ => rfl) fun m => ?_
  dsimp only
  split
  · exact (leap_primitive (fun f => { f with breaking := false }) fun _ =>
      id).bind (fun _ => .pure _) m
  · exact (leap_primitive (fun f => { f with continuing := false }) fun _ =>
      id).bind (fun _ => .pure _) m

theorem steer_primitive [Steers E] (f : Flow → Flow)
    (same : ∀ flow, (f flow).SameJumps flow)
    (here : ∀ flow, (f flow).nextFile = true → flow.nextFile = true) :
    Primitive E (modify fun m => { m with flow := f m.flow }) :=
  .modify (fun m => Steers.steer (f m.flow) (same m.flow) (here m.flow))
    (fun _ => rfl) fun _ _ => rfl

theorem emit_primitive [Emits E] (text : String) :
    Primitive E (Exec.emit text) :=
  .modify (fun _ => Emits.write text) (fun _ => rfl) fun _ _ => rfl

theorem emitTo_primitive [Emits E] (target text : String) (append : Bool) :
    Primitive E (Exec.emitTo target text append) :=
  .modify (fun _ => Emits.writeTo target text append)
    (fun _ => rfl) fun _ _ => rfl

/-! ## Statements without loops -/

section Straight

variable [Admits C] (hQ : Straight Q run₁ run₂ P C E)

include hQ

theorem evalWhole_related (e : Expr)
    (parts : ∀ x ∈ e.parts, P x := by exact fun _ _ => trivial) :
    Q Value (evalWhole run₁ e) (evalWhole run₂ e) :=
  hQ.whole (e.eval_related hQ.toCompatible parts)

theorem isTrue_related (e : Expr)
    (parts : ∀ x ∈ e.parts, P x := by exact fun _ _ => trivial) :
    Q Bool (isTrue run₁ e) (isTrue run₂ e) :=
  hQ.bind (evalWhole_related hQ e parts) fun v => hQ.pure v.truth

theorem holdsOption_related (condition : Option Expr)
    (parts : ∀ x ∈ partsOf Expr.parts condition,
      P x := by exact fun _ _ => trivial) :
    Q Bool (holdsOption run₁ condition) (holdsOption run₂ condition) := by
  cases condition with
  | none => exact hQ.pure true
  | some e => exact isTrue_related hQ e (forall_mem_partsOf.1 parts e rfl)

theorem evalOption_related (e : Option Expr)
    (parts : ∀ x ∈ partsOf Expr.parts e, P x := by exact fun _ _ => trivial) :
    Q Unit (evalOption run₁ e) (evalOption run₂ e) := by
  cases e with
  | none => exact hQ.pure ()
  | some e =>
      exact hQ.bind (evalWhole_related hQ e (forall_mem_partsOf.1 parts e rfl))
        fun _ => hQ.pure ()

theorem runDelete_related (array : String) (keys : Option (List Expr))
    (parts : ∀ x ∈ (keys.getD []).flatMap Expr.parts,
      P x := by exact fun _ _ => trivial) :
    Q Unit (runDelete run₁ array keys) (runDelete run₂ array keys) := by
  cases keys with
  | none => exact hQ.primitive (Exec.clearArray_primitive array)
  | some keys =>
      simp only [Option.getD_some, List.forall_mem_flatMap] at parts
      have texts := hQ.mapM_same keys fun e inside =>
        hQ.bind (evalWhole_related hQ e (parts e inside)) fun v =>
          hQ.primitive (Exec.textOf_primitive v)
      refine hQ.bind texts fun texts => ?_
      refine hQ.get_bind (fun _ _ => rfl) (fun _ _ => rfl) fun m => ?_
      exact hQ.primitive (Exec.deleteElement_primitive array _)

variable [Emits E]

theorem writeText_related (text : String) (redirect : Option Redirect)
    (parts : ∀ x ∈ partsOf Redirect.parts redirect,
      P x := by exact fun _ _ => trivial) :
    Q Unit (writeText run₁ text redirect) (writeText run₂ text redirect) := by
  cases redirect with
  | none => exact hQ.straight (emit_primitive text)
  | some r =>
      refine hQ.bind (evalWhole_related hQ r.target
        (forall_mem_partsOf.1 parts r rfl)) fun v => ?_
      refine hQ.bind (hQ.primitive (Exec.textOf_primitive v)) fun target => ?_
      split
      · exact hQ.bind (hQ.primitive (.fatal .emptyRedirect)) fun _ =>
          hQ.straight (emitTo_primitive target text r.append)
      · exact hQ.straight (emitTo_primitive target text r.append)

theorem runPrint_related (args : List Expr) (redirect : Option Redirect)
    (parts : ∀ x ∈ (Stmt.print args redirect).parts,
      P x := by exact fun _ _ => trivial) :
    Q Unit (runPrint run₁ args redirect) (runPrint run₂ args redirect) := by
  simp only [Stmt.parts, List.forall_mem_cons, List.forall_mem_append,
    List.forall_mem_flatMap] at parts
  obtain ⟨-, values, target⟩ := parts
  have write : ∀ parts : List String, Q Unit
      (do
        let specials := (← get).specials
        writeText run₁ (specials.ofs.intercalate parts ++ specials.ors)
          redirect)
      (do
        let specials := (← get).specials
        writeText run₂ (specials.ofs.intercalate parts ++ specials.ors)
          redirect) := by
    intro parts
    refine hQ.get_bind (fun _ _ => rfl) (fun _ _ => rfl) fun m => ?_
    exact writeText_related hQ _ redirect target
  cases args with
  | nil => exact hQ.get_bind (fun _ _ => rfl) (fun _ _ => rfl) fun m => write _
  | cons e rest =>
      refine hQ.bind (hQ.mapM_same (e :: rest) fun e inside => ?_) write
      refine hQ.bind (evalWhole_related hQ e (values e inside)) fun v => ?_
      refine hQ.get_bind (fun _ _ => rfl) (fun _ _ => rfl) fun m => ?_
      exact hQ.primitive (Exec.textThrough_primitive m.specials.ofmt v)

theorem runPrintf_related (format : Expr) (args : List Expr)
    (redirect : Option Redirect)
    (parts : ∀ x ∈ (Stmt.printf format args redirect).parts,
      P x := by exact fun _ _ => trivial) :
    Q Unit (runPrintf run₁ format args redirect)
      (runPrintf run₂ format args redirect) := by
  simp only [Stmt.parts, List.forall_mem_cons, List.forall_mem_append,
    List.forall_mem_flatMap] at parts
  obtain ⟨-, ⟨first, values⟩, target⟩ := parts
  refine hQ.bind (evalWhole_related hQ format first) fun format => ?_
  refine hQ.bind (hQ.mapM_same args fun e inside =>
    evalWhole_related hQ e (values e inside)) fun values => ?_
  refine hQ.bind (hQ.primitive (Exec.formatted_primitive format values))
    fun text => ?_
  exact writeText_related hQ text redirect target

end Straight

theorem runExit_related [Admits C] [Steers E] (hQ : Straight Q run₁ run₂ P C E)
    (code : Option Expr) (parts : ∀ x ∈ partsOf Expr.parts code,
      P x := by exact fun _ _ => trivial) :
    Q Unit (runExit run₁ code) (runExit run₂ code) := by
  have leave : Q Unit
      (do
        Exec.note ["EXIT", "code", toString (← get).output.exitCode]
        modify fun m => { m with flow := { m.flow with exiting := true } })
      (do
        Exec.note ["EXIT", "code", toString (← get).output.exitCode]
        modify fun m => { m with flow := { m.flow with
          exiting := true } }) := by
    refine hQ.get_bind (fun _ _ => rfl) (fun _ _ => rfl) fun m => ?_
    refine hQ.bind (hQ.primitive (Exec.note_primitive _)) fun _ => ?_
    exact hQ.straight (steer_primitive (fun f => { f with
      exiting := true }) (fun _ => ⟨rfl, rfl, rfl⟩) fun _ => id)
  cases code with
  | none => exact leave
  | some e =>
      refine hQ.bind (evalWhole_related hQ e (forall_mem_partsOf.1 parts e rfl))
        fun v => ?_
      refine hQ.bind (hQ.straight ?_) fun _ => leave
      exact .modify (fun _ => Steers.exitCode v.toInteger)
        (fun _ => rfl) fun _ _ => rfl

theorem runReturn_related [Admits C] [Leaps E] (hQ : Straight Q run₁ run₂ P C E)
    (value : Option Expr) (parts : ∀ x ∈ partsOf Expr.parts value,
      P x := by exact fun _ _ => trivial) :
    Q Unit (runReturn run₁ value) (runReturn run₂ value) := by
  have leave : ∀ v, Q Unit (modify fun m => { m with
    flow := { m.flow with returned := some v,
                          returning := true } }) (modify fun m => { m with
                            flow := { m.flow with returned := some v,
                                                  returning := true } }) :=
    fun v => hQ.straight (leap_primitive (fun f => { f with returned := some v,
                                                            returning := true })
      fun _ => id)
  cases value with
  | none => exact leave Value.unset
  | some e =>
      exact hQ.bind (evalWhole_related hQ e (forall_mem_partsOf.1 parts e rfl))
        leave

theorem interruptible_related (hQ : Sequential Q C) {x₁ x₂ y₁ y₂ : Exec Unit}
    (hx : Q Unit x₁ x₂) (hy : Q Unit y₁ y₂) :
    Q Unit
      (do
        if (← get).flow.interrupted then return
        x₁
        y₁)
      (do
        if (← get).flow.interrupted then return
        x₂
        y₂) := by
  refine hQ.get_bind (fun _ _ => rfl) (fun _ _ => rfl) fun m => ?_
  split
  · exact hQ.pure ()
  · exact hQ.bind hx fun _ => hy

/-! ## Turns of loops -/

section Turns

variable (hQ : Sequential Q C) {tooMany₁ tooMany₂ : Exec Unit}
    (exceeds : Q Unit tooMany₁ tooMany₂) {test₁ test₂ turn₁ turn₂ : Exec Bool}

include hQ exceeds

theorem whileTurns_related (htest : Q Bool test₁ test₂)
    (hturn : Q Bool turn₁ turn₂) (left : Nat) :
    Q Unit (whileTurns tooMany₁ test₁ turn₁ left)
      (whileTurns tooMany₂ test₂ turn₂ left) := by
  induction left with
  | zero =>
      apply hQ.bind htest
      rintro (_ | _)
      · exact hQ.pure ()
      · exact exceeds
  | succ left ih =>
      apply hQ.bind htest
      rintro (_ | _)
      · exact hQ.pure ()
      · apply hQ.bind hturn
        rintro (_ | _)
        · exact hQ.pure ()
        · exact ih

theorem doTurns_related (htest : Q Bool test₁ test₂)
    (hturn : Q Bool turn₁ turn₂) (left : Nat) :
    Q Unit (doTurns tooMany₁ test₁ turn₁ left)
      (doTurns tooMany₂ test₂ turn₂ left) := by
  induction left with
  | zero => exact exceeds
  | succ left ih =>
      apply hQ.bind hturn
      rintro (_ | _)
      · exact hQ.pure ()
      · apply hQ.bind htest
        rintro (_ | _)
        · exact hQ.pure ()
        · exact ih

theorem keyTurns_related (id : ArrayId) {name : String}
    (writable : Writable C (.variable name)) (hturn : Q Bool turn₁ turn₂)
    (left : Nat) (keys : List String) :
    Q Unit (keyTurns tooMany₁ id name turn₁ left keys)
      (keyTurns tooMany₂ id name turn₂ left keys) := by
  induction keys generalizing left with
  | nil => exact hQ.pure ()
  | cons key rest ih =>
      apply hQ.bind (hQ.primitive (Exec.arrayAt_primitive id))
      intro t
      cases t.contains key with
      | false => exact ih left
      | true =>
          cases left with
          | zero => exact exceeds
          | succ left =>
              apply hQ.bind (hQ.primitive (writable _))
              intro _
              apply hQ.bind hturn
              rintro (_ | _)
              · exact hQ.pure ()
              · exact ih left

end Turns

/-! ## All statements -/

variable {run₁ run₂ : Runner}

mutual

/-- Related runners give related executions of every statement. -/
theorem Stmt.exec_related [Admits C] [Leaps E]
    (hQ : Looping Q run₁ run₂ P C E) :
    ∀ s : Stmt, (∀ x ∈ s.parts, P x) → Q Unit (s.exec run₁) (s.exec run₂)
  | .block body, parts => by
      simp only [Stmt.parts, List.forall_mem_cons] at parts
      simp only [Stmt.exec]
      exact Stmt.execAll_related hQ body parts.2
  | .expr e, parts => by
      simp only [Stmt.parts, List.forall_mem_cons] at parts
      simp only [Stmt.exec]
      exact hQ.bind (evalWhole_related hQ.toStraight e parts.2) fun _ =>
        hQ.pure ()
  | .print args redirect, parts => by
      simp only [Stmt.exec]
      exact runPrint_related hQ.toStraight args redirect parts
  | .printf format args redirect, parts => by
      simp only [Stmt.exec]
      exact runPrintf_related hQ.toStraight format args redirect parts
  | .ifElse condition yes no, parts => by
      simp only [Stmt.parts, List.forall_mem_cons, List.forall_mem_append]
        at parts
      obtain ⟨-, ⟨test, first⟩, second⟩ := parts
      simp only [Stmt.exec]
      refine hQ.bind (isTrue_related hQ.toStraight condition test) fun b => ?_
      split
      · exact Stmt.exec_related hQ yes first
      · exact Stmt.execOption_related hQ no second
  | .whileLoop condition body, parts => by
      simp only [Stmt.parts, List.forall_mem_cons, List.forall_mem_append]
        at parts
      simp only [Stmt.exec]
      refine hQ.whileLoop .whileLoop
        (isTrue_related hQ.toStraight condition parts.2.1) ?_
      exact hQ.bind (Stmt.exec_related hQ body parts.2.2) fun _ =>
        hQ.straight endTurn_primitive
  | .doLoop body condition, parts => by
      simp only [Stmt.parts, List.forall_mem_cons, List.forall_mem_append]
        at parts
      simp only [Stmt.exec]
      refine hQ.doLoop (isTrue_related hQ.toStraight condition parts.2.2) ?_
      exact hQ.bind (Stmt.exec_related hQ body parts.2.1) fun _ =>
        hQ.straight endTurn_primitive
  | .forLoop init condition update body, parts => by
      simp only [Stmt.parts, List.forall_mem_cons, List.forall_mem_append]
        at parts
      obtain ⟨-, ⟨⟨start, test⟩, step⟩, inner⟩ := parts
      simp only [Stmt.exec]
      refine hQ.bind (evalOption_related hQ.toStraight init start) fun _ => ?_
      refine hQ.whileLoop .forLoop
        (holdsOption_related hQ.toStraight condition test) ?_
      refine hQ.bind (Stmt.exec_related hQ body inner) fun _ => ?_
      refine hQ.bind (hQ.straight endTurn_primitive) fun again => ?_
      split
      · exact hQ.bind (evalOption_related hQ.toStraight update step) fun _ =>
          hQ.pure true
      · exact hQ.pure false
  | .forIn name array body, parts => by
      simp only [Stmt.parts, List.forall_mem_cons] at parts
      simp only [Stmt.exec]
      refine hQ.bind (hQ.primitive (Exec.useArray_primitive array)) fun id => ?_
      refine hQ.bind (hQ.primitive (Exec.arrayAt_primitive id)) fun t => ?_
      refine hQ.keyLoop id t.keys (hQ.keyVariable parts.1) ?_
      exact hQ.bind (Stmt.exec_related hQ body parts.2) fun _ =>
        hQ.straight endTurn_primitive
  | .breakLoop, _ => by
      simp only [Stmt.exec]
      exact hQ.straight (leap_primitive (fun f => { f with
        breaking := true }) fun _ => id)
  | .continueLoop, _ => by
      simp only [Stmt.exec]
      exact hQ.straight (leap_primitive (fun f => { f with
        continuing := true }) fun _ => id)
  | .nextRecord, _ => by
      simp only [Stmt.exec]
      exact hQ.straight (leap_primitive (fun f => { f with
        next := true }) fun _ => id)
  | .nextFile, parts => by
      simp only [Stmt.parts, List.forall_mem_cons] at parts
      simp only [Stmt.exec]
      exact hQ.straight (.modify (hQ.skip parts.1)
        (fun _ => rfl) fun _ _ => rfl)
  | .exit code, parts => by
      simp only [Stmt.parts, List.forall_mem_cons] at parts
      simp only [Stmt.exec]
      exact runExit_related hQ.toStraight code parts.2
  | .returnValue value, parts => by
      simp only [Stmt.parts, List.forall_mem_cons] at parts
      simp only [Stmt.exec]
      exact runReturn_related hQ.toStraight value parts.2
  | .delete array keys, parts => by
      simp only [Stmt.parts, List.forall_mem_cons] at parts
      simp only [Stmt.exec]
      exact runDelete_related hQ.toStraight array keys parts.2

theorem Stmt.execAll_related [Admits C] [Leaps E]
    (hQ : Looping Q run₁ run₂ P C E) :
    ∀ body : List Stmt, (∀ x ∈ Stmt.partsAll body, P x) →
      Q Unit (Stmt.execAll run₁ body) (Stmt.execAll run₂ body)
  | [], _ => by
      simp only [Stmt.execAll]
      exact hQ.pure ()
  | s :: rest, parts => by
      simp only [Stmt.partsAll, List.forall_mem_append] at parts
      simp only [Stmt.execAll]
      exact interruptible_related hQ.toSequential
        (Stmt.exec_related hQ s parts.1) (Stmt.execAll_related hQ rest parts.2)

theorem Stmt.execOption_related [Admits C] [Leaps E]
    (hQ : Looping Q run₁ run₂ P C E) :
    ∀ s : Option Stmt, (∀ x ∈ Stmt.partsOption s, P x) →
      Q Unit (Stmt.execOption run₁ s) (Stmt.execOption run₂ s)
  | none, _ => by
      simp only [Stmt.execOption]
      exact hQ.pure ()
  | some s, parts => by
      simp only [Stmt.partsOption] at parts
      simp only [Stmt.execOption]
      exact Stmt.exec_related hQ s parts

end

end Awk
