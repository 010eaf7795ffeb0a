import Awk.Proofs.Scope.Globals

/-!
# Arrays with more than one name

A parameter that an array is passed to is a second name of it, and this is the
only way to get one: a name that becomes an array gets a new one.  Since the
calls give back their parameters, no array has two names when no call is active,
and what is done to one array is not seen through the name of another.
-/

namespace Awk

namespace Names

variable {n : Names} {x y : String} {id : ArrayId}

/-- Arrays that names stand for are in the store, and none of them has two
names. -/
structure Separated (n : Names) : Prop where
  stored : ∀ {x id}, n.arrays.get? x = some id → id < n.store.size
  unshared : ∀ {x y id}, n.arrays.get? x = some id → n.arrays.get? y = some id →
    x = y

def contents? (n : Names) (x : String) : Option (Table Value) :=
  (n.arrays.get? x).map n.array

theorem store_setAll (n : Names) (slots : List (String × Slot)) :
    (n.setAll slots).store = n.store := by
  induction slots generalizing n with
  | nil => rfl
  | cons first rest ih => exact ih (n.setSlot first.1 first.2)

theorem store_unwound (n : Names) (calls : List ActiveCall) :
    (n.unwound calls).store = n.store := by
  induction calls generalizing n with
  | nil => rfl
  | cons c rest ih => exact (ih _).trans (n.store_setAll _)

theorem contents?_setArray {i : ArrayId} (other : n.arrays.get? x ≠ some i)
    (t : Table Value) :
    (n.setArray i t).contents? x = n.contents? x := by
  change (n.arrays.get? x).map (n.setArray i t).array =
    (n.arrays.get? x).map n.array
  apply Option.map_congr
  intro j found
  have different : i ≠ j := by
    rintro rfl
    exact other found
  simp only [array, setArray, Array.getD_eq_getD_getElem?,
    Array.getElem?_setIfInBounds_ne different]

theorem arrays_newArray_self (n : Names) (x : String) :
    (n.newArray x).1.arrays.get? x = some n.store.size := by
  simp [newArray]

theorem arrays_newArray_of_ne (different : x ≠ y) :
    (n.newArray y).1.arrays.get? x = n.arrays.get? x := by
  simp [newArray, different]

theorem contents?_newArray
    (other : (n.newArray y).1.arrays.get? x ≠ some n.store.size) :
    (n.newArray y).1.contents? x = n.contents? x := by
  have different : x ≠ y := by
    rintro rfl
    exact other (n.arrays_newArray_self x)
  rw [arrays_newArray_of_ne different] at other
  unfold contents?
  rw [arrays_newArray_of_ne different]
  apply Option.map_congr
  intro j found
  have old : j ≠ n.store.size := by
    rintro rfl
    exact other found
  simp only [array, newArray, Array.getD_eq_getD_getElem?, Array.getElem?_push,
    if_neg old]

end Names

/-! ## New arrays -/

variable {start m m' : Machine} {log : List Write} {calls : List ActiveCall}
    {x y : String}

theorem Writes.size_le {name : String} {b : Binding}
    (step : Writes m name b m') :
    m.names.store.size ≤ m'.names.store.size := by
  cases step with
  | scalar v free => exact Nat.le_refl _
  | newArray => simp [Names.newArray]

theorem Writes.array_new {name : String} {id : ArrayId}
    (step : Writes m name (.array id) m') :
    id = m.names.store.size ∧ id < m'.names.store.size := by
  cases step with
  | newArray => simp [Names.newArray]

theorem Machine.store_enter (m : Machine) (f : Function)
    (bindings : List Binding) :
    (m.enter f bindings).names.store = m.names.store := by
  rw [m.names_enter, Names.store_setAll]

theorem Machine.store_leave (before : Machine) (f : Function) (m : Machine) :
    (before.leave f m).names.store = m.names.store :=
  m.names.store_setAll _

theorem Reaches.size_le (path : Reaches start log calls m) :
    start.names.store.size ≤ m.names.store.size := by
  induction path with
  | start => exact Nat.le_refl _
  | write path step ih => exact Nat.le_trans ih step.size_le
  | other path same ih => rwa [same.size]
  | enter f bindings path ih => rwa [Machine.store_enter]
  | leave path ih => rwa [Machine.store_leave]

theorem Reaches.array_bounds (path : Reaches start log calls m) :
    ∀ w ∈ log, ∀ id, w.binding = .array id → start.names.store.size ≤ id ∧
    id < m.names.store.size := by
  induction path with
  | start => nofun
  | write path step ih =>
      intro w made id array
      rcases List.mem_cons.1 made with rfl | earlier
      · subst array
        obtain ⟨rfl, stored⟩ := step.array_new
        exact ⟨path.size_le, stored⟩
      · obtain ⟨fresh, stored⟩ := ih w earlier id array
        exact ⟨fresh, Nat.lt_of_lt_of_le stored step.size_le⟩
  | other path same ih => rwa [same.size]
  | enter f bindings path ih => rwa [Machine.store_enter]
  | leave path ih => rwa [Machine.store_leave]

theorem Reaches.array_name (path : Reaches start log calls m) :
    ∀ w ∈ log, ∀ w' ∈ log, ∀ id, w.binding = .array id →
    w'.binding = .array id → w.name = w'.name := by
  -- An array that is created is none of those that were created before.
  induction path with
  | start => nofun
  | @write log calls m m' name b path step ih =>
      have new : ∀ w ∈ log, ∀ id, w.binding = .array id → b ≠ .array id := by
        intro w earlier id array written
        subst written
        have old := (path.array_bounds w earlier id array).2
        exact absurd step.array_new.1 (Nat.ne_of_lt old)
      intro w made w' made' id array array'
      rcases List.mem_cons.1 made with rfl | earlier
      · rcases List.mem_cons.1 made' with rfl | earlier'
        · rfl
        · exact absurd array (new w' earlier' id array')
      · rcases List.mem_cons.1 made' with rfl | earlier'
        · exact absurd array' (new w earlier id array)
        · exact ih w earlier w' earlier' id array array'
  | other path same ih => exact ih
  | enter f bindings path ih => exact ih
  | leave path ih => exact ih

/-! ## Names of arrays outside of calls -/

theorem lastGlobal?_eq_some {b : Binding} (h : lastGlobal? x log = some b) :
    ∃ w ∈ log, w.name = x ∧ w.binding = b := by
  induction log with
  | nil => contradiction
  | cons w earlier ih =>
      rw [lastGlobal?] at h
      split at h
      next global =>
        exact ⟨w, List.mem_cons_self, global.1.symm, Option.some.inj h⟩
      next =>
        obtain ⟨w', made, found⟩ := ih h
        exact ⟨w', List.mem_cons_of_mem w made, found⟩

/--
An array that has a name when the calls have returned was created under this
name or had it at the start.
-/
theorem Reaches.array_origin (path : Reaches start log calls m) {id : ArrayId}
    (h : (m.names.unwound calls).arrays.get? x = some id) :
    (∃ w ∈ log, w.name = x ∧ w.binding = .array id) ∨
      start.names.arrays.get? x = some id := by
  have slots := congrArg Slot.array (path.slot_unwound x)
  rw [show ((m.names.unwound calls).slot x).array = some id from h] at slots
  cases last : lastGlobal? x log with
  | none =>
      rw [last] at slots
      exact .inr slots.symm
  | some b =>
      obtain ⟨w, made, named, rfl⟩ := lastGlobal?_eq_some last
      rw [last] at slots
      refine .inl ⟨w, made, named, ?_⟩
      cases written : w.binding with
      | scalar v =>
          rw [written] at slots
          contradiction
      | array id' =>
          rw [written] at slots
          cases slots
          rfl

theorem Reaches.separated (path : Reaches start log calls m)
    (separated : start.names.Separated) :
    (m.names.unwound calls).Separated where
  stored {x id} h := by
    rw [Names.store_unwound]
    rcases path.array_origin h with ⟨w, made, -, array⟩ | kept
    · exact (path.array_bounds w made id array).2
    · exact Nat.lt_of_lt_of_le (separated.stored kept) path.size_le
  unshared {x y id} hx hy := by
    -- An array of the start cannot be one that was created on the path.
    have apart : ∀ {z w}, w ∈ log → w.binding = .array id →
        start.names.arrays.get? z ≠ some id := by
      intro z w made array kept
      exact Nat.not_lt.2 (path.array_bounds w made id array).1
        (separated.stored kept)
    rcases path.array_origin hx with ⟨w, made, rfl, array⟩ | kept
    · rcases path.array_origin hy with ⟨w', made', rfl, array'⟩ | kept'
      · exact path.array_name w made w' made' id array array'
      · exact absurd kept' (apart made array)
    · rcases path.array_origin hy with ⟨w', made', rfl, array'⟩ | kept'
      · exact absurd kept (apart made' array')
      · exact separated.unshared kept kept'

theorem startMachine_array {options : Options} {host : Host} {id : ArrayId}
    (h : (startMachine options host).names.arrays.get? x = some id) :
    x = "ENVIRON" ∧ id = 0 := by
  have found : (Table.ofList [("ENVIRON", (0 : ArrayId))]).get? x = some id := h
  by_cases same : x = "ENVIRON"
  · subst same
    exact ⟨rfl, (Option.some.inj found).symm⟩
  · have absent : (Table.ofList [("ENVIRON", (0 : ArrayId))]).get? x =
        none := by
      simp only [Table.ofList, List.foldl_cons, List.foldl_nil,
        Table.get?_insert, if_neg same]
      rfl
    rw [absent] at found
    contradiction

theorem startMachine_separated (options : Options) (host : Host) :
    (startMachine options host).names.Separated where
  stored h := by
    rw [(startMachine_array h).2]
    exact Nat.one_pos
  unshared hx hy :=
    (startMachine_array hx).1.trans (startMachine_array hy).1.symm

/-! ## Changes of one array -/

theorem useArray_of_ok {n : Names} {id : ArrayId}
    (used : m.names.useArray x = .ok (n, id)) :
    Exec.useArray x m = .ok id { m with names := n } := by
  change (Exec.orFatal (m.names.useArray x) >>= _) m = _
  rw [used]
  rfl

theorem useArray_of_error {cause : Fatal}
    (refused : m.names.useArray x = .error cause) :
    Exec.useArray x m = .error (.fatal cause) m := by
  change (Exec.orFatal (m.names.useArray x) >>= _) m = _
  rw [refused]
  rfl

/-- What is done to the array of one name is not seen through another. -/
theorem Names.Separated.contents?_update (h : m.names.Separated)
    (different : y ≠ x) (f : Table Value → Table Value) :
    ((do Exec.updateArray (← Exec.useArray x) f : Exec Unit).final
      m).names.contents? y =
      m.names.contents? y := by
  obtain ⟨i, array, used⟩ | ⟨-, used⟩ | ⟨cause, refused⟩ :=
    Exec.names_useArray_cases m.names x
  · have other : m.names.arrays.get? y ≠ some i := by
      intro shared
      exact different (h.unshared shared array)
    unfold Exec.final
    rw [Exec.bind_ok (useArray_of_ok used)]
    exact Names.contents?_setArray other _
  · have other : (m.names.newArray x).1.arrays.get? y ≠
        some m.names.store.size := by
      intro new
      rw [Names.arrays_newArray_of_ne different] at new
      exact Nat.lt_irrefl _ (h.stored new)
    unfold Exec.final
    rw [Exec.bind_ok (useArray_of_ok used)]
    exact (Names.contents?_setArray other _).trans
      (Names.contents?_newArray other)
  · rw [Exec.final_error (Exec.bind_error (useArray_of_error refused) _)]

/-- When no call is active, no array has two names, and what is done to the
array of one name is not seen through another.  So it is on every path from the
start of a run; whole runs are such paths, calls are entered and left on them,
and what is evaluated or executed continues them, also when it ends with a
fault. -/
theorem no_shared_array_outside_calls :
    (∀ p inputs options host,
      ∃ log, Reaches (startMachine options host) log []
        ((runLoaded p inputs options).final (startMachine options host))) ∧
    ∀ options host log calls m,
    Reaches (startMachine options host) log calls m →
      (∀ f bindings, Reaches (startMachine options host) log (⟨f,
        m⟩ :: calls) (m.enter f bindings)) ∧
      (∀ run : BodyRunner, run.Occurs →
        (∀ e : Expr, Reaches.ContinuesTo (startMachine options host) log calls
          ((e.eval run).final m)) ∧
        ∀ s : Stmt,
          Reaches.ContinuesTo (startMachine options host) log calls
            ((s.exec (.limited run)).final m)) ∧
      (calls = [] →
        (∀ x y id, m.names.arrays.get? x = some id →
          m.names.arrays.get? y = some id → x = y) ∧
        ∀ x y, y ≠ x → ∀ f,
          ((do Exec.updateArray (← Exec.useArray x) f : Exec Unit).final
            m).names.contents? y =
            m.names.contents? y) := by
  refine ⟨fun p inputs options host => Reaches.runLoaded p inputs options _, ?_⟩
  intro options host log calls m path
  refine ⟨fun f bindings => path.enter f bindings, path.continues, ?_⟩
  rintro rfl
  have separated : m.names.Separated :=
    path.separated (startMachine_separated options host)
  constructor
  · intro x y id hx hy
    exact separated.unshared hx hy
  · intro x y different f
    exact separated.contents?_update different f

/-- A call that has two names for one array: at its end the array has one name
again. -/
theorem array_passed_twice_unshared :
    let f : Function :=
      ⟨"f", ["a", "b"],
        [.expr (.assign none (.element "a" [.string "k"]) (.string "v"))]⟩
    let p : Program :=
      ⟨[⟨.begin, [.delete "x" none, .delete "y" none,
        .expr (.call "f" [.read (.variable "x"), .read (.variable "x")])]⟩],
        [f]⟩
    let m := (runLoaded p [] {}).final (startMachine {} {})
    (m.names.contents? "x").map (·.get? "k") = some (some (.text "v")) ∧
    m.names.arrays.get? "x" ≠ m.names.arrays.get? "y" ∧
    ((Exec.setElement "x" "k" (.text "w")).final m).names.contents? "y" =
      m.names.contents? "y" := by
  intro f p m
  obtain ⟨log, path⟩ := no_shared_array_outside_calls.1 p [] {} {}
  obtain ⟨-, -, outside⟩ := no_shared_array_outside_calls.2 {} {} log [] m path
  obtain ⟨unshared, unseen⟩ := outside rfl
  have found : m.names.arrays.get? "y" = some 2 := by decide +kernel
  refine ⟨by decide +kernel, fun shared => ?_, unseen "x" "y" (by decide) _⟩
  exact absurd (unshared "x" "y" 2 (shared.trans found) found) (by decide)

end Awk
