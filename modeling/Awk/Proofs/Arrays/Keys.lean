import Awk.Proofs.Scope.Aliases

/-!
# Loops over the keys of an array

The keys are taken down when the loop begins, and the body may do to the array
whatever it likes.  `Tour` follows such a loop: a key is passed over if it is
gone when its turn comes, and visited otherwise.  So the loop does what visiting
some of the keys does, one after another and without any test, and it is known
of each key why it is visited or not.
-/

namespace Awk

def visitKey (run : Runner) (name : String) (body : Stmt) (key : String) :
    Exec Bool := do
  Exec.assignVariable name (.text key)
  body.exec run
  endTurn

def visitAll (visit : String → Exec Bool) : List String → Exec Bool
  | [] => pure true
  | key :: rest => do
      if ← visit key then visitAll visit rest else return false

/-- Why a loop over keys is over, and the state it leaves behind. -/
inductive TourEnd where
  | finished (last : Machine)
  | left (last : Machine)
  | failed (e : Fault) (last : Machine)
  | exceeded (last : Machine)

namespace TourEnd

def ofVisits : TourEnd → EStateM.Result Fault Machine Bool
  | .finished last => .ok true last
  | .left last => .ok false last
  | .failed e last => .error e last
  | .exceeded last => .ok true last

def ofLoop (tooMany : Exec Unit) : TourEnd → EStateM.Result Fault Machine Unit
  | .finished last => .ok () last
  | .left last => .ok () last
  | .failed e last => .error e last
  | .exceeded last => tooMany last

def Stops : TourEnd → Prop
  | .left _ | .failed _ _ => True
  | _ => False

end TourEnd

/-- A loop over keys from a state on, with at most `left` visits: the keys that
are visited, and the end. -/
inductive Tour (visit : String → Exec Bool) (id : ArrayId) :
    (left : Nat) → (keys : List String) → Machine → (visited : List String) →
    TourEnd → Prop
  | done {left : Nat} {m : Machine} : Tour visit id left [] m [] (.finished m)
  | pass {left : Nat} {key : String} {rest visited : List String} {m : Machine}
      {ending : TourEnd} (absent : (m.names.array id).contains key = false)
      (later : Tour visit id left rest m visited ending) :
      Tour visit id left (key :: rest) m visited ending
  | exceed {key : String} {rest : List String} {m : Machine}
      (present : (m.names.array id).contains key = true) :
      Tour visit id 0 (key :: rest) m [] (.exceeded m)
  | stop {left : Nat} {key : String} {rest : List String} {m : Machine}
      {ending : TourEnd} (present : (m.names.array id).contains key = true)
      (visits : visit key m = ending.ofVisits) (stops : ending.Stops) :
      Tour visit id (left + 1) (key :: rest) m [key] ending
  | goOn {left : Nat} {key : String} {rest visited : List String}
      {m m' : Machine} {ending : TourEnd}
      (present : (m.names.array id).contains key = true)
      (visits : visit key m = .ok true m')
      (later : Tour visit id left rest m' visited ending) :
      Tour visit id (left + 1) (key :: rest) m (key :: visited) ending

/-! ## The loop is a tour -/

section Turns

variable {tooMany : Exec Unit} {id : ArrayId} {run : Runner} {name : String}
    {body : Stmt} {key : String} {rest : List String} {left : Nat} {m : Machine}

theorem keyTurns_absent {turn : Exec Bool}
    (absent : (m.names.array id).contains key = false) :
    keyTurns tooMany id name turn left (key :: rest) m =
      keyTurns tooMany id name turn left rest m := by
  have looked : Exec.arrayAt id m = .ok (m.names.array id) m := rfl
  cases left <;> rw [keyTurns, Exec.bind_ok looked, if_neg (by simp [absent])]

theorem keyTurns_exceed {turn : Exec Bool}
    (present : (m.names.array id).contains key = true) :
    keyTurns tooMany id name turn 0 (key :: rest) m = tooMany m := by
  have looked : Exec.arrayAt id m = .ok (m.names.array id) m := rfl
  rw [keyTurns, Exec.bind_ok looked, if_pos present]

theorem keyTurns_visit (present : (m.names.array id).contains key = true) :
    keyTurns tooMany id name (do body.exec run; endTurn) (left + 1)
      (key :: rest) m =
      (do
        if ← visitKey run name body key then
          keyTurns tooMany id name (do body.exec run; endTurn) left rest :
          Exec Unit) m := by
  have looked : Exec.arrayAt id m = .ok (m.names.array id) m := rfl
  rw [keyTurns, Exec.bind_ok looked, if_pos present, visitKey]
  simp only [bind_assoc]

theorem keyTurns_tour (tooMany : Exec Unit) (id : ArrayId) (run : Runner)
    (name : String) (body : Stmt) (left : Nat) (keys : List String)
    (m : Machine) :
    ∃ visited ending, Tour (visitKey run name body) id left keys m visited
      ending ∧
      keyTurns tooMany id name (do body.exec run; endTurn) left keys m =
        ending.ofLoop tooMany := by
  -- A key that is gone takes no turn.
  induction keys generalizing left m with
  | nil => exact ⟨[], _, .done, rfl⟩
  | cons key rest ih =>
      cases found : (m.names.array id).contains key with
      | false =>
          obtain ⟨visited, ending, tour, same⟩ := ih left m
          exact ⟨visited, ending, .pass found tour,
            (keyTurns_absent found).trans same⟩
      | true =>
          cases left with
          | zero => exact ⟨[], _, .exceed found, keyTurns_exceed found⟩
          | succ left =>
              rw [keyTurns_visit found]
              cases visits : visitKey run name body key m with
              | error e m' =>
                  exact ⟨[key], .failed e m', .stop found visits trivial,
                    Exec.bind_error visits _⟩
              | ok again m' =>
                  rw [Exec.bind_ok visits]
                  cases again with
                  | false =>
                      exact ⟨[key], .left m', .stop found visits trivial, rfl⟩
                  | true =>
                      obtain ⟨visited, ending, tour, same⟩ := ih left m'
                      exact ⟨key :: visited, ending, .goOn found visits tour,
                        same⟩

end Turns

/-! ## What holds of every tour -/

namespace Tour

variable {visit : String → Exec Bool} {id : ArrayId} {left : Nat}
    {keys visited : List String} {m : Machine} {ending : TourEnd}

theorem sublist (h : Tour visit id left keys m visited ending) :
    visited.Sublist keys := by
  induction h with
  | done => exact .slnil
  | pass absent later ih => exact ih.cons _
  | exceed present => exact List.nil_sublist _
  | stop present visits stops => exact (List.nil_sublist _).cons_cons _
  | goOn present visits later ih => exact ih.cons_cons _

theorem visitAll_go {key : String} {rest : List String} {m' : Machine}
    (visits : visit key m = .ok true m') :
    visitAll visit (key :: rest) m = visitAll visit rest m' := by
  rw [visitAll, Exec.bind_ok visits]
  rfl

theorem visitAll_eq (h : Tour visit id left keys m visited ending) :
    visitAll visit visited m = ending.ofVisits := by
  induction h with
  | done => rfl
  | pass absent later ih => exact ih
  | exceed present => rfl
  | @stop left key rest m ending present visits stops =>
      cases ending with
      | left last => exact Exec.bind_ok visits _
      | failed e last => exact Exec.bind_error visits _
      | _ => exact stops.elim
  | goOn present visits later ih => rw [visitAll_go visits, ih]

theorem length_of_exceeded (h : Tour visit id left keys m visited ending)
    {last : Machine} (exceeded : ending = .exceeded last) :
    visited.length = left := by
  induction h with
  | done => contradiction
  | pass absent later ih => exact ih exceeded
  | exceed present => rfl
  | stop present visits stops =>
      rw [exceeded] at stops
      exact stops.elim
  | goOn present visits later ih => rw [List.length_cons, ih exceeded]

theorem present (h : Tour visit id left keys m visited ending)
    {before after : List String} {key : String}
    (parted : visited = before ++ key :: after) :
    ∃ s, visitAll visit before m = .ok true s ∧
    (s.names.array id).contains key = true := by
  induction h generalizing before with
  | done => simp at parted
  | pass absent later ih => exact ih parted
  | exceed present => simp at parted
  | stop present visits stops =>
      cases before with
      | nil =>
          obtain ⟨rfl, -⟩ := List.cons.inj parted
          exact ⟨_, rfl, present⟩
      | cons first before => simp at parted
  | goOn present visits later ih =>
      cases before with
      | nil =>
          obtain ⟨rfl, -⟩ := List.cons.inj parted
          exact ⟨_, rfl, present⟩
      | cons first before =>
          obtain ⟨rfl, behind⟩ := List.cons.inj parted
          rw [visitAll_go visits]
          exact ih behind

theorem absent (h : Tour visit id left keys m visited ending) {last : Machine}
    (finished : ending = .finished last) {before after : List String}
    {key : String} (parted : keys = before ++ key :: after)
    (unvisited : key ∉ visited) :
    ∃ earlier later s, visited = earlier ++ later ∧ earlier.Sublist before ∧
    later.Sublist after ∧
      visitAll visit earlier m = .ok true s ∧
      (s.names.array id).contains key = false := by
  induction h generalizing before with
  | done => simp at parted
  | @pass left first rest visited m ending absent tour ih =>
      cases before with
      | nil =>
          obtain ⟨rfl, rfl⟩ := List.cons.inj parted
          exact ⟨[], visited, m, rfl, .slnil, tour.sublist, rfl, absent⟩
      | cons first' before =>
          obtain ⟨rfl, others⟩ := List.cons.inj parted
          obtain ⟨earlier, later, s, same, inside, behind, reached, gone⟩ :=
            ih finished others unvisited
          exact ⟨earlier, later, s, same, inside.cons _, behind, reached, gone⟩
  | exceed present => contradiction
  | stop present visits stops =>
      rw [finished] at stops
      exact stops.elim
  | @goOn left first rest visited m m' ending present visits tour ih =>
      rw [List.mem_cons, not_or] at unvisited
      cases before with
      | nil => exact absurd (List.cons.inj parted).1.symm unvisited.1
      | cons first' before =>
          obtain ⟨rfl, others⟩ := List.cons.inj parted
          obtain ⟨earlier, later, s, same, inside, behind, reached, gone⟩ :=
            ih finished others unvisited.2
          refine ⟨first :: earlier, later, s, by rw [same, List.cons_append],
            inside.cons_cons _, behind, ?_, gone⟩
          rw [visitAll_go visits, reached]

end Tour

/-! ## The statement -/

theorem forIn_exec {run : BodyRunner} {name array : String} {body : Stmt}
    {m entry : Machine} {id : ArrayId}
    (used : Exec.useArray array m = .ok id entry) :
    (Stmt.forIn name array body).exec (.limited run) m =
      keyTurns (Exec.exceed (.iterations .forIn) entry.limits.iterations) id
        name
        (do body.exec (.limited run); endTurn) entry.limits.iterations.toNat
          (entry.names.array id).keys entry := by
  rw [Stmt.exec, Exec.bind_ok used]
  rfl

/-- A loop over an array visits some of the keys that it has when the loop
begins, in their order, and each of them at most once.  It does what visiting
them one after another does.  A key that is visited is in the array when its
turn comes, and one that is not visited is not, unless the loop is left before.
-/
theorem forIn_visits_snapshot (run : BodyRunner) (name array : String)
    (body : Stmt) (m : Machine) :
    (∃ e, Exec.useArray array m = .error e m ∧
      (Stmt.forIn name array body).exec (.limited run) m = .error e m) ∨
    ∃ (id : ArrayId) (entry : Machine) (visited : List String)
      (ending : TourEnd),
      let visit := visitKey (.limited run) name body
      let keys := (entry.names.array id).keys
      Exec.useArray array m = .ok id entry ∧
      visited.Sublist keys ∧ visited.Nodup ∧
      (∀ key, key ∉ keys → key ∉ visited) ∧
      visitAll visit visited entry = ending.ofVisits ∧
      (Stmt.forIn name array body).exec (.limited run) m =
        ending.ofLoop (Exec.exceed (.iterations .forIn)
          entry.limits.iterations) ∧
      (∀ before key after, visited = before ++ key :: after →
        ∃ s, visitAll visit before entry = .ok true s ∧
        (s.names.array id).contains key = true) ∧
      (∀ last, ending = .finished last → ∀ before key after,
        keys = before ++ key :: after → key ∉ visited →
        ∃ earlier later s, visited = earlier ++ later ∧ earlier.Sublist before ∧
        later.Sublist after ∧ visitAll visit earlier entry = .ok true s ∧
        (s.names.array id).contains key = false) ∧
      ∀ last, ending = .exceeded last →
      visited.length = entry.limits.iterations.toNat := by
  cases used : m.names.useArray array with
  | error cause =>
      have refused := useArray_of_error used
      exact .inl ⟨_, refused, by rw [Stmt.exec, Exec.bind_error refused]⟩
  | ok found =>
      obtain ⟨names, id⟩ := found
      have entered := useArray_of_ok used
      obtain ⟨visited, ending, tour, same⟩ :=
        keyTurns_tour (Exec.exceed (.iterations .forIn) m.limits.iterations) id
          (.limited run) name body m.limits.iterations.toNat
          (names.array id).keys { m with names := names }
      have sublist := tour.sublist
      refine .inr ⟨id, _, visited, ending, entered, sublist,
        sublist.nodup (Table.nodup_keys _), ?_, tour.visitAll_eq,
        (forIn_exec entered).trans same, ?_, ?_, ?_⟩
      · exact fun key other isVisited => other (sublist.subset isVisited)
      · exact fun before key after parted => tour.present parted
      · exact fun last finished before key after parted unvisited =>
          tour.absent finished parted unvisited
      · exact fun last exceeded => tour.length_of_exceeded exceeded

/-- The body removes a key whose turn is still to come, and adds others. -/
example :
    let remove : Stmt := .delete "a" (some [.string "y"])
    let add : Stmt :=
      .expr
        (.assign none
          (.element "a" [.binary .concat (.string "w") (.read (.variable "k"))])
          (.string ""))
    let fill (key : String) : Stmt := .expr (.read (.element "a" [.string key]))
    let p : Program :=
      ⟨[⟨.begin, [fill "x", fill "y", fill "z",
        .forIn "k" "a" (.block [remove, add,
          .print [.read (.variable "k")] none])]⟩], []⟩
    ((runLoaded p [] {}).final (startMachine {} {})).output.text =
      "x\nz\n" := by
  decide +kernel

end Awk
