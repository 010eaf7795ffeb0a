import Awk.Source.Parse

/-!
# Parameters of functions that are parsed

The checks let a function pass only if its parameters have different names.
-/

namespace Awk

namespace Source

theorem checked_bind {α β : Type} {x : Checked α} {f : α → Checked β} {b : β}
    (h : x >>= f = .ok b) :
    ∃ a, x = .ok a ∧ f a = .ok b := by
  cases x with
  | error c => contradiction
  | ok a => exact ⟨a, rfl, h⟩

theorem checkParam_fresh {function : String} {before : List String}
    {word : Word} (h : checkParam function before word = .ok ()) :
    word.text ∉ before := by
  unfold checkParam at h
  split at h
  · contradiction
  · next fresh => simpa using fresh

theorem checkParams_nodup {function : String} {before params : List String}
    {words : List Word} (distinct : before.Nodup)
    (h : checkParams function before words = .ok params) : params.Nodup := by
  induction words generalizing before with
  | nil =>
      cases h
      exact List.pairwise_reverse.2 (distinct.imp Ne.symm)
  | cons word rest ih =>
      obtain ⟨⟨⟩, passes, later⟩ := checked_bind h
      exact ih (List.nodup_cons.2 ⟨checkParam_fresh passes, distinct⟩) later

theorem checkFunction_params {defined : List String} {word : Word}
    {params : List Word} {body : List Statement} {f : Function}
    (h : checkFunction defined word params body = .ok f) :
    f.params.Nodup := by
  obtain ⟨-, -, h⟩ := checked_bind h
  obtain ⟨names, checked, h⟩ := checked_bind h
  obtain ⟨stmts, -, h⟩ := checked_bind h
  cases h
  exact checkParams_nodup List.nodup_nil checked

theorem checkItems_params {defined : List String} {items : List Item}
    {p : Program} (h : checkItems defined items = .ok p) :
    ∀ f ∈ p.functions, f.params.Nodup := by
  induction items generalizing defined p with
  | nil =>
      cases h
      simp
  | cons item rest ih =>
      cases item with
      | function word params body =>
          obtain ⟨f, checked, h⟩ := checked_bind h
          obtain ⟨q, later, h⟩ := checked_bind h
          cases h
          intro g mem
          rcases List.mem_cons.1 mem with rfl | mem
          · exact checkFunction_params checked
          · exact ih later g mem
      | rule head action =>
          obtain ⟨r, -, h⟩ := checked_bind h
          obtain ⟨q, later, h⟩ := checked_bind h
          cases h
          intro f mem
          exact ih later f mem

end Source

theorem Program.parse_params_nodup {source : String} {nesting : Nat}
    {p : Program} (h : Program.parse source nesting = .ok p) {f : Function}
    (mem : f ∈ p.functions) : f.params.Nodup := by
  unfold Program.parse at h
  dsimp only at h
  split at h
  · contradiction
  · contradiction
  · next items _ _ =>
      cases checked : Source.checkItems [] items with
      | error c =>
          rw [checked] at h
          contradiction
      | ok q =>
          rw [checked] at h
          cases h
          exact Source.checkItems_params checked f mem

end Awk
