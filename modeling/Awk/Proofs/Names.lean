import Awk.Evaluator.Call
import Awk.Proofs.Table
import Mathlib.Logic.Basic

/-!
# What names stand for

A slot is what both tables hold for a name, and `setSlot` changes it for one
name.  A slot that is proper holds a scalar or an array or neither, but never
both; those that bindings fill are, and those saved from tables where no name is
a scalar and an array at once.
-/

namespace Awk

def Slot.Proper (s : Slot) : Prop := s.scalar = none ∨ s.array = none

theorem Binding.proper_slot (b : Binding) : b.slot.Proper := by
  cases b with
  | scalar v => exact .inr rfl
  | array id => exact .inl rfl

theorem Table.get?_set {α : Type} (t : Table α) (key : String)
    (value : Option α) (name : String) :
    (t.set key value).get? name = if name = key then value
    else t.get? name := by
  cases value <;> simp [Table.set]

namespace Names

variable {n : Names}

/-! ## Filling slots -/

theorem slot_setSlot (n : Names) (name : String) (s : Slot) (other : String) :
    (n.setSlot name s).slot other = if other = name then s
    else n.slot other := by
  by_cases same : other = name <;> simp [slot, setSlot, Table.get?_set, same]

theorem slot_setAll_of_not_mem (slots : List (String × Slot)) {name : String}
    (h : name ∉ slots.map Prod.fst) :
    (n.setAll slots).slot name = n.slot name := by
  induction slots generalizing n with
  | nil => rfl
  | cons first rest ih =>
      simp only [List.map_cons, List.mem_cons, not_or] at h
      have others : ((n.setSlot first.1 first.2).setAll rest).slot name =
          (n.setSlot first.1 first.2).slot name := ih h.2
      rw [slot_setSlot, if_neg h.1] at others
      exact others

theorem slot_setAll_of_mem {slots : List (String × Slot)}
    (distinct : (slots.map Prod.fst).Nodup) {name : String} {s : Slot}
    (h : (name, s) ∈ slots) : (n.setAll slots).slot name = s := by
  induction slots generalizing n with
  | nil => contradiction
  | cons first rest ih =>
      obtain ⟨fresh, distinct⟩ := List.nodup_cons.1 distinct
      rcases List.mem_cons.1 h with rfl | later
      · have kept : ((n.setSlot name s).setAll rest).slot name =
            (n.setSlot name s).slot name := slot_setAll_of_not_mem rest fresh
        rw [slot_setSlot, if_pos rfl] at kept
        exact kept
      · exact ih distinct later

theorem slot_setAll_save (n saved : Names) (params : List String) (x : String) :
    (n.setAll (saved.save params)).slot x =
      if x ∈ params then saved.slot x else n.slot x := by
  induction params generalizing n with
  | nil => simp [save, setAll]
  | cons first rest ih =>
      have step := ih (n.setSlot first (saved.slot first))
      rw [slot_setSlot] at step
      by_cases same : x = first
      · subst same
        simpa [save, setAll] using step
      · simpa [save, setAll, same] using step

/-- What is saved of some names goes back to these names and to no other. -/
theorem slot_restore (n saved : Names) (params : List String) (x : String) :
    (n.setAll (saved.save params).reverse).slot x =
      if x ∈ params then saved.slot x else n.slot x := by
  have backwards : (saved.save params).reverse = saved.save params.reverse :=
    List.map_reverse.symm
  simp [backwards, slot_setAll_save]

theorem slot_newArray (n : Names) (name other : String) :
    (n.newArray name).1.slot other =
      if other = name then (Binding.array n.store.size).slot
      else n.slot other :=
  n.slot_setSlot name (Binding.array n.store.size).slot other

/-! ## Scalars and arrays -/

def Exclusive (n : Names) : Prop :=
  ∀ name, ¬(n.scalars.contains name = true ∧ n.arrays.contains name = true)

theorem exclusive_iff : n.Exclusive ↔ ∀ name, (n.slot name).Proper := by
  unfold Exclusive Slot.Proper slot
  simp only [Table.contains_eq_isSome, not_and_or,
    Option.not_isSome_iff_eq_none]

theorem Exclusive.insert_scalar (h : n.Exclusive) {name : String} (v : Value)
    (free : n.arrays.contains name = false) :
    { n with scalars := n.scalars.insert name v }.Exclusive := by
  rw [exclusive_iff] at *
  intro other
  by_cases same : other = name
  · subst same
    rw [Table.contains_eq_isSome, Option.isSome_eq_false_iff,
      Option.isNone_iff_eq_none] at free
    exact .inr free
  · simpa [slot, Slot.Proper, same] using h other

theorem Exclusive.setSlot (h : n.Exclusive) (name : String) {s : Slot}
    (proper : s.Proper) : (n.setSlot name s).Exclusive := by
  rw [exclusive_iff] at *
  intro other
  rw [slot_setSlot]
  split
  · exact proper
  · exact h other

theorem Exclusive.setAll (h : n.Exclusive) {slots : List (String × Slot)}
    (proper : ∀ entry ∈ slots, entry.2.Proper) :
    (n.setAll slots).Exclusive := by
  induction slots generalizing n with
  | nil => exact h
  | cons first rest ih =>
      simp only [List.forall_mem_cons] at proper
      exact ih (h.setSlot first.1 proper.1) proper.2

theorem Exclusive.restore {saved : Names} (h : n.Exclusive)
    (before : saved.Exclusive) (params : List String) :
    (n.setAll (saved.save params).reverse).Exclusive := by
  apply h.setAll
  intro entry saved_entry
  obtain ⟨p, -, rfl⟩ := List.mem_map.1 (List.mem_reverse.1 saved_entry)
  exact exclusive_iff.1 before p

theorem Exclusive.newArray (h : n.Exclusive) (name : String) :
    (n.newArray name).1.Exclusive :=
  h.setSlot name (Binding.array n.store.size).proper_slot

end Names

end Awk
