import Awk.Table

/-!
# Looking up what was stored

A table is determined, as far as looking up goes, by `get?`: storing changes the
value of one name, removing takes one name away, and a name is there exactly if
it has a value.
-/

namespace Awk.Table

variable {α : Type}

theorem lookup_entry (key name : String) (value : α)
    (rest : List (String × α)) :
    ((key, value) :: rest).lookup name = if name = key then some value
    else rest.lookup name := by
  rw [List.lookup_cons]
  by_cases same : name = key
  · simp [same]
  · have differs : (name == key) = false := by simpa using same
    simp [same, differs]

theorem lookup_map_replaceEntry (key name : String) (value : α)
    (entries : List (String × α)) :
    (entries.map (replaceEntry key value)).lookup name =
      (entries.lookup name).map fun old => if name = key then value
      else old := by
  induction entries with
  | nil => rfl
  | cons entry rest ih =>
      obtain ⟨k, old⟩ := entry
      have replaced : replaceEntry key value (k, old) =
          (k, if k = key then value else old) := by
        unfold replaceEntry
        split <;> rfl
      rw [List.map_cons, replaced, lookup_entry, lookup_entry, ih]
      by_cases here : name = k
      · simp [here]
      · simp [here]

theorem lookup_filter_ne (key name : String) (entries : List (String × α)) :
    (entries.filter fun entry => entry.1 != key).lookup name =
      if name = key then none else entries.lookup name := by
  induction entries with
  | nil => simp
  | cons entry rest ih =>
      obtain ⟨k, old⟩ := entry
      by_cases removed : k = key
      · rw [List.filter_cons_of_neg (by simp [removed]), ih, lookup_entry,
          removed]
        split <;> rfl
      · rw [List.filter_cons_of_pos (by simp [removed]), lookup_entry,
          lookup_entry, ih]
        by_cases here : name = k
        · simp [here, removed]
        · simp [here]

theorem contains_eq_isSome (t : Table α) (name : String) :
    t.contains name = (t.get? name).isSome := by
  unfold contains get?
  induction t.newest with
  | nil => rfl
  | cons entry rest ih =>
      obtain ⟨k, value⟩ := entry
      rw [List.any_cons, ih, lookup_entry]
      by_cases here : name = k
      · simp [here]
      · have differs : ¬k = name := fun same => here same.symm
        simp [here, differs]

@[simp]
theorem get?_insert (t : Table α) (key : String) (value : α) (name : String) :
    (t.insert key value).get? name = if name = key then some value
    else t.get? name := by
  by_cases present : t.contains key = true
  · have stored : (t.insert key value).newest =
        t.newest.map (replaceEntry key value) := by
      rw [insert, dif_pos present]
    unfold get?
    rw [stored, lookup_map_replaceEntry]
    by_cases same : name = key
    · subst same
      rw [contains_eq_isSome] at present
      obtain ⟨old, found⟩ := Option.isSome_iff_exists.1 present
      unfold get? at found
      simp [found]
    · simp [same]
  · have stored : (t.insert key value).newest = (key, value) :: t.newest := by
      rw [insert, dif_neg present]
    unfold get?
    rw [stored, lookup_entry]

@[simp]
theorem get?_erase (t : Table α) (key name : String) :
    (t.erase key).get? name = if name = key then none else t.get? name :=
  lookup_filter_ne key name t.newest

theorem get?_eq_some_iff (t : Table α) (name : String) (value : α) :
    t.get? name = some value ↔ (name, value) ∈ t.newest := by
  rw [get?, List.lookup_eq_some_iff]
  constructor
  · rintro ⟨newer, older, parted, -⟩
    rw [parted]
    exact List.mem_append_right _ List.mem_cons_self
  · intro stored
    obtain ⟨newer, older, parted⟩ := List.append_of_mem stored
    refine ⟨newer, older, parted, ?_⟩
    have distinct := t.distinct
    rw [parted, List.map_append, List.nodup_append] at distinct
    intro entry among
    have apart : entry.1 ≠ name :=
      distinct.2.2 entry.1 (List.mem_map_of_mem among) name (by simp)
    simpa using apart.symm

theorem nodup_keys (t : Table α) : t.keys.Nodup := by
  rw [keys, entries, List.map_reverse]
  exact nodup_reverse t.distinct

/-! ## Lists of pairs -/

theorem get?_foldl_insert {key : String} {pairs : List (String × α)}
    (other : ∀ pair ∈ pairs, pair.1 ≠ key) (t : Table α) :
    (pairs.foldl (fun t (name, value) => t.insert name value) t).get? key =
      t.get? key := by
  induction pairs generalizing t with
  | nil => rfl
  | cons pair pairs ih =>
      simp only [List.forall_mem_cons] at other
      rw [List.foldl_cons, ih other.2, get?_insert, if_neg (Ne.symm other.1)]

theorem get?_ofList (before : List (String × α)) {key : String} (value : α)
    {after : List (String × α)} (last : ∀ pair ∈ after, pair.1 ≠ key) :
    (ofList (before ++ (key, value) :: after)).get? key = some value := by
  simp [ofList, List.foldl_append, get?_foldl_insert last]

/-! ## Numbered values -/

theorem keys_numbered (values : List α) :
    (numbered values).keys = (List.range' 1 values.length).map Nat.repr := by
  rw [keys, entries, numbered, List.reverse_reverse, map_fst_numberedEntries]

theorem get?_numbered {values : List α} {i : Nat} {value : α}
    (here : values[i]? = some value) :
    (numbered values).get? (Nat.repr (i + 1)) = some value := by
  rw [get?_eq_some_iff, numbered, List.mem_reverse, numberedEntries,
    List.mem_map]
  refine ⟨(value, i + 1), ?_, rfl⟩
  rw [Nat.add_comm]
  exact List.mk_add_mem_zipIdx_iff_getElem?.2 here

end Awk.Table
