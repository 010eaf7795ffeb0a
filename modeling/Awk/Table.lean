/-!
Tables: values by name, in the order in which the names came in.

Storing under a name that is there keeps its place; a name that was removed
comes in last when it is stored again.  The entries are kept with the newest
first, so that a new one is put in front.
-/

namespace Awk

structure Table (α : Type) where
  newest : List (String × α)
  distinct : (newest.map Prod.fst).Nodup
  deriving Repr

namespace Table

variable {α : Type}

def empty : Table α := ⟨[], List.nodup_nil⟩

instance : EmptyCollection (Table α) := ⟨empty⟩

instance : Inhabited (Table α) := ⟨empty⟩

def entries (t : Table α) : List (String × α) := t.newest.reverse

def keys (t : Table α) : List String := t.entries.map Prod.fst

def size (t : Table α) : Nat := t.newest.length

def get? (t : Table α) (key : String) : Option α := t.newest.lookup key

def contains (t : Table α) (key : String) : Bool :=
  t.newest.any fun entry => entry.1 == key

theorem contains_iff (t : Table α) (key : String) :
    t.contains key = true ↔ key ∈ t.newest.map Prod.fst := by
  simp [contains]

/-! ## Changes -/

def replaceEntry (key : String) (value : α) (entry : String × α) : String × α :=
  if entry.1 = key then (entry.1, value) else entry

theorem map_fst_replaceEntry (key : String) (value : α)
    (entries : List (String × α)) :
    (entries.map (replaceEntry key value)).map Prod.fst =
      entries.map Prod.fst := by
  rw [List.map_map]
  apply List.map_congr_left
  intro entry _
  simp only [Function.comp, replaceEntry]
  split <;> rfl

theorem nodup_cons_entry (t : Table α) {key : String} (value : α)
    (fresh : ¬t.contains key = true) :
    (((key, value) :: t.newest).map Prod.fst).Nodup := by
  rw [contains_iff] at fresh
  exact List.nodup_cons.2 ⟨fresh, t.distinct⟩

def insert (t : Table α) (key : String) (value : α) : Table α :=
  if fresh : t.contains key = true then
    ⟨t.newest.map (replaceEntry key value), by
      rw [map_fst_replaceEntry]; exact t.distinct⟩
  else ⟨(key, value) :: t.newest, t.nodup_cons_entry value fresh⟩

def erase (t : Table α) (key : String) : Table α :=
  ⟨t.newest.filter fun entry => entry.1 != key,
   t.distinct.sublist (List.filter_sublist.map Prod.fst)⟩

def ofList (pairs : List (String × α)) : Table α :=
  pairs.foldl (fun t (key, value) => t.insert key value) empty

def set (t : Table α) (key : String) : Option α → Table α
  | some value => t.insert key value
  | none => t.erase key

/-! ## Numbered values -/

def numberedEntries (first : Nat) (values : List α) : List (String × α) :=
  (values.zipIdx first).map fun (value, i) => (Nat.repr i, value)

theorem repr_injective {m n : Nat} (h : m.repr = n.repr) : m = n := by
  rw [Nat.repr_eq_ofList_toDigits, Nat.repr_eq_ofList_toDigits,
    String.ofList_inj] at h
  rw [← @Nat.ofDigitChars_ten_toDigits m, ← @Nat.ofDigitChars_ten_toDigits n, h]

theorem map_fst_numberedEntries (first : Nat) (values : List α) :
    (numberedEntries first values).map Prod.fst =
      (List.range' first values.length).map Nat.repr := by
  rw [numberedEntries, List.map_map, ← List.zipIdx_map_snd first values,
    List.map_map]
  rfl

theorem nodup_map_repr_range' (first n : Nat) :
    ((List.range' first n).map Nat.repr).Nodup := by
  apply List.pairwise_map.2
  have different : (List.range' first n).Nodup := List.nodup_range'
  exact different.imp fun hne same => hne (repr_injective same)

theorem nodup_reverse {keys : List String} (h : keys.Nodup) :
    keys.reverse.Nodup :=
  List.pairwise_reverse.2 (h.imp Ne.symm)

def numbered (values : List α) : Table α :=
  ⟨(numberedEntries 1 values).reverse, by
    rw [List.map_reverse, map_fst_numberedEntries]
    exact nodup_reverse (nodup_map_repr_range' 1 values.length)⟩

end Table

end Awk
