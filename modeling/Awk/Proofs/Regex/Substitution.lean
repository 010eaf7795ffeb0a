import Awk.Proofs.Regex.Width
import Awk.Regex.Substitute
import Mathlib.Data.List.Chain

/-!
# What a replacement replaces

The replacement loop is described by the list of the spans that it replaces.
`Replaced` follows the loop turn by turn without a bound on their number, so
that a list of spans is there only if the loop comes to its end.  Everything
that is said about the new text is then said about the spans: they stand one
behind the other, each of them was found by the search, and the new text is the
old one with the spans rewritten.
-/

namespace Awk.Regex

def Span.next (m : Span) : Nat := if m.start = m.stop then m.start + 1
    else m.stop

/-- The loop that is about to search from `pos` on, where `last` is the end of
the match before, comes to its end and replaces the given spans. -/
inductive Replaced (search : Nat → Option Span) (size : Nat)
    (everywhere : Bool) :
    (pos : Nat) → (last : Option Nat) → List Span → Prop
  | behind {pos : Nat} {last : Option Nat} (behind : size < pos) :
      Replaced search size everywhere pos last []
  | missed {pos : Nat} {last : Option Nat} (inside : pos ≤ size)
      (missed : search pos = none) : Replaced search size everywhere pos last []
  | passed {pos : Nat} {last : Option Nat} {m : Span} {spans : List Span}
      (inside : pos ≤ size) (found : search pos = some m)
      (adjacent : m.start = m.stop ∧ last = some m.start)
      (rest : Replaced search size everywhere (m.start + 1) last spans) :
      Replaced search size everywhere pos last spans
  | once {pos : Nat} {last : Option Nat} {m : Span} (inside : pos ≤ size)
      (found : search pos = some m)
      (apart : ¬(m.start = m.stop ∧ last = some m.start))
      (once : everywhere = false) : Replaced search size everywhere pos last [m]
  | again {pos : Nat} {last : Option Nat} {m : Span} {spans : List Span}
      (inside : pos ≤ size) (found : search pos = some m)
      (apart : ¬(m.start = m.stop ∧ last = some m.start))
      (again : everywhere = true)
      (rest : Replaced search size everywhere m.next (some m.stop) spans) :
      Replaced search size everywhere pos last (m :: spans)

def rewriteFrom (replacement : List Char) (text : Array Char) (pos : Nat) :
    List Span → List Char
  | [] => slice text pos text.size
  | m :: rest =>
      slice text pos m.start ++ fillReplacement (slice text m.start m.stop)
        replacement ++ rewriteFrom replacement text m.stop rest

def Span.Follows (a b : Span) : Prop :=
  a.stop ≤ b.start ∧ ¬(b.start = b.stop ∧ b.start = a.stop)

def InOrder (size : Nat) (pos : Nat) : List Span → Prop
  | [] => True
  | m :: rest =>
      pos ≤ m.start ∧ m.start ≤ m.stop ∧ m.stop ≤ size ∧
        InOrder size m.stop rest

/-- What is asked of a search: what it finds stands in the text and not before
the place where it starts. -/
def SearchesInside (search : Nat → Option Span) (size : Nat) : Prop :=
  ∀ pos m, pos ≤ size → search pos = some m → pos ≤ m.start ∧ m.start ≤ m.stop ∧
    m.stop ≤ size

/-! ## Slices -/

theorem slice_eq (text : Array Char) (start stop : Nat) :
    slice text start stop = (text.toList.drop start).take (stop - start) := by
  rw [slice, Array.toList_extract, List.extract_eq_take_drop]

theorem slice_append_slice (text : Array Char) {a b c : Nat} (low : a ≤ b)
    (high : b ≤ c) :
    slice text a b ++ slice text b c = slice text a c := by
  have between : c - a = (b - a) + (c - b) := by omega
  rw [slice_eq, slice_eq, slice_eq, between, List.take_add, List.drop_drop,
    Nat.add_sub_cancel' low]

theorem slice_behind (text : Array Char) {a : Nat} (behind : text.size ≤ a)
    (b : Nat) : slice text a b = [] := by
  rw [slice_eq, List.drop_eq_nil_of_le (by simpa using behind), List.take_nil]

theorem slice_append_rest (text : Array Char) {a b : Nat} (low : a ≤ b) :
    slice text a b ++ slice text b text.size = slice text a text.size := by
  by_cases inside : b ≤ text.size
  · exact slice_append_slice text low inside
  · have whole : slice text a b = slice text a text.size := by
      rw [slice_eq, slice_eq, List.take_of_length_le (by simp; omega),
        List.take_of_length_le (by simp)]
    rw [whole, slice_behind text (by omega : text.size ≤ b), List.append_nil]

theorem slice_all (text : Array Char) :
    slice text 0 text.size = text.toList := by
  rw [slice_eq, List.drop_zero, Nat.sub_zero, List.take_of_length_le (by simp)]

/-! ## The spans -/

theorem InOrder.mono {size pos pos' : Nat} {spans : List Span}
    (h : InOrder size pos spans) (le : pos' ≤ pos) :
    InOrder size pos' spans := by
  cases spans with
  | nil => trivial
  | cons m rest => exact ⟨le.trans h.1, h.2⟩

theorem Span.start_lt_next {m : Span} (_ : m.start ≤ m.stop) :
    m.start < m.next := by
  unfold next
  split <;> omega

theorem Span.stop_le_next {m : Span} (_ : m.start ≤ m.stop) :
    m.stop ≤ m.next := by
  unfold next
  split <;> omega

namespace Replaced

variable {search : Nat → Option Span} {size pos : Nat} {everywhere : Bool}
    {last : Option Nat} {spans : List Span}

theorem inOrder (h : Replaced search size everywhere pos last spans)
    (inside : SearchesInside search size) :
    InOrder size pos spans := by
  induction h with
  | behind => trivial
  | missed => trivial
  | passed here found _ _ ih =>
      obtain ⟨low, -, -⟩ := inside _ _ here found
      exact ih.mono (by omega)
  | once here found =>
      obtain ⟨low, middle, high⟩ := inside _ _ here found
      exact ⟨low, middle, high, trivial⟩
  | again here found _ _ _ ih =>
      obtain ⟨low, middle, high⟩ := inside _ _ here found
      exact ⟨low, middle, high, ih.mono (Span.stop_le_next middle)⟩

theorem head_apart (h : Replaced search size everywhere pos last spans) :
    ∀ m ∈ spans.head?, ¬(m.start = m.stop ∧ last = some m.start) := by
  induction h with
  | behind => simp
  | missed => simp
  | passed _ _ _ _ ih => exact ih
  | once _ _ apart => simpa using apart
  | again _ _ apart => simpa using apart

theorem isChain (h : Replaced search size everywhere pos last spans)
    (inside : SearchesInside search size) :
    spans.IsChain Span.Follows := by
  induction h with
  | behind => exact .nil
  | missed => exact .nil
  | passed _ _ _ _ ih => exact ih
  | once => exact .singleton _
  | @again _ _ m spans here found _ _ rest ih =>
      refine List.isChain_cons.2 ⟨fun b head => ?_, ih⟩
      have apart := rest.head_apart b head
      have order := rest.inOrder inside
      cases spans with
      | nil => simp at head
      | cons c spans =>
          obtain rfl : c = b := by simpa using head
          have behind := Span.stop_le_next (inside _ _ here found).2.1
          exact ⟨behind.trans order.1, fun h => apart ⟨h.1, by rw [h.2]⟩⟩

theorem found (h : Replaced search size everywhere pos last spans) :
    ∀ m ∈ spans, ∃ pos ≤ size, search pos = some m := by
  induction h with
  | behind => simp
  | missed => simp
  | passed _ _ _ _ ih => exact ih
  | once here found => exact List.forall_mem_singleton.2 ⟨_, here, found⟩
  | again here found _ _ _ ih =>
      exact List.forall_mem_cons.2 ⟨⟨_, here, found⟩, ih⟩

theorem head_eq (h : Replaced search size everywhere pos none spans)
    (inside : pos ≤ size) : spans.head? = search pos := by
  cases h with
  | behind behind => omega
  | missed _ missed => rw [missed, List.head?_nil]
  | passed _ _ adjacent => simp at adjacent
  | once _ found => rw [found, List.head?_cons]
  | again _ found => rw [found, List.head?_cons]

theorem length_le_one (h : Replaced search size everywhere pos last spans)
    (once : everywhere = false) :
    spans.length ≤ 1 := by
  induction h with
  | behind => exact Nat.zero_le 1
  | missed => exact Nat.zero_le 1
  | passed _ _ _ _ ih => exact ih
  | once => exact Nat.le_refl 1
  | again _ _ _ again => simp [once] at again

theorem unique {spans' : List Span}
    (h : Replaced search size everywhere pos last spans)
    (h' : Replaced search size everywhere pos last spans') :
    spans = spans' := by
  induction h generalizing spans' with
  | behind => cases h' <;> grind
  | missed => cases h' <;> grind
  | passed => cases h' <;> grind
  | once => cases h' <;> grind
  | again => cases h' <;> grind

end Replaced

/-! ## The new text -/

theorem slice_append_rewriteFrom (replacement : List Char) (text : Array Char)
    {pos pos' : Nat} {spans : List Span} (order : InOrder text.size pos' spans)
    (le : pos ≤ pos') :
    slice text pos pos' ++ rewriteFrom replacement text pos' spans =
      rewriteFrom replacement text pos spans := by
  cases spans with
  | nil => exact slice_append_rest text le
  | cons m rest =>
      rw [rewriteFrom, rewriteFrom, ← slice_append_slice text le order.1];
        simp only [List.append_assoc]

theorem slice_next (text : Array Char) (m : Span) :
    (if m.start = m.stop then (slice text m.start (m.start + 1), m.start + 1)
      else ([], m.stop)) =
      (slice text m.stop m.next, m.next) := by
  unfold Span.next
  split
  · rename_i empty
    rw [← empty]
  · rw [slice_eq, Nat.sub_self, List.take_zero]

/-- With enough turns the loop comes to its end. -/
theorem substituteFrom_replaced {search : Nat → Option Span}
    (replacement : List Char) {text : Array Char} (everywhere : Bool)
    (inside : SearchesInside search text.size) {fuel pos : Nat}
    (last : Option Nat) (enough : text.size + 2 ≤ fuel + pos) :
    ∃ spans, Replaced search text.size everywhere pos last spans ∧
      substituteFrom search replacement text everywhere fuel pos last =
        (rewriteFrom replacement text pos spans, spans.length) := by
  induction fuel generalizing pos last with
  | zero => exact ⟨[], .behind (by omega), rfl⟩
  | succ fuel ih =>
      rw [substituteFrom]
      split
      · rename_i behind
        exact ⟨[],
          .behind behind, by
            rw [rewriteFrom, slice_behind text (by omega)]; rfl⟩
      · rename_i here
        split
        · rename_i missed
          exact ⟨[], .missed (by omega) missed, rfl⟩
        · rename_i m found
          obtain ⟨low, middle, high⟩ := inside pos m (by omega) found
          split
          · rename_i adjacent
            obtain ⟨spans, rest, same⟩ := @ih (m.start + 1) last (by omega)
            refine ⟨spans, .passed (by omega) found adjacent rest, ?_⟩
            rw [same, ← slice_append_rewriteFrom replacement text
              (rest.inOrder inside) (by omega : pos ≤ m.start + 1)]
          · rename_i apart
            have behind := Span.stop_le_next middle
            have further := Span.start_lt_next middle
            rw [slice_next]
            cases everywhere with
            | false =>
                refine ⟨[m], .once (by omega) found apart rfl, ?_⟩
                simp [rewriteFrom, slice_append_rest text behind]
            | true =>
                obtain ⟨spans, rest, same⟩ :=
                  @ih m.next (some m.stop) (by omega)
                refine ⟨m :: spans, .again (by omega) found apart rfl rest, ?_⟩
                have kept :=
                  slice_append_rewriteFrom replacement text
                    (rest.inOrder inside) behind
                simp [same, rewriteFrom, ← kept]

theorem substitute_replaced {search : Nat → Option Span}
    (replacement : List Char) {text : Array Char} (everywhere : Bool)
    (inside : SearchesInside search text.size) :
    ∃ spans, Replaced search text.size everywhere 0 none spans ∧
      substitute search replacement text everywhere =
        (rewriteFrom replacement text 0 spans, spans.length) :=
  substituteFrom_replaced replacement everywhere inside none
    (Nat.le_add_right (text.size + 2) 0)

theorem rewriteFrom_ampersand (text : Array Char) {pos : Nat}
    {spans : List Span} (order : InOrder text.size pos spans) :
    rewriteFrom ['&'] text pos spans = slice text pos text.size := by
  induction spans generalizing pos with
  | nil => rfl
  | cons m rest ih =>
      obtain ⟨low, middle, high, behind⟩ := order
      have same : fillReplacement (slice text m.start m.stop) ['&'] =
          slice text m.start m.stop := by
        simp [fillReplacement]
      rw [rewriteFrom, same, ih behind, slice_append_slice text low middle,
        slice_append_slice text (low.trans middle) high]

/-! ## Patterns -/

theorem Pattern.matchAt?_start {p : Pattern} {text : Array Char} {pos : Nat}
    {mustMove : Bool} {m : Match}
    (matched : p.matchAt? text pos mustMove = some m) :
    m.whole.start = pos := by
  obtain ⟨r, -, rfl⟩ := Option.map_eq_some_iff.1 matched
  rfl

theorem Pattern.searchUpTo_whole {p : Pattern} {text : Array Char} {n pos : Nat}
    {mustMove : Bool} {m : Match}
    (found : p.searchUpTo text n pos mustMove = some m)
    (inside : pos + n ≤ text.size + 1) :
    pos ≤ m.whole.start ∧ m.whole.start ≤ m.whole.stop ∧
    m.whole.stop ≤ text.size := by
  induction n generalizing pos mustMove with
  | zero => contradiction
  | succ n ih =>
      rw [searchUpTo] at found
      split at found
      · rename_i m' here
        cases found
        obtain ⟨further, high⟩ := matchAt?_stop here (by omega)
        rw [matchAt?_start here]
        exact ⟨Nat.le_refl pos, by omega, high⟩
      · obtain ⟨low, rest⟩ := ih found (by omega)
        exact ⟨by omega, rest⟩

def Pattern.searchSpan (p : Pattern) (text : Array Char) (pos : Nat) :
    Option Span := (p.search? text pos).map Match.whole

theorem Pattern.searchSpan_inside (p : Pattern) (text : Array Char) :
    SearchesInside (p.searchSpan text) text.size := by
  intro pos whole here found
  obtain ⟨m, searched, rfl⟩ := Option.map_eq_some_iff.1 found
  exact searchUpTo_whole searched (by omega)

/-! ## All together -/

/-- Replacing terminates and replaces spans of the text that the search found,
each one behind the one before and none of them empty right behind it;
everything else is kept in its place.  The first span is the first one found,
and there is no second one unless all are to be replaced.  An ampersand as the
replacement changes nothing. -/
theorem substitute_replaces_found_spans (search : Nat → Option Span)
    (replacement : List Char) (text : Array Char) (everywhere : Bool)
    (inside : ∀ pos m, pos ≤ text.size → search pos = some m → pos ≤ m.start ∧
      m.start ≤ m.stop ∧ m.stop ≤ text.size) :
    (∃ spans : List Span,
      Replaced search text.size everywhere 0 none spans ∧
      (∀ m ∈ spans, m.start ≤ m.stop ∧ m.stop ≤ text.size ∧
        ∃ pos ≤ text.size, search pos = some m) ∧
      spans.IsChain (fun a b => a.stop ≤ b.start ∧
        ¬(b.start = b.stop ∧ b.start = a.stop)) ∧
      substitute search replacement text everywhere =
        (rewriteFrom replacement text 0 spans, spans.length) ∧
      (everywhere = false → spans.length ≤ 1) ∧
      (spans = [] ↔ search 0 = none) ∧
      spans.head? = search 0) ∧
    (substitute search ['&'] text everywhere).1 = text.toList := by
  constructor
  · obtain ⟨spans, replaced, same⟩ :=
      substitute_replaced replacement everywhere inside
    have first := replaced.head_eq (Nat.zero_le text.size)
    refine ⟨spans, replaced, ?_, replaced.isChain inside, same,
      replaced.length_le_one, ?_, first⟩
    · intro m member
      obtain ⟨pos, here, found⟩ := replaced.found m member
      obtain ⟨-, middle, high⟩ := inside pos m here found
      exact ⟨middle, high, pos, here, found⟩
    · rw [← first, List.head?_eq_none_iff]
  · obtain ⟨spans, replaced, same⟩ :=
      substitute_replaced ['&'] everywhere inside
    rw [same, rewriteFrom_ampersand text (replaced.inOrder inside), slice_all]

def Pattern.runsOf (c : Char) : Pattern :=
  ⟨.repeat .greedy 0 none (.chars (.single c.toNat .exact false)), 0⟩

theorem runs_replaced_once_each :
    substitute ((Pattern.runsOf 'x').searchSpan #['a', 'x', 'x', 'b'])
      ['-'] #['a', 'x', 'x', 'b'] true =
        (['-', 'a', '-', 'b', '-'], 3) ∧
      ∃ spans : List Span, spans.length = 3 ∧ spans.head? = some ⟨0, 0⟩ ∧
        spans.IsChain (fun a b => a.stop ≤ b.start ∧
          ¬(b.start = b.stop ∧ b.start = a.stop)) ∧
        rewriteFrom ['-'] #['a', 'x', 'x', 'b'] 0 spans =
          ['-', 'a', '-', 'b', '-'] := by
  have result : substitute ((Pattern.runsOf 'x').searchSpan #['a', 'x', 'x',
      'b']) ['-'] #['a', 'x', 'x', 'b'] true = (['-', 'a', '-', 'b', '-'],
      3) := by decide
  obtain ⟨⟨spans, -, -, chain, same, -, -, first⟩, -⟩ :=
    substitute_replaces_found_spans _ ['-'] #['a', 'x', 'x',
      'b'] true ((Pattern.runsOf 'x').searchSpan_inside #['a', 'x', 'x', 'b'])
  obtain ⟨text, count⟩ := Prod.mk.inj (same.symm.trans result)
  exact ⟨result, spans, count, first.trans (by decide), chain, text⟩

end Awk.Regex
