import Awk.Proofs.Source.Outcome

/-!
# Operators that exclude each other

Behind an operand the levels of the grammar look for their operators, the
tightest first.  No two operators of different levels can be at the front of the
same text, because of what they are spelled with and what may not follow them,
and where an operand is juxtaposed no operator is.  So at most one level goes on
behind a text.
-/

namespace Awk.Source

variable {α β : Type} {c : Char} {cs : List Char}

/-! ## Operators that exclude each other -/

def textsClash (notBefore notBefore' : List Char) : List Char → List Char → Bool
  | [], [] => false
  | [], c :: _ => notBefore.contains c
  | c :: _, [] => notBefore'.contains c
  | c :: front, c' :: front' =>
      c != c' || textsClash notBefore notBefore' front front'

def Operator.clashes (op : Operator α) (op' : Operator β) : Bool :=
  textsClash op.notBefore op'.notBefore op.text.toList op'.text.toList

def apart (ops : List (Operator α)) (ops' : List (Operator β)) : Bool :=
  ops.all fun op => ops'.all fun op' => op.clashes op'

theorem Operator.scan_isSome {op : Operator α}
    (h : (op.scan cs).isSome = true) :
    ∃ rest, cs = op.text.toList ++ rest ∧ ∀ c ∈ rest.head?,
    op.notBefore.contains c = false := by
  unfold Operator.scan at h
  split at h
  · rename_i rest dropped
    refine ⟨rest, dropFront?_eq_some dropped, fun c leads => ?_⟩
    split at h
    · rename_i c' leads'
      cases leads'.symm.trans leads
      by_contra inside
      rw [if_pos (by simpa using inside)] at h
      contradiction
    · rename_i nothing
      rw [nothing] at leads
      contradiction
  · contradiction

theorem textsClash_absurd
    {notBefore notBefore' front front' rest rest' : List Char}
    (clash : textsClash notBefore notBefore' front front' = true)
    (same : front ++ rest = front' ++ rest')
    (free : ∀ c ∈ rest.head?, notBefore.contains c = false)
    (free' : ∀ c ∈ rest'.head?, notBefore'.contains c = false) : False := by
  induction front generalizing front' with
  | nil =>
      cases front' with
      | nil => contradiction
      | cons c front' =>
          have inside := free c (by rw [← List.nil_append rest, same]; rfl)
          exact Bool.false_ne_true (inside.symm.trans clash)
  | cons c front ih =>
      cases front' with
      | nil =>
          have inside := free' c (by rw [← List.nil_append rest', ← same]; rfl)
          exact Bool.false_ne_true (inside.symm.trans clash)
      | cons c' front' =>
          obtain ⟨rfl, behind⟩ := List.cons.inj same
          exact ih (by simpa [textsClash] using clash) behind

theorem any_scan_of_apart {ops : List (Operator α)} {ops' : List (Operator β)}
    (h : apart ops ops' = true)
    (there : ops.any (fun op => (op.scan cs).isSome) = true) :
    ops'.any (fun op => (op.scan cs).isSome) = false := by
  obtain ⟨op, inside, there⟩ := List.any_eq_true.1 there
  refine List.any_eq_false.2 fun op' inside' there' => ?_
  have clash := List.all_eq_true.1 (List.all_eq_true.1 h op inside) op' inside'
  obtain ⟨rest, front, free⟩ := op.scan_isSome there
  obtain ⟨rest', front', free'⟩ := op'.scan_isSome there'
  exact textsClash_absurd clash (front.symm.trans front') free free'

def tailOps : Nat → List (Operator Unit)
  | 0 => powerOps.map fun op => ⟨op.text, op.notBefore, ()⟩
  | 1 => mulOps.map fun op => ⟨op.text, op.notBefore, ()⟩
  | 2 => addOps.map fun op => ⟨op.text, op.notBefore, ()⟩
  | 3 => []
  | 4 =>
      ⟨"|", ['|'], ()⟩ :: (compareOps true).map fun op =>
        ⟨op.text, op.notBefore, ()⟩
  | 5 => matchOps.map fun op => ⟨op.text, op.notBefore, ()⟩
  | 6 => []
  | 7 => [⟨"&&", [], ()⟩]
  | 8 => [⟨"||", [], ()⟩]
  | _ =>
      (assignOps.map fun op => ⟨op.text, op.notBefore, ()⟩) ++ [⟨"?", [], ()⟩]

theorem tailOps_apart : ∀ k < 10, ∀ j < 10, j ≠ k →
    apart (tailOps k) (tailOps j) = true := by decide +kernel

theorem goesOn_eq {k : Nat} (concat : k ≠ 3) (member : k ≠ 6) (cs : List Char) :
    goesOn k cs = (tailOps k).any fun op => (op.scan cs).isSome := by
  unfold goesOn tailOps
  split <;> simp_all [List.any_map, Function.comp_def, Operator.scan]

theorem scanWord_isSome {words : List String}
    (h : (scanWord words cs).isSome = true) :
    ∃ word ∈ words, (∃ rest, cs = word.toList ++ rest) ∧
    wordRun cs = word.toList ∧ endsWord cs = true := by
  unfold scanWord at h
  dsimp only at h
  split at h
  · rename_i among
    rw [Bool.and_eq_true, List.contains_iff_mem] at among
    refine ⟨_, among.1, ⟨cs.dropWhile Text.isAsciiWord, ?_⟩, ?_, among.2⟩
    · rw [String.toList_ofList, wordRun, List.takeWhile_append_dropWhile]
    · rw [String.toList_ofList]
  · contradiction

theorem goesOn_concat (h : goesOn 3 cs = true) :
    ∃ c r, cs = c :: r ∧ opensExpr c = true ∧
      (c ∉ ['+', '-', '!', '/'] ∨
        stepOps.any (fun op => (op.scan cs).isSome) = true) := by
  cases cs with
  | nil => contradiction
  | cons c r =>
      simp only [goesOn, Bool.and_eq_true, Bool.not_eq_true', List.head?_cons,
        Option.any_some] at h
      refine ⟨c, r, rfl, h.2, ?_⟩
      have free := h.1
      simp only [startsOperator, Bool.or_eq_false_iff] at free
      have absent := List.any_eq_false.1 free.1
      by_cases sign : c ∈ ['+', '-', '!', '/']
      · right
        simp only [List.mem_cons, List.not_mem_nil, or_false] at sign
        rcases sign with rfl | rfl | rfl | rfl <;> cases r <;>
          simp_all [leadingOps, stepOps, Operator.scan, Text.dropFront?]
        all_goals split <;> rfl
      · exact .inl sign

def mayGoOn : Nat → Char → Bool
  | 3, c => opensExpr c
  | 6, c => c == 'i'
  | k, c => !startOtherwise (tailOps k) c

theorem any_scan_of_head {ops : List (Operator α)}
    (other : startOtherwise ops c = true) (r : List Char) :
    ops.any (fun op => (op.scan (c :: r)).isSome) = false := by
  refine List.any_eq_false.2 fun op inside there => ?_
  obtain ⟨rest, front⟩ := op.scan_front there
  have start := List.all_eq_true.1 other op inside
  cases text : op.text.toList with
  | nil =>
      rw [text] at start
      contradiction
  | cons f front' =>
      rw [text] at start front
      obtain ⟨rfl, -⟩ := List.cons.inj front
      simp at start

theorem goesOn_head {k : Nat} {r : List Char} (h : goesOn k (c :: r) = true) :
    mayGoOn k c = true := by
  by_cases concat : k = 3
  · subst concat
    simp only [goesOn, Bool.and_eq_true] at h
    exact h.2
  by_cases member : k = 6
  · subst member
    obtain ⟨word, inside, ⟨rest, front⟩, -⟩ := scanWord_isSome h
    rw [List.mem_singleton] at inside
    subst inside
    obtain ⟨rfl, -⟩ := List.cons.inj front
    rfl
  · rw [goesOn_eq concat member] at h
    have may : mayGoOn k c = !startOtherwise (tailOps k) c := by
      unfold mayGoOn
      split <;> simp_all
    rw [may, Bool.not_eq_true']
    by_contra other
    rw [Bool.not_eq_false] at other
    rw [any_scan_of_head other] at h
    contradiction

theorem mayGoOn_member : ∀ j < 10, j ≠ 3 → j ≠ 6 → mayGoOn j 'i' = false := by
  decide +kernel

theorem goesOn_member {j : Nat} (h : goesOn 6 cs = true) (le : j < 10)
    (concat : j ≠ 3) (member : j ≠ 6) : goesOn j cs = false := by
  by_contra there
  rw [Bool.not_eq_false] at there
  obtain ⟨word, inside, ⟨rest, rfl⟩, -⟩ := scanWord_isSome h
  rw [List.mem_singleton] at inside
  subst inside
  exact Bool.false_ne_true ((mayGoOn_member j le concat member).symm.trans
    (goesOn_head there))

theorem tailOps_plain : ∀ k < 10, ∀ op ∈ tailOps k,
    (op.text.toList.head?.any fun c => !opensExpr c ||
      ['+', '-', '!', '/'].contains c) = true := by
  decide +kernel

theorem stepOps_apart : ∀ k < 10, apart stepOps (tailOps k) = true := by
  decide +kernel

theorem goesOn_concat_apart {k : Nat} (h : goesOn 3 cs = true) (le : k < 10)
    (concat : k ≠ 3) : goesOn k cs = false := by
  by_cases member : k = 6
  · subst member
    by_contra there
    rw [Bool.not_eq_false] at there
    have starts : startsOperator cs = true := by
      obtain ⟨word, inside, -, run, ends⟩ := scanWord_isSome there
      rw [List.mem_singleton] at inside
      subst inside
      simp [startsOperator, scanWord, run, ends]
    simp [goesOn, starts] at h
  · rw [goesOn_eq concat member]
    obtain ⟨c, r, rfl, opens, plain | step⟩ := goesOn_concat h
    · refine any_scan_of_head (List.all_eq_true.2 fun op inside => ?_) r
      have known := tailOps_plain k le op inside
      cases text : op.text.toList with
      | nil =>
          rw [text] at known
          contradiction
      | cons f front =>
          rw [text] at known
          simp only [List.head?_cons, Option.any_some, bne_iff_ne] at known ⊢
          rintro rfl
          rw [opens] at known
          exact plain (by simpa using known)
    · exact any_scan_of_apart (stepOps_apart k le) step

/-- At most one level goes on behind a text. -/
theorem goesOn_unique {j k : Nat} (hj : j < 10) (hk : k < 10)
    (there : goesOn k cs = true) (other : j ≠ k) :
    goesOn j cs = false := by
  by_contra also
  rw [Bool.not_eq_false] at also
  by_cases concat : k = 3
  · subst concat
    exact Bool.false_ne_true ((goesOn_concat_apart there hj other).symm.trans
      also)
  by_cases concat' : j = 3
  · subst concat'
    exact Bool.false_ne_true ((goesOn_concat_apart also hk concat).symm.trans
      there)
  by_cases member : k = 6
  · subst member
    exact Bool.false_ne_true ((goesOn_member there hj concat' other).symm.trans
      also)
  by_cases member' : j = 6
  · subst member'
    exact Bool.false_ne_true ((goesOn_member also hk concat member).symm.trans
      there)
  · rw [goesOn_eq concat member] at there
    rw [goesOn_eq concat' member'] at also
    exact Bool.false_ne_true
      ((any_scan_of_apart (tailOps_apart k hk j hj other) there).symm.trans
        also)

end Awk.Source
