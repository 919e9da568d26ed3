/-
Sorting by a comparison that need not be an order.

Addresses are sorted, and one that is not a number is neither below nor above
any other. So the result depends on which pairs are compared, and the way a
list is sorted is part of what sorting means here. A short list keeps its
leading run, turned round if it falls, and every later element is put in by
halving what is sorted already. A long list is sorted by merging. For an order
both give the one stable arrangement. `sort_perm` says that nothing is lost.
-/

set_option autoImplicit false

namespace Stepwise.Sorting

variable {α : Type} (less : α → α → Bool)

/-- Splits off the run that follows an element: in one that falls each element is below the one
before it, in any other none is. -/
def splitRun (falling : Bool) (last : α) : List α → List α × List α
  | [] => ([], [])
  | x :: rest =>
    if less x last == falling then
      let (run, rest) := splitRun falling x rest
      (x :: run, rest)
    else ([], x :: rest)

/-- The leading run, turned round if it falls, and what follows it. -/
def leadingRun : List α → List α × List α
  | a :: b :: rest =>
    let falling := less b a
    let (run, after) := splitRun less falling b rest
    (if falling then (a :: b :: run).reverse else a :: b :: run, after)
  | l => (l, [])

/-- Puts an element into a sorted list, halving the list until its place is found. -/
def insertByHalves (x : α) (l : List α) : List α :=
  match _middle : l.drop (l.length / 2) with
  | [] => [x]
  | p :: above =>
    if less x p then insertByHalves x (l.take (l.length / 2)) ++ p :: above
    else l.take (l.length / 2) ++ p :: insertByHalves x above
termination_by l.length
decreasing_by
  · have := congrArg List.length _middle
    simp at this ⊢
    omega
  · have := congrArg List.length _middle
    simp at this
    omega

/-- The first length that counts as long. -/
def longLength : Nat := 64

/-- The elements in order. -/
def sort (l : List α) : List α :=
  if l.length < longLength then
    let (run, after) := leadingRun less l
    after.foldl (fun sorted x => insertByHalves less x sorted) run
  else l.mergeSort fun a b => !less b a

/-! ## Nothing is lost -/

theorem splitRun_append (falling : Bool) (last : α) (l : List α) :
    (splitRun less falling last l).1 ++ (splitRun less falling last l).2 = l := by
  induction l generalizing last with
  | nil => rfl
  | cons x rest ih =>
    unfold splitRun
    split
    · simpa using ih x
    · rfl

theorem leadingRun_perm (l : List α) :
    ((leadingRun less l).1 ++ (leadingRun less l).2).Perm l := by
  unfold leadingRun
  split
  · rename_i a b rest
    have h := splitRun_append less (less b a) b rest
    dsimp only
    split
    · have hrev := (List.reverse_perm (a :: b :: (splitRun less (less b a) b rest).1)).append_right
        (splitRun less (less b a) b rest).2
      simpa [h] using hrev
    · simp [h]
  · simp

theorem insertByHalves_perm (x : α) (l : List α) : (insertByHalves less x l).Perm (x :: l) := by
  fun_induction insertByHalves less x l with
  | case1 l h =>
    have : l = [] := by
      have := congrArg List.length h
      simp at this
      exact List.eq_nil_of_length_eq_zero (by omega)
    simp [this]
  | case2 l p above h _ ih =>
    have hl := List.take_append_drop (l.length / 2) l
    rw [h] at hl
    conv => rhs; rw [← hl]
    exact ih.append_right (p :: above)
  | case3 l p above h _ ih =>
    have hl := List.take_append_drop (l.length / 2) l
    rw [h] at hl
    conv => rhs; rw [← hl]
    exact ((ih.cons p).append_left _).trans
      (((List.Perm.swap x p above).append_left _).trans List.perm_middle)

theorem sort_perm (l : List α) : (sort less l).Perm l := by
  unfold sort
  split
  · have key : ∀ after run : List α,
        (after.foldl (fun sorted x => insertByHalves less x sorted) run).Perm (run ++ after) := by
      intro after
      induction after with
      | nil => simp
      | cons x rest ih =>
        intro run
        refine (ih (insertByHalves less x run)).trans ?_
        exact ((insertByHalves_perm less x run).append_right rest).trans List.perm_middle.symm
    exact (key _ _).trans (leadingRun_perm less l)
  · exact List.mergeSort_perm l _

/-! ## Elements that are compared alike -/

section Map

variable {β : Type} {less} {below : β → β → Bool} {f : β → α}

theorem splitRun_map (h : ∀ a b, less (f a) (f b) = below a b) (falling : Bool) (last : β)
    (l : List β) :
    splitRun less falling (f last) (l.map f) =
      ((splitRun below falling last l).1.map f, (splitRun below falling last l).2.map f) := by
  induction l generalizing last with
  | nil => rfl
  | cons x rest ih =>
    rw [List.map_cons, splitRun, splitRun, h]
    split
    · rw [ih]
      rfl
    · rfl

theorem leadingRun_map (h : ∀ a b, less (f a) (f b) = below a b) (l : List β) :
    leadingRun less (l.map f) =
      ((leadingRun below l).1.map f, (leadingRun below l).2.map f) := by
  match l with
  | [] => rfl
  | [a] => rfl
  | a :: b :: rest =>
    rw [List.map_cons, List.map_cons, leadingRun, leadingRun, h]
    dsimp only
    rw [splitRun_map h]
    split
    · simp
    · simp

theorem insertByHalves_map (h : ∀ a b, less (f a) (f b) = below a b) (x : β) (l : List β) :
    insertByHalves less (f x) (l.map f) = (insertByHalves below x l).map f := by
  fun_induction insertByHalves below x l with
  | case1 l hmiddle =>
    rw [insertByHalves, List.length_map, ← List.map_drop, hmiddle]
    rfl
  | case2 l p above hmiddle hx ih =>
    rw [insertByHalves, List.length_map, ← List.map_drop, hmiddle, ← List.map_take]
    show (if less (f x) (f p) then _ else _) = _
    rw [h, if_pos hx, ih, List.map_append]
    rfl
  | case3 l p above hmiddle hx ih =>
    rw [insertByHalves, List.length_map, ← List.map_drop, hmiddle, ← List.map_take]
    show (if less (f x) (f p) then _ else _ ++ f p :: insertByHalves less (f x) (above.map f)) = _
    rw [h, if_neg hx, ih, List.map_append]
    rfl

/-- Sorting looks at nothing but how elements compare. -/
theorem sort_map (h : ∀ a b, less (f a) (f b) = below a b) (l : List β) :
    sort less (l.map f) = (sort below l).map f := by
  unfold sort
  rw [List.length_map]
  split
  · rw [leadingRun_map h]
    dsimp only
    generalize (leadingRun below l).2 = after
    generalize (leadingRun below l).1 = run
    induction after generalizing run with
    | nil => rfl
    | cons x after ih =>
      rw [List.map_cons, List.foldl_cons, List.foldl_cons, insertByHalves_map h]
      exact ih _
  · refine (List.map_mergeSort ?_).symm
    intro a _ b _
    rw [h]

end Map

/-! ## An order -/

/-- No element is below an earlier one. -/
abbrev InOrder (l : List α) : Prop :=
  l.Pairwise fun a b => less b a = false

variable {less}

theorem splitRun_inOrder
    (trans : ∀ a b c, less b a = false → less c b = false → less c a = false) (last : α)
    (l : List α) : InOrder less (last :: (splitRun less false last l).1) := by
  induction l generalizing last with
  | nil => exact List.pairwise_singleton _ _
  | cons x rest ih =>
    unfold splitRun
    by_cases h : (less x last == false) = true
    · rw [if_pos h]
      refine List.pairwise_cons.2 ⟨?_, ih x⟩
      intro y hy
      have hx : less x last = false := eq_of_beq h
      rcases List.mem_cons.1 hy with rfl | hy
      · exact hx
      · exact trans last x y hx ((List.pairwise_cons.1 (ih x)).1 y hy)
    · rw [if_neg h]
      exact List.pairwise_singleton _ _

/-- What is below another is not above it, so a falling run is in order when it is turned round. -/
theorem splitRun_falls (asymm : ∀ a b, less a b = true → less b a = false)
    (trans : ∀ a b c, less b a = false → less c b = false → less c a = false) (last : α)
    (l : List α) :
    (last :: (splitRun less true last l).1).Pairwise fun a b => less a b = false := by
  induction l generalizing last with
  | nil => exact List.pairwise_singleton _ _
  | cons x rest ih =>
    unfold splitRun
    by_cases h : (less x last == true) = true
    · rw [if_pos h]
      refine List.pairwise_cons.2 ⟨?_, ih x⟩
      intro y hy
      have hx : less last x = false := asymm x last (eq_of_beq h)
      rcases List.mem_cons.1 hy with rfl | hy
      · exact hx
      · exact trans y x last ((List.pairwise_cons.1 (ih x)).1 y hy) hx
    · rw [if_neg h]
      exact List.pairwise_singleton _ _

theorem leadingRun_inOrder (asymm : ∀ a b, less a b = true → less b a = false)
    (trans : ∀ a b c, less b a = false → less c b = false → less c a = false) (l : List α) :
    InOrder less (leadingRun less l).1 := by
  unfold leadingRun
  split
  · rename_i a b rest
    dsimp only
    by_cases h : less b a = true
    · rw [if_pos h, h]
      refine List.pairwise_reverse.2 (List.pairwise_cons.2 ⟨?_, splitRun_falls asymm trans b rest⟩)
      intro y hy
      have hab : less a b = false := asymm b a h
      rcases List.mem_cons.1 hy with rfl | hy
      · exact hab
      · exact trans y b a ((List.pairwise_cons.1 (splitRun_falls asymm trans b rest)).1 y hy) hab
    · have hba : less b a = false := by simpa using h
      rw [if_neg h, hba]
      refine List.pairwise_cons.2 ⟨?_, splitRun_inOrder trans b rest⟩
      intro y hy
      rcases List.mem_cons.1 hy with rfl | hy
      · exact hba
      · exact trans a b y hba ((List.pairwise_cons.1 (splitRun_inOrder trans b rest)).1 y hy)
  · rename_i hshort
    match l with
    | [] => exact List.Pairwise.nil
    | [a] => exact List.pairwise_singleton _ _
    | a :: b :: rest => exact absurd rfl (hshort a b rest)

theorem insertByHalves_inOrder (asymm : ∀ a b, less a b = true → less b a = false)
    (trans : ∀ a b c, less b a = false → less c b = false → less c a = false) (x : α)
    {l : List α} (h : InOrder less l) : InOrder less (insertByHalves less x l) := by
  fun_induction insertByHalves less x l with
  | case1 l _ => exact List.pairwise_singleton _ _
  | case2 l p above hmiddle hx ih =>
    have hl := List.take_append_drop (l.length / 2) l
    rw [hmiddle] at hl
    have hwhole : InOrder less (l.take (l.length / 2) ++ p :: above) := by
      rw [hl]
      exact h
    obtain ⟨hbelow, habove, hacross⟩ := List.pairwise_append.1 hwhole
    refine List.pairwise_append.2 ⟨ih hbelow, habove, ?_⟩
    intro a ha b hb
    rcases List.mem_cons.1 ((insertByHalves_perm less x _).mem_iff.1 ha) with rfl | ha
    · -- the new element is below the middle one, and so below all that follow
      have hpa : less p a = false := asymm a p hx
      rcases List.mem_cons.1 hb with rfl | hb
      · exact hpa
      · exact trans a p b hpa ((List.pairwise_cons.1 habove).1 b hb)
    · exact hacross a ha b hb
  | case3 l p above hmiddle hx ih =>
    have hl := List.take_append_drop (l.length / 2) l
    rw [hmiddle] at hl
    have hwhole : InOrder less (l.take (l.length / 2) ++ p :: above) := by
      rw [hl]
      exact h
    obtain ⟨hbelow, habove, hacross⟩ := List.pairwise_append.1 hwhole
    obtain ⟨hhead, htail⟩ := List.pairwise_cons.1 habove
    have hxp : less x p = false := by simpa using hx
    -- the new element is not below the middle one, and neither is what stands above it
    have hnew : ∀ b ∈ insertByHalves less x above, less b p = false := by
      intro b hb
      rcases List.mem_cons.1 ((insertByHalves_perm less x _).mem_iff.1 hb) with rfl | hb
      · exact hxp
      · exact hhead b hb
    refine List.pairwise_append.2 ⟨hbelow, List.pairwise_cons.2 ⟨hnew, ih htail⟩, ?_⟩
    intro a ha b hb
    have hpa : less p a = false := hacross a ha p List.mem_cons_self
    rcases List.mem_cons.1 hb with rfl | hb
    · exact hpa
    · exact trans a p b hpa (hnew b hb)

/-- For an order, what is sorted is in order, whichever pairs are compared. -/
theorem sort_inOrder (asymm : ∀ a b, less a b = true → less b a = false)
    (trans : ∀ a b c, less b a = false → less c b = false → less c a = false) (l : List α) :
    InOrder less (sort less l) := by
  unfold sort
  split
  · have key : ∀ after run : List α, InOrder less run →
        InOrder less (after.foldl (fun sorted x => insertByHalves less x sorted) run) := by
      intro after
      induction after with
      | nil => exact fun run hrun => hrun
      | cons x rest ih =>
        intro run hrun
        exact ih _ (insertByHalves_inOrder asymm trans x hrun)
    exact key _ _ (leadingRun_inOrder asymm trans l)
  · have hsorted : (l.mergeSort fun a b => !less b a).Pairwise fun a b => (!less b a) = true := by
      refine List.pairwise_mergeSort ?_ ?_ l
      · intro a b c hab hbc
        have h := trans a b c (by simpa using hab) (by simpa using hbc)
        simpa using h
      · intro a b
        cases hab : less b a with
        | false => rfl
        | true => simp [asymm b a hab]
    exact hsorted.imp fun h => by simpa using h

end Stepwise.Sorting
