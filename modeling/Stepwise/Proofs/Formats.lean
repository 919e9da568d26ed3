/-
What a format takes from its arguments.

A format is cut in one way: from the left, a conversion wherever one can be spelled and
a plain character elsewhere. Reading a conversion is right for this because what follows
each of its parts cannot be taken for more of that part: no length and no letter is a
flag, a digit, a star or a point.

Of everything that is written with arguments, the number it takes is known beforehand,
and the arguments behind those are never looked at (`Takes`). This is kept when one such
thing follows another, so a whole format takes what its conversions take together.
-/
import Stepwise.Printf.Format
import Stepwise.Proofs.Effect
import Mathlib.Data.List.Forall2

set_option autoImplicit false

namespace Stepwise.Printf

/-! ## How conversions are spelled -/

/-- Is the character a flag? -/
def isFlag : Char → Bool :=
  Text.oneOf "-+ #0"

/-- The lengths that a conversion may have. -/
def lengths : List (List Char) :=
  [[], ['h'], ['h', 'h'], ['l'], ['l', 'l'], ['L'], ['z'], ['j'], ['t']]

/-- A width or precision as it is written. -/
def sizeText : Option Size → List Char
  | none => []
  | some .star => ['*']
  | some (.digits s) => s

/-- A precision as it is written, with its point. -/
def pointText : Option Size → List Char
  | none => []
  | some size => '.' :: sizeText (some size)

/-- A width or precision that is a star, or digits, or is left out. -/
def Writable (size : Option Size) : Prop :=
  ∀ s, size = some (.digits s) → s ≠ [] ∧ ∀ d ∈ s, Text.isDecimal d

/-- A text is a spelling of a conversion: a percent sign, flags, a width, a precision, a length
and a letter. Flags go on as far as they can, so a width does not begin with a zero. -/
structure Spells (c : Conversion) (source : List Char) : Prop where
  /-- The flags are flags. -/
  flags : ∀ f ∈ c.flags, isFlag f
  /-- The width is a star or digits. -/
  width : Writable c.width
  /-- The flags do not go on in the width. -/
  flagsEnd : ∀ d, (sizeText c.width).head? = some d → isFlag d = false
  /-- The precision is a star or digits. -/
  precision : Writable c.precision
  /-- The letter is one of a conversion. -/
  letter : Text.oneOf "diouxXfFeEgGcsp%" c.letter
  /-- The parts follow each other. -/
  parts : ∃ length ∈ lengths, source =
    '%' :: (c.flags ++ (sizeText c.width ++ (pointText c.precision ++ (length ++ [c.letter]))))

/-- A format cut into pieces, each with its source: a conversion wherever one is spelled, else a
plain character. -/
inductive Cut : List Char → List (Piece × List Char) → Prop where
  /-- Nothing is left. -/
  | done : Cut [] []
  /-- A conversion is spelled here. -/
  | conversion {c : Conversion} {source rest : List Char} {parts : List (Piece × List Char)} :
      Spells c source → Cut rest parts → Cut (source ++ rest) ((.conversion c, source) :: parts)
  /-- No conversion is spelled here. -/
  | plain {c : Char} {rest : List Char} {parts : List (Piece × List Char)} :
      (∀ conversion source after, Spells conversion source → source ++ after ≠ c :: rest) →
      Cut rest parts → Cut (c :: rest) ((.plain c, [c]) :: parts)

/-! ## Reading a conversion -/

/-- The letters of conversions. -/
def letters : List Char :=
  ['d', 'i', 'o', 'u', 'x', 'X', 'f', 'F', 'e', 'E', 'g', 'G', 'c', 's', 'p', '%']

/-- The characters of lengths. -/
def sizes : List Char :=
  ['h', 'l', 'L', 'z', 'j', 't']

theorem oneOf_letters (c : Char) : Text.oneOf "diouxXfFeEgGcsp%" c = letters.contains c := by
  have h : "diouxXfFeEgGcsp%".toList = letters := String.toList_ofList
  rw [Text.oneOf, h]

theorem oneOf_sizes (c : Char) : Text.oneOf "hlLzjt" c = sizes.contains c := by
  have h : "hlLzjt".toList = sizes := String.toList_ofList
  rw [Text.oneOf, h]

theorem isFlag_eq (c : Char) : isFlag c = ['-', '+', ' ', '#', '0'].contains c := by
  have h : "-+ #0".toList = ['-', '+', ' ', '#', '0'] := String.toList_ofList
  rw [isFlag, Text.oneOf, h]

theorem mem_letters {c : Char} (h : Text.oneOf "diouxXfFeEgGcsp%" c) : c ∈ letters := by
  rw [oneOf_letters] at h
  exact List.contains_iff_mem.mp h

/-- The texts that may follow a width or a precision. -/
def MayFollow (s : List Char) : Prop :=
  ∀ c, s.head? = some c → isFlag c = false ∧ Text.isDecimal c = false ∧ c ≠ '*'

theorem mayFollow_of_mem {c : Char} (h : c ∈ '.' :: (sizes ++ letters)) (rest : List Char) :
    MayFollow (c :: rest) := by
  have hall : ∀ d ∈ '.' :: (sizes ++ letters),
      ['-', '+', ' ', '#', '0'].contains d = false ∧ Text.isDecimal d = false ∧ d ≠ '*' := by
    simp [sizes, letters, Text.isDecimal]
  intro d hd
  obtain rfl : c = d := by simpa using hd
  rw [isFlag_eq]
  exact hall c h

theorem readSize_of_ne_star {s : List Char} (h : s.head? ≠ some '*') :
    readSize s = (if (s.takeWhile Text.isDecimal).isEmpty then none
      else some (.digits (s.takeWhile Text.isDecimal)), s.dropWhile Text.isDecimal) := by
  unfold readSize
  split
  · simp at h
  · rfl

/-- A width or precision is read back, whatever follows it. -/
theorem readSize_append {size : Option Size} {tail : List Char} (hsize : Writable size)
    (htail : MayFollow tail) : readSize (sizeText size ++ tail) = (size, tail) := by
  have hstop : tail.takeWhile Text.isDecimal = [] ∧ tail.dropWhile Text.isDecimal = tail := by
    cases tail with
    | nil => simp
    | cons c rest => simp [(htail c rfl).2.1]
  match size, hsize with
  | none, _ =>
    rw [sizeText, List.nil_append, readSize_of_ne_star fun h => (htail _ h).2.2 rfl, hstop.1,
      hstop.2]
    rfl
  | some .star, _ => rfl
  | some (.digits s), hsize =>
    obtain ⟨hne, hdecimal⟩ := hsize s rfl
    obtain ⟨d, digits, rfl⟩ := List.exists_cons_of_ne_nil hne
    have hstar : (sizeText (some (.digits (d :: digits))) ++ tail).head? ≠ some '*' := by
      intro h
      obtain rfl : d = '*' := by simpa [sizeText] using h
      exact absurd (hdecimal '*' List.mem_cons_self) (by decide +kernel)
    rw [readSize_of_ne_star hstar, sizeText, List.takeWhile_append_of_pos hdecimal,
      List.dropWhile_append_of_pos hdecimal, hstop.1, hstop.2]
    simp

/-- What is read as a width or precision is how it is written. -/
theorem eq_sizeText_of_readSize {s rest : List Char} {size : Option Size}
    (h : readSize s = (size, rest)) : s = sizeText size ++ rest ∧ Writable size := by
  by_cases hstar : s.head? = some '*'
  · obtain ⟨tail, rfl⟩ : ∃ tail, s = '*' :: tail := by
      cases s with
      | nil => simp at hstar
      | cons c tail =>
        obtain rfl : c = '*' := by simpa using hstar
        exact ⟨tail, rfl⟩
    obtain ⟨rfl, rfl⟩ : some Size.star = size ∧ tail = rest := by simpa [readSize] using h
    exact ⟨rfl, by simp [Writable]⟩
  · rw [readSize_of_ne_star hstar, Prod.mk.injEq] at h
    obtain ⟨hsize, rfl⟩ := h
    by_cases hdigits : (s.takeWhile Text.isDecimal).isEmpty
    · obtain rfl : none = size := by simpa [hdigits] using hsize
      refine ⟨?_, by simp [Writable]⟩
      have hsplit := List.takeWhile_append_dropWhile (p := Text.isDecimal) (l := s)
      rw [List.isEmpty_iff.mp hdigits] at hsplit
      exact hsplit.symm
    · obtain rfl : some (Size.digits (s.takeWhile Text.isDecimal)) = size := by
        simpa [hdigits] using hsize
      refine ⟨List.takeWhile_append_dropWhile.symm, ?_⟩
      rintro _ ⟨⟩
      refine ⟨fun hnil => hdigits (by simp [hnil]), fun d hd => ?_⟩
      exact List.all_eq_true.mp List.all_takeWhile d hd

theorem readPoint_append {size : Option Size} {tail : List Char} (hsize : Writable size)
    (htail : MayFollow tail) (hpoint : tail.head? ≠ some '.') :
    readPoint (pointText size ++ tail) = (size, tail) := by
  cases size with
  | none =>
    rw [pointText, List.nil_append]
    unfold readPoint
    split
    · simp at hpoint
    · rfl
  | some size =>
    rw [pointText, List.cons_append, readPoint, readSize_append hsize htail]

theorem eq_pointText_of_readPoint {s rest : List Char} {size : Option Size}
    (h : readPoint s = (size, rest)) : s = pointText size ++ rest ∧ Writable size := by
  unfold readPoint at h
  split at h
  · split at h
    · rename_i tail size' rest' hread
      obtain ⟨rfl, rfl⟩ : some size' = size ∧ rest' = rest := by simpa using h
      obtain ⟨htail, hsize⟩ := eq_sizeText_of_readSize hread
      exact ⟨by rw [htail]; rfl, hsize⟩
    · obtain ⟨rfl, rfl⟩ := Prod.mk.injEq .. ▸ h
      exact ⟨rfl, by simp [Writable]⟩
  · obtain ⟨rfl, rfl⟩ := Prod.mk.injEq .. ▸ h
    exact ⟨rfl, by simp [Writable]⟩

/-- A length is dropped and nothing else. -/
theorem dropLength_append {length : List Char} {letter : Char} (hlength : length ∈ lengths)
    (hletter : Text.oneOf "diouxXfFeEgGcsp%" letter) (after : List Char) :
    dropLength (length ++ letter :: after) = letter :: after := by
  have hall : ∀ d ∈ letters, d ≠ 'h' ∧ d ≠ 'l' ∧ sizes.contains d = false := by
    simp [letters, sizes]
  obtain ⟨hh, hl, hother⟩ := hall letter (mem_letters hletter)
  rw [← oneOf_sizes] at hother
  simp only [lengths, List.mem_cons, List.not_mem_nil, or_false] at hlength
  rcases hlength with rfl | rfl | rfl | rfl | rfl | rfl | rfl | rfl | rfl <;>
    simp [dropLength, hh, hl, hother, oneOf_sizes, sizes]

theorem eq_append_dropLength (s : List Char) : ∃ length ∈ lengths, s = length ++ dropLength s := by
  unfold dropLength
  split
  · exact ⟨['h', 'h'], by decide, rfl⟩
  · exact ⟨['l', 'l'], by decide, rfl⟩
  · rename_i c rest _ _
    split
    · next hsize =>
      have hall : ∀ d ∈ sizes, [d] ∈ lengths := by simp [sizes, lengths]
      rw [oneOf_sizes] at hsize
      exact ⟨[c], hall c (List.contains_iff_mem.mp hsize), rfl⟩
    · exact ⟨[], by decide, rfl⟩
  · exact ⟨[], by decide, rfl⟩

/-- A length and a letter may follow a width, and do not begin with a point. -/
theorem mayFollow_length {length : List Char} {letter : Char} (hlength : length ∈ lengths)
    (hletter : Text.oneOf "diouxXfFeEgGcsp%" letter) (after : List Char) :
    MayFollow (length ++ letter :: after) ∧ (length ++ letter :: after).head? ≠ some '.' := by
  have hall : ∀ d ∈ letters, d ∈ '.' :: (sizes ++ letters) ∧ d ≠ '.' := by
    simp [sizes, letters]
  obtain ⟨hmem, hpoint⟩ := hall letter (mem_letters hletter)
  cases length with
  | nil => exact ⟨mayFollow_of_mem hmem after, by simpa using hpoint⟩
  | cons c length =>
    have hfirst : ∀ known ∈ lengths, ∀ d, known.head? = some d →
        d ∈ '.' :: (sizes ++ letters) ∧ d ≠ '.' := by
      simp [lengths, sizes, letters]
    obtain ⟨hc, hpoint⟩ := hfirst _ hlength c rfl
    exact ⟨mayFollow_of_mem hc _, by simpa using hpoint⟩

/-- **A spelled conversion is read**, whatever follows it. -/
theorem readConversion?_of_spells {c : Conversion} {source : List Char} (h : Spells c source)
    (after : List Char) :
    ∃ body, source = '%' :: body ∧ readConversion? (body ++ after) = some (c, after) := by
  obtain ⟨flags, width, precision, letter⟩ := c
  obtain ⟨length, hlength, rfl⟩ := h.parts
  refine ⟨_, rfl, ?_⟩
  obtain ⟨hend, hpoint⟩ := mayFollow_length hlength h.letter after
  have hmiddle : MayFollow (pointText precision ++ (length ++ letter :: after)) := by
    cases precision with
    | none => exact hend
    | some size => exact mayFollow_of_mem (by decide) _
  have hstop : ∀ d, (sizeText width ++ (pointText precision ++ (length ++ letter :: after))).head?
      = some d → isFlag d = false := by
    intro d hd
    cases htext : sizeText width with
    | nil => exact (hmiddle d (by simpa [htext] using hd)).1
    | cons e text => exact h.flagsEnd d (by simpa [htext] using hd)
  -- no flag is left in front of the width
  have hsplit : (sizeText width ++ (pointText precision ++ (length ++ letter :: after))).takeWhile
        isFlag = [] ∧
      (sizeText width ++ (pointText precision ++ (length ++ letter :: after))).dropWhile isFlag =
        sizeText width ++ (pointText precision ++ (length ++ letter :: after)) := by
    generalize sizeText width ++ (pointText precision ++ (length ++ letter :: after)) = s at hstop
    cases s with
    | nil => simp
    | cons d s => simp [hstop d rfl]
  have htake :
      (flags ++ (sizeText width ++ (pointText precision ++ (length ++ letter :: after)))).takeWhile isFlag
        = flags ++ (sizeText width
            ++ (pointText precision ++ (length ++ letter :: after))).takeWhile isFlag :=
    List.takeWhile_append_of_pos h.flags
  have hdrop :
      (flags ++ (sizeText width ++ (pointText precision ++ (length ++ letter :: after)))).dropWhile isFlag
        = (sizeText width
            ++ (pointText precision ++ (length ++ letter :: after))).dropWhile isFlag :=
    List.dropWhile_append_of_pos h.flags
  rw [hsplit.1, List.append_nil] at htake
  rw [hsplit.2] at hdrop
  have hletter := h.letter
  unfold isFlag at htake hdrop
  simp only [List.append_assoc, List.singleton_append, readConversion?, htake, hdrop,
    readSize_append h.width hmiddle, readPoint_append h.precision hend hpoint,
    dropLength_append hlength h.letter]
  simp only [hletter, if_true]

theorem pieces_of_spells {c : Conversion} {source : List Char} (h : Spells c source)
    (after : List Char) : pieces (source ++ after) = .conversion c :: pieces after := by
  obtain ⟨body, rfl, hread⟩ := readConversion?_of_spells h after
  rw [List.cons_append, pieces.eq_2, if_pos rfl]
  split
  · rename_i conversion rest hsome
    obtain ⟨rfl, rfl⟩ : conversion = c ∧ rest = after := by simpa [hread] using hsome.symm
    rfl
  · simp_all

/-- **What is read as a conversion is a spelling of it.** -/
theorem spells_of_readConversion? {s after : List Char} {c : Conversion}
    (h : readConversion? s = some (c, after)) :
    ∃ body, s = body ++ after ∧ Spells c ('%' :: body) := by
  unfold readConversion? at h
  cases hwidth : readSize (s.dropWhile (Text.oneOf "-+ #0")) with
  | mk width s₁ =>
    cases hprecision : readPoint s₁ with
    | mk precision s₂ =>
      obtain ⟨length, hlength, hdrop⟩ := eq_append_dropLength s₂
      simp only [hwidth, hprecision] at h
      split at h
      · rename_i letter rest hrest
        split at h
        · rename_i hletter
          obtain ⟨rfl, rfl⟩ : _ = c ∧ rest = after := by simpa using h
          obtain ⟨h₁, hwritable₁⟩ := eq_sizeText_of_readSize hwidth
          obtain ⟨h₂, hwritable₂⟩ := eq_pointText_of_readPoint hprecision
          refine ⟨s.takeWhile isFlag ++ (sizeText width ++ (pointText precision ++
            (length ++ [letter]))), ?_, ?_⟩
          · rw [hrest] at hdrop
            have hflags := List.takeWhile_append_dropWhile (p := isFlag) (l := s)
            unfold isFlag at hflags ⊢
            rw [h₁, h₂, hdrop] at hflags
            simpa using hflags.symm
          · refine ⟨List.all_eq_true.mp List.all_takeWhile, hwritable₁, ?_, hwritable₂, hletter,
              length, hlength, rfl⟩
            intro d hd
            have hhead : (s.dropWhile isFlag).head? = some d := by
              unfold isFlag
              rw [h₁]
              simp [hd]
            have hnot := List.head?_dropWhile_not isFlag s
            simpa [hhead] using hnot
        · simp at h
      · simp at h

/-! ## Cutting a format -/

/-- The pieces are those of a cut of the format. -/
theorem cut_pieces (s : List Char) : ∃ parts, Cut s parts ∧ parts.map Prod.fst = pieces s := by
  fun_induction pieces s with
  | case1 => exact ⟨[], .done, rfl⟩
  | case2 rest conversion after hread ih =>
    obtain ⟨parts, hcut, hparts⟩ := ih
    obtain ⟨body, rfl, hspells⟩ := spells_of_readConversion? hread
    exact ⟨_, .conversion hspells hcut, by simp [hparts]⟩
  | case3 rest hread ih =>
    obtain ⟨parts, hcut, hparts⟩ := ih
    refine ⟨_, .plain (fun conversion source after hspells heq => ?_) hcut, by simp [hparts]⟩
    obtain ⟨body, rfl, hsome⟩ := readConversion?_of_spells hspells after
    obtain rfl : body ++ after = rest := by simpa using heq
    simp [hread] at hsome
  | case4 c rest hpercent ih =>
    obtain ⟨parts, hcut, hparts⟩ := ih
    refine ⟨_, .plain (fun conversion source after hspells heq => ?_) hcut, by simp [hparts]⟩
    obtain ⟨body, rfl, -⟩ := readConversion?_of_spells hspells after
    exact hpercent (by simpa using heq.symm : c = '%' ∧ _).1

/-- Two conversions that are spelled at one place are the same, and so is what follows. -/
theorem Spells.unique {c c' : Conversion} {source source' rest rest' : List Char}
    (h : Spells c source) (h' : Spells c' source') (heq : source ++ rest = source' ++ rest') :
    c = c' ∧ source = source' ∧ rest = rest' := by
  obtain ⟨body, rfl, hread⟩ := readConversion?_of_spells h rest
  obtain ⟨body', rfl, hread'⟩ := readConversion?_of_spells h' rest'
  obtain heq : body ++ rest = body' ++ rest' := by simpa using heq
  rw [heq, hread'] at hread
  obtain ⟨rfl, rfl⟩ : c' = c ∧ rest' = rest := by simpa using hread
  exact ⟨rfl, by simpa using heq, rfl⟩

/-- A format is cut in one way. -/
theorem Cut.unique {s : List Char} {parts others : List (Piece × List Char)} (h : Cut s parts)
    (h' : Cut s others) : others = parts := by
  induction h generalizing others with
  | done =>
    generalize hs : ([] : List Char) = s at h'
    cases h' with
    | done => rfl
    | conversion hspells =>
      obtain ⟨body, rfl, -⟩ := readConversion?_of_spells hspells []
      simp at hs
    | plain => simp at hs
  | @conversion c source rest parts hspells _ ih =>
    generalize hs : source ++ rest = s at h'
    cases h' with
    | done =>
      obtain ⟨body, rfl, -⟩ := readConversion?_of_spells hspells []
      simp at hs
    | conversion hspells' hcut' =>
      obtain ⟨rfl, rfl, rfl⟩ := hspells.unique hspells' hs
      rw [ih hcut']
    | plain hnone => exact absurd hs (hnone _ _ _ hspells)
  | @plain c rest parts hnone _ ih =>
    generalize hs : c :: rest = s at h'
    cases h' with
    | done => simp at hs
    | conversion hspells' => exact absurd hs.symm (hnone _ _ _ hspells')
    | plain _ hcut' =>
      obtain ⟨rfl, rfl⟩ := List.cons.inj hs
      rw [ih hcut']

theorem Cut.plain_source {s : List Char} {parts : List (Piece × List Char)} (h : Cut s parts) :
    ∀ part ∈ parts, ∀ c, part.1 = Piece.plain c → part.2 = [c] := by
  induction h with
  | done => simp
  | conversion _ _ ih => simpa using ih
  | plain _ _ ih => simpa using ih

/-! ## Taking arguments -/

/-- A computation takes a number of arguments: it fails on fewer, and what it makes of them does
not depend on those that follow, which it leaves. -/
structure Takes {α : Type} (n : Nat) (f : List Typed → Except Fault (α × List Typed)) : Prop where
  /-- With too few arguments there is no result. -/
  short : ∀ arguments, arguments.length < n → ∃ fault, f arguments = .error fault
  /-- A result is that of the arguments in front. -/
  front : ∀ arguments value left, f arguments = .ok (value, left) →
    ∃ used, arguments = used ++ left ∧ used.length = n ∧
      ∀ others, f (used ++ others) = .ok (value, others)

namespace Takes

variable {α β : Type} {m n : Nat}

/-- What succeeds without looking at the arguments takes none. -/
theorem pure (a : α) : Takes 0 fun arguments => .ok (a, arguments) := by
  refine ⟨fun _ h => absurd h (Nat.not_lt_zero _), fun arguments value left h => ?_⟩
  obtain ⟨rfl, rfl⟩ : a = value ∧ arguments = left := by simpa using h
  exact ⟨[], rfl, rfl, fun _ => rfl⟩

/-- What fails takes any number of arguments. -/
theorem error (fault : Fault) : Takes n fun _ => (.error fault : Except Fault (α × List Typed)) :=
  ⟨fun _ _ => ⟨fault, rfl⟩, fun _ _ _ h => by simp at h⟩

/-- What looks at something else first takes the arguments of what it goes on with. -/
theorem after {r : Except Fault α} {g : α → List Typed → Except Fault (β × List Typed)}
    (hg : ∀ a, Takes n (g a)) : Takes n fun arguments => r >>= fun a => g a arguments := by
  cases r with
  | error fault => exact error fault
  | ok a => exact hg a

/-- One thing after another takes the arguments of both. -/
theorem bind {f : List Typed → Except Fault (α × List Typed)}
    {g : α × List Typed → Except Fault (β × List Typed)} (hf : Takes m f)
    (hg : ∀ a, Takes n fun arguments => g (a, arguments)) :
    Takes (m + n) fun arguments => f arguments >>= g := by
  refine ⟨fun arguments hshort => ?_, fun arguments value left h => ?_⟩
  · cases hfirst : f arguments with
    | error fault => exact ⟨fault, rfl⟩
    | ok p =>
      obtain ⟨used, rfl, hlength, -⟩ := hf.front arguments p.1 p.2 hfirst
      rw [List.length_append] at hshort
      exact (hg p.1).short p.2 (by omega)
  · obtain ⟨p, hfirst, hsecond⟩ := bind_eq_ok.mp h
    obtain ⟨used, rfl, hlength, hused⟩ := hf.front arguments p.1 p.2 hfirst
    obtain ⟨more, hmore, hlength', hmoreused⟩ := (hg p.1).front p.2 value left hsecond
    refine ⟨used ++ more, by rw [hmore, List.append_assoc], by simp [hlength, hlength'], ?_⟩
    intro others
    rw [List.append_assoc, hused]
    exact hmoreused others

end Takes

variable (format : String) (reader : Reader)

theorem takes_take : Takes 1 (take format) := by
  refine ⟨fun arguments hshort => ?_, fun arguments value left h => ?_⟩
  · obtain rfl : arguments = [] := List.length_eq_zero_iff.mp (by omega)
    exact ⟨_, rfl⟩
  · cases arguments with
    | nil => simp [take] at h
    | cons a rest =>
      obtain ⟨rfl, rfl⟩ : a.value = value ∧ rest = left := by simpa [take] using h
      exact ⟨[a], rfl, rfl, fun _ => rfl⟩

/-- The arguments that a width or a precision takes. -/
def sizeArguments (size : Option Size) : Nat :=
  if size = some .star then 1 else 0

theorem takes_takeSize (size : Option Size) :
    Takes (sizeArguments size) (takeSize format size) := by
  match size with
  | none => exact Takes.pure none
  | some (.digits s) => exact Takes.pure (some s)
  | some .star =>
    exact (takes_take format).bind (n := 0) fun value => Takes.pure (some value.print.toList)

/-- The arguments that a conversion takes. -/
def Conversion.arguments (c : Conversion) : Nat :=
  if c.letter = '%' then 0 else sizeArguments c.width + (sizeArguments c.precision + 1)

theorem takes_writeConversion (c : Conversion) :
    Takes c.arguments (writeConversion format reader c) := by
  unfold Conversion.arguments
  by_cases hpercent : c.letter = '%'
  · rw [if_pos hpercent]
    have hsame : writeConversion format reader c = fun arguments => .ok (['%'], arguments) := by
      funext arguments
      simp [writeConversion, hpercent]
    rw [hsame]
    exact Takes.pure ['%']
  · rw [if_neg hpercent]
    unfold writeConversion
    simp only [hpercent, if_false]
    refine (takes_takeSize format c.width).bind fun width => ?_
    dsimp only
    refine (takes_takeSize format c.precision).bind (n := 1) fun precision => ?_
    dsimp only
    refine (takes_take format).bind (n := 0) fun value => ?_
    -- what is shown is made without further arguments, if it can be
    cases value with
    | uninit => exact Takes.error _
    | num | text | list | record =>
      dsimp only
      exact Takes.after fun shown => Takes.after fun text => Takes.pure text

/-! ## Taking the arguments of a format -/

/-- The conversions among pieces that show an argument: all but doubled percent signs. -/
def showing (ps : List Piece) : List Conversion :=
  ps.filterMap fun
    | .plain _ => none
    | .conversion c => if c.letter = '%' then none else some c

/-- The arguments that pieces take: one for every conversion that shows one, and one for every
star in place of its width or precision. -/
def argumentCount (ps : List Piece) : Nat :=
  (showing ps).length +
    ((showing ps).countP (·.width = some .star) + (showing ps).countP (·.precision = some .star))

theorem argumentCount_conversion (c : Conversion) (ps : List Piece) :
    argumentCount (.conversion c :: ps) = c.arguments + argumentCount ps := by
  by_cases hpercent : c.letter = '%'
  · simp [argumentCount, showing, Conversion.arguments, hpercent]
  · by_cases hwidth : c.width = some .star <;> by_cases hprecision : c.precision = some .star <;>
      simp [argumentCount, showing, Conversion.arguments, sizeArguments, hpercent, hwidth,
        hprecision] <;> omega

/-- With too few arguments a format is not written. -/
theorem writePieces_short (ps : List Piece) {arguments : List Typed}
    (h : arguments.length < argumentCount ps) :
    ∃ fault, writePieces format reader ps arguments = .error fault := by
  induction ps generalizing arguments with
  | nil => exact absurd h (Nat.not_lt_zero _)
  | cons piece ps ih =>
    cases piece with
    | plain c =>
      obtain ⟨fault, hrest⟩ := ih h
      exact ⟨fault, by rw [writePieces, hrest]; rfl⟩
    | conversion c =>
      rw [argumentCount_conversion] at h
      rw [writePieces]
      cases hfirst : writeConversion format reader c arguments with
      | error fault => exact ⟨fault, rfl⟩
      | ok p =>
        obtain ⟨used, rfl, hlength, -⟩ :=
          (takes_writeConversion format reader c).front arguments p.1 p.2 hfirst
        rw [List.length_append] at h
        have hleft : p.2.length < argumentCount ps := by omega
        obtain ⟨fault, hrest⟩ := ih hleft
        exact ⟨fault, by simp [bind, Except.bind, hrest]⟩

/-- What a format is written as is known from the arguments that it takes. -/
theorem writePieces_front (ps : List Piece) {arguments : List Typed} {text : List Char}
    (h : writePieces format reader ps arguments = .ok text) :
    ∃ used left, arguments = used ++ left ∧ used.length = argumentCount ps ∧
      ∀ others, writePieces format reader ps (used ++ others) = .ok text := by
  induction ps generalizing arguments text with
  | nil => exact ⟨[], arguments, rfl, rfl, fun _ => h⟩
  | cons piece ps ih =>
    cases piece with
    | plain c =>
      obtain ⟨tail, hrest, hpure⟩ := bind_eq_ok.mp h
      obtain ⟨used, left, hsplit, hlength, hused⟩ := ih hrest
      refine ⟨used, left, hsplit, hlength, fun others => ?_⟩
      rw [writePieces, hused]
      exact hpure
    | conversion c =>
      obtain ⟨⟨shown, remaining⟩, hfirst, hlast⟩ := bind_eq_ok.mp h
      obtain ⟨tail, hrest, hpure⟩ := bind_eq_ok.mp hlast
      obtain ⟨used, rfl, hlength, hused⟩ :=
        (takes_writeConversion format reader c).front arguments shown remaining hfirst
      obtain ⟨more, left, rfl, hlength', hmore⟩ := ih hrest
      refine ⟨used ++ more, left, by rw [List.append_assoc], ?_, fun others => ?_⟩
      · rw [argumentCount_conversion, List.length_append, hlength, hlength']
      · rw [List.append_assoc, writePieces, hused]
        show (writePieces format reader ps (more ++ others) >>= _) = _
        rw [hmore]
        exact hpure

/-- The output has a part for every piece, and a plain character is its own part. -/
theorem writePieces_parts (ps : List Piece) {arguments : List Typed} {text : List Char}
    (h : writePieces format reader ps arguments = .ok text) :
    ∃ outputs : List (List Char), outputs.flatten = text ∧
      List.Forall₂ (fun piece output => ∀ c, piece = Piece.plain c → output = [c]) ps outputs := by
  induction ps generalizing arguments text with
  | nil =>
    obtain rfl : [] = text := by simpa [writePieces] using h
    exact ⟨[], rfl, .nil⟩
  | cons piece ps ih =>
    cases piece with
    | plain c =>
      obtain ⟨tail, hrest, hpure⟩ := bind_eq_ok.mp h
      obtain ⟨outputs, rfl, houtputs⟩ := ih hrest
      obtain rfl : c :: outputs.flatten = text := Except.ok.inj hpure
      exact ⟨[c] :: outputs, rfl, .cons (by simp) houtputs⟩
    | conversion c =>
      obtain ⟨⟨shown, remaining⟩, -, hlast⟩ := bind_eq_ok.mp h
      obtain ⟨tail, hrest, hpure⟩ := bind_eq_ok.mp hlast
      obtain ⟨outputs, rfl, houtputs⟩ := ih hrest
      obtain rfl : shown ++ outputs.flatten = text := Except.ok.inj hpure
      exact ⟨shown :: outputs, rfl, .cons (by simp) houtputs⟩

end Stepwise.Printf

namespace Stepwise

open Printf

/-- **A format takes as many arguments as it has conversions and stars.** A format is cut in just
one way into plain characters and conversions. With fewer arguments than the conversions and their
stars take, nothing is written. Whatever is written stays the same when more arguments follow, and
when those beyond that number are dropped. It has one part for each piece in their order, and the
part of a plain character is that character. -/
theorem formats_take_their_arguments (format : String) (reader : Reader) :
    ∃ cut : List (Printf.Piece × List Char), Cut format.toList cut ∧
      (∀ other, Cut format.toList other → other = cut) ∧
      (∀ arguments, arguments.length < argumentCount (cut.map Prod.fst) →
        ∃ fault, printf format arguments reader = .error fault) ∧
      ∀ arguments text, printf format arguments reader = .ok text →
        (∀ more, printf format (arguments ++ more) reader = .ok text) ∧
        printf format (arguments.take (argumentCount (cut.map Prod.fst))) reader = .ok text ∧
        ∃ outputs : List (List Char), text.toList = outputs.flatten ∧
          List.Forall₂ (fun part output => ∀ c, part.1 = .plain c → output = part.2) cut outputs := by
  obtain ⟨cut, hcut, hpieces⟩ := cut_pieces format.toList
  refine ⟨cut, hcut, fun other hother => hcut.unique hother, fun arguments hshort => ?_,
    fun arguments text h => ?_⟩
  · rw [hpieces] at hshort
    obtain ⟨fault, hfault⟩ := writePieces_short format reader _ hshort
    exact ⟨fault, by rw [printf, hfault]; rfl⟩
  · obtain ⟨written, hwritten, hpure⟩ := bind_eq_ok.mp h
    obtain rfl : String.ofList written = text := Except.ok.inj hpure
    obtain ⟨used, left, rfl, hlength, hused⟩ := writePieces_front format reader _ hwritten
    obtain ⟨outputs, rfl, houtputs⟩ := writePieces_parts format reader _ hwritten
    rw [hpieces]
    refine ⟨fun more => ?_, ?_, outputs, String.toList_ofList, ?_⟩
    · rw [List.append_assoc, printf, hused]
      rfl
    · rw [← hlength, List.take_left, printf, ← List.append_nil used, hused]
      rfl
    · rw [← hpieces, List.forall₂_map_left_iff] at houtputs
      have hboth := (List.forall₂_and_left cut outputs).mpr ⟨hcut.plain_source, houtputs⟩
      exact hboth.imp fun part output hpart c hc => by rw [hpart.1 c hc, hpart.2 c hc]

end Stepwise
