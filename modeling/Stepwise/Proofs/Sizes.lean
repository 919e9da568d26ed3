/-
How many bytes a type takes.

The size of a type is read off its text, from the outside in: a star at the end
makes a pointer, a bracket an array, and the words of anything else decide. So a
proof about sizes has three cases, and `sizeOfText_cases` gives them.

No type has a negative size, because the count of an array is made of digits and
so has no sign. Only an array can take no space at all, as long as every struct
takes some.
-/
import Stepwise.Layout
import Stepwise.Proofs.Effect
import Stepwise.Proofs.Table
import Mathlib.Data.List.DropRight

set_option autoImplicit false

namespace Stepwise

/-! ## Trimmed texts -/

namespace Text

theorem trimRight_eq (s : List Char) : trimRight s = s.rdropWhile isBlank := rfl

theorem trimRight_trimRight (s : List Char) : trimRight (trimRight s) = trimRight s := by
  rw [trimRight_eq, trimRight_eq]
  exact List.rdropWhile_idempotent _ _

/-- The last character of a trimmed text is the last one that is no blank. -/
theorem getLast?_trimRight (s : List Char) :
    (trimRight s).getLast? = s.reverse.find? fun c => !isBlank c := by
  rw [trimRight, List.getLast?_reverse]
  induction s.reverse with
  | nil => rfl
  | cons c r ih =>
    by_cases hc : isBlank c = true
    · rw [List.dropWhile_cons_of_pos hc, ih, List.find?_cons_of_neg (by simp [hc])]
    · rw [List.dropWhile_cons_of_neg hc, List.find?_cons_of_pos (by simp [hc])]
      rfl

theorem getLast?_trim (s : List Char) : (trim s).getLast? = (trimRight s).getLast? := by
  have hlead : (s.takeWhile isBlank).reverse.find? (fun c => !isBlank c) = none := by
    rw [List.find?_eq_none]
    intro c hc
    rw [List.mem_reverse] at hc
    simp [List.mem_takeWhile_imp hc]
  have hs : s = s.takeWhile isBlank ++ s.dropWhile isBlank := List.takeWhile_append_dropWhile.symm
  rw [trim, getLast?_trimRight, getLast?_trimRight, trimLeft]
  conv_rhs => rw [hs, List.reverse_append, List.find?_append, hlead, Option.or_none]

/-- A text is its trimmed middle between blanks. -/
theorem exists_trim (s : List Char) :
    ∃ a b, s = a ++ (trim s ++ b) ∧ (∀ c ∈ a, isBlank c = true) ∧ ∀ c ∈ b, isBlank c = true := by
  refine ⟨s.takeWhile isBlank, (trimLeft s).rtakeWhile isBlank, ?_,
    fun c hc => List.mem_takeWhile_imp hc, fun c hc => List.mem_rtakeWhile_imp hc⟩
  rw [trim, trimRight_eq, List.rdropWhile_append_rtakeWhile, trimLeft,
    List.takeWhile_append_dropWhile]

theorem trim_append_left {lead : List Char} (h : ∀ c ∈ lead, isBlank c = true) (s : List Char) :
    trim (lead ++ s) = trim s := by
  rw [trim, trimLeft, List.dropWhile_append_of_pos h, trim, trimLeft]

theorem trimRight_append_right {tail : List Char} (h : ∀ c ∈ tail, isBlank c = true)
    (s : List Char) : trimRight (s ++ tail) = trimRight s := by
  have hreverse : ∀ c ∈ tail.reverse, isBlank c = true := by
    intro c hc
    exact h c (List.mem_reverse.1 hc)
  rw [trimRight, List.reverse_append, List.dropWhile_append_of_pos hreverse, trimRight]

theorem trim_append_right {tail : List Char} (h : ∀ c ∈ tail, isBlank c = true) (s : List Char) :
    trim (s ++ tail) = trim s := by
  rw [trim, trimLeft, List.dropWhile_append]
  split
  · next hempty =>
    have hnil : s.dropWhile isBlank = [] := List.isEmpty_iff.1 hempty
    have htail : tail.dropWhile isBlank = [] := by
      rw [List.dropWhile_eq_nil_iff]
      exact h
    rw [htail, trim, trimLeft, hnil]
  · exact trimRight_append_right h _

theorem trim_trimRight (s : List Char) : trim (trimRight s) = trim s := by
  have hs : s = trimRight s ++ s.rtakeWhile isBlank :=
    List.rdropWhile_append_rtakeWhile.symm
  have hblank : ∀ c ∈ s.rtakeWhile isBlank, isBlank c = true :=
    fun c hc => List.mem_rtakeWhile_imp hc
  conv_rhs => rw [hs]
  exact (trim_append_right hblank _).symm

theorem trim_trim (s : List Char) : trim (trim s) = trim s := by
  obtain ⟨lead, tail, hs, hlead, htail⟩ := exists_trim s
  conv_rhs => rw [hs, trim_append_left hlead, trim_append_right htail]

/-- Trimming drops nothing but blanks. -/
theorem mem_trim {s : List Char} {c : Char} (h : c ∈ s) (hc : isBlank c = false) : c ∈ trim s := by
  obtain ⟨lead, tail, hs, hlead, htail⟩ := exists_trim s
  rw [hs, List.mem_append, List.mem_append] at h
  rcases h with h | h | h
  · rw [hlead c h] at hc
    cases hc
  · exact h
  · rw [htail c h] at hc
    cases hc

theorem trimRight_append_cons (pre post : List Char) {c : Char} (hc : isBlank c = false) :
    trimRight (pre ++ c :: post) = pre ++ c :: trimRight post := by
  have hstop : (c :: pre.reverse).dropWhile isBlank = c :: pre.reverse :=
    List.dropWhile_cons_of_neg (by simp [hc])
  rw [trimRight, List.reverse_append, List.reverse_cons, List.append_assoc,
    List.singleton_append, List.dropWhile_append, trimRight]
  split
  · next hempty =>
    rw [List.isEmpty_iff.1 hempty, hstop]
    simp
  · simp

theorem trimRight_of_getLast? {s : List Char} {c : Char} (h : s.getLast? = some c)
    (hc : isBlank c = false) : trimRight s = s := by
  obtain ⟨rest, rfl⟩ := List.getLast?_eq_some_iff.1 h
  rw [trimRight, List.reverse_append, List.reverse_singleton, List.singleton_append,
    List.dropWhile_cons_of_neg (by simp [hc]), List.reverse_cons, List.reverse_reverse]

/-- Where a text is not blank from some place on, only what is before it is trimmed. -/
theorem trim_append_cons {pre post : List Char} {c d : Char} (hc : isBlank c = false)
    (hlast : (c :: post).getLast? = some d) (hd : isBlank d = false) :
    trim (pre ++ c :: post) = trimLeft pre ++ c :: post := by
  have hleft : trimLeft (pre ++ c :: post) = trimLeft pre ++ c :: post := by
    rw [trimLeft, List.dropWhile_append]
    split
    · next hempty =>
      rw [List.dropWhile_cons_of_neg (by simp [hc]), trimLeft, List.isEmpty_iff.1 hempty]
      rfl
    · rfl
  rw [trim, hleft]
  refine trimRight_of_getLast? ?_ hd
  rw [List.getLast?_append, hlast]
  rfl

/-! ## The last occurrence of a character -/

theorem lastIndexOf?_eq_some {c : Char} {pre post : List Char} (h : c ∉ post) :
    lastIndexOf? c (pre ++ c :: post) = some pre.length := by
  have hpost : (post.reverse.findIdx? (· == c)) = none := by
    rw [List.findIdx?_eq_none_iff]
    intro d hd
    rw [List.mem_reverse] at hd
    by_cases hdc : d = c
    · exact absurd (hdc ▸ hd) h
    · simpa using hdc
  have hfound : (pre ++ c :: post).reverse.findIdx? (· == c) = some post.length := by
    rw [List.reverse_append, List.reverse_cons, List.append_assoc, List.findIdx?_append, hpost]
    simp [List.findIdx?_cons]
  rw [lastIndexOf?, hfound]
  simp only [List.length_append, List.length_cons, Option.some.injEq]
  omega

theorem lastIndexOf?_cases {c : Char} {s : List Char} {i : Nat} (h : lastIndexOf? c s = some i) :
    ∃ pre post, s = pre ++ c :: post ∧ c ∉ post := by
  by_cases hmem : c ∈ s
  · obtain ⟨back, front, hsplit, hnot⟩ := List.eq_append_cons_of_mem (List.mem_reverse.2 hmem)
    refine ⟨front.reverse, back.reverse, ?_, ?_⟩
    · have hs := congrArg List.reverse hsplit
      rw [List.reverse_reverse, List.reverse_append, List.reverse_cons, List.append_assoc] at hs
      exact hs
    · rw [List.mem_reverse]
      exact hnot
  · have hnone : s.reverse.findIdx? (· == c) = none := by
      rw [List.findIdx?_eq_none_iff]
      intro d hd
      rw [List.mem_reverse] at hd
      by_cases hdc : d = c
      · exact absurd (hdc ▸ hd) hmem
      · simpa using hdc
    rw [lastIndexOf?, hnone] at h
    cases h

end Text

/-! ## Counts -/

theorem Text.digitValue?_le {c : Char} {d : Nat} (h : Text.digitValue? c = some d) : d ≤ 9 := by
  unfold Text.digitValue? at h
  split at h
  · next start hfound =>
    have hrange := List.find?_some hfound
    simp only [Bool.and_eq_true, decide_eq_true_eq] at hrange
    obtain rfl := Option.some.inj h
    omega
  · cases h

/-- A character that stands for a digit is no sign, however it is made plain. -/
theorem Numeral.plainDigit_ne_minus {c : Char} (h : Text.isDigitSign c = true) :
    Numeral.plainDigit c ≠ '-' := by
  have hdigits : ∀ d : Fin 10, Char.ofNat ('0'.toNat + d) ≠ '-' := by decide
  unfold Numeral.plainDigit
  split
  · next d hd =>
    have hle := Text.digitValue?_le hd
    exact hdigits ⟨d, by omega⟩
  · rintro rfl
    revert h
    decide

namespace Numeral

/-- A number made of digit signs alone is not negative. -/
theorem readInt?_nonneg {s : List Char} {n : Int} (hdigits : ∀ c ∈ s, Text.isDigitSign c = true)
    (h : readInt? 10 s = some n) : 0 ≤ n := by
  have hsign : (splitSign ((s.map plainDigit).dropWhile isMargin)).1 = false := by
    unfold splitSign
    split
    · next rest hrest =>
      have hmem : '-' ∈ (s.map plainDigit).dropWhile isMargin := by
        rw [hrest]
        exact List.mem_cons_self
      obtain ⟨c, hc, hminus⟩ := List.mem_map.1 (List.dropWhile_subset _ hmem)
      exact absurd hminus (plainDigit_ne_minus (hdigits c hc))
    · rfl
    · rfl
  unfold readInt? at h
  generalize splitSign ((s.map plainDigit).dropWhile isMargin) = split at h hsign
  obtain ⟨negative, body⟩ := split
  obtain rfl : negative = false := hsign
  dsimp only at h
  cases hread : readDigits 10 true 0 (skipBaseMark 10 body) with
  | none =>
    rw [hread] at h
    cases h
  | some found =>
    obtain ⟨k, rest⟩ := found
    rw [hread] at h
    dsimp only at h
    split at h
    · obtain rfl := Option.some.inj h
      exact Int.natCast_nonneg k
    · cases h

end Numeral

namespace CType

/-- A count has no sign. -/
theorem count_nonneg {other n : Int} {s : List Char} (hother : 0 ≤ other)
    (h : count other s = .ok n) : 0 ≤ n := by
  unfold count at h
  split at h
  · next hdigits =>
    simp only [Text.allDigitSigns, Bool.and_eq_true, List.all_eq_true] at hdigits
    split at h
    · next k hk =>
      obtain rfl := Except.ok.inj h
      exact Numeral.readInt?_nonneg hdigits.2 hk
    · cases h
  · obtain rfl := Except.ok.inj h
    exact hother

/-- Where a count is a number, it does not matter what would be taken if it were none. -/
theorem count_of_digits {s : List Char} (h : Text.allDigitSigns s = true) (other other' : Int) :
    count other s = count other' s := by
  rw [count, count, if_pos h, if_pos h]

/-! ## The three kinds of types -/

theorem endsIn_trim (mark : Char) (s : List Char) : endsIn mark (Text.trim s) = endsIn mark s := by
  have hright : Text.trimRight (Text.trim s) = Text.trim s := Text.trimRight_trimRight _
  rw [endsIn, hright, Text.getLast?_trim, endsIn]

/-- The size of a type, by the last character of its text. -/
theorem sizeOfText_eq (sizes : StructSizes) (text : List Char) :
    sizeOfText sizes text =
      if endsIn '*' text then .ok pointerSize
      else if endsIn ']' text then
        match beforeBracket? (Text.trim text) with
        | some e =>
          match sizeOfText sizes e with
          | .ok size =>
            match count 1 ((bracketed? (Text.trim text)).getD []) with
            | .ok n => .ok (size * n)
            | .error fault => .error fault
          | .error fault => .error fault
        | none => .error .badValue
      else .ok (wordsSize sizes ((Text.words (Text.trim text)).map String.ofList)) := by
  rw [sizeOfText, endsIn_trim, endsIn_trim]
  split
  · rfl
  · split
    · split
      · next e he => exact he ▸ rfl
      · next he => exact he ▸ rfl
    · rfl

/-- A type is a pointer, an array of a type that takes less text, or a few words. -/
theorem sizeOfText_cases {sizes : StructSizes} {text : List Char} {n : Int}
    (h : sizeOfText sizes text = .ok n) :
    n = pointerSize ∨
    (endsIn ']' text = true ∧ ∃ e size k, e.length < text.length ∧ sizeOfText sizes e = .ok size ∧
      count 1 ((bracketed? (Text.trim text)).getD []) = .ok k ∧ n = size * k) ∨
    (endsIn ']' text = false ∧
      n = wordsSize sizes ((Text.words (Text.trim text)).map String.ofList)) := by
  rw [sizeOfText_eq] at h
  split at h
  · exact Or.inl (Except.ok.inj h).symm
  · split at h
    · next harray =>
      cases he : beforeBracket? (Text.trim text) with
      | none =>
        rw [he] at h
        cases h
      | some e =>
        rw [he] at h
        dsimp only at h
        cases hsize : sizeOfText sizes e with
        | error fault =>
          rw [hsize] at h
          cases h
        | ok size =>
          rw [hsize] at h
          dsimp only at h
          cases hk : count 1 ((bracketed? (Text.trim text)).getD []) with
          | error fault =>
            rw [hk] at h
            cases h
          | ok k =>
            rw [hk] at h
            -- the text of the element is what stands before the last bracket
            have hlt : e.length < text.length :=
              Nat.lt_of_lt_of_le (length_beforeBracket?_lt he) (length_trim_le text)
            exact Or.inr (Or.inl ⟨harray, e, size, k, hlt, hsize, rfl, (Except.ok.inj h).symm⟩)
    · next hwords =>
      exact Or.inr (Or.inr ⟨by simpa using hwords, (Except.ok.inj h).symm⟩)

/-! ## Bounds -/

theorem scalarSize_pos (word : String) : 0 < (scalarSizes.lookup word).getD defaultSize := by
  have hall : ∀ entries : List (String × Int), (∀ e ∈ entries, 0 < e.2) →
      0 < (entries.lookup word).getD defaultSize := by
    intro entries hpos
    induction entries with
    | nil =>
      show (0 : Int) < defaultSize
      decide
    | cons e entries ih =>
      rw [List.lookup_cons]
      split
      · exact hpos e List.mem_cons_self
      · exact ih fun f hf => hpos f (List.mem_cons_of_mem _ hf)
  exact hall scalarSizes (by decide)

/-- Words spell a size of the table, or one that is positive. -/
theorem wordsSize_cases (sizes : StructSizes) (words : List String) :
    0 < wordsSize sizes words ∨ ∃ name, (name, wordsSize sizes words) ∈ sizes := by
  unfold wordsSize
  split
  · exact Or.inl (by decide)
  · next w rest _ =>
    split
    · cases hfound : sizes.find? (" ".intercalate ((w :: rest).take 2)) with
      | none => exact Or.inl (by decide)
      | some n =>
        obtain ⟨name, hname, _⟩ := Table.mem_of_find? hfound
        exact Or.inr ⟨name, hname⟩
    · split
      · exact Or.inl (scalarSize_pos _)
      · exact Or.inl (scalarSize_pos _)

/-- No type has a negative size. -/
theorem sizeOfText_nonneg {sizes : StructSizes} (hsizes : ∀ e ∈ sizes, 0 ≤ e.2)
    {text : List Char} {n : Int} (h : sizeOfText sizes text = .ok n) : 0 ≤ n := by
  induction hlength : text.length using Nat.strong_induction_on generalizing text n with
  | _ k ih =>
    rcases sizeOfText_cases h with rfl | ⟨_, e, size, m, hlt, hsize, hm, rfl⟩ | ⟨_, rfl⟩
    · decide
    · have h₁ : 0 ≤ size := ih e.length (hlength ▸ hlt) hsize rfl
      have h₂ : 0 ≤ m := count_nonneg (by decide) hm
      exact Int.mul_nonneg h₁ h₂
    · rcases wordsSize_cases sizes ((Text.words (Text.trim text)).map String.ofList) with
        hpos | ⟨name, hname⟩
      · omega
      · exact hsizes _ hname

theorem size_nonneg {sizes : StructSizes} (hsizes : ∀ e ∈ sizes, 0 ≤ e.2) {t : CType} {n : Int}
    (h : t.size sizes = .ok n) : 0 ≤ n :=
  sizeOfText_nonneg hsizes h

/-- What is no array takes some space, if every struct does. -/
theorem size_pos_of_not_isArray {sizes : StructSizes} (hsizes : ∀ e ∈ sizes, 0 < e.2) {t : CType}
    {n : Int} (hscalar : t.isArray = false) (h : t.size sizes = .ok n) : 0 < n := by
  rcases sizeOfText_cases h with rfl | ⟨harray, _⟩ | ⟨_, rfl⟩
  · decide
  · rw [isArray, harray] at hscalar
    cases hscalar
  · rcases wordsSize_cases sizes ((Text.words (Text.trim t.text.toList)).map String.ofList) with
      hpos | ⟨name, hname⟩
    · exact hpos
    · have hpos := hsizes _ hname
      exact hpos

/-! ## Arrays -/

/-- Only the trimmed text counts. -/
theorem sizeOfText_congr (sizes : StructSizes) {a b : List Char} (h : Text.trim a = Text.trim b) :
    sizeOfText sizes a = sizeOfText sizes b := by
  have hmark : ∀ mark, endsIn mark a = endsIn mark b := by
    intro mark
    rw [← endsIn_trim, h, endsIn_trim]
  rw [sizeOfText_eq, sizeOfText_eq, hmark, hmark, h]

/-- The text of an array that has elements: the text of an element type, and a number in
brackets. -/
theorem length_cases {t : CType} {n : Int} (harray : t.isArray = true) (hlength : t.length = .ok n)
    (hn : 1 ≤ n) :
    ∃ pre digits, t.text.toList = pre ++ '[' :: (digits ++ [']']) ∧ '[' ∉ digits ∧
      Text.allDigitSigns (Text.trim digits) = true ∧ count 0 (Text.trim digits) = .ok n := by
  rw [length, bracketed?] at hlength
  cases hi : Text.lastIndexOf? '[' t.text.toList with
  | none =>
    rw [hi] at hlength
    cases hlength
  | some i =>
    obtain ⟨pre, post, hs, hpost⟩ := Text.lastIndexOf?_cases hi
    rw [hs, Text.lastIndexOf?_eq_some hpost] at hlength
    have hdrop : (pre ++ '[' :: post).drop (pre.length + 1) = post := by
      rw [← List.drop_drop, List.drop_left]
      rfl
    dsimp only at hlength
    rw [hdrop] at hlength
    have hdigits : Text.allDigitSigns (Text.trim post.dropLast) = true := by
      by_contra hnot
      rw [count, if_neg hnot] at hlength
      obtain rfl := Except.ok.inj hlength
      omega
    -- blanks behind the bracket would leave the bracket among the digits
    have hend : (Text.trimRight t.text.toList).getLast? = some ']' := by
      rw [isArray, endsIn, beq_iff_eq] at harray
      exact harray
    have hlast : post.getLast? = some ']' := by
      rw [Text.getLast?_trimRight, hs, List.reverse_append, List.reverse_cons, List.append_assoc]
        at hend
      rcases List.eq_nil_or_concat post with rfl | ⟨front, d, rfl⟩
      · rw [List.reverse_nil, List.nil_append, List.singleton_append,
          List.find?_cons_of_pos (by decide)] at hend
        cases hend
      · rw [List.concat_eq_append] at hend hdigits ⊢
        rw [List.reverse_append, List.reverse_singleton, List.singleton_append,
          List.cons_append] at hend
        by_cases hd : Text.isBlank d = true
        · rw [List.find?_cons_of_neg (by simp [hd]), List.find?_append] at hend
          have hbracket : ']' ∈ front := by
            cases hfront : front.reverse.find? (fun c => !Text.isBlank c) with
            | some c =>
              rw [hfront] at hend
              obtain rfl := Option.some.inj hend
              exact List.mem_reverse.1 (List.mem_of_find?_eq_some hfront)
            | none =>
              rw [hfront, Option.none_or, List.singleton_append,
                List.find?_cons_of_pos (by decide)] at hend
              cases hend
          rw [List.dropLast_concat, Text.allDigitSigns, Bool.and_eq_true, List.all_eq_true]
            at hdigits
          exact absurd (hdigits.2 ']' (Text.mem_trim hbracket (by decide))) (by decide)
        · rw [List.find?_cons_of_pos (by simp [hd])] at hend
          obtain rfl := Option.some.inj hend
          rw [List.getLast?_append]
          rfl
    obtain ⟨digits, rfl⟩ := List.getLast?_eq_some_iff.1 hlast
    rw [List.dropLast_concat] at hlength hdigits
    exact ⟨pre, digits, hs, fun h => hpost (List.mem_append_left _ h), hdigits, hlength⟩

section Bracketed

variable {pre inside : List Char} (hinside : '[' ∉ inside)

include hinside

theorem lastIndexOf?_bracketed :
    Text.lastIndexOf? '[' (pre ++ '[' :: (inside ++ [']'])) = some pre.length :=
  Text.lastIndexOf?_eq_some (by simpa using hinside)

/-- In front of the last bracket stands the element type. -/
theorem beforeBracket?_bracketed :
    beforeBracket? (pre ++ '[' :: (inside ++ [']'])) = some (Text.trimRight pre) := by
  rw [beforeBracket?, lastIndexOf?_bracketed hinside]
  dsimp only
  rw [List.take_left]

/-- Between the last bracket and the end stands the count. -/
theorem bracketed?_bracketed :
    bracketed? (pre ++ '[' :: (inside ++ [']'])) = some (Text.trim inside) := by
  rw [bracketed?, lastIndexOf?_bracketed hinside]
  dsimp only
  rw [← List.drop_drop, List.drop_left]
  show some (Text.trim (inside ++ [']']).dropLast) = _
  rw [List.dropLast_concat]

/-- The size of an array is that of an element as often as the count says. -/
theorem sizeOfText_bracketed (sizes : StructSizes) :
    sizeOfText sizes (pre ++ '[' :: (inside ++ [']'])) = do
      let size ← sizeOfText sizes pre
      return size * (← count 1 (Text.trim inside)) := by
  have hlast : ('[' :: (inside ++ [']'])).getLast? = some ']' := by
    rw [← List.cons_append, List.getLast?_append]
    rfl
  have hwhole : (pre ++ '[' :: (inside ++ [']'])).getLast? = some ']' := by
    rw [List.getLast?_append, hlast]
    rfl
  have hends : ∀ mark, endsIn mark (pre ++ '[' :: (inside ++ [']'])) = (']' == mark) := by
    intro mark
    rw [endsIn, Text.trimRight_of_getLast? hwhole (by decide), hwhole]
    rfl
  have htrim : Text.trim (pre ++ '[' :: (inside ++ [']']))
      = Text.trimLeft pre ++ '[' :: (inside ++ [']']) :=
    Text.trim_append_cons (by decide) hlast (by decide)
  have hinner : sizeOfText sizes (Text.trimRight (Text.trimLeft pre)) = sizeOfText sizes pre :=
    sizeOfText_congr sizes (Text.trim_trim pre)
  rw [sizeOfText_eq, hends, hends, if_neg (by decide), if_pos (beq_self_eq_true _), htrim,
    beforeBracket?_bracketed hinside, bracketed?_bracketed hinside]
  dsimp only
  rw [hinner, Option.getD_some]
  cases sizeOfText sizes pre with
  | error fault => rfl
  | ok size => cases count 1 (Text.trim inside) <;> rfl

end Bracketed

/-- The size of an array with elements is that of an element as often as there are elements. -/
theorem size_array_eq (sizes : StructSizes) {t element : CType} {n : Int}
    (harray : t.isArray = true) (helement : t.element = .ok element) (hlength : t.length = .ok n)
    (hn : 1 ≤ n) : t.size sizes = (element.size sizes).map fun size => size * n := by
  obtain ⟨pre, digits, htext, hnot, hdigits, hcount⟩ := length_cases harray hlength hn
  have hwhole : Text.trimRight t.text.toList = t.text.toList := by
    refine Text.trimRight_of_getLast? (c := ']') ?_ (by decide)
    rw [htext, ← List.cons_append, ← List.append_assoc, List.getLast?_append]
    rfl
  obtain rfl : element = ⟨String.ofList (Text.trimRight pre)⟩ := by
    rw [CType.element, if_pos harray, hwhole, htext, beforeBracket?_bracketed hnot] at helement
    exact (Except.ok.inj helement).symm
  rw [size, htext, sizeOfText_bracketed hnot, count_of_digits hdigits 1 0, hcount, CType.size,
    String.toList_ofList, sizeOfText_congr sizes (Text.trim_trimRight pre)]
  cases sizeOfText sizes pre with
  | error fault => rfl
  | ok size => rfl

/-- An array with elements takes the space of all of them. -/
theorem size_array {sizes : StructSizes} {t element : CType} {n total : Int}
    (harray : t.isArray = true) (helement : t.element = .ok element) (hlength : t.length = .ok n)
    (hn : 1 ≤ n) (h : t.size sizes = .ok total) :
    ∃ size, element.size sizes = .ok size ∧ total = size * n := by
  rw [size_array_eq sizes harray helement hlength hn] at h
  cases hsize : element.size sizes with
  | error fault =>
    rw [hsize] at h
    cases h
  | ok size =>
    rw [hsize] at h
    exact ⟨size, rfl, (Except.ok.inj h).symm⟩

/-- Every array in the type has an element: a type that is no array, or an array that has elements
of such a type. -/
inductive Filled : CType → Prop
  | single {t : CType} (h : t.isArray = false) : Filled t
  | array {t element : CType} {n : Int} (harray : t.isArray = true)
      (helement : t.element = .ok element) (hlength : t.length = .ok n) (hn : 1 ≤ n)
      (h : Filled element) : Filled t

theorem Filled.array_cases {t : CType} (h : t.Filled) (harray : t.isArray = true) :
    ∃ element n, t.element = .ok element ∧ t.length = .ok n ∧ 1 ≤ n ∧ element.Filled := by
  cases h with
  | single hnot =>
    rw [hnot] at harray
    cases harray
  | array _ helement hlength hn h => exact ⟨_, _, helement, hlength, hn, h⟩

/-- A filled type takes some space, if every struct does. -/
theorem Filled.size_pos {sizes : StructSizes} (hsizes : ∀ e ∈ sizes, 0 < e.2) {t : CType} {n : Int}
    (hfilled : t.Filled) (h : t.size sizes = .ok n) : 0 < n := by
  induction hfilled generalizing n with
  | single hscalar => exact size_pos_of_not_isArray hsizes hscalar h
  | array harray helement hlength hn _ ih =>
    obtain ⟨size, hsize, rfl⟩ := size_array harray helement hlength hn h
    exact Int.mul_pos (ih hsize) (by omega)

/-- Only an array can be without a size. -/
theorem exists_size_of_not_isArray (sizes : StructSizes) {t : CType} (h : t.isArray = false) :
    ∃ n, t.size sizes = .ok n := by
  have hbracket : endsIn ']' t.text.toList = false := h
  rw [size, sizeOfText_eq, hbracket, if_neg Bool.false_ne_true]
  split
  · exact ⟨_, rfl⟩
  · exact ⟨_, rfl⟩

/-- A filled type has a size. -/
theorem Filled.exists_size (sizes : StructSizes) {t : CType} (h : t.Filled) :
    ∃ n, t.size sizes = .ok n := by
  induction h with
  | single hscalar => exact exists_size_of_not_isArray sizes hscalar
  | array harray helement hlength hn _ ih =>
    obtain ⟨size, hsize⟩ := ih
    exact ⟨_, by rw [size_array_eq sizes harray helement hlength hn, hsize]; rfl⟩

/-! ## Structs inside -/

/-- The struct that words spell. -/
def spelledStruct? (words : List String) : Option String :=
  match words.filter fun w => !qualifiers.contains w with
  | [] => none
  | w :: rest => if w = "struct" then some (" ".intercalate ((w :: rest).take 2)) else none

/-- The struct that an object with this type text holds by value: none if it is a pointer, that of
its elements if it is an array. -/
def heldIn? (text : List Char) : Option String :=
  let s := Text.trim text
  if endsIn '*' s then none
  else if endsIn ']' s then
    match _found : beforeBracket? s with
    | some e => heldIn? e
    | none => none
  else spelledStruct? ((Text.words s).map String.ofList)
termination_by text.length
decreasing_by
  exact Nat.lt_of_lt_of_le (length_beforeBracket?_lt _found) (length_trim_le text)

/-- The struct that an object of the type holds by value. -/
def heldStruct? (t : CType) : Option String :=
  heldIn? t.text.toList

theorem wordsSize_congr {sizes sizes' : StructSizes} {words : List String}
    (h : ∀ name, spelledStruct? words = some name → sizes.find? name = sizes'.find? name) :
    wordsSize sizes words = wordsSize sizes' words := by
  unfold wordsSize
  unfold spelledStruct? at h
  generalize words.filter (fun w => !qualifiers.contains w) = telling at h ⊢
  cases telling with
  | nil => rfl
  | cons w rest =>
    dsimp only at h ⊢
    by_cases hstruct : w = "struct"
    · rw [if_pos hstruct] at h
      rw [if_pos hstruct, if_pos hstruct, h _ rfl]
    · rw [if_neg hstruct, if_neg hstruct]

/-- Two tables that agree on the struct inside a type give it the same size. -/
theorem sizeOfText_of_held {sizes sizes' : StructSizes} {text : List Char}
    (h : ∀ name, heldIn? text = some name → sizes.find? name = sizes'.find? name) :
    sizeOfText sizes text = sizeOfText sizes' text := by
  induction hlength : text.length using Nat.strong_induction_on generalizing text with
  | _ k ih =>
    rw [sizeOfText_eq, sizeOfText_eq]
    rw [heldIn?, endsIn_trim, endsIn_trim] at h
    split
    · rfl
    · next hpointer =>
      rw [if_neg hpointer] at h
      split
      · next harray =>
        rw [if_pos harray] at h
        cases he : beforeBracket? (Text.trim text) with
        | none => rfl
        | some e =>
          have hlt : e.length < text.length :=
            Nat.lt_of_lt_of_le (length_beforeBracket?_lt he) (length_trim_le text)
          have hinner : sizeOfText sizes e = sizeOfText sizes' e := by
            refine ih e.length (hlength ▸ hlt) ?_ rfl
            intro name hname
            refine h name ?_
            split
            · next e' he' =>
              obtain rfl := Option.some.inj (he.symm.trans he')
              exact hname
            · next hnone =>
              rw [he] at hnone
              cases hnone
          dsimp only
          rw [hinner]
      · next harray =>
        rw [if_neg harray] at h
        rw [wordsSize_congr h]

theorem size_of_held {sizes sizes' : StructSizes} {t : CType}
    (h : ∀ name, t.heldStruct? = some name → sizes.find? name = sizes'.find? name) :
    t.size sizes = t.size sizes' :=
  sizeOfText_of_held h

/-! ## Stars -/

theorem withStars_zero (t : CType) : t.withStars 0 = t := by
  show (⟨t.text ++ ""⟩ : CType) = t
  rw [String.append_empty]

end CType

end Stepwise
