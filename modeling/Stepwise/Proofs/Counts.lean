/-
Counts in types.

An array's count is written into the text of its type and read back from there whenever the
type is asked for its elements or its size. What is written is decimal digits, and digits
are read back as the number that they were written for: `readInt?_toDigits`. So the type of
`n` things of a type takes as much space as `n` of them.
-/
import Stepwise.Proofs.Sizes

set_option autoImplicit false

namespace Stepwise

/-! ## Digits -/

/-- A decimal digit is one of ten characters. -/
theorem Text.exists_digit {c : Char} (h : c.isDigit = true) :
    ∃ d : Fin 10, c = Char.ofNat ('0'.toNat + d) := by
  simp only [Char.isDigit, ge_iff_le, Bool.and_eq_true, decide_eq_true_eq] at h
  have hlow : '0'.toNat ≤ c.toNat := h.1
  have hhigh : c.toNat ≤ '9'.toNat := h.2
  have hzero : '0'.toNat = 48 := rfl
  have hnine : '9'.toNat = 57 := rfl
  refine ⟨⟨c.toNat - '0'.toNat, by omega⟩, ?_⟩
  rw [Nat.add_sub_cancel' hlow, Char.ofNat_toNat]

namespace Numeral

theorem plainDigit_of_isDigit {c : Char} (h : c.isDigit = true) : plainDigit c = c := by
  obtain ⟨d, rfl⟩ := Text.exists_digit h
  revert d
  decide

theorem digitValue?_of_isDigit {c : Char} (h : c.isDigit = true) :
    digitValue? c = some (c.toNat - '0'.toNat) := by
  obtain ⟨d, rfl⟩ := Text.exists_digit h
  revert d
  decide

/-- A digit is neither a blank, nor a sign, nor the underscore, and its value is below ten. -/
theorem digit_is_plain {c : Char} (h : c.isDigit = true) :
    Text.isBlank c = false ∧ c ≠ '-' ∧ c ≠ '+' ∧ c ≠ '_' ∧ c.toNat - '0'.toNat < 10 := by
  obtain ⟨d, rfl⟩ := Text.exists_digit h
  revert d
  decide

/-- A run of digits is read to its end. -/
theorem readDigits_of_isDigit {s : List Char} (h : ∀ c ∈ s, c.isDigit = true) {owed : Bool}
    (howed : owed = true → s ≠ []) (acc : Nat) :
    readDigits 10 owed acc s = some (Nat.ofDigitChars 10 s acc, []) := by
  induction s generalizing owed acc with
  | nil =>
    rw [readDigits, if_neg fun h => howed h rfl]
    rfl
  | cons c s ih =>
    rw [List.forall_mem_cons] at h
    obtain ⟨_, _, _, hunderscore, hlt⟩ := digit_is_plain h.1
    rw [readDigits, if_neg hunderscore, digitValue?_of_isDigit h.1]
    dsimp only
    rw [if_pos hlt, ih h.2 (fun h => absurd h Bool.false_ne_true), Nat.ofDigitChars_cons,
      Nat.mul_comm]

/-- A number of digits is read as what they spell. -/
theorem readInt?_of_isDigit {s : List Char} (h : ∀ c ∈ s, c.isDigit = true) (hne : s ≠ []) :
    readInt? 10 s = some (Nat.ofDigitChars 10 s 0 : Int) := by
  have hplain : s.map plainDigit = s := by
    rw [List.map_congr_left fun c hc => plainDigit_of_isDigit (h c hc), List.map_id']
  obtain ⟨c, rest, rfl⟩ := List.exists_cons_of_ne_nil hne
  obtain ⟨hblank, hminus, hplus, _⟩ := digit_is_plain (h c List.mem_cons_self)
  have hstart : (c :: rest).dropWhile isMargin = c :: rest :=
    List.dropWhile_cons_of_neg (by simp [isMargin, hblank])
  have hsign : splitSign (c :: rest) = (false, c :: rest) := by
    unfold splitSign
    split
    · next heq => exact absurd (List.cons.inj heq).1 hminus
    · next heq => exact absurd (List.cons.inj heq).1 hplus
    · rfl
  have hmark : skipBaseMark 10 (c :: rest) = c :: rest := by
    unfold skipBaseMark
    split
    · next heq =>
      rw [if_neg (by simp), heq]
    · rfl
  rw [readInt?, hplain, hstart, hsign]
  dsimp only
  rw [hmark, readDigits_of_isDigit h fun _ => hne]
  rfl

/-- Digits are read back as the number that they were written for. -/
theorem readInt?_toDigits (n : Nat) : readInt? 10 (Nat.toDigits 10 n) = some (n : Int) := by
  have hdigits : ∀ c ∈ Nat.toDigits 10 n, c.isDigit = true :=
    fun _ => Nat.isDigit_of_mem_toDigits (by decide) (by decide)
  rw [readInt?_of_isDigit hdigits Nat.toDigits_ne_nil, Nat.ofDigitChars_ten_toDigits]

end Numeral

/-! ## Array types -/

theorem Text.trim_eq_self {s : List Char} (h : ∀ c ∈ s, isBlank c = false) : trim s = s := by
  have hleft : trimLeft s = s := by
    rw [trimLeft, List.dropWhile_eq_self_iff]
    intro hpos
    simp [h _ (List.getElem_mem hpos)]
  rw [trim, hleft]
  cases hlast : s.getLast? with
  | none => rw [List.getLast?_eq_none_iff.1 hlast]; rfl
  | some c => exact trimRight_of_getLast? hlast (h c (List.mem_of_getLast? hlast))

namespace CType

variable (t : CType)

theorem toList_arrayOf (count : String) :
    (t.arrayOf count).text.toList = t.text.toList ++ '[' :: (count.toList ++ [']']) := by
  simp [arrayOf]

/-- The number that was written as a count is its value. -/
theorem count_decimal (other : Int) (n : Nat) :
    count other (Text.trim (Numeral.decimal n).toList) = .ok (n : Int) := by
  have hdigit : ∀ c ∈ Nat.toDigits 10 n, c.isDigit = true :=
    fun _ => Nat.isDigit_of_mem_toDigits (by decide) (by decide)
  have hsigns : Text.allDigitSigns (Nat.toDigits 10 n) = true := by
    simp only [Text.allDigitSigns, Bool.and_eq_true, List.all_eq_true]
    refine ⟨by simp [Nat.toDigits_ne_nil], fun c hc => ?_⟩
    simp [Text.isDigitSign, Text.isDecimal, hdigit c hc]
  rw [Numeral.toList_decimal, Text.trim_eq_self fun c hc => (Numeral.digit_is_plain (hdigit c hc)).1,
    count, if_pos hsigns, Numeral.readInt?_toDigits]

theorem isArray_arrayOf (count : String) : (t.arrayOf count).isArray = true := by
  rw [isArray, endsIn, toList_arrayOf, ← List.cons_append, ← List.append_assoc,
    Text.trimRight_of_getLast? List.getLast?_concat (by decide), List.getLast?_concat]
  rfl

theorem not_mem_decimal (n : Nat) : '[' ∉ (Numeral.decimal n).toList := by
  rw [Numeral.toList_decimal]
  intro hmem
  exact absurd (Nat.isDigit_of_mem_toDigits (by decide) (by decide) hmem) (by decide)

/-- The elements of an array of a type are of that type, but for blanks at its end. -/
theorem element_arrayOf (n : Nat) :
    (t.arrayOf (Numeral.decimal n)).element
      = .ok ⟨String.ofList (Text.trimRight t.text.toList)⟩ := by
  have hwhole : Text.trimRight (t.arrayOf (Numeral.decimal n)).text.toList
      = t.text.toList ++ '[' :: ((Numeral.decimal n).toList ++ [']']) := by
    rw [toList_arrayOf]
    refine Text.trimRight_of_getLast? (c := ']') ?_ (by decide)
    rw [← List.cons_append, ← List.append_assoc, List.getLast?_concat]
  rw [element, if_pos (isArray_arrayOf t _), hwhole, beforeBracket?_bracketed (not_mem_decimal n)]

theorem length_arrayOf (n : Nat) : (t.arrayOf (Numeral.decimal n)).length = .ok (n : Int) := by
  rw [length, toList_arrayOf, bracketed?_bracketed (not_mem_decimal n)]
  exact count_decimal 0 n

/-- An array takes as much space as all of its elements. -/
theorem size_arrayOf (sizes : StructSizes) (n : Nat) :
    (t.arrayOf (Numeral.decimal n)).size sizes
      = (t.size sizes).map fun size => size * (n : Int) := by
  rw [size, toList_arrayOf, sizeOfText_bracketed (not_mem_decimal n), count_decimal, size]
  cases sizeOfText sizes t.text.toList <;> rfl

end CType

end Stepwise
