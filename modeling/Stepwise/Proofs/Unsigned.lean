/-
Unsigned numbers in formats.

A conversion that shows a number without its sign shows the low thirty-two bits of it,
whatever length it has. A length that asks for sixty-four bits is dropped with the others,
so such a conversion is right as long as the low sixty-four bits are a number of thirty-two.
A numeral has just one number, so in every other case what is shown is wrong.
-/
import Stepwise.Proofs.Formats
import Mathlib.Algebra.Ring.Int.Defs

set_option autoImplicit false

namespace Stepwise

namespace Printf

/-! ## Numerals -/

/-- The base in which a letter shows a number without its sign. -/
def unsignedBase (letter : Char) : Nat :=
  if letter = 'u' then 10 else if letter = 'o' then 8 else 16

/-- The digits with which a letter shows a number without its sign; a capital letter has capital
ones. -/
def unsignedDigits (letter : Char) (n : Nat) : List Char :=
  let digits := Nat.toDigits (unsignedBase letter) n
  if letter = 'X' then digits.map Char.toUpper else digits

/-- Two numbers with the same digits are the same, in any base with digits of its own. -/
theorem toDigits_injective {base : Nat} (hbase : 1 < base) {shown : Char → Char}
    (hshown : ∀ i < base, ∀ j < base, shown i.digitChar = shown j.digitChar → i = j) {m n : Nat}
    (h : (Nat.toDigits base m).map shown = (Nat.toDigits base n).map shown) : m = n := by
  induction m using Nat.strongRecOn generalizing n with
  | ind m ih =>
    have hpos : 0 < base := by omega
    rw [Nat.toDigits_eq_if hbase, Nat.toDigits_eq_if (n := n) hbase] at h
    by_cases hm : m < base <;> by_cases hn : n < base
    · rw [if_pos hm, if_pos hn] at h
      exact hshown m hm n hn (by simpa using h)
    · rw [if_pos hm, if_neg hn] at h
      simpa using congrArg List.length h
    · rw [if_neg hm, if_pos hn] at h
      simpa using congrArg List.length h
    · rw [if_neg hm, if_neg hn, List.map_append, List.map_append] at h
      obtain ⟨hfront, hlast⟩ := List.append_inj' h rfl
      have hdiv : m / base = n / base := ih _ (Nat.div_lt_self (by omega) hbase) hfront
      have hmod : m % base = n % base :=
        hshown _ (Nat.mod_lt m hpos) _ (Nat.mod_lt n hpos) (by simpa using hlast)
      rw [← Nat.div_add_mod m base, ← Nat.div_add_mod n base, hdiv, hmod]

theorem unsignedDigits_injective {letter : Char} {m n : Nat}
    (h : unsignedDigits letter m = unsignedDigits letter n) : m = n := by
  have hbase : 1 < unsignedBase letter ∧ unsignedBase letter ≤ 16 := by
    unfold unsignedBase
    split
    · decide
    · split <;> decide
  have hdigits : ∀ i < 16, ∀ j < 16, i.digitChar = j.digitChar → i = j := by decide
  have hcapital : ∀ i < 16, ∀ j < 16, i.digitChar.toUpper = j.digitChar.toUpper → i = j := by
    decide
  unfold unsignedDigits at h
  by_cases hX : letter = 'X'
  · rw [if_pos hX, if_pos hX] at h
    exact toDigits_injective hbase.1
      (fun i hi j hj => hcapital i (by omega) j (by omega)) h
  · rw [if_neg hX, if_neg hX] at h
    rw [← List.map_id (Nat.toDigits _ m), ← List.map_id (Nat.toDigits _ n)] at h
    exact toDigits_injective hbase.1 (fun i hi j hj => hdigits i (by omega) j (by omega)) h

/-! ## Unsigned conversions -/

/-- The field of a template that gives nothing but a letter. -/
def bareField : Field := ⟨{}, none, none⟩

theorem openField_letter {letter : Char} (hletter : letter ∈ ['d', 'o', 'x', 'X'])
    (content : Content) :
    openField (some content) [letter] = .ok ⟨⟨bareField, some content, []⟩, letter⟩ := by
  simp only [List.mem_cons, List.not_mem_nil, or_false] at hletter
  rcases hletter with rfl | rfl | rfl | rfl <;> rfl

/-- A natural number in a field of its own is its digits. -/
theorem write_bareField {letter : Char} (hletter : letter ∈ ['u', 'o', 'x', 'X']) (n : Nat) :
    bareField.write (if letter = 'u' then 'd' else letter) (.int n) =
      .ok (unsignedDigits letter n) := by
  have hplace : ∀ digits, bareField.placeNumber false [] digits = digits := by
    intro digits
    simp [Field.placeNumber, bareField]
  have hdigits : ∀ base, bareField.digits base n = Nat.toDigits base n := by
    intro base
    simp [Field.digits, bareField]
  have hsign : decide ((n : Int) < 0) = false := decide_eq_false (by omega)
  have hroom : bareField.roomForInt = .ok () := by rfl
  have hdecimal : bareField.decimal n = Nat.toDigits 10 n := by
    rw [Field.decimal, hsign, hplace, Int.natAbs_natCast, hdigits]
  have hbased : ∀ c, bareField.based c n =
      if c = 'X' then (Nat.toDigits (if c = 'o' then 8 else 16) n).map Char.toUpper
      else Nat.toDigits (if c = 'o' then 8 else 16) n := by
    intro c
    unfold Field.based
    rw [hsign, Int.natAbs_natCast, hdigits]
    exact hplace _
  simp only [List.mem_cons, List.not_mem_nil, or_false] at hletter
  rcases hletter with rfl | rfl | rfl | rfl <;>
    simp [Field.write, Content.toInt, bind, Except.bind, pure, Except.pure, hroom, hdecimal,
      hbased, unsignedDigits, unsignedBase]

theorem fill_letter {letter : Char} (hletter : letter ∈ ['d', 'o', 'x', 'X']) {content : Content}
    {shown : List Char} (h : bareField.write letter content = .ok shown) :
    fill ['%', letter] content = .ok shown := by
  have hpercent : letter ≠ '%' := by
    rintro rfl
    simp at hletter
  have hrest : fillFrom 2 none [] = .ok [] := rfl
  unfold fill fillFrom
  simp [openField_letter hletter, h, hrest, hpercent, bind, Except.bind, pure, Except.pure]

/-- The lengths that ask for sixty-four bits. -/
def longLengths : List String := ["l", "ll", "z", "j"]

/-- A conversion with nothing but a length and a letter. -/
def bareFormat (length : String) (letter : Char) : String :=
  "%" ++ length ++ String.singleton letter

theorem pieces_bareFormat {length : String} (hlength : length.toList ∈ lengths) {letter : Char}
    (hletter : Text.oneOf "diouxXfFeEgGcsp%" letter) :
    pieces (bareFormat length letter).toList = [.conversion ⟨[], none, none, letter⟩] := by
  have hspells : Spells ⟨[], none, none, letter⟩ ('%' :: (length.toList ++ [letter])) :=
    ⟨by simp, by simp [Writable], by simp [sizeText], by simp [Writable], hletter,
      length.toList, hlength, rfl⟩
  have hsource : (bareFormat length letter).toList = '%' :: (length.toList ++ [letter]) ++ [] := by
    simp [bareFormat]
  rw [hsource, pieces_of_spells hspells, pieces]

/-- An unsigned conversion shows the low thirty-two bits, whatever its length. -/
theorem printf_unsigned {length : String} (hlength : length.toList ∈ lengths) {letter : Char}
    (hletter : letter ∈ ['u', 'o', 'x', 'X']) (v : Int) (type : CType) (reader : Reader) :
    printf (bareFormat length letter) [⟨.num (.int v), type⟩] reader =
      .ok (String.ofList (unsignedDigits letter (v % 2 ^ 32).toNat)) := by
  have hconversion : Text.oneOf "diouxXfFeEgGcsp%" letter := by
    have hall : ∀ c ∈ ['u', 'o', 'x', 'X'], c ∈ letters := by simp [letters]
    rw [oneOf_letters]
    exact List.contains_iff_mem.mpr (hall letter hletter)
  have hword : Bits.unsigned 32 v = (v % 2 ^ 32).toNat := by
    unfold Bits.unsigned
    rw [Int.fmod_eq_emod_of_nonneg v (by decide)]
    rfl
  have hcontent : contentOf reader letter (.num (.int v)) =
      .ok (if letter = 'u' then 'd' else letter, .int (v % 2 ^ 32).toNat) := by
    simp only [List.mem_cons, List.not_mem_nil, or_false] at hletter
    rcases hletter with rfl | rfl | rfl | rfl <;>
      simp [contentOf, Value.toInt, Number.toInt, unsignedWord, hword, bind, Except.bind, pure,
        Except.pure]
  have hfill : fill ['%', if letter = 'u' then 'd' else letter] (.int (v % 2 ^ 32).toNat) =
      .ok (unsignedDigits letter (v % 2 ^ 32).toNat) := by
    have hall : ∀ c ∈ ['u', 'o', 'x', 'X'],
        (if c = 'u' then 'd' else c) ∈ ['d', 'o', 'x', 'X'] := by
      simp
    exact fill_letter (hall letter hletter) (write_bareField hletter _)
  have hpercent : letter ≠ '%' := by
    rintro rfl
    simp at hletter
  rw [printf, pieces_bareFormat hlength hconversion]
  generalize (v % 2 ^ 32).toNat = n at hcontent hfill ⊢
  simp [writePieces, writeConversion, hpercent, takeSize, take, hcontent, hfill, bind, Except.bind,
    pure, Except.pure]

end Printf

open Printf

/-- **Unsigned conversions show numbers of thirty-two bits.** With no flags, width and precision, a
conversion that shows a number without its sign shows the numeral of the number modulo 2³². So
does one with a length that asks for sixty-four bits: what it shows is the numeral of the number
modulo 2⁶⁴ exactly if that is a number of thirty-two bits. -/
theorem unsigned_conversions_show_words (v : Int) (type : CType) (reader : Reader) {letter : Char}
    (hletter : letter ∈ ['u', 'o', 'x', 'X']) :
    printf (bareFormat "" letter) [⟨.num (.int v), type⟩] reader =
      .ok (String.ofList (unsignedDigits letter (v % 2 ^ 32).toNat)) ∧
    ∀ length ∈ longLengths,
      printf (bareFormat length letter) [⟨.num (.int v), type⟩] reader =
        .ok (String.ofList (unsignedDigits letter (v % 2 ^ 32).toNat)) ∧
      (printf (bareFormat length letter) [⟨.num (.int v), type⟩] reader =
          .ok (String.ofList (unsignedDigits letter (v % 2 ^ 64).toNat)) ↔
        v % 2 ^ 64 < 2 ^ 32) := by
  refine ⟨printf_unsigned (by decide) hletter v type reader, fun length hlength => ?_⟩
  have hall : ∀ known ∈ longLengths, known.toList ∈ lengths := by decide
  have hshown := printf_unsigned (hall length hlength) hletter v type reader
  refine ⟨hshown, ?_⟩
  rw [hshown, Except.ok.injEq, String.ofList_inj]
  constructor
  · intro h
    have hsame := unsignedDigits_injective h
    omega
  · intro h
    have hsame : v % 2 ^ 64 = v % 2 ^ 32 := by omega
    rw [hsame]

/-- A number past sixty-four bits whose low bits are few is shown by them. -/
theorem few_low_bits_are_shown :
    'X' ∈ ['u', 'o', 'x', 'X'] ∧ "ll" ∈ longLengths ∧
    printf "%llX" [⟨.num (.int 18446744073709551627), ⟨"int"⟩⟩] none = .ok "B" ∧
    String.ofList (unsignedDigits 'X' ((18446744073709551627 : Int) % 2 ^ 64).toNat) = "B" := by
  have hletter : 'X' ∈ ['u', 'o', 'x', 'X'] := by decide
  have hlength : "ll" ∈ longLengths := by decide
  have hshown := (unsigned_conversions_show_words 18446744073709551627 ⟨"int"⟩ none hletter).2
    "ll" hlength
  exact ⟨hletter, hlength, hshown.2.mpr (by decide), by decide⟩

/-- A number of thirty-three bits is not shown, though its length asks for sixty-four. -/
theorem long_number_loses_its_high_bit :
    printf "%lu" [⟨.num (.int 4294967296), ⟨"int"⟩⟩] none = .ok "0" ∧
    String.ofList (unsignedDigits 'u' ((4294967296 : Int) % 2 ^ 64).toNat) = "4294967296" := by
  have hlong : "l".toList ∈ lengths := by decide
  have hletter : 'u' ∈ ['u', 'o', 'x', 'X'] := by decide
  have hshown := printf_unsigned hlong hletter 4294967296 ⟨"int"⟩ none
  exact ⟨hshown, by decide⟩

end Stepwise
