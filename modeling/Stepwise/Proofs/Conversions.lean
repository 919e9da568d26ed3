/-
Conversions made twice.

What is stored in an object was converted to its type, and much of it is converted again:
the value of an assignment when it is assigned on, the result of a function when it is
passed. A second conversion changes nothing, with one exception. A double on its way to a
signed character only loses its fraction, and the whole number that is left may need more
than the eight bits of a character; the next conversion cuts it down to them. So a
conversion that is made twice is settled always, and one that is made once exactly if no
such double comes in.
-/
import Stepwise.Proofs.Increments

set_option autoImplicit false

namespace Stepwise

/-- Does an object of the type hold a signed character? A pointer, an array or a struct does not,
whatever words its text has, and neither does what is floating. -/
def CType.holdsCharacter (t : CType) : Bool :=
  t.isSignedChar && !t.isFloating && !(t.isPointer || t.isArray || t.namesStruct)

theorem CType.holdsCharacter_iff {t : CType} :
    t.holdsCharacter = true ↔ t.isSignedChar = true ∧ t.isFloating = false ∧
      (t.isPointer || t.isArray || t.namesStruct) = false := by
  simp [CType.holdsCharacter, and_assoc]

namespace Value

/-- The whole number has the eight bits of a signed character. -/
def InCharacter (n : Int) : Prop :=
  -128 ≤ n ∧ n ≤ 127

/-- The value is a double whose whole part has more than eight bits. -/
def Overflows : Value → Prop
  | .num (.float x origin) => ∃ n, (Number.float x origin).toInt = .ok n ∧ ¬InCharacter n
  | _ => False

theorem wrapChar_inCharacter (n : Int) : InCharacter (wrapChar n) := by
  unfold InCharacter wrapChar
  rw [Int.fmod_eq_emod_of_nonneg _ (by decide)]
  omega

/-! ## What a conversion does -/

/-- A conversion leaves the value as it is, makes a whole number a double, cuts off the fraction of
a double, or keeps the low bits of a whole number. -/
theorem coerce_cases {value converted : Value} {type : CType}
    (h : value.coerce type = .ok converted) :
    (converted = value ∧ value.Fits type) ∨
    (∃ n x, value = .int n ∧ type.isFloating = true ∧ converted = .float x) ∨
    (∃ x origin n, value = .num (.float x origin) ∧ type.isFloating = false ∧
      (type.isPointer || type.isArray || type.namesStruct) = false ∧
      (Number.float x origin).toInt = .ok n ∧ converted = .int n) ∨
    (∃ n, value = .int n ∧ type.holdsCharacter = true ∧ converted = .int (wrapChar n)) := by
  by_cases hfits : value.Fits type
  · rw [coerce_eq_self_iff.2 hfits] at h
    exact Or.inl ⟨(Except.ok.inj h).symm, hfits⟩
  -- pointers, arrays and structs are stored as they are, so what does not fit is none of them
  have hplain : (type.isPointer || type.isArray || type.namesStruct) = false := by
    rw [← Bool.not_eq_true]
    exact fun hplain => hfits (Or.inl hplain)
  unfold coerce at h
  rw [if_neg (by rw [hplain]; exact Bool.false_ne_true)] at h
  cases value with
  | uninit => exact absurd (Or.inr trivial) hfits
  | text s => exact absurd (Or.inr trivial) hfits
  | num n =>
    cases n with
    | float x origin =>
      have hwhole : type.isFloating = false := by
        by_contra hfloating
        exact hfits (Or.inr (by simpa using hfloating))
      simp only [hwhole, Bool.false_eq_true, if_false] at h
      obtain ⟨n, hn, hconverted⟩ := bind_eq_ok.1 h
      exact Or.inr (Or.inr (Or.inl
        ⟨x, origin, n, rfl, hwhole, hplain, hn, (Except.ok.inj hconverted).symm⟩))
    | int n =>
      by_cases hfloating : type.isFloating = true
      · simp only [hfloating, if_true] at h
        obtain ⟨x, _, hconverted⟩ := bind_eq_ok.1 h
        exact Or.inr (Or.inl ⟨n, x, rfl, hfloating, (Except.ok.inj hconverted).symm⟩)
      · have hchar : type.isSignedChar = true := by
          by_contra hchar
          exact hfits (Or.inr ⟨by simpa using hfloating, fun h => absurd h hchar⟩)
        simp only [hfloating, hchar, Bool.false_eq_true, if_false, if_true] at h
        have hholds := CType.holdsCharacter_iff.2 ⟨hchar, by simpa using hfloating, hplain⟩
        exact Or.inr (Or.inr (Or.inr ⟨n, rfl, hholds, (Except.ok.inj h).symm⟩))
  | list items =>
    by_cases hparts : (type.isFloating || type.isSignedChar) = true
    · simp [hparts] at h
    · exact absurd (Or.inr (by simpa using hparts)) hfits
  | record members =>
    by_cases hparts : (type.isFloating || type.isSignedChar) = true
    · simp [hparts] at h
    · exact absurd (Or.inr (by simpa using hparts)) hfits

/-- In a type that is neither floating nor stored as it is, a whole number fits unless the type is
that of a character and the number has more than eight bits. -/
theorem int_fits_iff {type : CType} {n : Int} (hwhole : type.isFloating = false)
    (hplain : (type.isPointer || type.isArray || type.namesStruct) = false) :
    (Value.int n).Fits type ↔ (type.holdsCharacter = true → InCharacter n) := by
  simp [Fits, CType.holdsCharacter_iff, hplain, hwhole, InCharacter]

/-- A character holds a whole number as it is if it has eight bits. -/
theorem int_fits_character_iff {type : CType} {n : Int} (hchar : type.holdsCharacter = true) :
    (Value.int n).Fits type ↔ InCharacter n := by
  obtain ⟨_, hwhole, hplain⟩ := CType.holdsCharacter_iff.1 hchar
  rw [int_fits_iff hwhole hplain]
  exact forall_prop_of_true hchar

/-- A character holds no double as it is. -/
theorem float_not_fits_character {type : CType} {x : Float} {origin : Option Origin}
    (hchar : type.holdsCharacter = true) : ¬(Value.num (.float x origin)).Fits type := by
  obtain ⟨_, hwhole, hplain⟩ := CType.holdsCharacter_iff.1 hchar
  simp [Fits, hwhole, hplain]

/-! ## The conversion of what was converted -/

theorem overflows_iff {x : Float} {origin : Option Origin} {n : Int}
    (hn : (Number.float x origin).toInt = .ok n) :
    (Value.num (.float x origin)).Overflows ↔ ¬InCharacter n := by
  constructor
  · rintro ⟨m, hm, hout⟩
    rw [hn, Except.ok.injEq] at hm
    exact hm ▸ hout
  · exact fun hout => ⟨n, hn, hout⟩

/-- What was converted fits, unless a double left a character with more than eight bits. -/
theorem converted_fits_iff {value converted : Value} {type : CType}
    (h : value.coerce type = .ok converted) :
    converted.Fits type ↔ (type.holdsCharacter = true → ¬value.Overflows) := by
  rcases coerce_cases h with ⟨rfl, hfits⟩ | ⟨n, x, rfl, hfloating, rfl⟩ |
    ⟨x, origin, n, rfl, hwhole, hplain, hn, rfl⟩ | ⟨n, rfl, hchar, rfl⟩
  · refine iff_of_true hfits fun hchar hoverflows => ?_
    match converted, hfits, hoverflows with
    | .num (.float _ _), hfits, _ => exact float_not_fits_character hchar hfits
  · exact iff_of_true (Or.inr hfloating) fun _ hoverflows => hoverflows
  · rw [int_fits_iff hwhole hplain, overflows_iff hn, not_not]
  · refine iff_of_true ?_ fun _ hoverflows => hoverflows
    exact (int_fits_character_iff hchar).2 (wrapChar_inCharacter n)

/-- A number becomes a whole number in a character. -/
theorem exists_int_of_holdsCharacter {number : Number} {converted : Value} {type : CType}
    (hchar : type.holdsCharacter = true) (h : (Value.num number).coerce type = .ok converted) :
    ∃ n, converted = .int n := by
  rcases coerce_cases h with ⟨rfl, hfits⟩ | ⟨_, _, _, hfloating, _⟩ | ⟨_, _, n, _, _, _, _, hn⟩ |
    ⟨n, _, _, hn⟩
  · match number, hfits with
    | .int n, _ => exact ⟨n, rfl⟩
    | .float _ _, hfits => exact absurd hfits (float_not_fits_character hchar)
  · rw [(CType.holdsCharacter_iff.1 hchar).2.1] at hfloating
    cases hfloating
  · exact ⟨n, hn⟩
  · exact ⟨_, hn⟩

/-- A whole number in a character is converted to its low bits. -/
theorem coerce_int_of_holdsCharacter {type : CType} (hchar : type.holdsCharacter = true) (n : Int) :
    (Value.int n).coerce type = .ok (.int (wrapChar n)) := by
  obtain ⟨hsigned, hwhole, hplain⟩ := CType.holdsCharacter_iff.1 hchar
  simp [coerce, hsigned, hwhole, hplain]

/-- **A conversion is settled when it is made twice, and mostly when it is made once.** Whatever a
value was converted to, the same conversion changes it once more exactly if a double with a whole
part of more than eight bits was converted to a signed character. Exactly then, too, a number that
was converted to a signed character is no whole number of eight bits. A third conversion never
changes anything. -/
theorem conversions_settle {value converted : Value} {type : CType}
    (h : value.coerce type = .ok converted) :
    (converted.coerce type = .ok converted ↔ (type.holdsCharacter = true → ¬value.Overflows)) ∧
    (type.holdsCharacter = true → ∀ number, value = .num number →
      ((∃ n, converted = .int n ∧ -128 ≤ n ∧ n ≤ 127) ↔ ¬value.Overflows)) ∧
    ∃ settled, converted.coerce type = .ok settled ∧ settled.coerce type = .ok settled := by
  refine ⟨?_, ?_, ?_⟩
  · rw [coerce_eq_self_iff, converted_fits_iff h]
  · rintro hchar number rfl
    obtain ⟨n, rfl⟩ := exists_int_of_holdsCharacter hchar h
    have hin : InCharacter n ↔ ¬(Value.num number).Overflows := by
      rw [← int_fits_character_iff hchar, converted_fits_iff h]
      exact forall_prop_of_true hchar
    rw [← hin]
    constructor
    · rintro ⟨m, hm, hbits⟩
      cases hm
      exact hbits
    · exact fun hbits => ⟨n, rfl, hbits⟩
  · by_cases hfits : converted.Fits type
    · have hsame := coerce_eq_self_iff.2 hfits
      exact ⟨converted, hsame, hsame⟩
    · rw [converted_fits_iff h, Classical.not_imp, not_not] at hfits
      obtain ⟨hchar, hoverflows⟩ := hfits
      match value, h, hoverflows with
      | .num (.float _ _), h, _ =>
        obtain ⟨n, rfl⟩ := exists_int_of_holdsCharacter hchar h
        refine ⟨_, coerce_int_of_holdsCharacter hchar n, coerce_eq_self_iff.2 ?_⟩
        exact (int_fits_character_iff hchar).2 (wrapChar_inCharacter n)

/-- A number that wraps around in a character is settled by the first conversion. -/
theorem wrapped_number_is_settled :
    (Value.int 200).coerce ⟨"char"⟩ = .ok (.int (-56)) ∧
    (Value.int (-56)).coerce ⟨"char"⟩ = .ok (.int (-56)) :=
  have hfirst : (Value.int 200).coerce ⟨"char"⟩ = .ok (.int (-56)) := rfl
  ⟨hfirst, (conversions_settle hfirst).1.2 fun _ hoverflows => hoverflows⟩

/-- A double that a character has no room for is not: two hundred and a half leaves two hundred in
it, which the next conversion wraps around. -/
theorem large_double_is_not_settled :
    (Value.float 200.5).coerce ⟨"char"⟩ = .ok (.int 200) ∧
    (Value.int 200).coerce ⟨"char"⟩ = .ok (.int (-56)) ∧
    ¬(-128 ≤ (200 : Int) ∧ (200 : Int) ≤ 127) :=
  ⟨rfl, rfl, by decide⟩

end Value

end Stepwise
