/-
Equality of numbers is an equivalence on the numbers that measure something.

Addresses are numbers, and an address may come out of floating arithmetic: a
cell that was placed at a whole number is found again under the double that
equals it. Every look-up of a cell, an owner or a held-back write compares keys
by this equality, so the laws of look-ups need it to be symmetric and
transitive. It is not reflexive: what is not a number equals nothing.

Both laws come from the measures. Two numbers are equal exactly when their
measures are, and two fractions are equal exactly when they agree crosswise;
crosswise agreement is transitive because no denominator is zero.
-/
import Stepwise.Value.Basic
import Mathlib.Tactic.Ring

set_option autoImplicit false

namespace Stepwise

/-! ## Measures -/

namespace Number.Measure

/-- Fractions have no denominator of zero. -/
def Proper : Measure → Prop
  | fraction _ den => 0 < den
  | infinite _ => True

theorem compare_fraction_eq {a c : Int} {b d : Nat} :
    (fraction a b).compare (fraction c d) = .eq ↔ a * d = c * b := by
  rw [Measure.compare]
  exact compare_eq_iff_eq

theorem compare_symm {x y : Measure} (h : x.compare y = .eq) : y.compare x = .eq := by
  rcases x with ⟨a, b⟩ | (_ | _) <;> rcases y with ⟨c, d⟩ | (_ | _) <;>
    first
    | (rw [compare_fraction_eq] at h ⊢; exact h.symm)
    | (simp [Measure.compare] at h ⊢)

/-- Crosswise agreement passes through a fraction in the middle: its denominator can be
cancelled. -/
theorem compare_trans {x y z : Measure} (hy : y.Proper) (hxy : x.compare y = .eq)
    (hyz : y.compare z = .eq) : x.compare z = .eq := by
  rcases x with ⟨a, b⟩ | (_ | _) <;> rcases y with ⟨c, d⟩ | (_ | _) <;>
    rcases z with ⟨e, f⟩ | (_ | _) <;>
    first
    | (simp [Measure.compare] at hxy hyz ⊢; done)
    | skip
  rw [compare_fraction_eq] at hxy hyz ⊢
  have hd : (d : Int) ≠ 0 := by
    have : 0 < d := hy
    omega
  apply Int.eq_of_mul_eq_mul_left hd
  calc (d : Int) * (a * f) = (a * d) * f := by ring
    _ = (c * b) * f := by rw [hxy]
    _ = (c * f) * b := by ring
    _ = (e * d) * b := by rw [hyz]
    _ = d * (e * b) := by ring

end Number.Measure

/-! ## Numbers -/

namespace Number

theorem Binary.fraction_den_pos (b : Decimal.Binary) : 0 < b.fraction.2 := by
  unfold Decimal.Binary.fraction
  split
  · exact Nat.pow_pos (by decide)
  · exact Nat.one_pos

/-- What a number measures has a denominator other than zero. -/
theorem measure?_proper {a : Number} {x : Measure} (h : a.measure? = some x) : x.Proper := by
  cases a with
  | int n =>
    rw [measure?, Option.some.injEq] at h
    subst h
    exact Nat.one_pos
  | float y _ =>
    rw [measure?] at h
    split at h
    · next b _ =>
      rw [Option.some.injEq] at h
      subst h
      exact Binary.fraction_den_pos b
    · split at h
      · simp at h
      · rw [Option.some.injEq] at h
        subst h
        trivial

/-- Two numbers are equal when they measure the same. -/
theorem beq_iff {a b : Number} :
    (a == b) = true ↔
      ∃ x y, a.measure? = some x ∧ b.measure? = some y ∧ x.compare y = .eq := by
  show (a.compare? b == some .eq) = true ↔ _
  cases a with
  | float x _ =>
    rw [compare?]
    · cases (Number.float x _).measure? <;> cases b.measure? <;> simp
    · intro m n h
      cases h
  | int m =>
    cases b with
    | float y _ =>
      rw [compare?]
      · cases (Number.int m).measure? <;> cases (Number.float y _).measure? <;> simp
      · intro m n _ h
        cases h
    | int n =>
      rw [compare?]
      simp [measure?, Measure.compare_fraction_eq]

instance : PartialEquivBEq Number where
  symm := by
    intro a b h
    obtain ⟨x, y, hx, hy, hxy⟩ := beq_iff.1 h
    exact beq_iff.2 ⟨y, x, hy, hx, Measure.compare_symm hxy⟩
  trans := by
    intro a b c hab hbc
    obtain ⟨x, y, hx, hy, hxy⟩ := beq_iff.1 hab
    obtain ⟨y', z, hy', hz, hyz⟩ := beq_iff.1 hbc
    obtain rfl : y = y' := Option.some.inj (hy.symm.trans hy')
    exact beq_iff.2 ⟨x, z, hx, hz, Measure.compare_trans (measure?_proper hy) hxy hyz⟩

@[simp] theorem int_beq_int {m n : Int} : (Number.int m == Number.int n) = decide (m = n) := by
  rw [Bool.eq_iff_iff, beq_iff]
  simp [measure?, Measure.compare_fraction_eq]

theorem less_int_int (m n : Int) : less (.int m) (.int n) = decide (m < n) := by
  rw [Bool.eq_iff_iff, decide_eq_true_eq, less, compare?, beq_iff_eq, Option.some.injEq]
  exact compare_lt_iff_lt

/-- Two whole numbers that equal the same number are the same. -/
theorem int_unique {a : Number} {m n : Int} (hm : (Number.int m == a) = true)
    (hn : (Number.int n == a) = true) : m = n := by
  have h : (Number.int m == Number.int n) = true := PartialEquivBEq.trans hm (BEq.symm hn)
  simpa using h

end Number

end Stepwise
