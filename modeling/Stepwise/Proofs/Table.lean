/-
Look-ups in tables.

A table compares its keys by an equality that need not be reflexive, so the
laws below ask only for a partial equivalence. What was put under a key is found
under every key that equals it, and nothing else changes. The entries of a table
stay *apart*: no two of them have equal keys, because a second value under a key
takes the place of the first.
-/
import Stepwise.Table

set_option autoImplicit false

namespace Stepwise.Table

variable {κ ν : Type} [BEq κ]

/-- No two entries have equal keys. -/
def Apart (t : Table κ ν) : Prop :=
  t.Pairwise fun e f => (e.1 == f.1) = false

@[simp] theorem find?_nil (a : κ) : find? ([] : Table κ ν) a = none := rfl

theorem find?_cons (e : κ × ν) (t : Table κ ν) (a : κ) :
    find? (e :: t) a = if e.1 == a then some e.2 else find? t a := rfl

theorem put_cons (e : κ × ν) (t : Table κ ν) (key : κ) (v : ν) :
    put (e :: t) key v = if e.1 == key then (e.1, v) :: t else e :: put t key v := rfl

/-- What is found stands in the table, under an equal key. -/
theorem mem_of_find? {t : Table κ ν} {a : κ} {v : ν} (h : t.find? a = some v) :
    ∃ k, (k, v) ∈ t ∧ (k == a) = true := by
  induction t with
  | nil => simp at h
  | cons e t ih =>
    rw [find?_cons] at h
    split at h
    · next he =>
      obtain rfl := Option.some.inj h
      exact ⟨e.1, List.mem_cons_self, he⟩
    · obtain ⟨k, hk, hka⟩ := ih h
      exact ⟨k, List.mem_cons_of_mem _ hk, hka⟩

theorem find?_eq_none_iff {t : Table κ ν} {a : κ} :
    t.find? a = none ↔ ∀ e ∈ t, (e.1 == a) = false := by
  induction t with
  | nil => simp
  | cons e t ih =>
    rw [find?_cons]
    split
    · next he => simp [he]
    · next he => simp [he, ih]

theorem has_eq_true_iff {t : Table κ ν} {a : κ} : t.has a = true ↔ ∃ v, t.find? a = some v :=
  Option.isSome_iff_exists

/-- The entries of a table with a value put in: the old ones, the new one under its key, or the
new one in the place of an old one. -/
theorem mem_put {t : Table κ ν} {key : κ} {v : ν} {e : κ × ν} (h : e ∈ t.put key v) :
    e ∈ t ∨ e = (key, v) ∨ ((e.1 == key) = true ∧ e.2 = v ∧ ∃ w, (e.1, w) ∈ t) := by
  induction t with
  | nil => exact Or.inr (Or.inl (List.mem_singleton.1 h))
  | cons f t ih =>
    rw [put_cons] at h
    split at h
    · next hf =>
      rcases List.mem_cons.1 h with rfl | h
      · exact Or.inr (Or.inr ⟨hf, rfl, f.2, List.mem_cons_self⟩)
      · exact Or.inl (List.mem_cons_of_mem _ h)
    · rcases List.mem_cons.1 h with rfl | h
      · exact Or.inl List.mem_cons_self
      · rcases ih h with h | h | ⟨hk, hv, w, hw⟩
        · exact Or.inl (List.mem_cons_of_mem _ h)
        · exact Or.inr (Or.inl h)
        · exact Or.inr (Or.inr ⟨hk, hv, w, List.mem_cons_of_mem _ hw⟩)

/-- The same with what was there: an old entry, the new one if nothing was found under its key, or
the new value in the place of the one that was found. -/
theorem mem_put_cases {t : Table κ ν} {key : κ} {v : ν} {e : κ × ν} (h : e ∈ t.put key v) :
    e ∈ t ∨ (t.find? key = none ∧ e = (key, v)) ∨
      ∃ w, t.find? key = some w ∧ (e.1, w) ∈ t ∧ e.2 = v := by
  induction t with
  | nil => exact Or.inr (Or.inl ⟨rfl, List.mem_singleton.1 h⟩)
  | cons f t ih =>
    rw [put_cons] at h
    rw [find?_cons]
    by_cases hf : (f.1 == key) = true
    · rw [if_pos hf] at h ⊢
      rcases List.mem_cons.1 h with rfl | h
      · exact Or.inr (Or.inr ⟨f.2, rfl, List.mem_cons_self, rfl⟩)
      · exact Or.inl (List.mem_cons_of_mem _ h)
    · rw [if_neg hf] at h ⊢
      rcases List.mem_cons.1 h with rfl | h
      · exact Or.inl List.mem_cons_self
      · rcases ih h with h | h | ⟨w, hw, hmem, hv⟩
        · exact Or.inl (List.mem_cons_of_mem _ h)
        · exact Or.inr (Or.inl h)
        · exact Or.inr (Or.inr ⟨w, hw, List.mem_cons_of_mem _ hmem, hv⟩)

/-- Putting a value under a key that is there changes no key, otherwise the key goes to the end. -/
theorem keys_put (t : Table κ ν) (key : κ) (v : ν) :
    (t.put key v).keys = if t.has key then t.keys else t.keys ++ [key] := by
  induction t with
  | nil => rfl
  | cons e t ih =>
    rw [put_cons, has, find?_cons]
    split
    · next he => simp [keys]
    · next he =>
      show e.1 :: (put t key v).keys = _
      rw [ih, has]
      split <;> simp_all [keys]

/-- A key that is not there goes to the end. -/
theorem put_of_find?_eq_none {t : Table κ ν} {key : κ} (v : ν) (h : t.find? key = none) :
    t.put key v = t ++ [(key, v)] := by
  induction t with
  | nil => rfl
  | cons e t ih =>
    rw [find?_cons] at h
    rw [put_cons]
    split at h
    · cases h
    · next hne =>
      rw [if_neg hne, ih h]
      rfl

/-- What is behind a table is found only if the table does not have it. -/
theorem find?_append (t more : Table κ ν) (a : κ) :
    find? (t ++ more) a = (t.find? a).or (more.find? a) := by
  induction t with
  | nil => rfl
  | cons e t ih =>
    show find? (e :: (t ++ more)) a = _
    rw [find?_cons, find?_cons, ih]
    split <;> rfl

omit [BEq κ] in
theorem mem_keys {t : Table κ ν} {k : κ} : k ∈ t.keys ↔ ∃ v, (k, v) ∈ t := by
  simp [keys]

theorem apart_put {t : Table κ ν} (key : κ) (v : ν) (h : t.Apart) : (t.put key v).Apart := by
  induction t with
  | nil => exact List.pairwise_singleton _ _
  | cons e t ih =>
    obtain ⟨hhead, htail⟩ := List.pairwise_cons.1 h
    rw [put_cons]
    split
    · exact List.pairwise_cons.2 ⟨hhead, htail⟩
    · next he =>
      refine List.pairwise_cons.2 ⟨?_, ih htail⟩
      intro f hf
      rcases mem_put hf with hf | rfl | ⟨hk, _, w, hw⟩
      · exact hhead f hf
      · simpa using he
      · exact hhead (f.1, w) hw

theorem drop_sublist (t : Table κ ν) (key : κ) : (t.drop key).Sublist t := by
  induction t with
  | nil => exact List.Sublist.refl _
  | cons e t ih =>
    rw [drop]
    by_cases he : (e.1 == key) = true
    · rw [if_pos he]
      exact List.sublist_cons_self e t
    · rw [if_neg he]
      exact ih.cons_cons e

/-- An entry of a table that is apart is what its key finds, if the key equals itself. -/
theorem find?_of_mem {t : Table κ ν} {k : κ} {v : ν} (h : t.Apart) (hk : (k == k) = true)
    (hmem : (k, v) ∈ t) : t.find? k = some v := by
  induction t with
  | nil => simp at hmem
  | cons e t ih =>
    obtain ⟨hhead, htail⟩ := List.pairwise_cons.1 h
    rcases List.mem_cons.1 hmem with rfl | hmem
    · rw [find?_cons, if_pos hk]
    · have he : (e.1 == k) = false := hhead _ hmem
      rw [find?_cons, he, ih htail hmem]
      rfl

/-- An entry whose value passes a test is found in what is left of the table. -/
theorem find?_filter_of_some {t : Table κ ν} {p : ν → Bool} {a : κ} {v : ν} (h : t.find? a = some v)
    (hp : p v = true) : find? (t.filter fun e => p e.2) a = some v := by
  induction t with
  | nil => cases h
  | cons e t ih =>
    rw [find?_cons] at h
    rw [List.filter_cons]
    split at h
    · next he =>
      obtain rfl := Option.some.inj h
      rw [if_pos hp, find?_cons, if_pos he]
    · next he =>
      split
      · rw [find?_cons, if_neg he]
        exact ih h
      · exact ih h

theorem find?_of_find?_filter {t : Table κ ν} {p : κ × ν → Bool} {a : κ} {v : ν}
    (h : find? (t.filter p) a = some v) : ∃ w, t.find? a = some w := by
  obtain ⟨k, hk, heq⟩ := mem_of_find? h
  rw [← Option.isSome_iff_exists, Option.isSome_iff_ne_none]
  intro hnone
  have hfalse := find?_eq_none_iff.1 hnone _ (List.mem_filter.1 hk).1
  rw [heq] at hfalse
  cases hfalse

/-! ## Several entries at once -/

@[simp] theorem putAll_nil (t : Table κ ν) : t.putAll [] = t := rfl

theorem putAll_cons (t : Table κ ν) (e : κ × ν) (more : Table κ ν) :
    t.putAll (e :: more) = (t.put e.1 e.2).putAll more := rfl

theorem putAll_append (t front back : Table κ ν) :
    t.putAll (front ++ back) = (t.putAll front).putAll back :=
  List.foldl_append

theorem apart_putAll {t : Table κ ν} (more : Table κ ν) (h : t.Apart) : (t.putAll more).Apart := by
  induction more generalizing t with
  | nil => exact h
  | cons e more ih => exact ih (apart_put e.1 e.2 h)

theorem mem_putAll {t more : Table κ ν} {e : κ × ν} (h : e ∈ t.putAll more) :
    e ∈ t ∨ e ∈ more ∨
      ∃ f ∈ more, (e.1 == f.1) = true ∧ e.2 = f.2 ∧ ∃ w, (e.1, w) ∈ t ∨ (e.1, w) ∈ more := by
  induction more generalizing t with
  | nil => exact Or.inl h
  | cons f more ih =>
    rcases ih h with h | h | ⟨g, hg, hk, hv, w, hw⟩
    · rcases mem_put h with h | rfl | ⟨hk, hv, w, hw⟩
      · exact Or.inl h
      · exact Or.inr (Or.inl List.mem_cons_self)
      · exact Or.inr (Or.inr ⟨f, List.mem_cons_self, hk, hv, w, Or.inl hw⟩)
    · exact Or.inr (Or.inl (List.mem_cons_of_mem _ h))
    · refine Or.inr (Or.inr ⟨g, List.mem_cons_of_mem _ hg, hk, hv, ?_⟩)
      rcases hw with hw | hw
      · rcases mem_put hw with hw | hw | ⟨_, _, w', hw'⟩
        · exact ⟨w, Or.inl hw⟩
        · rw [Prod.mk.injEq] at hw
          exact ⟨f.2, Or.inr (by rw [hw.1]; exact List.mem_cons_self)⟩
        · exact ⟨w', Or.inl hw'⟩
      · exact ⟨w, Or.inr (List.mem_cons_of_mem _ hw)⟩

/-- Where nothing was before, every value is one of those put. -/
theorem value_of_mem_putAll {more : Table κ ν} {k : κ} {v : ν}
    (h : (k, v) ∈ Table.putAll [] more) : ∃ k', (k', v) ∈ more := by
  rcases mem_putAll h with h | h | ⟨f, hf, _, hvalue, _⟩
  · cases h
  · exact ⟨k, h⟩
  · obtain rfl : v = f.2 := hvalue
    exact ⟨f.1, hf⟩

section Equivalence

variable [PartialEquivBEq κ]

/-- Equal keys find the same. -/
theorem find?_congr {t : Table κ ν} {a b : κ} (h : (a == b) = true) : t.find? a = t.find? b := by
  induction t with
  | nil => rfl
  | cons e t ih =>
    have hab : (e.1 == a) = (e.1 == b) := by
      rw [Bool.eq_iff_iff]
      exact ⟨fun he => PartialEquivBEq.trans he h,
        fun he => PartialEquivBEq.trans he (BEq.symm h)⟩
    rw [find?_cons, find?_cons, hab, ih]

/-- A value is found under every key that equals the one it was put under. -/
theorem find?_put_of_beq {t : Table κ ν} {key a : κ} {v : ν} (h : (key == a) = true) :
    (t.put key v).find? a = some v := by
  induction t with
  | nil =>
    show (if key == a then some v else none) = some v
    rw [if_pos h]
  | cons e t ih =>
    rw [put_cons]
    split
    · next he => rw [find?_cons, if_pos (PartialEquivBEq.trans he h)]
    · next he =>
      have hea : ¬(e.1 == a) = true := fun hea => he (PartialEquivBEq.trans hea (BEq.symm h))
      rw [find?_cons, if_neg hea, ih]

/-- A key under which something is found equals itself. -/
theorem beq_self_of_find? {t : Table κ ν} {a : κ} {v : ν} (h : t.find? a = some v) :
    (a == a) = true := by
  obtain ⟨k, _, hk⟩ := mem_of_find? h
  exact PartialEquivBEq.trans (BEq.symm hk) hk

theorem find?_put_self {t : Table κ ν} {a : κ} {v w : ν} (h : t.find? a = some v) :
    (t.put a w).find? a = some w :=
  find?_put_of_beq (beq_self_of_find? h)

/-- Other keys find what they found before. -/
theorem find?_put_of_ne {t : Table κ ν} {key a : κ} {v : ν} (h : (key == a) = false) :
    (t.put key v).find? a = t.find? a := by
  induction t with
  | nil =>
    show (if key == a then some v else none) = none
    rw [h]
    rfl
  | cons e t ih =>
    rw [put_cons]
    split
    · next he =>
      have hea : ¬(e.1 == a) = true := by
        intro hea
        rw [PartialEquivBEq.trans (BEq.symm he) hea] at h
        exact Bool.noConfusion h
      rw [find?_cons, find?_cons, if_neg hea, if_neg hea]
    · rw [find?_cons, find?_cons, ih]

theorem find?_put (t : Table κ ν) (key a : κ) (v : ν) :
    (t.put key v).find? a = if key == a then some v else t.find? a := by
  split
  · next h => exact find?_put_of_beq h
  · next h => exact find?_put_of_ne (by simpa using h)

/-- Of entries that are apart, exactly the one of the key goes. -/
theorem find?_drop {t : Table κ ν} (h : t.Apart) (key a : κ) :
    (t.drop key).find? a = if key == a then none else t.find? a := by
  induction t with
  | nil => simp [drop]
  | cons e t ih =>
    obtain ⟨hhead, htail⟩ := List.pairwise_cons.1 h
    rw [drop]
    by_cases he : (e.1 == key) = true
    · rw [if_pos he, find?_cons]
      by_cases ha : (key == a) = true
      · -- an equal key further on would equal the one that goes
        have hea : (e.1 == a) = true := PartialEquivBEq.trans he ha
        rw [if_pos ha, find?_eq_none_iff]
        intro f hf
        cases hfa : f.1 == a with
        | false => rfl
        | true =>
          have hef : (e.1 == f.1) = true := PartialEquivBEq.trans hea (BEq.symm hfa)
          rw [hhead f hf] at hef
          exact hef.symm
      · have hea : ¬(e.1 == a) = true := fun hea => ha (PartialEquivBEq.trans (BEq.symm he) hea)
        rw [if_neg ha, if_neg hea]
    · rw [if_neg he, find?_cons, find?_cons, ih htail]
      by_cases hea : (e.1 == a) = true
      · have ha : ¬(key == a) = true := fun ha => he (PartialEquivBEq.trans hea (BEq.symm ha))
        rw [if_pos hea, if_pos hea, if_neg ha]
      · rw [if_neg hea, if_neg hea]

/-- Entries that are apart are found in preference to what was there. -/
theorem find?_putAll {t more : Table κ ν} (h : more.Apart) (a : κ) :
    (t.putAll more).find? a = (more.find? a).or (t.find? a) := by
  induction more generalizing t with
  | nil => rfl
  | cons e more ih =>
    obtain ⟨hhead, htail⟩ := List.pairwise_cons.1 h
    rw [putAll_cons, ih htail, find?_put, find?_cons]
    by_cases he : (e.1 == a) = true
    · have hnone : find? more a = none := by
        rw [find?_eq_none_iff]
        intro f hf
        cases hfa : f.1 == a with
        | false => rfl
        | true =>
          have hef : (e.1 == f.1) = true := PartialEquivBEq.trans he (BEq.symm hfa)
          rw [hhead f hf] at hef
          exact hef.symm
      rw [if_pos he, if_pos he, hnone]
      rfl
    · rw [if_neg he, if_neg he]

theorem find?_putAll_of_ne {t more : Table κ ν} {a : κ} (h : ∀ e ∈ more, (e.1 == a) = false) :
    (t.putAll more).find? a = t.find? a := by
  induction more generalizing t with
  | nil => rfl
  | cons e more ih =>
    rw [List.forall_mem_cons] at h
    rw [putAll_cons, ih h.2, find?_put_of_ne h.1]

/-- The value of a key is that of the last entry with the key. -/
theorem find?_ofEntries_last {front back : Table κ ν} {key a : κ} {v : ν}
    (h : (key == a) = true) (hback : ∀ e ∈ back, (e.1 == a) = false) :
    (ofEntries (front ++ (key, v) :: back)).find? a = some v := by
  rw [ofEntries, putAll_append, putAll_cons, find?_putAll_of_ne hback]
  exact find?_put_of_beq h

end Equivalence

end Stepwise.Table
