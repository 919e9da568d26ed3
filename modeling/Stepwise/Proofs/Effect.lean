/-
What computations do to the state they run on.

A computation *follows* a relation if it leads from every state only to related
ones. For a relation that is reflexive and transitive this is kept by everything
computations are put together from. So it is a likeness, one that takes no interest
in its second side, and what a whole evaluation does to its surroundings is known
once it is known of the few things an evaluation asks its host for.
-/
import Stepwise.Proofs.Likeness
import Mathlib.Order.Defs.Unbundled

set_option autoImplicit false

namespace Stepwise

variable {σ α β : Type}

/-! ## Computations that succeed -/

theorem bind_eq_ok {ε : Type} {x : Except ε α} {f : α → Except ε β} {b : β} :
    (x >>= f) = .ok b ↔ ∃ a, x = .ok a ∧ f a = .ok b := by
  cases x with
  | error e => simp [bind, Except.bind]
  | ok a => simp [bind, Except.bind]

namespace Eval

theorem bind_eq_ok {c : Eval σ α} {k : α → Eval σ β} {s s'' : σ} {b : β} :
    (c >>= k) s = .ok (b, s'') ↔ ∃ a s', c s = .ok (a, s') ∧ k a s' = .ok (b, s'') := by
  show (c s >>= fun p => k p.1 p.2) = .ok (b, s'') ↔ _
  cases hc : c s with
  | error fault => simp [bind, Except.bind]
  | ok p =>
    obtain ⟨a, s'⟩ := p
    constructor
    · intro h
      exact ⟨a, s', rfl, h⟩
    · rintro ⟨_, _, h, h'⟩
      obtain ⟨rfl, rfl⟩ := Prod.mk.injEq .. ▸ Except.ok.inj h
      exact h'

theorem pure_eq_ok {a b : α} {s s' : σ} :
    (pure a : Eval σ α) s = .ok (b, s') ↔ a = b ∧ s = s' := by
  show Except.ok (a, s) = .ok (b, s') ↔ _
  simp

theorem lift_eq_ok {r : Except Fault α} {a : α} {s s' : σ} :
    (lift r : Eval σ α) s = .ok (a, s') ↔ r = .ok a ∧ s = s' := by
  unfold lift
  cases r <;> simp

theorem fail_ne_ok {fault : Fault} {s : σ} {p : α × σ} : (fail fault : Eval σ α) s ≠ .ok p := by
  simp [fail, lift]

end Eval

/-! ## Following a relation -/

/-- Wherever the computation succeeds, the state it leaves is related to the one it met. -/
def Follows (R : σ → σ → Prop) (c : Eval σ α) : Prop :=
  ∀ s a s', c s = .ok (a, s') → R s s'

namespace Follows

variable {R S : σ → σ → Prop}

theorem mono {c : Eval σ α} (h : Follows R c) (hRS : ∀ s s', R s s' → S s s') : Follows S c := by
  intro s a s' hs
  exact hRS s s' (h s a s' hs)

theorem fail (fault : Fault) : Follows R (Eval.fail fault : Eval σ α) := by
  intro s a s' hs
  exact absurd hs Eval.fail_ne_ok

theorem ite {p : Prop} [Decidable p] {c d : Eval σ α} (hc : p → Follows R c)
    (hd : ¬p → Follows R d) : Follows R (if p then c else d) := by
  split
  · exact hc ‹_›
  · exact hd ‹_›

variable [IsPreorder σ R]

/-- A computation that leaves the state as it is follows every such relation. -/
theorem of_eq {c : Eval σ α} (h : ∀ s a s', c s = .ok (a, s') → s' = s) : Follows R c := by
  intro s a s' hs
  rw [h s a s' hs]
  exact Std.Refl.refl s

theorem pure (a : α) : Follows R (Pure.pure a : Eval σ α) := by
  refine of_eq ?_
  intro s b s' hs
  exact (Eval.pure_eq_ok.1 hs).2.symm

theorem lift (r : Except Fault α) : Follows R (Eval.lift r : Eval σ α) := by
  refine of_eq ?_
  intro s a s' hs
  exact (Eval.lift_eq_ok.1 hs).2.symm

theorem bind {c : Eval σ α} {k : α → Eval σ β} (hc : Follows R c) (hk : ∀ a, Follows R (k a)) :
    Follows R (c >>= k) := by
  intro s b s'' hs
  obtain ⟨a, s', h, h'⟩ := Eval.bind_eq_ok.1 hs
  exact IsTrans.trans _ _ _ (hc s a s' h) (hk a s' b s'' h')

theorem map {c : Eval σ α} (f : α → β) (hc : Follows R c) : Follows R (f <$> c) := by
  rw [map_eq_pure_bind]
  exact bind hc fun a => pure (f a)

theorem forM {items : List α} {f : α → Eval σ Unit} (hf : ∀ a ∈ items, Follows R (f a)) :
    Follows R (items.forM f) := by
  induction items with
  | nil => exact pure ()
  | cons a items ih =>
    exact bind (hf a List.mem_cons_self) fun _ =>
      ih fun b hb => hf b (List.mem_cons_of_mem a hb)

theorem forM_option {item : Option α} {f : α → Eval σ Unit} (hf : ∀ a ∈ item, Follows R (f a)) :
    Follows R (item.forM f) := by
  cases item with
  | none => exact pure ()
  | some a => exact hf a rfl

theorem mapM {items : List α} {f : α → Eval σ β} (hf : ∀ a ∈ items, Follows R (f a)) :
    Follows R (items.mapM f) := by
  induction items with
  | nil =>
    rw [List.mapM_nil]
    exact pure []
  | cons a items ih =>
    rw [List.mapM_cons]
    refine bind (hf a List.mem_cons_self) fun b => ?_
    exact bind (ih fun b hb => hf b (List.mem_cons_of_mem a hb)) fun bs => pure (b :: bs)

end Follows

/-- What held before holds after. -/
def Keeps (I : σ → Prop) (s s' : σ) : Prop :=
  I s → I s'

instance (I : σ → Prop) : IsPreorder σ (Keeps I) where
  refl _ h := h
  trans _ _ _ h h' hs := h' (h hs)

/-- To follow a relation is to be alike, whatever the second computation is. -/
def Likeness.following (R : σ → σ → Prop) [IsPreorder σ R] : Likeness σ where
  rel c _ := Follows R c
  pure := Follows.pure
  fail fault _ := Follows.fail fault
  bind hc hk := hc.bind hk

end Stepwise
