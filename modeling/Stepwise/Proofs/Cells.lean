/-
The cells of an object.

An object is a leaf, which takes one cell at its own address, or it is made of
*pieces*: the members of a struct or the elements of an array, each with an
address of its own. The cells of an object with pieces are those of its pieces,
put together in order.

`cellsWithin_cases` says this once; facts about all cells of an object are then
proved by induction on how deep it may be nested, a leaf and a list of pieces at
a time.
-/
import Stepwise.Machine.Objects
import Stepwise.Proofs.Effect
import Stepwise.Proofs.Number
import Stepwise.Proofs.Table
import Mathlib.Data.List.Forall2

set_option autoImplicit false

namespace Stepwise

/-! ## Tables with whole numbers for keys -/

namespace Table

variable {ν : Type}

/-- Every key is a whole number. -/
def Whole (t : Table Number ν) : Prop :=
  ∀ e ∈ t, ∃ n, e.1 = .int n

theorem whole_nil : Whole ([] : Table Number ν) := by
  intro e he
  cases he

theorem whole_singleton (n : Int) (v : ν) : Whole [(Number.int n, v)] := by
  intro e he
  obtain rfl := List.mem_singleton.1 he
  exact ⟨n, rfl⟩

/-- Whole numbers are equal only if they are the same, so an entry that is put in keeps its key. -/
theorem mem_putAll_whole {t more : Table Number ν} (ht : Whole t) (hmore : Whole more)
    {e : Number × ν} (h : e ∈ t.putAll more) : e ∈ t ∨ e ∈ more := by
  rcases mem_putAll h with h | h | ⟨f, hf, hkey, hvalue, w, hw⟩
  · exact Or.inl h
  · exact Or.inr h
  · obtain ⟨n, hn⟩ := hmore f hf
    have hint : ∃ m, e.1 = .int m := by
      rcases hw with hw | hw
      · exact ht (e.1, w) hw
      · exact hmore (e.1, w) hw
    obtain ⟨m, hm⟩ := hint
    rw [hm, hn, Number.int_beq_int, decide_eq_true_eq] at hkey
    have he : e = f := Prod.ext (by rw [hm, hn, hkey]) hvalue
    exact Or.inr (he ▸ hf)

theorem whole_putAll {t more : Table Number ν} (ht : Whole t) (hmore : Whole more) :
    Whole (t.putAll more) := by
  intro e he
  rcases mem_putAll_whole ht hmore he with he | he
  · exact ht e he
  · exact hmore e he

theorem mem_foldl_putAll {parts : List (Table Number ν)} {t : Table Number ν} (ht : Whole t)
    (hparts : ∀ part ∈ parts, Whole part) {e : Number × ν} (h : e ∈ parts.foldl putAll t) :
    e ∈ t ∨ ∃ part ∈ parts, e ∈ part := by
  induction parts generalizing t with
  | nil => exact Or.inl h
  | cons part parts ih =>
    have hpart : Whole part := hparts part List.mem_cons_self
    rcases ih (whole_putAll ht hpart) (fun q hq => hparts q (List.mem_cons_of_mem _ hq)) h with
      h | ⟨q, hq, h⟩
    · rcases mem_putAll_whole ht hpart h with h | h
      · exact Or.inl h
      · exact Or.inr ⟨part, List.mem_cons_self, h⟩
    · exact Or.inr ⟨q, List.mem_cons_of_mem _ hq, h⟩

theorem apart_foldl_putAll {parts : List (Table Number ν)} {t : Table Number ν} (ht : t.Apart) :
    (parts.foldl putAll t).Apart := by
  induction parts generalizing t with
  | nil => exact ht
  | cons part parts ih => exact ih (apart_putAll part ht)

/-- Putting in table after table, as long as each of them can be made. -/
theorem foldlM_putAll {α : Type} {make : α → Except Fault (Table Number ν)} {items : List α}
    {t cells : Table Number ν}
    (h : items.foldlM (fun (cells : Table Number ν) x => do return cells.putAll (← make x)) t
      = .ok cells) :
    ∃ parts, List.Forall₂ (fun x part => make x = .ok part) items parts ∧
      cells = parts.foldl putAll t := by
  induction items generalizing t with
  | nil => exact ⟨[], .nil, (Except.ok.inj h).symm⟩
  | cons x items ih =>
    rw [List.foldlM_cons] at h
    cases hx : make x with
    | error fault =>
      rw [hx] at h
      cases h
    | ok part =>
      rw [hx] at h
      obtain ⟨parts, hparts, hcells⟩ := ih h
      exact ⟨part :: parts, .cons hx hparts, hcells⟩

end Table

/-! ## Pieces -/

/-- A part of an object that has cells of its own. -/
structure Piece where
  /-- Its full name. -/
  name : String
  /-- Its type. -/
  type : CType
  /-- Where it is. -/
  address : Int
  /-- The value it is given. -/
  value : Value

/-- The pieces of an object. -/
inductive Pieces (layouts : Layouts) (name : String) (type : CType) (address : Int)
    (value : Value) : List Piece → Prop
  /-- The members of a struct. -/
  | members (hstruct : type.isStruct = true) {members : Members}
      (hmembers : layouts.membersOf type = .ok members) :
      Pieces layouts name type address value
        (members.map fun entry =>
          ⟨name ++ "." ++ entry.1, entry.2.2, address + entry.2.1, value.memberOf entry.1⟩)
  /-- The elements of an array. -/
  | elements (harray : type.isArray = true) {element : CType} {size length : Int}
      (helement : type.element = .ok element)
      (hsize : element.size layouts.sizes = .ok size) (hlength : type.length = .ok length)
      (item : Nat → Value) :
      Pieces layouts name type address value
        ((List.range length.toNat).map fun (i : Nat) =>
          ⟨name ++ "[" ++ Numeral.decimal i ++ "]", element, address + i * size, item i⟩)

variable {layouts : Layouts}

/-- The cells of an object are one at its own address, or those of its pieces. -/
theorem cellsWithin_cases {depth : Nat} {name : String} {type : CType} {address : Int}
    {value : Value} {cells : Table Number CellPatch}
    (h : cellsWithin layouts (depth + 1) name type address value = .ok cells) :
    (∃ v, cells = [(.int address, ⟨v, name, type⟩)] ∧ type.isStruct = false ∧
      (type.isAggregate = false → v = value)) ∨
    ∃ pieces parts, Pieces layouts name type address value pieces ∧
      List.Forall₂ (fun p part =>
        cellsWithin layouts depth p.name p.type p.address p.value = .ok part) pieces parts ∧
      cells = parts.foldl Table.putAll [] := by
  rw [cellsWithin] at h
  split at h
  · next hstruct =>
    cases hm : layouts.membersOf type with
    | error fault =>
      rw [hm] at h
      cases h
    | ok members =>
      rw [hm] at h
      obtain ⟨parts, hparts, rfl⟩ := Table.foldlM_putAll h
      refine Or.inr ⟨_, parts, .members hstruct hm, ?_, rfl⟩
      rw [List.forall₂_map_left_iff]
      exact hparts
  · next hstruct =>
    have hnot : type.isStruct = false := by simpa using hstruct
    split at h
    · next harray =>
      obtain ⟨element, helement, h⟩ := bind_eq_ok.1 h
      obtain ⟨isText, htext, h⟩ := bind_eq_ok.1 h
      split at h
      · refine Or.inl ⟨_, (Except.ok.inj h).symm, hnot, fun hscalar => ?_⟩
        rw [CType.isAggregate, harray] at hscalar
        cases hscalar
      · obtain ⟨size, hsize, h⟩ := bind_eq_ok.1 h
        obtain ⟨length, hlength, h⟩ := bind_eq_ok.1 h
        let make (i : Nat) : Except Fault (Table Number CellPatch) := do
          let item ← itemValue value.items element i
          cellsWithin layouts depth (name ++ "[" ++ Numeral.decimal i ++ "]") element
            (address + i * size) item
        have hmake : (fun (cells : Table Number CellPatch) (i : Nat) => do
            let item ← itemValue value.items element i
            return cells.putAll (← cellsWithin layouts depth
              (name ++ "[" ++ Numeral.decimal i ++ "]") element (address + i * size) item))
            = fun (cells : Table Number CellPatch) (i : Nat) => do
              return cells.putAll (← make i) := by
          funext cells i
          simp only [make, bind_assoc]
        rw [hmake] at h
        obtain ⟨parts, hparts, rfl⟩ := Table.foldlM_putAll h
        -- the items are those that the initializer gives, and there is one for every element
        let item (i : Nat) : Value := (itemValue value.items element i).toOption.getD .uninit
        refine Or.inr ⟨_, parts, .elements harray helement hsize hlength item, ?_, rfl⟩
        rw [List.forall₂_map_left_iff]
        refine hparts.imp ?_
        intro i part hpart
        obtain ⟨v, hv, hcells⟩ := bind_eq_ok.1 hpart
        simp only [item, hv, Except.toOption, Option.getD_some]
        exact hcells
    · exact Or.inl ⟨value, (Except.ok.inj h).symm, hnot, fun _ => rfl⟩

theorem mem_of_forall₂ {α β : Type} {R : α → β → Prop} {xs : List α} {ys : List β} {y : β}
    (h : List.Forall₂ R xs ys) (hy : y ∈ ys) : ∃ x ∈ xs, R x y := by
  induction h with
  | nil => cases hy
  | cons hR _ ih =>
    rcases List.mem_cons.1 hy with rfl | hy
    · exact ⟨_, List.mem_cons_self, hR⟩
    · obtain ⟨x, hx, hxy⟩ := ih hy
      exact ⟨x, List.mem_cons_of_mem _ hx, hxy⟩

/-- Objects are placed at whole numbers. -/
theorem cellsWithin_whole {depth : Nat} {name : String} {type : CType} {address : Int}
    {value : Value} {cells : Table Number CellPatch}
    (h : cellsWithin layouts depth name type address value = .ok cells) : cells.Whole := by
  induction depth generalizing name type address value cells with
  | zero => cases h
  | succ depth ih =>
    rcases cellsWithin_cases h with ⟨v, rfl, _⟩ | ⟨pieces, parts, _, hparts, rfl⟩
    · exact Table.whole_singleton address _
    · have hwhole : ∀ part ∈ parts, part.Whole := by
        intro part hpart
        obtain ⟨p, _, hp⟩ := mem_of_forall₂ hparts hpart
        exact ih hp
      intro e he
      rcases Table.mem_foldl_putAll Table.whole_nil hwhole he with he | ⟨part, hpart, he⟩
      · cases he
      · exact hwhole part hpart e he

/-- No two cells of an object have the same address. -/
theorem cellsWithin_apart {depth : Nat} {name : String} {type : CType} {address : Int}
    {value : Value} {cells : Table Number CellPatch}
    (h : cellsWithin layouts depth name type address value = .ok cells) : cells.Apart := by
  cases depth with
  | zero => cases h
  | succ depth =>
    rcases cellsWithin_cases h with ⟨v, rfl, _⟩ | ⟨pieces, parts, _, _, rfl⟩
    · exact List.pairwise_singleton _ _
    · exact Table.apart_foldl_putAll List.Pairwise.nil

/-- A cell of an object is the only one of a leaf, or a cell of one of its pieces. -/
theorem cellsWithin_mem {depth : Nat} {name : String} {type : CType} {address : Int}
    {value : Value} {cells : Table Number CellPatch} {e : Number × CellPatch}
    (h : cellsWithin layouts (depth + 1) name type address value = .ok cells) (he : e ∈ cells) :
    (∃ v, e = (.int address, ⟨v, name, type⟩) ∧ type.isStruct = false) ∨
    ∃ pieces, Pieces layouts name type address value pieces ∧
      ∃ p ∈ pieces, ∃ part, cellsWithin layouts depth p.name p.type p.address p.value = .ok part ∧
        e ∈ part := by
  rcases cellsWithin_cases h with ⟨v, rfl, hstruct, _⟩ | ⟨pieces, parts, hpieces, hparts, rfl⟩
  · exact Or.inl ⟨v, List.mem_singleton.1 he, hstruct⟩
  · have hwhole : ∀ part ∈ parts, part.Whole := by
      intro part hpart
      obtain ⟨p, _, hp⟩ := mem_of_forall₂ hparts hpart
      exact cellsWithin_whole hp
    rcases Table.mem_foldl_putAll Table.whole_nil hwhole he with he | ⟨part, hpart, he⟩
    · cases he
    · obtain ⟨p, hp, hcells⟩ := mem_of_forall₂ hparts hpart
      exact Or.inr ⟨pieces, hpieces, p, hp, part, hcells, he⟩

/-- A scalar has one cell, with its value. -/
theorem cellsWithin_scalar {depth : Nat} {name : String} {type : CType} {address : Int}
    {value : Value} {cells : Table Number CellPatch} (hscalar : type.isAggregate = false)
    (h : cellsWithin layouts depth name type address value = .ok cells) :
    cells = [(.int address, ⟨value, name, type⟩)] := by
  rw [CType.isAggregate, Bool.or_eq_false_iff] at hscalar
  cases depth with
  | zero => cases h
  | succ depth =>
    rw [cellsWithin, hscalar.1, hscalar.2] at h
    exact (Except.ok.inj h).symm

end Stepwise
