/-
The leaves of an object.

An object is a tree of parts, and only its leaves have cells: scalars, pointers and
arrays of characters. Where the leaves are, and of which types, is a matter of the
type alone (`Leaf`); every leaf has a cell, whatever the value is that the object is
given. The value matters for what the cells hold: a struct hands its members on to its
parts by name and an array its items by position, and what has neither leaves every
leaf of an object with parts without a value.

The cells of a member are among those of its struct, because members do not overlap.
-/
import Stepwise.Proofs.Tiling

set_option autoImplicit false

namespace Stepwise

/-! ## Where the leaves are -/

/-- One cell holds a whole object of the type: a scalar, a pointer or an array of characters. -/
def CType.IsCell (t : CType) : Prop :=
  t.isStruct = false ∧
    (t.isArray = true → ∃ element, t.element = .ok element ∧ isCharElement element = .ok true)

/-- Where an object of a type has its leaves, and of which types they are. -/
inductive Leaf (layouts : Layouts) : CType → Int → CType → Prop
  /-- An object in one cell is a leaf itself. -/
  | cell {t : CType} (h : t.IsCell) : Leaf layouts t 0 t
  /-- The leaves of the members of a struct. -/
  | member {t leaf : CType} {members : Members} {e : String × Int × CType} {offset : Int}
      (hstruct : t.isStruct = true) (hmembers : layouts.membersOf t = .ok members) (he : e ∈ members)
      (h : Leaf layouts e.2.2 offset leaf) : Leaf layouts t (e.2.1 + offset) leaf
  /-- The leaves of the elements of an array. -/
  | element {t element leaf : CType} {size length offset : Int} {i : Nat}
      (hstruct : t.isStruct = false) (harray : t.isArray = true) (helement : t.element = .ok element)
      (htext : isCharElement element = .ok false) (hsize : element.size layouts.sizes = .ok size)
      (hlength : t.length = .ok length) (hi : i < length.toNat)
      (h : Leaf layouts element offset leaf) : Leaf layouts t (i * size + offset) leaf

variable {layouts : Layouts}

/-- An object in one cell has no other leaf. -/
theorem Leaf.offset_of_isCell {t leaf : CType} {offset : Int} (h : Leaf layouts t offset leaf)
    (ht : t.IsCell) : offset = 0 := by
  cases h with
  | cell _ => rfl
  | member hstruct =>
    rw [ht.1] at hstruct
    cases hstruct
  | element _ harray helement htext =>
    obtain ⟨element, helement', htext'⟩ := ht.2 harray
    obtain rfl := Except.ok.inj (helement.symm.trans helement')
    rw [htext] at htext'
    cases htext'

/-! ## The cells of an object -/

section Cells

variable {depth : Nat} {name : String} {t : CType} {address : Int} {value : Value}
  {cells : Table Number CellPatch}

/-- The cell of an object that has only one. -/
theorem cellsWithin_of_isCell (ht : t.IsCell)
    (h : cellsWithin layouts depth name t address value = .ok cells) :
    ∃ v, cells = [(.int address, ⟨v, name, t⟩)] ∧ (v = value ∨ v = value.withOrigins address []) := by
  cases depth with
  | zero => cases h
  | succ depth =>
    rw [cellsWithin, ht.1, if_neg Bool.false_ne_true] at h
    split at h
    · next harray =>
      obtain ⟨element, helement, htext⟩ := ht.2 harray
      obtain ⟨_, helement', h⟩ := bind_eq_ok.1 h
      obtain rfl := Except.ok.inj (helement.symm.trans helement')
      obtain ⟨_, htext', h⟩ := bind_eq_ok.1 h
      obtain rfl := Except.ok.inj (htext.symm.trans htext')
      exact ⟨_, (Except.ok.inj h).symm, Or.inr rfl⟩
    · exact ⟨_, (Except.ok.inj h).symm, Or.inl rfl⟩

/-- The cells of a struct are those of its members, each with its value. -/
theorem cellsWithin_of_isStruct (hstruct : t.isStruct = true)
    (h : cellsWithin layouts (depth + 1) name t address value = .ok cells) :
    ∃ members parts, layouts.membersOf t = .ok members ∧
      List.Forall₂ (fun (e : String × Int × CType) part =>
        cellsWithin layouts depth (name ++ "." ++ e.1) e.2.2 (address + e.2.1)
          (value.memberOf e.1) = .ok part) members parts ∧
      cells = parts.foldl Table.putAll [] := by
  rw [cellsWithin, if_pos hstruct] at h
  obtain ⟨members, hmembers, h⟩ := bind_eq_ok.1 h
  obtain ⟨parts, hparts, hcells⟩ := Table.foldlM_putAll h
  exact ⟨members, parts, hmembers, hparts, hcells⟩

/-- The cells of an array that is no text are those of its elements, each with its item. -/
theorem cellsWithin_of_isArray {element : CType} (hstruct : t.isStruct = false)
    (harray : t.isArray = true) (helement : t.element = .ok element)
    (htext : isCharElement element = .ok false)
    (h : cellsWithin layouts (depth + 1) name t address value = .ok cells) :
    ∃ size length parts, element.size layouts.sizes = .ok size ∧ t.length = .ok length ∧
      List.Forall₂ (fun (i : Nat) part => ∃ item, itemValue value.items element i = .ok item ∧
        cellsWithin layouts depth (name ++ "[" ++ Numeral.decimal i ++ "]") element
          (address + i * size) item = .ok part) (List.range length.toNat) parts ∧
      cells = parts.foldl Table.putAll [] := by
  rw [cellsWithin, hstruct, if_neg Bool.false_ne_true, if_pos harray] at h
  obtain ⟨_, helement', h⟩ := bind_eq_ok.1 h
  obtain rfl := Except.ok.inj (helement.symm.trans helement')
  obtain ⟨_, htext', h⟩ := bind_eq_ok.1 h
  obtain rfl := Except.ok.inj (htext.symm.trans htext')
  obtain ⟨size, hsize, h⟩ := bind_eq_ok.1 h
  obtain ⟨length, hlength, h⟩ := bind_eq_ok.1 h
  let make (i : Nat) : Except Fault (Table Number CellPatch) := do
    let item ← itemValue value.items element i
    cellsWithin layouts depth (name ++ "[" ++ Numeral.decimal i ++ "]") element
      (address + i * size) item
  have hmake : (fun (cells : Table Number CellPatch) (i : Nat) => do
      let item ← itemValue value.items element i
      return cells.putAll (← cellsWithin layouts depth
        (name ++ "[" ++ Numeral.decimal i ++ "]") element (address + i * size) item))
      = fun (cells : Table Number CellPatch) (i : Nat) => do
        return cells.putAll (← make i) := by
    funext cells i
    simp only [make, bind_assoc]
  rw [hmake] at h
  obtain ⟨parts, hparts, hcells⟩ := Table.foldlM_putAll h
  refine ⟨size, length, parts, hsize, hlength, hparts.imp ?_, hcells⟩
  intro i part hpart
  obtain ⟨item, hitem, hpart⟩ := bind_eq_ok.1 hpart
  exact ⟨item, hitem, hpart⟩

/-- What is no struct is in one cell, or it is an array that is no text. -/
theorem isCell_or_isArray (hstruct : t.isStruct = false)
    (h : cellsWithin layouts (depth + 1) name t address value = .ok cells) :
    t.IsCell ∨ t.isArray = true ∧
      ∃ element, t.element = .ok element ∧ isCharElement element = .ok false := by
  rw [cellsWithin, hstruct, if_neg Bool.false_ne_true] at h
  split at h
  · next harray =>
    obtain ⟨element, helement, h⟩ := bind_eq_ok.1 h
    obtain ⟨isText, htext, _⟩ := bind_eq_ok.1 h
    cases isText with
    | true => exact Or.inl ⟨hstruct, fun _ => ⟨element, helement, htext⟩⟩
    | false => exact Or.inr ⟨harray, element, helement, htext⟩
  · next harray => exact Or.inl ⟨hstruct, fun hnot => absurd hnot harray⟩

end Cells

/-! ## Every leaf has a cell -/

theorem Table.find?_foldl_putAll_ne_none {ν : Type} {parts : List (Table Number ν)}
    {part t : Table Number ν} {a : Number} (happart : ∀ part ∈ parts, part.Apart)
    (h : t.find? a ≠ none ∨ part ∈ parts ∧ part.find? a ≠ none) :
    (parts.foldl putAll t).find? a ≠ none := by
  induction parts generalizing t with
  | nil =>
    rcases h with h | ⟨hpart, _⟩
    · exact h
    · cases hpart
  | cons first parts ih =>
    rw [List.forall_mem_cons] at happart
    refine ih happart.2 ?_
    rw [find?_putAll happart.1]
    rcases h with h | ⟨hpart, h⟩
    · exact Or.inl fun hnone => h (Option.or_eq_none_iff.1 hnone).2
    · rcases List.mem_cons.1 hpart with rfl | hpart
      · exact Or.inl fun hnone => h (Option.or_eq_none_iff.1 hnone).1
      · exact Or.inr ⟨hpart, h⟩

theorem exists_of_forall₂ {α β : Type} {R : α → β → Prop} {xs : List α} {ys : List β} {x : α}
    (h : List.Forall₂ R xs ys) (hx : x ∈ xs) : ∃ y ∈ ys, R x y :=
  let ⟨y, hy, hR⟩ := mem_of_forall₂ h.flip hx
  ⟨y, hy, hR⟩

/-- **Every leaf of an object has a cell.** -/
theorem Leaf.mapped {t leaf : CType} {offset : Int} (h : Leaf layouts t offset leaf) {depth : Nat}
    {name : String} {address : Int} {value : Value} {cells : Table Number CellPatch}
    (hcells : cellsWithin layouts depth name t address value = .ok cells) :
    cells.find? (.int (address + offset)) ≠ none := by
  induction h generalizing depth name address value cells with
  | cell ht =>
    obtain ⟨v, rfl, _⟩ := cellsWithin_of_isCell ht hcells
    rw [Int.add_zero, Table.find?_cons, if_pos (by simp)]
    exact Option.some_ne_none _
  | @member t leaf members e offset hstruct hmembers he _ ih =>
    cases depth with
    | zero => cases hcells
    | succ depth =>
      obtain ⟨members', parts, hmembers', hparts, rfl⟩ := cellsWithin_of_isStruct hstruct hcells
      obtain rfl := Except.ok.inj (hmembers.symm.trans hmembers')
      obtain ⟨part, hpart, hfill⟩ := exists_of_forall₂ hparts he
      have hmapped := ih hfill
      rw [Int.add_assoc] at hmapped
      refine Table.find?_foldl_putAll_ne_none ?_ (Or.inr ⟨hpart, hmapped⟩)
      intro part hpart
      obtain ⟨_, _, hfill⟩ := mem_of_forall₂ hparts hpart
      exact cellsWithin_apart hfill
  | @element t element leaf size length offset i hstruct harray helement htext hsize hlength hi _ ih =>
    cases depth with
    | zero => cases hcells
    | succ depth =>
      obtain ⟨size', length', parts, hsize', hlength', hparts, rfl⟩ :=
        cellsWithin_of_isArray hstruct harray helement htext hcells
      obtain rfl := Except.ok.inj (hsize.symm.trans hsize')
      obtain rfl := Except.ok.inj (hlength.symm.trans hlength')
      obtain ⟨part, hpart, item, _, hfill⟩ := exists_of_forall₂ hparts (List.mem_range.2 hi)
      have hmapped := ih hfill
      rw [Int.add_assoc] at hmapped
      refine Table.find?_foldl_putAll_ne_none ?_ (Or.inr ⟨hpart, hmapped⟩)
      intro part hpart
      obtain ⟨_, _, _, _, hfill⟩ := mem_of_forall₂ hparts hpart
      exact cellsWithin_apart hfill

/-! ## What the cells hold -/

/-- The value has neither members nor items to hand on. -/
def Value.NoParts (v : Value) : Prop :=
  (∀ name, v.memberOf name = .uninit) ∧ v.items = []

theorem Value.noParts_uninit : Value.uninit.NoParts :=
  ⟨fun _ => rfl, rfl⟩

/-- **An object with parts that is given a value without parts stays without a value.** -/
theorem cellsWithin_uninit {depth : Nat} {name : String} {t : CType} {address : Int} {value : Value}
    {cells : Table Number CellPatch} (hvalue : value.NoParts) (ht : t.IsCell → value = .uninit)
    (h : cellsWithin layouts depth name t address value = .ok cells) :
    ∀ e ∈ cells, e.2.value = .uninit := by
  induction depth generalizing name t address value cells with
  | zero => cases h
  | succ depth ih =>
    -- the parts are given nothing
    have hparts : ∀ {α : Type} {xs : List α} {parts : List (Table Number CellPatch)}
        {R : α → Table Number CellPatch → Prop}, List.Forall₂ R xs parts →
        (∀ x part, R x part → ∃ name t address,
          cellsWithin layouts depth name t address .uninit = .ok part) →
        ∀ e ∈ parts.foldl Table.putAll [], e.2.value = .uninit := by
      intro α xs parts R hR hfill e he
      have hwhole : ∀ part ∈ parts, part.Whole := by
        intro part hpart
        obtain ⟨x, _, hx⟩ := mem_of_forall₂ hR hpart
        obtain ⟨_, _, _, hcells⟩ := hfill x part hx
        exact cellsWithin_whole hcells
      rcases Table.mem_foldl_putAll Table.whole_nil hwhole he with he | ⟨part, hpart, he⟩
      · cases he
      · obtain ⟨x, _, hx⟩ := mem_of_forall₂ hR hpart
        obtain ⟨_, _, _, hcells⟩ := hfill x part hx
        exact ih Value.noParts_uninit (fun _ => rfl) hcells e he
    by_cases hcell : t.IsCell
    · obtain ⟨v, rfl, hv⟩ := cellsWithin_of_isCell hcell h
      intro e he
      rw [List.mem_singleton.1 he]
      rw [ht hcell] at hv
      rcases hv with rfl | rfl <;> rfl
    · cases hstruct : t.isStruct with
      | true =>
        obtain ⟨members, parts, _, hforall, rfl⟩ := cellsWithin_of_isStruct hstruct h
        refine hparts hforall fun e part hpart => ?_
        rw [hvalue.1] at hpart
        exact ⟨_, _, _, hpart⟩
      | false =>
        obtain hnot | ⟨harray, element, helement, htext⟩ := isCell_or_isArray hstruct h
        · exact absurd hnot hcell
        · obtain ⟨size, length, parts, _, _, hforall, rfl⟩ :=
            cellsWithin_of_isArray hstruct harray helement htext h
          refine hparts hforall fun i part hpart => ?_
          obtain ⟨item, hitem, hpart⟩ := hpart
          rw [hvalue.2] at hitem
          obtain rfl : Value.uninit = item := Except.ok.inj hitem
          exact ⟨_, _, _, hpart⟩

/-! ## The members of a struct -/

theorem Table.Whole.mem_of_find? {ν : Type} {t : Table Number ν} (ht : t.Whole) {a : Int} {v : ν}
    (h : t.find? (.int a) = some v) : (.int a, v) ∈ t := by
  obtain ⟨key, hkey, heq⟩ := Table.mem_of_find? h
  obtain ⟨n, hn⟩ := ht _ hkey
  dsimp only at hn
  rw [hn, Number.int_beq_int, decide_eq_true_eq] at heq
  rwa [hn, heq] at hkey

/-- **The cells of a member are among those of its struct.** -/
theorem Layouts.Settled.cells_of_member (hlayouts : layouts.Settled) {depth : Nat} {name : String}
    {t : CType} {address size : Int} {value : Value} {cells : Table Number CellPatch}
    {members : Members} {e : String × Int × CType} (hstruct : t.isStruct = true)
    (hsize : t.size layouts.sizes = .ok size) (hmembers : layouts.membersOf t = .ok members)
    (he : e ∈ members) (h : cellsWithin layouts depth name t address value = .ok cells) :
    ∃ inner part, cellsWithin layouts inner (name ++ "." ++ e.1) e.2.2 (address + e.2.1)
        (value.memberOf e.1) = .ok part ∧
      ∀ a c, part.find? (.int a) = some c → cells.find? (.int a) = some c := by
  obtain ⟨inner, rfl⟩ : ∃ inner, depth = inner + 1 := by
    cases depth with
    | zero => cases h
    | succ inner => exact ⟨inner, rfl⟩
  obtain ⟨members', parts, hmembers', hparts, rfl⟩ := cellsWithin_of_isStruct hstruct h
  obtain rfl := Except.ok.inj (hmembers.symm.trans hmembers')
  obtain ⟨part, hpart, hfill⟩ := exists_of_forall₂ hparts he
  refine ⟨inner, part, hfill, fun a c hc => ?_⟩
  have happart : ∀ part ∈ parts, part.Apart := by
    intro part hpart
    obtain ⟨_, _, hfill⟩ := mem_of_forall₂ hparts hpart
    exact cellsWithin_apart hfill
  have hwhole : ∀ part ∈ parts, part.Whole := by
    intro part hpart
    obtain ⟨_, _, hfill⟩ := mem_of_forall₂ hparts hpart
    exact cellsWithin_whole hfill
  -- the struct has a cell there, and it is one of a member
  have hmapped : (parts.foldl Table.putAll []).find? (.int a) ≠ none := by
    refine Table.find?_foldl_putAll_ne_none happart (Or.inr ⟨hpart, ?_⟩)
    rw [hc]
    exact Option.some_ne_none c
  obtain ⟨d, hd⟩ := Option.ne_none_iff_exists'.1 hmapped
  have hentry := (cellsWithin_whole h).mem_of_find? hd
  rcases Table.mem_foldl_putAll Table.whole_nil hwhole hentry with hnil | ⟨part', hpart', hmem⟩
  · cases hnil
  have hfit := hlayouts.members_fit hstruct hsize hmembers name address value
  have htiled : List.Forall₂ (Piece.TiledBy layouts.sizes) (members.map fun entry =>
      ⟨name ++ "." ++ entry.1, entry.2.2, address + entry.2.1, value.memberOf entry.1⟩) parts := by
    rw [List.forall₂_map_left_iff]
    refine ((List.forall₂_and_left members parts).2 ⟨fun f hf => hf, hparts⟩).imp ?_
    rintro f part ⟨hf, hfill⟩
    obtain ⟨n, hn⟩ := hfit.sized _ (List.mem_map_of_mem hf)
    exact ⟨n, hn, cellsWithin_tiled hlayouts (hfit.filled _ (List.mem_map_of_mem hf)) hn hfill⟩
  have hat : ∀ {part : Table Number CellPatch} {c : CellPatch}, part.find? (.int a) = some c →
      cellTypeAt part a = some c.type := by
    intro part c hc
    rw [cellTypeAt, hc]
    rfl
  have hd' := Table.find?_of_mem (happart part' hpart') (by simp) hmem
  rcases pairwise_of_forall₂ (fun _ _ hbeside => hbeside.symm) htiled hfit.beside hpart hpart' with
    rfl | ⟨p, q, ⟨n, hn, hp⟩, ⟨k, hk, hq⟩, hbeside⟩
  · rw [hd, ← hc, ← hd']
  · -- two members do not share an address
    obtain ⟨_, _, _, hlow, hhigh⟩ := hp.inside a _ (hat hc)
    obtain ⟨_, _, _, hlow', hhigh'⟩ := hq.inside a _ (hat hd')
    have hranges := hbeside n k hn hk
    omega

/-- What each step of a fold keeps holds in the end. -/
theorem foldlM_keeps {α β ε : Type} {P : β → Prop} {f : β → α → Except ε β}
    (hf : ∀ b a b', P b → f b a = .ok b' → P b') {xs : List α} {b b' : β} (hb : P b)
    (h : xs.foldlM f b = .ok b') : P b' := by
  induction xs generalizing b with
  | nil =>
    obtain rfl := Except.ok.inj h
    exact hb
  | cons x xs ih =>
    rw [List.foldlM_cons] at h
    obtain ⟨next, hnext, h⟩ := bind_eq_ok.1 h
    exact ih (hf b x next hb hnext) h

theorem Layout.ofStruct_apart {spare : Nat} {macros : Macros} {sizes : StructSizes} {s : Struct}
    {l : Layout} (h : ofStruct spare macros sizes s = .ok l) : l.members.Apart := by
  obtain ⟨p, hp, h⟩ := bind_eq_ok.1 h
  obtain rfl := Except.ok.inj h
  have hkeeps : ∀ (q : Partial) (declared : CType × Variable) (q' : Partial),
      Table.Apart q.members →
      (do
        let type ← declared.2.fullType declared.1 fun e => constantValue macros sizes e spare
        q.place sizes declared.2.name type) = .ok q' →
      Table.Apart q'.members := by
    intro q declared q' hq hplace
    obtain ⟨type, _, hplace⟩ := bind_eq_ok.1 hplace
    obtain ⟨alignment, _, hplace⟩ := bind_eq_ok.1 hplace
    obtain ⟨n, _, hplace⟩ := bind_eq_ok.1 hplace
    obtain rfl := Except.ok.inj hplace
    exact Table.apart_put _ _ hq
  have hempty : Table.Apart ({} : Partial).members := List.Pairwise.nil
  exact foldlM_keeps (P := fun q : Partial => Table.Apart q.members) hkeeps hempty hp

/-- No two members of a struct have the same name. -/
theorem layouts_members_apart {p : Program} {spare : Nat} {macros : Macros} {layouts : Layouts}
    (h : p.layouts spare macros = .ok layouts) : ∀ e ∈ layouts, e.2.members.Apart := by
  refine foldlM_keeps (P := fun known : Layouts => ∀ e ∈ known, e.2.members.Apart) ?_
    (fun e he => by cases he) h
  intro known s known' hknown hstep
  obtain ⟨l, hl, hstep⟩ := bind_eq_ok.1 hstep
  obtain rfl := Except.ok.inj hstep
  have hmembers := Layout.ofStruct_apart hl
  intro e he
  rcases Table.mem_put he with he | rfl | ⟨_, hvalue, _⟩
  · exact hknown e he
  · exact hmembers
  · rw [hvalue]
    exact hmembers

end Stepwise
