/-
Paths to the leaves of an object.

The way from an object to one of its leaves is a path: a member of a struct, an element
of an array, and on from there. The cell of a leaf has the name of the object with the
path behind it, and leaves at different paths do not share an address, because members
do not overlap and elements stand one behind the other.

Nothing here is said of structs that an object has no part in. An object is built from
structs of the program that are defined once and in front of those that hold them, so
each of its structs has the size now that it had when the others were laid out; and
since what a struct is built from was defined before it, the bound on nestings is high
enough.
-/
import Stepwise.Proofs.Leaves
import Stepwise.Proofs.Nesting
import Stepwise.Proofs.Offsets
import Mathlib.Data.List.Pairwise

set_option autoImplicit false

namespace Stepwise

/-! ## Paths -/

/-- A part of an object. -/
inductive Part where
  /-- A member of a struct. -/
  | member (name : String)
  /-- An element of an array. -/
  | element (i : Nat)
deriving DecidableEq

/-- A part as it is written behind the name of its object. -/
def Part.text : Part → String
  | member name => "." ++ name
  | element i => "[" ++ Numeral.decimal i ++ "]"

/-- A part of a part of an object, and so on. -/
abbrev Path := List Part

/-- A path as it is written behind the name of its object. -/
def Path.text : Path → String
  | [] => ""
  | part :: path => part.text ++ Path.text path

/-- At which paths and offsets an object of a type has its leaves, and of which types they are. -/
inductive LeafAt (layouts : Layouts) : CType → Path → Int → CType → Prop
  /-- An object in one cell is a leaf itself. -/
  | cell {t : CType} (h : t.IsCell) : LeafAt layouts t [] 0 t
  /-- The leaves of the members of a struct. -/
  | member {t leaf : CType} {members : Members} {e : String × Int × CType} {path : Path}
      {offset : Int} (hstruct : t.isStruct = true) (hmembers : layouts.membersOf t = .ok members)
      (he : e ∈ members) (h : LeafAt layouts e.2.2 path offset leaf) :
      LeafAt layouts t (.member e.1 :: path) (e.2.1 + offset) leaf
  /-- The leaves of the elements of an array. -/
  | element {t element leaf : CType} {size length offset : Int} {i : Nat} {path : Path}
      (hstruct : t.isStruct = false) (harray : t.isArray = true) (helement : t.element = .ok element)
      (htext : isCharElement element = .ok false) (hsize : element.size layouts.sizes = .ok size)
      (hlength : t.length = .ok length) (hi : i < length.toNat)
      (h : LeafAt layouts element path offset leaf) :
      LeafAt layouts t (.element i :: path) (i * size + offset) leaf

namespace LeafAt

variable {layouts : Layouts} {t leaf : CType} {path : Path} {offset : Int}

theorem toLeaf (h : LeafAt layouts t path offset leaf) : Leaf layouts t offset leaf := by
  induction h with
  | cell h => exact .cell h
  | member hstruct hmembers he _ ih => exact .member hstruct hmembers he ih
  | element hstruct harray helement htext hsize hlength hi _ ih =>
    exact .element hstruct harray helement htext hsize hlength hi ih

/-- An object in one cell has no other leaf. -/
theorem of_isCell (h : LeafAt layouts t path offset leaf) (ht : t.IsCell) :
    path = [] ∧ offset = 0 ∧ leaf = t := by
  cases h with
  | cell _ => exact ⟨rfl, rfl, rfl⟩
  | member hstruct =>
    rw [ht.1] at hstruct
    cases hstruct
  | element _ harray helement htext =>
    obtain ⟨element, helement', htext'⟩ := ht.2 harray
    obtain rfl := Except.ok.inj (helement.symm.trans helement')
    rw [htext] at htext'
    cases htext'

/-- The leaves of a struct are those of its members. -/
theorem of_isStruct {members : Members} (h : LeafAt layouts t path offset leaf)
    (hstruct : t.isStruct = true) (hmembers : layouts.membersOf t = .ok members) :
    ∃ e ∈ members, ∃ rest inner, path = .member e.1 :: rest ∧ offset = e.2.1 + inner ∧
      LeafAt layouts e.2.2 rest inner leaf := by
  cases h with
  | cell ht =>
    rw [ht.1] at hstruct
    cases hstruct
  | member _ hmembers' he h =>
    obtain rfl := Except.ok.inj (hmembers.symm.trans hmembers')
    exact ⟨_, he, _, _, rfl, rfl, h⟩
  | element hnot =>
    rw [hnot] at hstruct
    cases hstruct

/-- The leaves of an array that is no text are those of its elements. -/
theorem of_isArray {element : CType} {size length : Int} (h : LeafAt layouts t path offset leaf)
    (harray : t.isArray = true) (helement : t.element = .ok element)
    (htext : isCharElement element = .ok false) (hsize : element.size layouts.sizes = .ok size)
    (hlength : t.length = .ok length) :
    ∃ i rest inner, i < length.toNat ∧ path = .element i :: rest ∧ offset = i * size + inner ∧
      LeafAt layouts element rest inner leaf := by
  cases h with
  | cell ht =>
    obtain ⟨element', helement', htext'⟩ := ht.2 harray
    obtain rfl := Except.ok.inj (helement.symm.trans helement')
    rw [htext] at htext'
    cases htext'
  | member hstruct =>
    rw [CType.isStruct, harray, Bool.not_true, Bool.and_false] at hstruct
    cases hstruct
  | element _ _ helement' _ hsize' hlength' hi h =>
    obtain rfl := Except.ok.inj (helement.symm.trans helement')
    obtain rfl := Except.ok.inj (hsize.symm.trans hsize')
    obtain rfl := Except.ok.inj (hlength.symm.trans hlength')
    exact ⟨_, _, _, hi, rfl, rfl, h⟩

end LeafAt

/-! ## Objects built from structs of a program -/

/-- Objects of the type are made of objects in one cell, of arrays that have elements, and of structs
among the first ones of the program, each defined once and made of what is defined before it. -/
inductive Program.Builds (p : Program) (layouts : Layouts) : Nat → CType → Prop
  | cell {n : Nat} {t : CType} (hcell : t.IsCell) (hfilled : t.Filled)
      (hheld : t.heldStruct? = none) : Builds p layouts n t
  | struct {n : Nat} {t : CType} {s : Struct} {pre post : List Struct} {members : Members}
      (hstruct : t.isStruct = true) (htext : Text.trim t.text.toList = s.typeName.toList)
      (hsplit : p.structs = pre ++ s :: post) (hbefore : pre.length < n)
      (honce : ∀ u ∈ pre ++ post, u.typeName ≠ s.typeName)
      (hmembers : layouts.membersOf t = .ok members)
      (h : ∀ e ∈ members, Builds p layouts pre.length e.2.2) : Builds p layouts n t
  | array {n : Nat} {t element : CType} {length : Int} (harray : t.isArray = true)
      (helement : t.element = .ok element) (htext : isCharElement element = .ok false)
      (hlength : t.length = .ok length) (hpos : 1 ≤ length) (h : Builds p layouts n element) :
      Builds p layouts n t

theorem CType.isArray_of_isStruct {t : CType} (h : t.isStruct = true) : t.isArray = false := by
  rw [isStruct, Bool.and_eq_true, Bool.not_eq_true'] at h
  exact h.2

theorem CType.isStruct_of_isArray {t : CType} (h : t.isArray = true) : t.isStruct = false := by
  rw [isStruct, h, Bool.not_true, Bool.and_false]

namespace Program.Builds

variable {p : Program} {spare : Nat} {macros : Macros} {layouts : Layouts} {n : Nat} {t : CType}

theorem filled (h : p.Builds layouts n t) : t.Filled := by
  induction h with
  | cell _ hfilled _ => exact hfilled
  | struct hstruct => exact .single (CType.isArray_of_isStruct hstruct)
  | array harray helement _ hlength hpos _ ih => exact .array harray helement hlength hpos ih

section Program

variable (hlayouts : p.layouts spare macros = .ok layouts) (htags : ∀ s ∈ p.structs, s.Tagged)

include htags

/-- The struct that such an object holds by value is one of the first, and defined once. -/
theorem held (h : p.Builds layouts n t) {name : String} (hheld : t.heldStruct? = some name) :
    ∃ s pre post, p.structs = pre ++ s :: post ∧ pre.length < n ∧ s.typeName = name ∧
      ∀ u ∈ pre ++ post, u.typeName ≠ name := by
  induction h with
  | cell _ _ hnone =>
    rw [hnone] at hheld
    cases hheld
  | @struct n t s pre post members hstruct htext hsplit hbefore honce =>
    have hs : s ∈ p.structs := by
      rw [hsplit]
      exact List.mem_append_right _ List.mem_cons_self
    obtain rfl := Option.some.inj
      (((htags s hs).heldStruct?_of_text hstruct htext).symm.trans hheld)
    exact ⟨s, pre, post, hsplit, hbefore, rfl, honce⟩
  | array harray helement _ _ _ _ ih =>
    exact ih ((CType.heldStruct?_element harray helement).trans hheld)

include hlayouts

/-- The members of a struct are where its layout puts them, by the sizes they have now. -/
theorem placed {s : Struct} {pre post : List Struct} {members : Members}
    (hstruct : t.isStruct = true) (htext : Text.trim t.text.toList = s.typeName.toList)
    (hsplit : p.structs = pre ++ s :: post) (honce : ∀ u ∈ pre ++ post, u.typeName ≠ s.typeName)
    (hmembers : layouts.membersOf t = .ok members)
    (h : ∀ e ∈ members, p.Builds layouts pre.length e.2.2) :
    ∃ l, layouts.find? s.typeName = some l ∧ members = l.members ∧
      t.size layouts.sizes = .ok l.size ∧ Members.Placed layouts.sizes l.size members := by
  obtain ⟨known, l, hknown, hl, hlater, hfound⟩ := p.laid_out hlayouts hsplit
  have hl' := hfound fun u hu => honce u (List.mem_append_right _ hu)
  have hs : s ∈ p.structs := by
    rw [hsplit]
    exact List.mem_append_right _ List.mem_cons_self
  obtain ⟨l', hfind, hmembers'⟩ := Layouts.membersOf_eq_ok hmembers
  rw [htext, String.ofList_toList, hl'] at hfind
  obtain rfl := Option.some.inj hfind
  refine ⟨l, hl', hmembers', ?_, ?_⟩
  · rw [(htags s hs).size_of_text hstruct htext, Layouts.find?_sizes, hl']
    rfl
  · have hnonneg := (Layouts.Sound.extend (fun e he => by cases he) hknown).sizes_nonneg
    rw [hmembers']
    refine (Layout.ofStruct_sound hnonneg hl).placed.congr fun e he => CType.size_of_held ?_
    intro name hname
    obtain ⟨u, pre', post', hsplit', hbefore, rfl, honce'⟩ := (h e (hmembers' ▸ he)).held htags hname
    -- the struct that is held stands in front of this one, so it was known and has stayed
    have hother : ∀ v ∈ s :: post, v.typeName ≠ u.typeName := by
      have heq := hsplit'.symm.trans hsplit
      rcases List.append_eq_append_iff.1 heq with ⟨between, rfl, hbetween⟩ | ⟨between, rfl, hbetween⟩
      · cases between with
        | nil => simp at hbefore
        | cons w between =>
          obtain ⟨rfl, rfl⟩ := List.cons.inj hbetween
          intro v hv
          exact honce' v (List.mem_append_right _ (List.mem_append_right _ hv))
      · simp at hbefore
    rw [Layouts.find?_sizes, Layouts.find?_sizes, Layouts.find?_extend hother hlater]

/-- Every leaf takes some space inside the object. -/
theorem leaf_within (h : p.Builds layouts n t) {path : Path} {offset : Int} {leaf : CType}
    (hleaf : LeafAt layouts t path offset leaf) :
    ∃ size k, t.size layouts.sizes = .ok size ∧ leaf.size layouts.sizes = .ok k ∧ 0 < k ∧
      0 ≤ offset ∧ offset + k ≤ size := by
  induction h generalizing path offset leaf with
  | @cell n t hcell hfilled hheld =>
    obtain ⟨_, rfl, rfl⟩ := hleaf.of_isCell hcell
    obtain ⟨size, hsize⟩ := hfilled.exists_size layouts.sizes
    -- no struct takes part in the size
    have hsame : leaf.size layouts.sizes = leaf.size [] :=
      CType.size_of_held fun name hname => by rw [hheld] at hname; cases hname
    have hpos : 0 < size :=
      hfilled.size_pos (fun e he => by cases he) (hsame.symm.trans hsize)
    exact ⟨size, size, hsize, hsize, hpos, Int.le_refl _, by omega⟩
  | @struct n t s pre post members hstruct htext hsplit _ honce hmembers h ih =>
    obtain ⟨l, _, _, hsize, hplaced⟩ := placed hlayouts htags hstruct htext hsplit honce hmembers h
    obtain ⟨e, he, rest, inner, rfl, rfl, hinner⟩ := hleaf.of_isStruct hstruct hmembers
    obtain ⟨size, k, hsize', hk, hpos, hlow, hhigh⟩ := ih e he hinner
    obtain ⟨hstart, size', hsize'', hend⟩ := hplaced.within e he
    obtain rfl := Except.ok.inj (hsize'.symm.trans hsize'')
    exact ⟨l.size, k, hsize, hk, hpos, by omega, by omega⟩
  | @array n t element length harray helement htext hlength hone h ih =>
    obtain ⟨size, hsize⟩ := h.filled.exists_size layouts.sizes
    obtain ⟨i, rest, inner, hi, rfl, rfl, hinner⟩ :=
      hleaf.of_isArray harray helement htext hsize hlength
    obtain ⟨size', k, hsize', hk, hpos, hlow, hhigh⟩ := ih hinner
    obtain rfl := Except.ok.inj (hsize.symm.trans hsize')
    have htotal := CType.size_array_eq layouts.sizes harray helement hlength hone
    rw [hsize] at htotal
    have hstart : 0 ≤ (i : Int) * size := Int.mul_nonneg (Int.natCast_nonneg i) (by omega)
    have hend : ((i : Int) + 1) * size ≤ length * size :=
      Int.mul_le_mul_of_nonneg_right (by omega) (by omega)
    rw [Int.add_mul, Int.one_mul, Int.mul_comm length] at hend
    exact ⟨size * length, k, htotal, hk, hpos, by omega, by omega⟩

/-- **Leaves at different paths do not share an address.** -/
theorem leaf_unique (h : p.Builds layouts n t) {path path' : Path} {offset : Int}
    {leaf leaf' : CType} (hleaf : LeafAt layouts t path offset leaf)
    (hleaf' : LeafAt layouts t path' offset leaf') : path = path' ∧ leaf = leaf' := by
  induction h generalizing path path' offset leaf leaf' with
  | @cell n t hcell =>
    obtain ⟨rfl, _, rfl⟩ := hleaf.of_isCell hcell
    obtain ⟨rfl, _, rfl⟩ := hleaf'.of_isCell hcell
    exact ⟨rfl, rfl⟩
  | @struct n t s pre post members hstruct htext hsplit _ honce hmembers h ih =>
    obtain ⟨l, _, _, hsize, hplaced⟩ := placed hlayouts htags hstruct htext hsplit honce hmembers h
    obtain ⟨e, he, rest, inner, rfl, rfl, hinner⟩ := hleaf.of_isStruct hstruct hmembers
    obtain ⟨f, hf, rest', inner', rfl, heq, hinner'⟩ := hleaf'.of_isStruct hstruct hmembers
    by_cases hef : e = f
    · subst hef
      obtain rfl : inner = inner' := by omega
      obtain ⟨rfl, rfl⟩ := ih e he hinner hinner'
      exact ⟨rfl, rfl⟩
    · -- the members do not overlap
      have hsymm : Std.Symm fun e f : String × Int × CType =>
          Members.Beside layouts.sizes e.2 f.2 := ⟨fun _ _ hbeside => hbeside.symm⟩
      have hbeside : Members.Beside layouts.sizes e.2 f.2 := hplaced.beside.forall he hf hef
      obtain ⟨size, k, hsize, _, hpos, hlow, hhigh⟩ := (h e he).leaf_within hlayouts htags hinner
      obtain ⟨size', k', hsize', _, hpos', hlow', hhigh'⟩ :=
        (h f hf).leaf_within hlayouts htags hinner'
      have hranges := hbeside size size' hsize hsize'
      omega
  | @array n t element length harray helement htext hlength hone h ih =>
    obtain ⟨size, hsize⟩ := h.filled.exists_size layouts.sizes
    obtain ⟨i, rest, inner, _, rfl, rfl, hinner⟩ :=
      hleaf.of_isArray harray helement htext hsize hlength
    obtain ⟨j, rest', inner', _, rfl, heq, hinner'⟩ :=
      hleaf'.of_isArray harray helement htext hsize hlength
    -- every leaf of an element is within the bytes of the element
    have hbounds : ∀ {path : Path} {offset : Int} {leaf : CType},
        LeafAt layouts element path offset leaf → 0 ≤ offset ∧ offset < size := by
      intro path offset leaf hleaf
      obtain ⟨size', k, hsize', _, hpos, hlow, hhigh⟩ := h.leaf_within hlayouts htags hleaf
      obtain rfl := Except.ok.inj (hsize.symm.trans hsize')
      omega
    have hfirst := hbounds hinner
    have hsecond := hbounds hinner'
    have hnext : ∀ {a b : Int}, a < b → (a + 1) * size ≤ b * size := fun hab =>
      Int.mul_le_mul_of_nonneg_right (by omega) (by omega)
    rcases Int.lt_trichotomy i j with hlt | hij | hlt
    · have hend := hnext hlt
      rw [Int.add_mul, Int.one_mul] at hend
      omega
    · obtain rfl : i = j := by omega
      obtain rfl : inner = inner' := by omega
      obtain ⟨rfl, rfl⟩ := ih hinner hinner'
      exact ⟨rfl, rfl⟩
    · have hend := hnext hlt
      rw [Int.add_mul, Int.one_mul] at hend
      omega

end Program

end Program.Builds

/-! ## The cells of the leaves -/

section Cells

variable {layouts : Layouts} {depth : Nat} {name : String} {t : CType} {address : Int}
  {value : Value} {cells : Table Number CellPatch}

/-- **Every cell of an object is that of a leaf**, with the name of the object and the path behind
it. -/
theorem cells_are_leaves (h : cellsWithin layouts depth name t address value = .ok cells) :
    ∀ e ∈ cells, ∃ path offset leaf v, LeafAt layouts t path offset leaf ∧
      e = (.int (address + offset), ⟨v, name ++ path.text, leaf⟩) := by
  induction depth generalizing name t address value cells with
  | zero => cases h
  | succ depth ih =>
    by_cases hcell : t.IsCell
    · -- an object of one cell is its own leaf
      obtain ⟨v, rfl, _⟩ := cellsWithin_of_isCell hcell h
      intro e he
      refine ⟨[], 0, t, v, .cell hcell, ?_⟩
      rw [List.mem_singleton.1 he, Int.add_zero, Path.text, String.append_empty]
    · cases hstruct : t.isStruct with
      | true =>
        obtain ⟨members, parts, hmembers, hparts, rfl⟩ := cellsWithin_of_isStruct hstruct h
        intro e he
        have hwhole : ∀ part ∈ parts, part.Whole := by
          intro part hpart
          obtain ⟨_, _, hfill⟩ := mem_of_forall₂ hparts hpart
          exact cellsWithin_whole hfill
        rcases Table.mem_foldl_putAll Table.whole_nil hwhole he with he | ⟨part, hpart, he⟩
        · cases he
        -- a cell of a struct is one of a member, which puts its name in front of the path
        obtain ⟨member, hmember, hfill⟩ := mem_of_forall₂ hparts hpart
        obtain ⟨path, offset, leaf, v, hleaf, rfl⟩ := ih hfill e he
        refine ⟨_, _, leaf, v, .member hstruct hmembers hmember hleaf, ?_⟩
        rw [Path.text, Part.text, Int.add_assoc, String.append_assoc, String.append_assoc,
          String.append_assoc]
      | false =>
        obtain hnot | ⟨harray, element, helement, htext⟩ := isCell_or_isArray hstruct h
        · exact absurd hnot hcell
        obtain ⟨size, length, parts, hsize, hlength, hparts, rfl⟩ :=
          cellsWithin_of_isArray hstruct harray helement htext h
        intro e he
        have hwhole : ∀ part ∈ parts, part.Whole := by
          intro part hpart
          obtain ⟨_, _, _, _, hfill⟩ := mem_of_forall₂ hparts hpart
          exact cellsWithin_whole hfill
        rcases Table.mem_foldl_putAll Table.whole_nil hwhole he with he | ⟨part, hpart, he⟩
        · cases he
        -- a cell of an array is one of an element, which puts its index there
        obtain ⟨i, hi, item, _, hfill⟩ := mem_of_forall₂ hparts hpart
        obtain ⟨path, offset, leaf, v, hleaf, rfl⟩ := ih hfill e he
        refine ⟨_, _, leaf, v,
          .element hstruct harray helement htext hsize hlength (List.mem_range.1 hi) hleaf, ?_⟩
        rw [Path.text, Part.text, Int.add_assoc]
        simp only [String.append_assoc]

end Cells

/-- The zeros that fill up an array can be converted to its elements. -/
theorem exists_itemValue (items : List Value) (element : CType) (i : Nat) :
    ∃ v, itemValue items element i = .ok v := by
  have hzero : ∃ v, (Value.int 0).coerce element = .ok v := by
    unfold Value.coerce
    split
    · exact ⟨_, rfl⟩
    · have hfloat : Number.floatOfInt 0 = .ok (Decimal.ofInt 0) := rfl
      dsimp only
      split
      · exact ⟨_, by rw [hfloat]; rfl⟩
      · exact ⟨_, rfl⟩
  unfold itemValue
  split
  · exact ⟨_, rfl⟩
  · split
    · exact ⟨_, rfl⟩
    · exact hzero

/-- A fold whose steps all have results has one. -/
theorem exists_foldlM {α β ε : Type} {f : β → α → Except ε β} {items : List α}
    (h : ∀ x ∈ items, ∀ b, ∃ b', f b x = .ok b') (b : β) : ∃ b', items.foldlM f b = .ok b' := by
  induction items generalizing b with
  | nil => exact ⟨b, rfl⟩
  | cons x items ih =>
    obtain ⟨next, hnext⟩ := h x List.mem_cons_self b
    rw [List.foldlM_cons, hnext]
    exact ih (fun y hy => h y (List.mem_cons_of_mem x hy)) next

namespace Program.Builds

variable {p : Program} {spare : Nat} {macros : Macros} {layouts : Layouts} {n : Nat} {t : CType}
  (hlayouts : p.layouts spare macros = .ok layouts) (htags : ∀ s ∈ p.structs, s.Tagged)

include hlayouts htags

/-- An object has cells under every bound that leaves room for its type and for the structs that have
not been entered. The induction is on how the object is built: what a struct is made of was defined
before it, so it has not been entered. -/
theorem exists_cellsWithin (h : p.Builds layouts n t) {entered : List String}
    (hentered : ∀ s ∈ p.structs.take n, s.typeName ∉ entered) {depth : Nat}
    (hdepth : t.depth + layouts.depthBeyond entered ≤ depth) (name : String) (address : Int)
    (value : Value) : ∃ cells, cellsWithin layouts depth name t address value = .ok cells := by
  have hroom : ∀ t : CType, 0 < t.depth := fun _ => Nat.succ_pos _
  induction h generalizing entered depth name address value with
  | @cell n t hcell =>
    have hpos := hroom t
    obtain ⟨depth, rfl⟩ : ∃ inner, depth = inner + 1 := ⟨depth - 1, by omega⟩
    rw [cellsWithin, hcell.1, if_neg Bool.false_ne_true]
    split
    · next harray =>
      obtain ⟨element, helement, htext⟩ := hcell.2 harray
      rw [helement]
      exact ⟨_, by simp only [bind, Except.bind, htext, if_true]; rfl⟩
    · exact ⟨_, rfl⟩
  | @struct n t s pre post members hstruct htext hsplit hbefore honce hmembers h ih =>
    have hpos := hroom t
    obtain ⟨depth, rfl⟩ : ∃ inner, depth = inner + 1 := ⟨depth - 1, by omega⟩
    obtain ⟨l, hl, rfl, _⟩ := placed hlayouts htags hstruct htext hsplit honce hmembers h
    have hfirst : p.structs.take n = pre ++ (s :: post).take (n - pre.length) := by
      rw [hsplit, List.take_append, List.take_of_length_le (Nat.le_of_lt hbefore)]
    -- the struct is among the first `n`, none of which has been entered
    have hnew : s.typeName ∉ entered := by
      refine hentered s ?_
      rw [hfirst, List.take_cons (by omega)]
      exact List.mem_append_right _ List.mem_cons_self
    -- what its members are made of is in front of it, so that has not been entered either
    have hentered' : ∀ u ∈ p.structs.take pre.length, u.typeName ∉ s.typeName :: entered := by
      intro u hu
      rw [hsplit, List.take_left] at hu
      rw [List.mem_cons, not_or]
      refine ⟨honce u (List.mem_append_left _ hu), hentered u ?_⟩
      rw [hfirst]
      exact List.mem_append_left _ hu
    obtain ⟨key, hkey, heq⟩ := Table.mem_of_find? hl
    obtain rfl : key = s.typeName := eq_of_beq heq
    have hbeyond := Layouts.depthBeyond_cons hkey hnew
    rw [cellsWithin, if_pos hstruct, hmembers]
    refine exists_foldlM (fun e he cells => ?_) []
    -- entering the struct leaves room for the depth of each member
    have hmember := Layouts.depth_le_of_mem he
    have hinner : e.2.2.depth + layouts.depthBeyond (s.typeName :: entered) ≤ depth := by omega
    obtain ⟨part, hpart⟩ := ih e he hentered' hinner (name ++ "." ++ e.1) (address + e.2.1)
      (value.memberOf e.1)
    exact ⟨_, by dsimp only; rw [hpart]; rfl⟩
  | @array n t element length harray helement htext hlength hone h ih =>
    have hpos := hroom t
    obtain ⟨depth, rfl⟩ : ∃ inner, depth = inner + 1 := ⟨depth - 1, by omega⟩
    obtain ⟨size, hsize⟩ := h.filled.exists_size layouts.sizes
    have hinner : element.depth + layouts.depthBeyond entered ≤ depth := by
      have hlt := CType.element_depth_lt harray helement
      omega
    rw [cellsWithin, CType.isStruct_of_isArray harray, if_neg Bool.false_ne_true, if_pos harray,
      helement]
    simp only [bind, Except.bind, htext, hsize, hlength]
    rw [if_neg Bool.false_ne_true]
    refine exists_foldlM (fun i _ cells => ?_) []
    obtain ⟨item, hitem⟩ := exists_itemValue value.items element i
    obtain ⟨part, hpart⟩ := ih hentered hinner
      (name ++ "[" ++ Numeral.decimal i ++ "]") (address + i * size) item
    exact ⟨_, by rw [hitem]; dsimp only; rw [hpart]; rfl⟩

/-- An object has cells, whatever there is to spare. -/
theorem exists_objectCells (h : p.Builds layouts n t) (room : Nat) (name : String) (address : Int)
    (value : Value) : ∃ cells, objectCells room layouts name t address value = .ok cells := by
  refine h.exists_cellsWithin hlayouts htags (fun _ _ => List.not_mem_nil) ?_ name address value
  rw [Layouts.depthBeyond_nil, Layouts.depth, List.sum_eq_foldr]
  omega

end Program.Builds

/-- The cells of an object that takes so many bytes: one for each leaf, named by the path to it. -/
structure CellsAtLeaves (layouts : Layouts) (name : String) (t : CType) (address size : Int)
    (cells : Table Number CellPatch) : Prop where
  /-- No two cells have the same address. -/
  apart : cells.Apart
  /-- Every leaf has its cell. -/
  cell : ∀ path offset leaf, LeafAt layouts t path offset leaf →
    ∃ v, (.int (address + offset), ⟨v, name ++ path.text, leaf⟩) ∈ cells
  /-- Every cell is that of a leaf. -/
  leaf : ∀ e ∈ cells, ∃ path offset leaf v, LeafAt layouts t path offset leaf ∧
    e = (.int (address + offset), ⟨v, name ++ path.text, leaf⟩)
  /-- Every leaf takes some space in the object. -/
  within : ∀ path offset leaf, LeafAt layouts t path offset leaf →
    ∃ k, leaf.size layouts.sizes = .ok k ∧ 0 < k ∧ 0 ≤ offset ∧ offset + k ≤ size
  /-- Different leaves have different addresses. -/
  unique : ∀ path path' offset leaf leaf', LeafAt layouts t path offset leaf →
    LeafAt layouts t path' offset leaf' → path = path' ∧ leaf = leaf'

/-- **An object has exactly one cell for each leaf.** -/
theorem Program.Builds.cellsAtLeaves {p : Program} {spare : Nat} {macros : Macros}
    {layouts : Layouts} (hlayouts : p.layouts spare macros = .ok layouts)
    (htags : ∀ s ∈ p.structs, s.Tagged) {n : Nat} {t : CType} (h : p.Builds layouts n t)
    (room : Nat) (name : String) (address : Int) (value : Value) :
    ∃ size cells, t.size layouts.sizes = .ok size ∧
      objectCells room layouts name t address value = .ok cells ∧
      CellsAtLeaves layouts name t address size cells := by
  obtain ⟨size, hsize⟩ := h.filled.exists_size layouts.sizes
  obtain ⟨cells, hcells⟩ := h.exists_objectCells hlayouts htags room name address value
  refine ⟨size, cells, hsize, hcells, cellsWithin_apart hcells, ?_, cells_are_leaves hcells, ?_, ?_⟩
  · intro path offset leaf hleaf
    obtain ⟨c, hc⟩ := Option.ne_none_iff_exists'.1 (hleaf.toLeaf.mapped hcells)
    have hmem := (cellsWithin_whole hcells).mem_of_find? hc
    obtain ⟨path', offset', leaf', v, hleaf', heq⟩ := cells_are_leaves hcells _ hmem
    obtain ⟨haddress, rfl⟩ := Prod.mk.inj heq
    obtain rfl : offset = offset' := by
      have haddress := Number.int.inj haddress
      omega
    obtain ⟨rfl, rfl⟩ := h.leaf_unique hlayouts htags hleaf hleaf'
    exact ⟨v, hmem⟩
  · intro path offset leaf hleaf
    obtain ⟨size', k, hsize', hk, hpos, hlow, hhigh⟩ := h.leaf_within hlayouts htags hleaf
    obtain rfl := Except.ok.inj (hsize.symm.trans hsize')
    exact ⟨k, hk, hpos, hlow, hhigh⟩
  · exact fun path path' offset leaf leaf' => h.leaf_unique hlayouts htags

end Stepwise
