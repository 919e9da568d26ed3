/-
Objects as tiles.

A memory is *tiled* between two addresses if each of its cells takes some space
there and no cell begins inside another. Tilings that stand one behind the other
make a tiling, and so do the tilings of pieces that do not overlap, in whatever
order the pieces come. So the cells of an object tile its bytes: a leaf is one
tile, the elements of an array stand one behind the other, and the members of a
struct do not overlap by its layout.

A tiling is stated of the types at addresses, because that is what the cells of a
change and the cells of a state have in common.
-/
import Stepwise.Proofs.Structs

set_option autoImplicit false

namespace Stepwise

/-! ## Tilings -/

/-- The cells that have these types take some space between two addresses, and none of them begins
inside another. -/
structure Tiled (sizes : StructSizes) (typeAt : Int → Option CType) (start stop : Int) : Prop where
  inside : ∀ a t, typeAt a = some t →
    ∃ n, t.size sizes = .ok n ∧ 0 < n ∧ start ≤ a ∧ a + n ≤ stop
  beside : ∀ a b t u n, typeAt a = some t → typeAt b = some u → t.size sizes = .ok n → a < b →
    a + n ≤ b

namespace Tiled

variable {sizes : StructSizes} {f g h : Int → Option CType} {start mid stop : Int}

theorem nothing (sizes : StructSizes) (start stop : Int) :
    Tiled sizes (fun _ => none) start stop where
  inside a t ha := by cases ha
  beside a b t u n ha := by cases ha

theorem single {t : CType} {n : Int} (hsize : t.size sizes = .ok n) (hpos : 0 < n) (address : Int) :
    Tiled sizes (fun a => if a = address then some t else none) address (address + n) where
  inside a u ha := by
    split at ha
    · next heq =>
      obtain rfl := Option.some.inj ha
      exact ⟨n, hsize, hpos, by omega, by omega⟩
    · cases ha
  beside a b _ _ _ ha hb _ hlt := by
    split at ha
    · split at hb
      · omega
      · cases hb
    · cases ha

/-- Tilings that stand one behind the other make a tiling. -/
theorem append (hf : Tiled sizes f start mid) (hg : Tiled sizes g mid stop) (hstart : start ≤ mid)
    (hstop : mid ≤ stop) (hh : ∀ a, h a = (g a).or (f a)) : Tiled sizes h start stop where
  inside a t ha := by
    rw [hh] at ha
    rcases Option.or_eq_some_iff.1 ha with ha | ⟨_, ha⟩
    · obtain ⟨n, hn, hpos, hlow, hhigh⟩ := hg.inside a t ha
      exact ⟨n, hn, hpos, by omega, hhigh⟩
    · obtain ⟨n, hn, hpos, hlow, hhigh⟩ := hf.inside a t ha
      exact ⟨n, hn, hpos, hlow, by omega⟩
  beside a b t u n ha hb hn hlt := by
    rw [hh] at ha hb
    rcases Option.or_eq_some_iff.1 ha with ha | ⟨_, ha⟩
    · rcases Option.or_eq_some_iff.1 hb with hb | ⟨_, hb⟩
      · exact hg.beside a b t u n ha hb hn hlt
      · -- a cell of the first tiling would begin behind one of the second
        obtain ⟨_, _, _, hlow, _⟩ := hg.inside a t ha
        obtain ⟨_, _, _, _, hhigh⟩ := hf.inside b u hb
        omega
    · rcases Option.or_eq_some_iff.1 hb with hb | ⟨_, hb⟩
      · obtain ⟨k, hk, _, _, hhigh⟩ := hf.inside a t ha
        obtain rfl := Except.ok.inj (hn.symm.trans hk)
        obtain ⟨_, _, _, hlow, _⟩ := hg.inside b u hb
        omega
      · exact hf.beside a b t u n ha hb hn hlt

end Tiled

/-! ## Tables of cells -/

/-- The type of the cell that a table has at an address. -/
def cellTypeAt (cells : Table Number CellPatch) (a : Int) : Option CType :=
  (cells.find? (.int a)).map CellPatch.type

theorem cellTypeAt_eq_some {cells : Table Number CellPatch} (hwhole : cells.Whole) {a : Int}
    {t : CType} (h : cellTypeAt cells a = some t) : ∃ k, (.int a, k) ∈ cells ∧ k.type = t := by
  obtain ⟨k, hk, rfl⟩ := Option.map_eq_some_iff.1 h
  obtain ⟨key, hmem, heq⟩ := Table.mem_of_find? hk
  obtain ⟨n, hn⟩ := hwhole _ hmem
  dsimp only at hn
  rw [hn, Number.int_beq_int, decide_eq_true_eq] at heq
  rw [hn, heq] at hmem
  exact ⟨k, hmem, rfl⟩

theorem cellTypeAt_of_mem {cells : Table Number CellPatch} (hapart : cells.Apart) {a : Int}
    {k : CellPatch} (h : (.int a, k) ∈ cells) : cellTypeAt cells a = some k.type := by
  rw [cellTypeAt, Table.find?_of_mem hapart (by simp) h]
  rfl

/-! ## Pieces -/

/-- The bytes of two pieces do not overlap. -/
def Piece.Beside (sizes : StructSizes) (p q : Piece) : Prop :=
  ∀ n k, p.type.size sizes = .ok n → q.type.size sizes = .ok k →
    p.address + n ≤ q.address ∨ q.address + k ≤ p.address

/-- The cells of a piece tile its bytes. -/
def Piece.TiledBy (sizes : StructSizes) (p : Piece) (part : Table Number CellPatch) : Prop :=
  ∃ n, p.type.size sizes = .ok n ∧ Tiled sizes (cellTypeAt part) p.address (p.address + n)

/-- Two members of the right list are the same, or come from members of the left list that are
related. -/
theorem pairwise_of_forall₂ {α β : Type} {R : α → β → Prop} {S : α → α → Prop}
    (hsymm : ∀ x x', S x x' → S x' x) {xs : List α} {ys : List β} (h : List.Forall₂ R xs ys)
    (hpairwise : xs.Pairwise S) {y y' : β} (hy : y ∈ ys) (hy' : y' ∈ ys) :
    y = y' ∨ ∃ x x', R x y ∧ R x' y' ∧ S x x' := by
  induction h with
  | nil => cases hy
  | cons hR hrest ih =>
    obtain ⟨hhead, htail⟩ := List.pairwise_cons.1 hpairwise
    rcases List.mem_cons.1 hy with rfl | hlater
    · rcases List.mem_cons.1 hy' with rfl | hlater'
      · exact Or.inl rfl
      · obtain ⟨x', hx', hR'⟩ := mem_of_forall₂ hrest hlater'
        exact Or.inr ⟨_, x', hR, hR', hhead x' hx'⟩
    · rcases List.mem_cons.1 hy' with rfl | hlater'
      · obtain ⟨x, hx, hR'⟩ := mem_of_forall₂ hrest hlater
        exact Or.inr ⟨x, _, hR', hR, hsymm _ _ (hhead x hx)⟩
      · exact ih htail hlater hlater'

theorem Piece.Beside.symm {sizes : StructSizes} {p q : Piece} (h : p.Beside sizes q) :
    q.Beside sizes p := by
  intro n k hn hk
  exact (h k n hk hn).symm

/-- Tilings of pieces that do not overlap make a tiling. -/
theorem Tiled.of_pieces {sizes : StructSizes} {typeAt : Int → Option CType} {start stop : Int}
    {pieces : List Piece} {parts : List (Table Number CellPatch)}
    (hcells : ∀ a t, typeAt a = some t → ∃ part ∈ parts, cellTypeAt part a = some t)
    (hparts : List.Forall₂ (Piece.TiledBy sizes) pieces parts)
    (hwithin : ∀ p ∈ pieces, ∀ n, p.type.size sizes = .ok n →
      start ≤ p.address ∧ p.address + n ≤ stop)
    (hbeside : pieces.Pairwise (Piece.Beside sizes)) : Tiled sizes typeAt start stop where
  inside a t ha := by
    obtain ⟨part, hpart, hat⟩ := hcells a t ha
    obtain ⟨p, hp, n, hn, htiled⟩ := mem_of_forall₂ hparts hpart
    obtain ⟨k, hk, hpos, hlow, hhigh⟩ := htiled.inside a t hat
    obtain ⟨hstart, hstop⟩ := hwithin p hp n hn
    exact ⟨k, hk, hpos, by omega, by omega⟩
  beside a b t u n ha hb hn hlt := by
    obtain ⟨part, hpart, hat⟩ := hcells a t ha
    obtain ⟨part', hpart', hbt⟩ := hcells b u hb
    rcases pairwise_of_forall₂ (fun _ _ h => h.symm) hparts hbeside hpart hpart' with
      rfl | ⟨p, q, ⟨k, hk, hp⟩, ⟨l, hl, hq⟩, hpq⟩
    · obtain ⟨p, _, _, _, htiled⟩ := mem_of_forall₂ hparts hpart
      exact htiled.beside a b t u n hat hbt hn hlt
    · obtain ⟨n', hn', _, hlow, hhigh⟩ := hp.inside a t hat
      obtain ⟨_, _, _, hlow', hhigh'⟩ := hq.inside b u hbt
      obtain rfl := Except.ok.inj (hn.symm.trans hn')
      have hranges := hpq k l hk hl
      omega

/-! ## Objects -/

variable {layouts : Layouts}

/-- What the pieces of an object are: filled, sized, within the object and beside each other. -/
structure Pieces.Fit (layouts : Layouts) (start stop : Int) (pieces : List Piece) : Prop where
  filled : ∀ p ∈ pieces, p.type.Filled
  sized : ∀ p ∈ pieces, ∃ n, p.type.size layouts.sizes = .ok n
  within : ∀ p ∈ pieces, ∀ n, p.type.size layouts.sizes = .ok n →
    start ≤ p.address ∧ p.address + n ≤ stop
  beside : pieces.Pairwise (Piece.Beside layouts.sizes)

/-- The members of a struct fit into it. -/
theorem Layouts.Settled.members_fit (hlayouts : layouts.Settled) {type : CType} {members : Members}
    {size : Int} (hstruct : type.isStruct = true) (hsize : type.size layouts.sizes = .ok size)
    (hmembers : layouts.membersOf type = .ok members) (name : String) (address : Int)
    (value : Value) :
    Pieces.Fit layouts address (address + size)
      (members.map fun entry =>
        ⟨name ++ "." ++ entry.1, entry.2.2, address + entry.2.1, value.memberOf entry.1⟩) := by
  obtain ⟨l, hl, rfl⟩ := Layouts.membersOf_eq_ok hmembers
  obtain rfl := Except.ok.inj (hsize.symm.trans (hlayouts.spelled type l hstruct hl))
  obtain ⟨key, hkey, _⟩ := Table.mem_of_find? hl
  have hplaced := hlayouts.placed _ hkey
  refine ⟨?_, ?_, ?_, ?_⟩
  · intro p hp
    obtain ⟨e, he, rfl⟩ := List.mem_map.1 hp
    exact hlayouts.filled _ hkey e he
  · intro p hp
    obtain ⟨e, he, rfl⟩ := List.mem_map.1 hp
    obtain ⟨_, n, hn, _⟩ := hplaced.within e he
    exact ⟨n, hn⟩
  · intro p hp n hn
    obtain ⟨e, he, rfl⟩ := List.mem_map.1 hp
    obtain ⟨hstart, k, hk, hend⟩ := hplaced.within e he
    obtain rfl := Except.ok.inj (hk.symm.trans hn)
    dsimp only at hend ⊢
    omega
  · rw [List.pairwise_map]
    refine hplaced.beside.imp ?_
    intro e f hbeside n k hn hk
    have hoffsets := hbeside n k hn hk
    dsimp only
    omega

/-- The elements of an array fit into it. -/
theorem elements_fit {type element : CType} {size length total : Int} (hfilled : type.Filled)
    (harray : type.isArray = true) (helement : type.element = .ok element)
    (hsize : element.size layouts.sizes = .ok size) (hlength : type.length = .ok length)
    (hsizes : ∀ e ∈ layouts.sizes, 0 < e.2) (htotal : type.size layouts.sizes = .ok total)
    (name : String) (address : Int) (item : Nat → Value) :
    Pieces.Fit layouts address (address + total)
      ((List.range length.toNat).map fun (i : Nat) =>
        ⟨name ++ "[" ++ Numeral.decimal i ++ "]", element, address + i * size, item i⟩) := by
  obtain ⟨element', n, helement', hlength', hn, hinner⟩ := hfilled.array_cases harray
  obtain rfl := Except.ok.inj (helement.symm.trans helement')
  obtain rfl := Except.ok.inj (hlength.symm.trans hlength')
  obtain ⟨size', hsize', rfl⟩ := CType.size_array harray helement hlength hn htotal
  obtain rfl := Except.ok.inj (hsize.symm.trans hsize')
  have hpos : 0 < size := hinner.size_pos hsizes hsize
  -- an element ends where the next one begins, or before
  have hnext : ∀ i j : Int, i < j → i * size + size ≤ j * size := by
    intro i j hij
    have hmul : (i + 1) * size ≤ j * size := Int.mul_le_mul_of_nonneg_right (by omega) (by omega)
    rw [Int.add_mul, Int.one_mul] at hmul
    exact hmul
  refine ⟨?_, ?_, ?_, ?_⟩
  · intro p hp
    obtain ⟨i, _, rfl⟩ := List.mem_map.1 hp
    exact hinner
  · intro p hp
    obtain ⟨i, _, rfl⟩ := List.mem_map.1 hp
    exact ⟨size, hsize⟩
  · intro p hp k hk
    obtain ⟨i, hi, rfl⟩ := List.mem_map.1 hp
    obtain rfl := Except.ok.inj (hsize.symm.trans hk)
    rw [List.mem_range] at hi
    have hstart : 0 ≤ (i : Int) * size := Int.mul_nonneg (Int.natCast_nonneg i) (by omega)
    have hend := hnext i length (by omega)
    rw [Int.mul_comm size length]
    dsimp only
    omega
  · rw [List.pairwise_map]
    refine List.pairwise_lt_range.imp ?_
    intro i j hij k l hk hl
    obtain rfl := Except.ok.inj (hsize.symm.trans hk)
    have hend := hnext i j (by omega)
    dsimp only
    omega

theorem Pieces.fit (hlayouts : layouts.Settled) {name : String} {type : CType} {address size : Int}
    {value : Value} {pieces : List Piece} (hfilled : type.Filled)
    (hsize : type.size layouts.sizes = .ok size)
    (h : Pieces layouts name type address value pieces) :
    Pieces.Fit layouts address (address + size) pieces := by
  cases h with
  | members hstruct hmembers =>
    exact hlayouts.members_fit hstruct hsize hmembers name address value
  | elements harray helement helementSize hlength item =>
    exact elements_fit hfilled harray helement helementSize hlength hlayouts.pos hsize name address
      item

/-- **The cells of an object tile its bytes.** -/
theorem cellsWithin_tiled (hlayouts : layouts.Settled) {depth : Nat} {name : String} {type : CType}
    {address size : Int} {value : Value} {cells : Table Number CellPatch} (hfilled : type.Filled)
    (hsize : type.size layouts.sizes = .ok size)
    (h : cellsWithin layouts depth name type address value = .ok cells) :
    Tiled layouts.sizes (cellTypeAt cells) address (address + size) := by
  induction depth generalizing name type address size value cells with
  | zero => cases h
  | succ depth ih =>
    rcases cellsWithin_cases h with ⟨v, rfl, _⟩ | ⟨pieces, parts, hpieces, hparts, rfl⟩
    · -- one cell is at its address, and no other is within its bytes
      have hleaf : cellTypeAt [(Number.int address, ⟨v, name, type⟩)]
          = fun a => if a = address then some type else none := by
        funext a
        rw [cellTypeAt, Table.find?_cons, Number.int_beq_int]
        by_cases ha : address = a
        · simp [ha]
        · simp [ha, Ne.symm ha]
      rw [hleaf]
      exact Tiled.single hsize (hfilled.size_pos hlayouts.pos hsize) address
    · have hfit := hpieces.fit hlayouts hfilled hsize
      have hwhole : ∀ part ∈ parts, part.Whole := by
        intro part hpart
        obtain ⟨p, _, hp⟩ := mem_of_forall₂ hparts hpart
        exact cellsWithin_whole hp
      -- a cell of the whole is one of some part
      have hcells : ∀ a t, cellTypeAt (parts.foldl Table.putAll []) a = some t →
          ∃ part ∈ parts, cellTypeAt part a = some t := by
        intro a t ha
        obtain ⟨k, hk, rfl⟩ := cellTypeAt_eq_some (cellsWithin_whole h) ha
        rcases Table.mem_foldl_putAll Table.whole_nil hwhole hk with hk | ⟨part, hpart, hk⟩
        · cases hk
        · obtain ⟨p, _, hp⟩ := mem_of_forall₂ hparts hpart
          exact ⟨part, hpart, cellTypeAt_of_mem (cellsWithin_apart hp) hk⟩
      refine Tiled.of_pieces hcells ?_ hfit.within hfit.beside
      have hmember : List.Forall₂ (fun p part => p ∈ pieces ∧
          cellsWithin layouts depth p.name p.type p.address p.value = .ok part) pieces parts :=
        (List.forall₂_and_left pieces parts).2 ⟨fun p hp => hp, hparts⟩
      refine hmember.imp ?_
      rintro p part ⟨hp, hpart⟩
      obtain ⟨n, hn⟩ := hfit.sized p hp
      exact ⟨n, hn, ih (hfit.filled p hp) hn hpart⟩

/-- The name of a cell begins with that of its object. -/
theorem cellsWithin_name {depth : Nat} {name : String} {type : CType} {address : Int}
    {value : Value} {cells : Table Number CellPatch} {e : Number × CellPatch}
    (h : cellsWithin layouts depth name type address value = .ok cells) (he : e ∈ cells) :
    name.toList <+: e.2.name.toList := by
  induction depth generalizing name type address value cells with
  | zero => cases h
  | succ depth ih =>
    rcases cellsWithin_mem h he with ⟨v, rfl, _⟩ | ⟨pieces, hpieces, p, hp, part, hpart, hmem⟩
    · exact List.prefix_rfl
    · refine List.IsPrefix.trans ?_ (ih hpart hmem)
      cases hpieces with
      | members _ _ =>
        obtain ⟨entry, _, rfl⟩ := List.mem_map.1 hp
        rw [String.toList_append, String.toList_append, List.append_assoc]
        exact List.prefix_append _ _
      | elements _ _ _ _ _ =>
        obtain ⟨i, _, rfl⟩ := List.mem_map.1 hp
        rw [String.toList_append, String.toList_append, String.toList_append, List.append_assoc,
          List.append_assoc]
        exact List.prefix_append _ _

end Stepwise
