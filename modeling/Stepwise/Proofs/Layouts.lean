/-
Where the members of a struct are.

A struct is laid out member by member. The members placed so far end where the
next one may begin, and rounding up to an alignment never goes back. So the bytes
of different members never overlap and all lie in front of the end of the struct.
A member that is declared twice keeps its first place in the list and its second
one in the struct; that is why nothing is said about the order of offsets.

Sizes are those that were known when the struct was laid out.
-/
import Stepwise.Analysis
import Stepwise.Proofs.Cells
import Stepwise.Proofs.Sizes

set_option autoImplicit false

namespace Stepwise

deriving instance DecidableEq for Layout

/-- The bytes of two members do not overlap. -/
def Members.Beside (sizes : StructSizes) (e f : Int × CType) : Prop :=
  ∀ n k, e.2.size sizes = .ok n → f.2.size sizes = .ok k → e.1 + n ≤ f.1 ∨ f.1 + k ≤ e.1

/-- Members whose bytes do not overlap and lie in front of an end. -/
structure Members.Placed (sizes : StructSizes) (stop : Int) (members : Members) : Prop where
  within : ∀ e ∈ members, 0 ≤ e.2.1 ∧ ∃ n, e.2.2.size sizes = .ok n ∧ e.2.1 + n ≤ stop
  beside : members.Pairwise fun e f => Members.Beside sizes e.2 f.2

theorem Members.Beside.symm {sizes : StructSizes} {e f : Int × CType}
    (h : Members.Beside sizes e f) : Members.Beside sizes f e := by
  intro n k hn hk
  exact (h k n hk hn).symm

/-- A value that is related to every other may be put anywhere. -/
theorem Table.pairwise_put {κ ν : Type} [BEq κ] {R : ν → ν → Prop} (hsymm : ∀ v w, R v w → R w v)
    {t : Table κ ν} {key : κ} {v : ν} (h : t.Pairwise fun e f => R e.2 f.2)
    (hv : ∀ e ∈ t, R e.2 v) : (t.put key v).Pairwise fun e f => R e.2 f.2 := by
  induction t with
  | nil => exact List.pairwise_singleton _ _
  | cons e t ih =>
    obtain ⟨hhead, htail⟩ := List.pairwise_cons.1 h
    rw [Table.put_cons]
    split
    · refine List.pairwise_cons.2 ⟨?_, htail⟩
      intro f hf
      exact hsymm _ _ (hv f (List.mem_cons_of_mem _ hf))
    · refine List.pairwise_cons.2 ⟨?_, ih htail fun f hf => hv f (List.mem_cons_of_mem _ hf)⟩
      intro f hf
      rcases Table.mem_put hf with hf | rfl | ⟨_, hvalue, _⟩
      · exact hhead f hf
      · exact hv e List.mem_cons_self
      · rw [hvalue]
        exact hv e List.mem_cons_self

theorem Members.placed_nil (sizes : StructSizes) : Members.Placed sizes 0 [] where
  within e he := by cases he
  beside := List.Pairwise.nil

/-- A member behind all others may be added. -/
theorem Members.Placed.put {sizes : StructSizes} {stop offset n : Int} {members : Members}
    {type : CType} (h : Members.Placed sizes stop members) (name : String) (hstart : 0 ≤ offset)
    (hbehind : stop ≤ offset) (hsize : type.size sizes = .ok n) (hn : 0 ≤ n) :
    Members.Placed sizes (offset + n) (Table.put members name (offset, type)) where
  within e he := by
    rcases Table.mem_put he with he | rfl | ⟨_, hvalue, _⟩
    · obtain ⟨hzero, k, hk, hend⟩ := h.within e he
      exact ⟨hzero, k, hk, by omega⟩
    · exact ⟨hstart, n, hsize, Int.le_refl _⟩
    · rw [hvalue]
      exact ⟨hstart, n, hsize, Int.le_refl _⟩
  beside := by
    refine Table.pairwise_put (fun _ _ hvw => hvw.symm) h.beside ?_
    intro e he k n' hk _
    obtain ⟨_, k', hk', hend⟩ := h.within e he
    obtain rfl : k = k' := Except.ok.inj (hk.symm.trans hk')
    exact Or.inl (by show e.2.1 + k ≤ offset; omega)

/-! ## Structs -/

namespace Layout

/-- Rounding up does not go back. -/
theorem le_alignUp {offset alignment : Int} (h : 1 ≤ alignment) :
    offset ≤ alignUp offset alignment := by
  have hpos : 0 < alignment := by omega
  have hdiv : offset + alignment - 1 < ((offset + alignment - 1) / alignment + 1) * alignment :=
    Int.lt_ediv_add_one_mul_self _ hpos
  rw [alignUp, Int.fdiv_eq_ediv_of_nonneg _ (by omega)]
  rw [Int.add_mul, Int.one_mul] at hdiv
  omega

theorem one_le_alignment {sizes : StructSizes} {t : CType} {n : Int}
    (h : t.alignment sizes = .ok n) : 1 ≤ n := by
  obtain ⟨inner, _, h⟩ := bind_eq_ok.1 h
  obtain ⟨size, _, h⟩ := bind_eq_ok.1 h
  obtain rfl := Except.ok.inj h
  exact Int.le_max_left _ _

/-- The members placed so far end where the next one may begin. -/
structure Partial.Sound (sizes : StructSizes) (p : Partial) : Prop where
  placed : Members.Placed sizes p.offset p.members
  offset : 0 ≤ p.offset
  widest : 1 ≤ p.widest

theorem Partial.sound_empty (sizes : StructSizes) : Partial.Sound sizes {} where
  placed := Members.placed_nil sizes
  offset := Int.le_refl _
  widest := Int.le_refl _

/-- Placing a member keeps the others where they are. -/
theorem Partial.Sound.place {sizes : StructSizes} (hsizes : ∀ e ∈ sizes, 0 ≤ e.2) {p p' : Partial}
    {name : String} {type : CType} (hp : p.Sound sizes) (h : p.place sizes name type = .ok p') :
    p'.Sound sizes := by
  obtain ⟨alignment, halign, h⟩ := bind_eq_ok.1 h
  obtain ⟨n, hn, h⟩ := bind_eq_ok.1 h
  obtain rfl := Except.ok.inj h
  have hone : 1 ≤ alignment := one_le_alignment halign
  have hup : p.offset ≤ alignUp p.offset alignment := le_alignUp hone
  have hsize : 0 ≤ n := CType.size_nonneg hsizes hn
  have hoffset := hp.offset
  have hstart : 0 ≤ alignUp p.offset alignment := by omega
  refine ⟨hp.placed.put name hstart hup hn hsize, ?_, ?_⟩
  · show 0 ≤ alignUp p.offset alignment + n
    omega
  · exact Int.le_trans hp.widest (Int.le_max_left _ _)

theorem Partial.place_members_ne_nil {sizes : StructSizes} {p p' : Partial} {name : String}
    {type : CType} (h : p.place sizes name type = .ok p') : p'.members ≠ [] := by
  obtain ⟨alignment, _, h⟩ := bind_eq_ok.1 h
  obtain ⟨n, _, h⟩ := bind_eq_ok.1 h
  obtain rfl := Except.ok.inj h
  show Table.put p.members name _ ≠ []
  cases p.members with
  | nil => exact List.cons_ne_nil _ _
  | cons e rest =>
    rw [Table.put_cons]
    split <;> exact List.cons_ne_nil _ _

/-- A layout whose members do not overlap and lie in the struct. -/
structure Sound (sizes : StructSizes) (l : Layout) : Prop where
  placed : Members.Placed sizes l.size l.members
  size : 0 ≤ l.size

theorem fold_sound {spare : Nat} {macros : Macros} {sizes : StructSizes} (hsizes : ∀ e ∈ sizes, 0 ≤ e.2)
    {declared : List (CType × Variable)} {p p' : Partial} (hp : p.Sound sizes)
    (h : declared.foldlM
      (fun (p : Partial) (declared, v) => do
        let type ← v.fullType declared fun e => constantValue macros sizes e spare
        p.place sizes v.name type) p = .ok p') :
    p'.Sound sizes ∧ (declared ≠ [] → p'.members ≠ []) := by
  induction declared generalizing p with
  | nil =>
    obtain rfl := Except.ok.inj h
    exact ⟨hp, fun hne => absurd rfl hne⟩
  | cons d declared ih =>
    rw [List.foldlM_cons] at h
    obtain ⟨p₁, h₁, h⟩ := bind_eq_ok.1 h
    obtain ⟨type, _, hplace⟩ := bind_eq_ok.1 h₁
    obtain ⟨hsound, hmore⟩ := ih (hp.place hsizes hplace) h
    refine ⟨hsound, fun _ => ?_⟩
    cases declared with
    | nil =>
      obtain rfl := Except.ok.inj h
      exact Partial.place_members_ne_nil hplace
    | cons e declared => exact hmore (List.cons_ne_nil _ _)

/-- **Members of a struct do not overlap and lie in the struct.** -/
theorem ofStruct_sound {spare : Nat} {macros : Macros} {sizes : StructSizes}
    (hsizes : ∀ e ∈ sizes, 0 ≤ e.2) {s : Struct} {l : Layout} (h : ofStruct spare macros sizes s = .ok l) : l.Sound sizes := by
  obtain ⟨p, hp, h⟩ := bind_eq_ok.1 h
  obtain rfl := Except.ok.inj h
  obtain ⟨hsound, _⟩ := fold_sound hsizes (Partial.sound_empty sizes) hp
  have hup : p.offset ≤ alignUp p.offset p.widest := le_alignUp hsound.widest
  have hoffset := hsound.offset
  refine ⟨⟨?_, hsound.placed.beside⟩, by show 0 ≤ alignUp p.offset p.widest; omega⟩
  intro e he
  obtain ⟨hzero, n, hn, hend⟩ := hsound.placed.within e he
  exact ⟨hzero, n, hn, by show e.2.1 + n ≤ alignUp p.offset p.widest; omega⟩

end Layout

/-! ## Programs -/

/-- Layouts whose members do not overlap, by the sizes known at the time. -/
def Layouts.Sound (layouts : Layouts) : Prop :=
  ∀ e ∈ layouts, ∃ sizes, Layout.Sound sizes e.2

theorem Layouts.Sound.sizes_nonneg {layouts : Layouts} (h : layouts.Sound) :
    ∀ e ∈ layouts.sizes, 0 ≤ e.2 := by
  intro e he
  obtain ⟨f, hf, rfl⟩ := List.mem_map.1 he
  obtain ⟨_, hsound⟩ := h f hf
  exact hsound.size

/-- Lays structs out one after the other, each with the sizes of all those known before it. -/
def Layouts.extend (known : Layouts) (spare : Nat) (macros : Macros) (structs : List Struct) :
    Except Fault Layouts :=
  structs.foldlM
    (fun (layouts : Layouts) s => do
      return Table.put layouts s.typeName (← Layout.ofStruct spare macros layouts.sizes s))
    known

theorem Program.layouts_eq_extend (p : Program) (spare : Nat) (macros : Macros) :
    p.layouts spare macros = Layouts.extend [] spare macros p.structs := rfl

namespace Layouts

variable {spare : Nat} {macros : Macros} {known layouts : Layouts}

/-- The first struct is laid out with the known sizes, the others with its size as well. -/
theorem extend_cons_eq_ok {s : Struct} {structs : List Struct} :
    known.extend spare macros (s :: structs) = .ok layouts ↔
      ∃ l, Layout.ofStruct spare macros known.sizes s = .ok l ∧
        extend (Table.put known s.typeName l) spare macros structs = .ok layouts := by
  rw [extend, List.foldlM_cons, bind_eq_ok]
  constructor
  · rintro ⟨more, hmore, h⟩
    obtain ⟨l, hl, hput⟩ := bind_eq_ok.1 hmore
    obtain rfl := Except.ok.inj hput
    exact ⟨l, hl, h⟩
  · rintro ⟨l, hl, h⟩
    exact ⟨_, bind_eq_ok.2 ⟨l, hl, rfl⟩, h⟩

theorem extend_append_eq_ok {pre post : List Struct} :
    known.extend spare macros (pre ++ post) = .ok layouts ↔
      ∃ more, known.extend spare macros pre = .ok more ∧
        more.extend spare macros post = .ok layouts := by
  rw [extend, List.foldlM_append, bind_eq_ok]
  rfl

theorem Sound.put {l : Layout} {sizes : StructSizes} (h : known.Sound) (name : String)
    (hl : l.Sound sizes) : Layouts.Sound (Table.put known name l) := by
  intro e he
  rcases Table.mem_put he with he | rfl | ⟨_, hvalue, _⟩
  · exact h e he
  · exact ⟨_, hl⟩
  · rw [hvalue]
    exact ⟨_, hl⟩

/-- Structs are laid out soundly with sound layouts before them. -/
theorem Sound.extend {structs : List Struct} (hknown : known.Sound)
    (h : known.extend spare macros structs = .ok layouts) : layouts.Sound := by
  induction structs generalizing known with
  | nil =>
    obtain rfl := Except.ok.inj h
    exact hknown
  | cons s structs ih =>
    obtain ⟨l, hl, h⟩ := extend_cons_eq_ok.1 h
    exact ih (hknown.put s.typeName (Layout.ofStruct_sound hknown.sizes_nonneg hl)) h

end Layouts

/-- Every struct of a program is laid out soundly. -/
theorem layouts_sound {p : Program} {spare : Nat} {macros : Macros} {layouts : Layouts}
    (h : p.layouts spare macros = .ok layouts) : layouts.Sound :=
  Layouts.Sound.extend (fun e he => by cases he) h

/-! ## Objects -/

theorem Layouts.membersOf_eq_ok {layouts : Layouts} {type : CType} {members : Members}
    (h : layouts.membersOf type = .ok members) :
    ∃ l, layouts.find? (String.ofList (Text.trim type.text.toList)) = some l ∧
      members = l.members := by
  unfold Layouts.membersOf at h
  split at h
  · next l hl => exact ⟨l, hl, (Except.ok.inj h).symm⟩
  · cases h

/-- No piece of an object lies in front of it. -/
theorem Pieces.address_le {layouts : Layouts} (hlayouts : layouts.Sound) {name : String}
    {type : CType} {address : Int} {value : Value} {pieces : List Piece}
    (h : Pieces layouts name type address value pieces) {p : Piece} (hp : p ∈ pieces) :
    address ≤ p.address := by
  cases h with
  | members _ hmembers =>
    obtain ⟨e, he, rfl⟩ := List.mem_map.1 hp
    obtain ⟨l, hl, rfl⟩ := Layouts.membersOf_eq_ok hmembers
    obtain ⟨key, hkey, _⟩ := Table.mem_of_find? hl
    obtain ⟨_, hsound⟩ := hlayouts _ hkey
    have hoffset := (hsound.placed.within e he).1
    show address ≤ address + e.2.1
    omega
  | elements _ _ hsize _ _ =>
    obtain ⟨i, _, rfl⟩ := List.mem_map.1 hp
    have hnonneg : 0 ≤ (i : Int) * _ :=
      Int.mul_nonneg (Int.natCast_nonneg i) (CType.size_nonneg hlayouts.sizes_nonneg hsize)
    show address ≤ address + i * _
    omega

/-- No cell of an object lies in front of it. -/
theorem cellsWithin_behind {layouts : Layouts} (hlayouts : layouts.Sound) {depth : Nat}
    {name : String} {type : CType} {address : Int} {value : Value} {cells : Table Number CellPatch}
    (h : cellsWithin layouts depth name type address value = .ok cells) {e : Number × CellPatch}
    (he : e ∈ cells) : ∃ n, e.1 = .int n ∧ address ≤ n := by
  induction depth generalizing name type address value cells with
  | zero => cases h
  | succ depth ih =>
    rcases cellsWithin_mem h he with ⟨v, rfl, _⟩ | ⟨pieces, hpieces, p, hp, part, hpart, hmem⟩
    · exact ⟨address, rfl, Int.le_refl _⟩
    · obtain ⟨n, hn, hle⟩ := ih hpart hmem
      have hpiece := hpieces.address_le hlayouts hp
      exact ⟨n, hn, by omega⟩

theorem analyze_layouts {p : Program} {source : String} {tokens : List Token} {spare : Nat}
    {analysis : Analysis} (h : analyze p source tokens spare = .ok analysis) :
    p.layouts spare analysis.macros = .ok analysis.layouts ∧ analysis.program = p := by
  obtain ⟨layouts, hlayouts, h⟩ := bind_eq_ok.1 h
  obtain rfl := Except.ok.inj h
  exact ⟨hlayouts, rfl⟩

theorem analyze_macros {p : Program} {source : String} {tokens : List Token} {spare : Nat}
    {analysis : Analysis} (h : analyze p source tokens spare = .ok analysis) :
    analysis.macros = p.macros (Text.lines source) := by
  obtain ⟨layouts, _, h⟩ := bind_eq_ok.1 h
  obtain rfl := Except.ok.inj h
  rfl

/-- What is known about a program whose macros and layouts are known. -/
theorem analyze_of_layouts {p : Program} {source : String} {tokens : List Token} {spare : Nat}
    {macros : Macros} {layouts : Layouts} (hmacros : p.macros (Text.lines source) = macros)
    (h : p.layouts spare macros = .ok layouts) :
    analyze p source tokens spare = .ok
      { program := p, source, tokens, lines := Text.lines source, macros, layouts, spare } := by
  subst hmacros
  rw [analyze, h]
  rfl

end Stepwise
