/-
Where the binary interface of a 64-bit platform puts the members of a struct.

Its rules carry two numbers for every struct, the size and the alignment, and the
alignment is the largest one among the members. The layouts of a program carry the
size alone and take it for the alignment, cut down to eight bytes. For a struct that
holds no other struct the two agree; for a struct in a struct they agree only if the
inner one is *even*, that is, if its size happens to be its alignment or is at least
eight bytes with a member aligned to eight. Two numbers of four bytes are not even: the
rules align them to four, their size says eight.

So the layouts follow the rules wherever the structs inside structs are even, and a
struct that is not even is misplaced already behind a single character.
-/
import Stepwise.Proofs.Offsets

set_option autoImplicit false

namespace Stepwise

/-! ## The rules -/

/-- How many bytes an object takes, and the alignment it asks for. -/
structure Extent where
  /-- Bytes taken by the object. -/
  size : Int
  /-- Its offset is a multiple of this. -/
  alignment : Int
deriving Repr, DecidableEq

/-- The extents of structs by full name. -/
abbrev Extents := Table String Extent

/-- The sizes alone. -/
def Extents.sizes (extents : Extents) : StructSizes :=
  List.map (fun entry => (entry.1, entry.2.size)) extents

/-- The extent of a type by the rules for 64 bits: a pointer and a scalar are aligned to their size,
an array to the alignment of its elements, and a struct has the extent known for it. -/
inductive CType.Spans (known : Extents) : CType → Extent → Prop
  | pointer {t : CType} (hpointer : t.isPointer = true) :
      Spans known t ⟨pointerSize, pointerSize⟩
  | array {t element : CType} {n : Int} {x : Extent} (harray : t.isArray = true)
      (helement : t.element = .ok element) (hlength : t.length = .ok n)
      (h : Spans known element x) : Spans known t ⟨x.size * n, x.alignment⟩
  | struct {t : CType} {name : String} {x : Extent} (hpointer : t.isPointer = false)
      (harray : t.isArray = false) (hheld : t.heldStruct? = some name)
      (hknown : known.find? name = some x) : Spans known t x
  | scalar {t : CType} {n : Int} (hpointer : t.isPointer = false) (harray : t.isArray = false)
      (hheld : t.heldStruct? = none) (hsize : t.size [] = .ok n) (hn : n ≤ 8) :
      Spans known t ⟨n, n⟩
  /-- Among the named types only `FILE` is no scalar. Its parts are numbers and pointers. -/
  | stream {t : CType} {n : Int} (hpointer : t.isPointer = false) (harray : t.isArray = false)
      (hheld : t.heldStruct? = none) (hsize : t.size [] = .ok n) (hn : 8 < n) :
      Spans known t ⟨n, 8⟩

/-- Members by the rules, from an offset up to where the last one ends: each is at the first offset
behind those before it that its alignment allows. -/
inductive Members.Aligned (known : Extents) : Int → Members → Int → Prop
  | nil (stop : Int) : Aligned known stop [] stop
  | cons {start offset stop : Int} {name : String} {type : CType} {x : Extent} {members : Members}
      (hspans : type.Spans known x)
      (hoffset : IsLeast {n | x.alignment ∣ n ∧ start ≤ n} offset)
      (hrest : Aligned known (offset + x.size) members stop) :
      Aligned known start ((name, offset, type) :: members) stop

/-- The alignments that the rules give members; one is always allowed. -/
def Members.asked (known : Extents) (members : Members) : Set Int :=
  {a | a = 1 ∨ ∃ e ∈ members, ∃ x, e.2.2.Spans known x ∧ x.alignment = a}

section Following

variable (spare : Nat) (macros : Macros)

/-- A struct as the rules lay it out behind structs whose extents are known. -/
structure Struct.LaidOut (known : Extents) (s : Struct) (l : Layout) (x : Extent) : Prop where
  name : l.name = s.typeName
  /-- The members are those declared, where the sizes in the counts of arrays are those of the
  rules. -/
  declared : List.Forall₂ (Layout.Becomes spare macros known.sizes) (Layout.fields s) l.members
  /-- The alignment is the largest one among the members. -/
  largest : IsGreatest (Members.asked known l.members) x.alignment
  /-- The members begin at zero, and the struct ends at the first multiple of its alignment behind
  them. -/
  aligned : ∃ stop, Members.Aligned known 0 l.members stop ∧
    IsLeast {n | x.alignment ∣ n ∧ stop ≤ n} x.size
  size : l.size = x.size

/-- Structs laid out by the rules, each with the extents of those before it. -/
inductive Layouts.Follow : List Struct → Layouts → Extents → Prop
  | nil : Follow [] [] []
  | snoc {structs : List Struct} {layouts : Layouts} {extents : Extents} {s : Struct} {l : Layout}
      {x : Extent} (h : Follow structs layouts extents) (hlaid : s.LaidOut spare macros extents l x) :
      Follow (structs ++ [s]) (layouts ++ [(s.typeName, l)]) (extents ++ [(s.typeName, x)])

end Following

namespace CType

variable {known : Extents} {t : CType}

/-- The rules give a type one extent. -/
theorem Spans.unique {x y : Extent} (hx : t.Spans known x) (hy : t.Spans known y) : x = y := by
  -- a type ends in one character, so it is not both a pointer and an array
  have pointer_not_array : ∀ u : CType, u.isPointer = true → u.isArray = true → False := by
    intro u hpointer harray
    rw [isPointer, endsIn, beq_iff_eq] at hpointer
    rw [isArray, endsIn, beq_iff_eq, hpointer] at harray
    exact absurd harray (by decide)
  -- two different rules never span one type: each assumes what the other denies
  induction hx generalizing y with
  | pointer hpointer =>
    cases hy with
    | pointer _ => rfl
    | array harray _ _ _ => exact absurd harray fun h => pointer_not_array _ hpointer h
    | struct hnot _ _ _ => simp [hpointer] at hnot
    | scalar hnot _ _ _ _ => simp [hpointer] at hnot
    | stream hnot _ _ _ _ => simp [hpointer] at hnot
  | array harray helement hlength _ ih =>
    cases hy with
    | pointer hpointer => exact absurd harray fun h => pointer_not_array _ hpointer h
    | array _ helement' hlength' h' =>
      obtain rfl := Except.ok.inj (helement.symm.trans helement')
      obtain rfl := Except.ok.inj (hlength.symm.trans hlength')
      obtain rfl := ih h'
      rfl
    | struct _ hnot _ _ => simp [harray] at hnot
    | scalar _ hnot _ _ _ => simp [harray] at hnot
    | stream _ hnot _ _ _ => simp [harray] at hnot
  | struct hpointer harray hheld hknown =>
    cases hy with
    | pointer h => simp [hpointer] at h
    | array h _ _ _ => simp [harray] at h
    | struct _ _ hheld' hknown' =>
      obtain rfl := Option.some.inj (hheld.symm.trans hheld')
      exact Option.some.inj (hknown.symm.trans hknown')
    | scalar _ _ hnone _ _ => simp [hheld] at hnone
    | stream _ _ hnone _ _ => simp [hheld] at hnone
  | scalar hpointer harray hheld hsize hn =>
    cases hy with
    | pointer h => simp [hpointer] at h
    | array h _ _ _ => simp [harray] at h
    | struct _ _ hsome _ => simp [hheld] at hsome
    | scalar _ _ _ hsize' _ =>
      obtain rfl := Except.ok.inj (hsize.symm.trans hsize')
      rfl
    | stream _ _ _ hsize' hn' =>
      obtain rfl := Except.ok.inj (hsize.symm.trans hsize')
      omega
  | stream hpointer harray hheld hsize hn =>
    cases hy with
    | pointer h => simp [hpointer] at h
    | array h _ _ _ => simp [harray] at h
    | struct _ _ hsome _ => simp [hheld] at hsome
    | scalar _ _ _ hsize' hn' =>
      obtain rfl := Except.ok.inj (hsize.symm.trans hsize')
      omega
    | stream _ _ _ hsize' _ =>
      obtain rfl := Except.ok.inj (hsize.symm.trans hsize')
      rfl

/-! ## Alignments read off sizes -/

/-- What is no array is aligned to its size, within one and eight bytes. -/
theorem alignment_of_not_isArray {sizes : StructSizes} {n : Int} (harray : t.isArray = false)
    (hsize : t.size sizes = .ok n) : t.alignment sizes = .ok (max 1 (min n 8)) := by
  have hinner : innermostText t.text.toList = .ok t.text.toList := by
    have hbracket : endsIn ']' t.text.toList = false := harray
    rw [innermostText, hbracket, if_neg Bool.false_ne_true]
  rw [size] at hsize
  rw [alignment, hinner]
  simp only [bind, Except.bind, hsize]
  rfl

theorem alignment_of_element {element : CType} (sizes : StructSizes) (harray : t.isArray = true)
    (helement : t.element = .ok element) : t.alignment sizes = element.alignment sizes := by
  have hbracket : endsIn ']' t.text.toList = true := harray
  rw [CType.element, if_pos harray] at helement
  cases he : beforeBracket? (Text.trimRight t.text.toList) with
  | none =>
    rw [he] at helement
    cases helement
  | some e =>
    rw [he] at helement
    obtain rfl := Except.ok.inj helement
    have hinner : innermostText t.text.toList = innermostText e := by
      rw [innermostText, if_pos hbracket]
      split
      · next e' he' =>
        obtain rfl := Option.some.inj (he.symm.trans he')
        rfl
      · next hnone =>
        rw [he] at hnone
        cases hnone
    rw [alignment, hinner, alignment, String.toList_ofList]

/-- Words that spell a struct have the size known for it. -/
theorem wordsSize_of_spelled {sizes : StructSizes} {words : List String} {name : String} {n : Int}
    (hspelled : spelledStruct? words = some name) (hknown : sizes.find? name = some n) :
    wordsSize sizes words = n := by
  unfold spelledStruct? at hspelled
  unfold wordsSize
  generalize words.filter (fun w => !qualifiers.contains w) = telling at hspelled ⊢
  cases telling with
  | nil => cases hspelled
  | cons w rest =>
    dsimp only at hspelled ⊢
    split at hspelled
    · next hstruct =>
      obtain rfl := Option.some.inj hspelled
      rw [if_pos hstruct, hknown, Option.getD_some]
    · cases hspelled

/-- A struct type has the size known for the struct. -/
theorem size_of_heldStruct? {sizes : StructSizes} {name : String} {n : Int}
    (hpointer : t.isPointer = false) (harray : t.isArray = false)
    (hheld : t.heldStruct? = some name) (hknown : sizes.find? name = some n) :
    t.size sizes = .ok n := by
  have hstar : endsIn '*' t.text.toList = false := hpointer
  have hbracket : endsIn ']' t.text.toList = false := harray
  rw [heldStruct?, heldIn?, endsIn_trim, endsIn_trim, hstar, hbracket, if_neg Bool.false_ne_true,
    if_neg Bool.false_ne_true] at hheld
  rw [size, sizeOfText_eq, hstar, hbracket, if_neg Bool.false_ne_true, if_neg Bool.false_ne_true,
    wordsSize_of_spelled hheld hknown]

end CType

/-! ## Even structs -/

/-- A size, cut down to what an alignment may be. -/
def Extent.cut (size : Int) : Int :=
  max 1 (min size 8)

/-- The largest alignment of a member is the size of the struct, within one and eight bytes. -/
def Layout.Even (sizes : StructSizes) (l : Layout) : Prop :=
  IsGreatest (Members.alignments sizes l.members) (Extent.cut l.size)

/-- Extents by the rules that agree with layouts: the structs have the same sizes, and the alignments
are the largest ones by a table of sizes. -/
structure Extents.Agree (sizes : StructSizes) (known : Layouts) (extents : Extents) : Prop where
  sizes_eq : extents.sizes = known.sizes
  found : ∀ name l, known.find? name = some l →
    ∃ x, extents.find? name = some x ∧ x.size = l.size ∧
      IsGreatest (Members.alignments sizes l.members) x.alignment

namespace CType

variable {known : Extents} {sizes : StructSizes} {t : CType}

/-- A type has one extent by the rules and by the sizes, if the struct in it has. -/
theorem Filled.spans (hfilled : t.Filled)
    (hknown : ∀ name, t.heldStruct? = some name →
      ∃ x, known.find? name = some x ∧ sizes.find? name = some x.size ∧
        x.alignment = Extent.cut x.size) :
    ∃ x, t.Spans known x ∧ t.size sizes = .ok x.size ∧ t.alignment sizes = .ok x.alignment := by
  induction hfilled with
  | @single t harray =>
    by_cases hpointer : t.isPointer = true
    · have hsize : t.size sizes = .ok pointerSize := by
        have hstar : endsIn '*' t.text.toList = true := hpointer
        rw [size, sizeOfText_eq, if_pos hstar]
      exact ⟨_, .pointer hpointer, hsize, alignment_of_not_isArray harray hsize⟩
    · have hpointer : t.isPointer = false := Bool.eq_false_iff.2 hpointer
      cases hheld : t.heldStruct? with
      | some name =>
        obtain ⟨x, hx, hsizes, hcut⟩ := hknown name hheld
        have hsize : t.size sizes = .ok x.size := size_of_heldStruct? hpointer harray hheld hsizes
        refine ⟨x, .struct hpointer harray hheld hx, hsize, ?_⟩
        rw [alignment_of_not_isArray harray hsize, hcut, Extent.cut]
      | none =>
        obtain ⟨n, hn⟩ := exists_size_of_not_isArray [] harray
        have hsame : t.size sizes = .ok n := by
          rw [← hn]
          exact size_of_held (by simp [hheld])
        have halign := alignment_of_not_isArray harray hsame
        have hpos : 0 < n := size_pos_of_not_isArray (by simp) harray hn
        -- what takes more than eight bytes is still aligned to eight
        by_cases hle : n ≤ 8
        · refine ⟨⟨n, n⟩, .scalar hpointer harray hheld hn hle, hsame, ?_⟩
          rw [halign, show max 1 (min n 8) = n by omega]
        · refine ⟨⟨n, 8⟩, .stream hpointer harray hheld hn (by omega), hsame, ?_⟩
          rw [halign, show max 1 (min n 8) = 8 by omega]
  | @array t element n harray helement hlength hn _ ih =>
    obtain ⟨x, hspans, hsize, halign⟩ :=
      ih fun name hname => hknown name (heldStruct?_element harray helement ▸ hname)
    refine ⟨_, .array harray helement hlength hspans, ?_, ?_⟩
    · rw [size_array_eq sizes harray helement hlength hn, hsize]
      rfl
    · rw [alignment_of_element sizes harray helement, halign]

end CType

namespace Members

variable {known : Extents} {sizes : StructSizes} {members : Members}

/-- Members whose types have one extent by the rules and by the sizes are packed by the rules. -/
theorem Packed.aligned {start stop : Int} (h : Members.Packed sizes start members stop)
    (hspans : ∀ e ∈ members, ∃ x, e.2.2.Spans known x ∧ e.2.2.size sizes = .ok x.size ∧
      e.2.2.alignment sizes = .ok x.alignment) : Members.Aligned known start members stop := by
  induction h with
  | nil stop => exact .nil stop
  | cons halignment hoffset hsize _ ih =>
    obtain ⟨x, hx, hsize', halignment'⟩ := hspans _ List.mem_cons_self
    obtain rfl := Except.ok.inj (hsize.symm.trans hsize')
    obtain rfl := Except.ok.inj (halignment.symm.trans halignment')
    exact .cons hx hoffset (ih fun e he => hspans e (List.mem_cons_of_mem _ he))

theorem asked_eq_alignments
    (hspans : ∀ e ∈ members, ∃ x, e.2.2.Spans known x ∧ e.2.2.size sizes = .ok x.size ∧
      e.2.2.alignment sizes = .ok x.alignment) :
    Members.asked known members = Members.alignments sizes members := by
  ext a
  refine or_congr_right (exists_congr fun e => and_congr_right fun he => ?_)
  obtain ⟨x, hx, _, halign⟩ := hspans e he
  constructor
  · rintro ⟨y, hy, rfl⟩
    rw [hy.unique hx, halign]
  · intro ha
    exact ⟨x, hx, Except.ok.inj (halign.symm.trans ha)⟩

end Members

/-! ## One struct -/

section Step

variable {spare : Nat} {macros : Macros} {known : Layouts} {extents : Extents} {sizes : StructSizes}
  {s : Struct} {l : Layout}

/-- A struct behind structs that follow the rules follows them, if those that it holds are even. Its
alignment is the largest one by the sizes as well. -/
theorem Struct.laidOut_of_even (hagree : extents.Agree sizes known)
    (hnonneg : ∀ e ∈ known.sizes, 0 ≤ e.2)
    (hnames : ((Layout.fields s).map fun f => f.2.name).Nodup)
    (hfilled : ∀ e ∈ l.members, e.2.2.Filled)
    (hheld : ∀ e ∈ l.members, ∀ name, e.2.2.heldStruct? = some name →
      ∃ inner, known.find? name = some inner ∧ inner.Even sizes ∧
        sizes.find? name = some inner.size)
    (h : Layout.ofStruct spare macros known.sizes s = .ok l) :
    ∃ x, s.LaidOut spare macros extents l x ∧ x.size = l.size ∧
      IsGreatest (Members.alignments sizes l.members) x.alignment := by
  obtain ⟨hbecomes, stop, widest, hpacked⟩ := Layout.ofStruct_packed hnonneg hnames h
  have hpacked : l.Packed sizes stop widest := by
    refine hpacked.congr fun e he name hname => ?_
    obtain ⟨inner, hinner, _, hsize⟩ := hheld e he name hname
    rw [Layouts.find?_sizes, hinner, hsize]
    rfl
  have hspans : ∀ e ∈ l.members, ∃ x, e.2.2.Spans extents x ∧ e.2.2.size sizes = .ok x.size ∧
      e.2.2.alignment sizes = .ok x.alignment := by
    intro e he
    refine (hfilled e he).spans fun name hname => ?_
    obtain ⟨inner, hinner, heven, hsize⟩ := hheld e he name hname
    obtain ⟨x, hx, hxsize, hgreatest⟩ := hagree.found name inner hinner
    exact ⟨x, hx, by rw [hsize, hxsize], by rw [hgreatest.unique heven, hxsize]⟩
  have hname : l.name = s.typeName := by
    obtain ⟨p, _, h⟩ := bind_eq_ok.1 h
    rw [← Except.ok.inj h]
  refine ⟨⟨l.size, widest⟩, ⟨hname, ?_, ?_, ?_, rfl⟩, rfl, hpacked.largest⟩
  · rw [hagree.sizes_eq]
    exact hbecomes
  · rw [Members.asked_eq_alignments hspans]
    exact hpacked.largest
  · exact ⟨stop, hpacked.members.aligned hspans, hpacked.size⟩

end Step

/-! ## Structs one after the other -/

theorem Extents.find?_sizes (extents : Extents) (name : String) :
    extents.sizes.find? name = (extents.find? name).map Extent.size := by
  induction extents with
  | nil => rfl
  | cons e extents ih =>
    rw [Table.find?_cons]
    show (if e.1 == name then some e.2.size else (Extents.sizes extents).find? name) = _
    rw [ih]
    split <;> rfl

/-- One more struct of a new name. -/
theorem Extents.Agree.snoc {sizes : StructSizes} {known : Layouts} {extents : Extents} {name : String}
    {l : Layout} {x : Extent} (h : extents.Agree sizes known) (hsize : x.size = l.size)
    (hlargest : IsGreatest (Members.alignments sizes l.members) x.alignment) :
    Extents.Agree sizes (known ++ [(name, l)]) (extents ++ [(name, x)]) where
  sizes_eq := by
    have hbefore : List.map (fun e => (e.1, e.2.size)) extents
        = List.map (fun e => (e.1, e.2.size)) known := h.sizes_eq
    rw [Extents.sizes, Layouts.sizes, List.map_append, List.map_append, hbefore]
    simp [hsize]
  found other l' hl' := by
    rw [Table.find?_append] at hl' ⊢
    cases hknown : known.find? other with
    | some l'' =>
      obtain ⟨x', hx', hmore⟩ := h.found other l'' hknown
      rw [hknown, Option.some_or] at hl'
      obtain rfl := Option.some.inj hl'
      exact ⟨x', by rw [hx', Option.some_or], hmore⟩
    | none =>
      rw [hknown, Option.none_or, Table.find?_cons] at hl'
      split at hl'
      · next hother =>
        obtain rfl := Option.some.inj hl'
        have hnone : extents.find? other = none := by
          have hsizes := Extents.find?_sizes extents other
          rw [h.sizes_eq, Layouts.find?_sizes, hknown] at hsizes
          simpa using hsizes.symm
        refine ⟨x, ?_, hsize, hlargest⟩
        rw [hnone, Option.none_or, Table.find?_cons, if_pos hother]
      · cases hl'

namespace Layouts

variable {spare : Nat} {macros : Macros} {known layouts : Layouts}

theorem exists_of_mem_keys {name : String} (h : name ∈ known.keys) :
    ∃ l, known.find? name = some l := by
  obtain ⟨l, hl⟩ := Table.mem_keys.1 h
  refine Option.ne_none_iff_exists'.1 fun hnone => ?_
  have hself := Table.find?_eq_none_iff.1 hnone _ hl
  simp at hself

theorem find?_eq_none_of_nodup {name : String} {names : List String}
    (h : (known.keys ++ name :: names).Nodup) : known.find? name = none := by
  by_contra hsome
  obtain ⟨l, hl⟩ := Option.ne_none_iff_exists'.1 hsome
  obtain ⟨key, hkey, heq⟩ := Table.mem_of_find? hl
  obtain rfl := eq_of_beq heq
  rw [List.nodup_append] at h
  exact h.2.2 _ (Table.mem_keys.2 ⟨l, hkey⟩) _ List.mem_cons_self rfl

/-- Structs of new names go behind the known ones. -/
theorem exists_append_of_extend {structs : List Struct}
    (hfresh : (known.keys ++ structs.map Struct.typeName).Nodup)
    (h : known.extend spare macros structs = .ok layouts) : ∃ more, layouts = known ++ more := by
  induction structs generalizing known with
  | nil =>
    obtain rfl := Except.ok.inj h
    exact ⟨[], (List.append_nil _).symm⟩
  | cons s structs ih =>
    obtain ⟨l, _, h⟩ := extend_cons_eq_ok.1 h
    rw [Table.put_of_find?_eq_none l (find?_eq_none_of_nodup hfresh)] at h
    have hkeys : Table.keys (known ++ [(s.typeName, l)]) = known.keys ++ [s.typeName] := by
      simp [Table.keys]
    obtain ⟨more, rfl⟩ := ih (by rw [hkeys, List.append_assoc]; exact hfresh) h
    exact ⟨(s.typeName, l) :: more, by simp⟩

end Layouts

/-- The structs of a program as C wants them: each is defined once, its tag is a word, and its
members have different names; a member holds by value only structs defined before, and every array in
it has elements. -/
structure Program.StructsOrdered (p : Program) (layouts : Layouts) : Prop where
  once : (p.structs.map Struct.typeName).Nodup
  tagged : ∀ s ∈ p.structs, s.Tagged ∧ CType.isStruct ⟨s.typeName⟩ = true
  names : ∀ s ∈ p.structs, ((Layout.fields s).map fun f => f.2.name).Nodup
  before : ∀ (pre post : Layouts) e, layouts = pre ++ e :: post → ∀ member ∈ e.2.members,
    ∀ name, member.2.2.heldStruct? = some name → name ∈ pre.keys
  filled : ∀ e ∈ layouts, ∀ member ∈ e.2.members, member.2.2.Filled

/-- Every struct that a member of another one holds by value is even. -/
def Layouts.HeldEven (layouts : Layouts) : Prop :=
  ∀ e ∈ layouts, ∀ member ∈ e.2.members, ∀ name l, member.2.2.heldStruct? = some name →
    layouts.find? name = some l → l.Even layouts.sizes

/-- The structs laid out so far follow the rules, and so do those laid out behind them. -/
theorem Layouts.follow_extend {p : Program} {spare : Nat} {macros : Macros} {known layouts : Layouts}
    {extents : Extents} {front structs : List Struct} (hordered : p.StructsOrdered layouts)
    (heven : layouts.HeldEven) (hp : ∀ s ∈ structs, s ∈ p.structs)
    (hfollow : Layouts.Follow spare macros front known extents)
    (hagree : extents.Agree layouts.sizes known) (hsound : known.Sound)
    (hfresh : (known.keys ++ structs.map Struct.typeName).Nodup)
    (h : known.extend spare macros structs = .ok layouts) :
    ∃ extents', Layouts.Follow spare macros (front ++ structs) layouts extents' ∧
      extents'.Agree layouts.sizes layouts := by
  induction structs generalizing front known extents with
  | nil =>
    obtain rfl := Except.ok.inj h
    rw [List.append_nil]
    exact ⟨extents, hfollow, hagree⟩
  | cons s structs ih =>
    obtain ⟨l, hl, h⟩ := Layouts.extend_cons_eq_ok.1 h
    have hnew := Layouts.find?_eq_none_of_nodup hfresh
    have hlaid := Layout.ofStruct_sound hsound.sizes_nonneg hl
    have hsound' := hsound.put s.typeName hlaid
    rw [Table.put_of_find?_eq_none l hnew] at h hsound'
    have hfresh' : (Table.keys (known ++ [(s.typeName, l)]) ++ structs.map Struct.typeName).Nodup := by
      have hkeys : Table.keys (known ++ [(s.typeName, l)]) = known.keys ++ [s.typeName] := by
        simp [Table.keys]
      rw [hkeys, List.append_assoc]
      exact hfresh
    obtain ⟨more, hmore⟩ := Layouts.exists_append_of_extend hfresh' h
    have hsplit : layouts = known ++ (s.typeName, l) :: more := by rw [hmore]; simp
    have hmem : (s.typeName, l) ∈ layouts := by simp [hsplit]
    -- a struct that is held was laid out before and is even
    have hheld : ∀ e ∈ l.members, ∀ name, e.2.2.heldStruct? = some name →
        ∃ inner, known.find? name = some inner ∧ inner.Even layouts.sizes ∧
          layouts.sizes.find? name = some inner.size := by
      intro e he name hname
      obtain ⟨inner, hinner⟩ :=
        Layouts.exists_of_mem_keys (hordered.before known more _ hsplit e he name hname)
      have hfound : layouts.find? name = some inner := by
        rw [hsplit, Table.find?_append, hinner, Option.some_or]
      exact ⟨inner, hinner, heven _ hmem e he name inner hname hfound,
        by rw [Layouts.find?_sizes, hfound]; rfl⟩
    obtain ⟨x, hx, hsize, hlargest⟩ :=
      Struct.laidOut_of_even hagree hsound.sizes_nonneg (hordered.names s (hp s List.mem_cons_self))
        (hordered.filled _ hmem) hheld hl
    have hlater := ih (fun t ht => hp t (List.mem_cons_of_mem _ ht)) (.snoc hfollow hx)
      (hagree.snoc hsize hlargest) hsound' hfresh' h
    rwa [List.append_assoc, List.singleton_append] at hlater

/-! ## What happens behind a character -/

/-- A struct of a character and the struct itself. -/
def Struct.behindChar (s : Struct) : Struct :=
  ⟨s.line, "holder", [⟨s.line, ⟨"char"⟩, [⟨s.line, "tag", 0, .none, none⟩]⟩,
    ⟨s.line, ⟨s.typeName⟩, [⟨s.line, "inner", 0, .none, none⟩]⟩]⟩

theorem Extent.one_le_cut (size : Int) : 1 ≤ Extent.cut size := by
  unfold Extent.cut
  omega

/-- The first offset behind a character is the alignment itself. -/
theorem Extent.eq_of_isLeast {alignment offset : Int} (hpos : 1 ≤ alignment)
    (h : IsLeast {n | alignment ∣ n ∧ 1 ≤ n} offset) : offset = alignment := by
  refine Int.le_antisymm (h.2 ⟨Int.dvd_refl _, hpos⟩) ?_
  exact Int.le_of_dvd (by have := h.1.2; omega) h.1.1

theorem CType.heldStruct?_char : CType.heldStruct? ⟨"char"⟩ = none := by decide +kernel

theorem CType.size_char (sizes : StructSizes) : CType.size sizes ⟨"char"⟩ = .ok 1 := by
  have hempty : CType.size [] ⟨"char"⟩ = .ok 1 := by decide +kernel
  rw [CType.size_of_held (by simp [CType.heldStruct?_char]), hempty]

theorem CType.spans_char (known : Extents) : CType.Spans known ⟨"char"⟩ ⟨1, 1⟩ :=
  .scalar (by decide) (by decide) CType.heldStruct?_char (CType.size_char []) (by decide)

namespace Struct

variable {spare : Nat} {macros : Macros} {sizes : StructSizes} {known : Layouts} {extents : Extents}
  {s : Struct} {l : Layout}

theorem Tagged.of_all (hnonempty : s.tag.toList ≠ [])
    (hword : (s.tag.toList.all fun c => !Text.isBlank c) = true)
    (htelling : s.tag ∉ CType.qualifiers) : s.Tagged :=
  ⟨hnonempty, by simpa using hword, htelling⟩

theorem Tagged.trim_typeName (h : s.Tagged) :
    Text.trim s.typeName.toList = s.typeName.toList := by
  have hleft : Text.trimLeft s.typeName.toList = s.typeName.toList := by
    rw [typeName, String.toList_append]
    exact List.dropWhile_cons_of_neg (by decide)
  obtain ⟨front, last, hlast⟩ := (List.eq_nil_or_concat s.tag.toList).resolve_left h.nonempty
  rw [List.concat_eq_append] at hlast
  have hend : (s.typeName.toList).getLast? = some last := by
    rw [typeName, String.toList_append, hlast, ← List.append_assoc, List.getLast?_concat]
  have hblank : Text.isBlank last = false := h.word last (by simp [hlast])
  rw [Text.trim, hleft, Text.trimRight_of_getLast? hend hblank]

section BehindChar

variable (htagged : s.Tagged) (hstruct : CType.isStruct ⟨s.typeName⟩ = true)
  (hl : known.find? s.typeName = some l)

include htagged hstruct hl

/-- The character is at zero, and the struct behind it at its size, cut down to an alignment. -/
theorem exists_ofStruct_behindChar (spare : Nat) (macros : Macros) :
    ∃ inner, Layout.ofStruct spare macros known.sizes s.behindChar = .ok inner ∧
      inner.members = [("tag", 0, ⟨"char"⟩), ("inner", Extent.cut l.size, ⟨s.typeName⟩)] := by
  have hchar : CType.alignment known.sizes ⟨"char"⟩ = .ok 1 :=
    CType.alignment_of_not_isArray (by decide) (CType.size_char _)
  have harray : CType.isArray ⟨s.typeName⟩ = false := by
    rw [CType.isStruct, Bool.and_eq_true, Bool.not_eq_true'] at hstruct
    exact hstruct.2
  have hsize : CType.size known.sizes ⟨s.typeName⟩ = .ok l.size := by
    rw [htagged.size_of_text hstruct htagged.trim_typeName, Layouts.find?_sizes, hl]
    rfl
  have halign : CType.alignment known.sizes ⟨s.typeName⟩ = .ok (Extent.cut l.size) :=
    CType.alignment_of_not_isArray harray hsize
  have hfirst : Layout.alignUp 0 1 = 0 := by decide
  have hsecond : Layout.alignUp 1 (Extent.cut l.size) = Extent.cut l.size :=
    Extent.eq_of_isLeast (Extent.one_le_cut _) (Layout.isLeast_alignUp (Extent.one_le_cut _))
  refine ⟨⟨s.behindChar.typeName,
    [("tag", 0, ⟨"char"⟩), ("inner", Extent.cut l.size, ⟨s.typeName⟩)],
    Layout.alignUp (Extent.cut l.size + l.size) (max 1 (Extent.cut l.size))⟩, ?_, rfl⟩
  simp [Layout.ofStruct, Layout.fields, behindChar, Variable.fullType, CType.withStars_zero,
    Layout.Partial.place, hchar, hsize, halign, CType.size_char, bind, Except.bind, pure,
    Except.pure, hfirst, hsecond, Table.put]

/-- A struct is even exactly if it is where the rules want it behind a character. -/
theorem even_iff_behindChar (hagree : extents.Agree known.sizes known)
    (hnonneg : ∀ e ∈ known.sizes, 0 ≤ e.2) (spare : Nat) (macros : Macros) :
    l.Even known.sizes ↔
      ∃ inner x, Layout.ofStruct spare macros known.sizes s.behindChar = .ok inner ∧
        s.behindChar.LaidOut spare macros extents inner x := by
  obtain ⟨inner, hinner, hmembers⟩ :=
    exists_ofStruct_behindChar htagged hstruct hl spare macros
  have hheld : CType.heldStruct? ⟨s.typeName⟩ = some s.typeName :=
    htagged.heldStruct?_of_text hstruct htagged.trim_typeName
  obtain ⟨⟨_, hpointer⟩, harray⟩ : (_ ∧ CType.isPointer ⟨s.typeName⟩ = false) ∧
      CType.isArray ⟨s.typeName⟩ = false := by
    simpa only [CType.isStruct, Bool.and_eq_true, Bool.not_eq_true'] using hstruct
  constructor
  · intro heven
    have hfilled : ∀ e ∈ inner.members, e.2.2.Filled := by
      intro e he
      rw [hmembers] at he
      rcases List.mem_pair.1 he with rfl | rfl
      · exact .single (by decide)
      · exact .single harray
    have hinside : ∀ e ∈ inner.members, ∀ name, e.2.2.heldStruct? = some name →
        ∃ held, known.find? name = some held ∧ held.Even known.sizes ∧
          known.sizes.find? name = some held.size := by
      intro e he name hname
      rw [hmembers] at he
      rcases List.mem_pair.1 he with rfl | rfl
      · rw [CType.heldStruct?_char] at hname
        cases hname
      · obtain rfl := Option.some.inj (hheld.symm.trans hname)
        exact ⟨l, hl, heven, by rw [Layouts.find?_sizes, hl]; rfl⟩
    obtain ⟨x, hx, _⟩ := laidOut_of_even hagree hnonneg
      (by simp [Layout.fields, behindChar]) hfilled hinside hinner
    exact ⟨inner, x, hinner, hx⟩
  · rintro ⟨inner', x, hinner', hlaid⟩
    obtain rfl := Except.ok.inj (hinner.symm.trans hinner')
    obtain ⟨y, hy, _, hlargest⟩ := hagree.found s.typeName l hl
    obtain ⟨stop, haligned, _⟩ := hlaid.aligned
    rw [hmembers] at haligned
    -- behind the character, at the first multiple of the alignment
    cases haligned with
    | cons hchar _ hrest =>
      obtain rfl := hchar.unique (CType.spans_char extents)
      cases hrest with
      | cons hspans hoffset _ =>
        obtain rfl := hspans.unique (.struct hpointer harray hheld hy)
        have hcut := Extent.eq_of_isLeast (hlargest.2 (Or.inl rfl)) hoffset
        rw [Layout.Even, hcut]
        exact hlargest

end BehindChar

end Struct

/-! ## Programs -/

/-- **The layouts of a program are those of the binary interface where the structs inside structs are
even.** There the alignment of every struct is the largest one among its members. And a struct that is
not even is out of its place already behind a single character. -/
theorem structs_follow_abi {p : Program} {spare : Nat} {macros : Macros} {layouts : Layouts}
    (h : p.layouts spare macros = .ok layouts) (hordered : p.StructsOrdered layouts)
    (heven : layouts.HeldEven) :
    ∃ extents, Layouts.Follow spare macros p.structs layouts extents ∧
      ∀ s ∈ p.structs, ∀ l, layouts.find? s.typeName = some l →
        (l.Even layouts.sizes ↔
          ∃ inner x, Layout.ofStruct spare macros layouts.sizes s.behindChar = .ok inner ∧
            s.behindChar.LaidOut spare macros extents inner x) := by
  have hempty : Extents.Agree layouts.sizes [] [] := ⟨rfl, fun name l hl => by cases hl⟩
  obtain ⟨extents, hfollow, hagree⟩ :=
    Layouts.follow_extend hordered heven (fun s hs => hs) .nil hempty (fun e he => by cases he)
      hordered.once h
  refine ⟨extents, hfollow, fun s hs l hl => ?_⟩
  obtain ⟨htagged, hstruct⟩ := hordered.tagged s hs
  exact Struct.even_iff_behindChar htagged hstruct hl hagree (layouts_sound h).sizes_nonneg _ _

/-- A struct of scalars and the struct that has it behind a character are as C wants them. -/
theorem Program.StructsOrdered.behindChar {s : Struct} {l outer : Layout} {offset : Int}
    (htagged : s.Tagged) (hstruct : CType.isStruct ⟨s.typeName⟩ = true)
    (hother : s.typeName ≠ s.behindChar.typeName)
    (hnames : ((Layout.fields s).map fun f => f.2.name).Nodup)
    (hscalars : ∀ e ∈ l.members, e.2.2.isArray = false ∧ e.2.2.heldStruct? = none)
    (hmembers : outer.members = [("tag", 0, ⟨"char"⟩), ("inner", offset, ⟨s.typeName⟩)]) :
    Program.StructsOrdered ⟨[.struct s, .struct s.behindChar]⟩
      [(s.typeName, l), (s.behindChar.typeName, outer)] := by
  have hstructs : Program.structs ⟨[.struct s, .struct s.behindChar]⟩ = [s, s.behindChar] := rfl
  have houter : s.behindChar.Tagged ∧ CType.isStruct ⟨s.behindChar.typeName⟩ = true :=
    ⟨.of_all (show "holder".toList ≠ [] by decide)
        (show ("holder".toList.all fun c => !Text.isBlank c) = true from rfl)
        (show "holder" ∉ _ by decide),
      show CType.isStruct ⟨"struct " ++ "holder"⟩ = true by decide⟩
  have harray : CType.isArray ⟨s.typeName⟩ = false := by
    rw [CType.isStruct, Bool.and_eq_true, Bool.not_eq_true'] at hstruct
    exact hstruct.2
  refine ⟨by simp [hstructs, hother], ?_, ?_, ?_, ?_⟩
  · rw [hstructs]
    rintro t ht
    rcases List.mem_pair.1 ht with rfl | rfl
    · exact ⟨htagged, hstruct⟩
    · exact houter
  · rw [hstructs]
    rintro t ht
    rcases List.mem_pair.1 ht with rfl | rfl
    · exact hnames
    · simp [Layout.fields, Struct.behindChar]
  · intro pre post e hsplit member hmember name hname
    -- the first struct holds none, and the second holds the first
    cases pre with
    | nil =>
      obtain ⟨rfl, _⟩ := List.cons.inj hsplit
      rw [(hscalars member hmember).2] at hname
      cases hname
    | cons first pre =>
      obtain ⟨rfl, hsplit⟩ := List.cons.inj hsplit
      obtain rfl : pre = [] := by
        cases pre with
        | nil => rfl
        | cons _ pre => simp at hsplit
      obtain ⟨rfl, _⟩ : (s.behindChar.typeName, outer) = e ∧ post = [] := by simpa using hsplit
      rw [hmembers] at hmember
      rcases List.mem_pair.1 hmember with rfl | rfl
      · rw [CType.heldStruct?_char] at hname
        cases hname
      · have hheld := htagged.heldStruct?_of_text hstruct htagged.trim_typeName
        obtain rfl := Option.some.inj (hheld.symm.trans hname)
        exact List.mem_cons_self
  · intro e he member hmember
    rcases List.mem_pair.1 he with rfl | rfl
    · exact .single (hscalars member hmember).1
    · rw [hmembers] at hmember
      rcases List.mem_pair.1 hmember with rfl | rfl
      · exact .single (by decide)
      · exact .single harray

namespace NumberInside

/-- An even struct: sixteen bytes, with a member aligned to eight. -/
def cell : Struct :=
  ⟨1, "cell", [⟨1, ⟨"long"⟩, [⟨1, "n", 0, .none, none⟩]⟩, ⟨1, .int, [⟨1, "k", 0, .none, none⟩]⟩]⟩

/-- Its layout. -/
def cellLayout : Layout :=
  ⟨"struct cell", [("n", 0, ⟨"long"⟩), ("k", 8, .int)], 16⟩

/-- A program with it behind a character. -/
def program : Program := ⟨[.struct cell, .struct cell.behindChar]⟩

/-- The layouts of the program. -/
def layouts : Layouts :=
  [("struct cell", cellLayout),
    ("struct holder", ⟨"struct holder", [("tag", 0, ⟨"char"⟩), ("inner", 8, ⟨"struct cell"⟩)], 24⟩)]

end NumberInside

/-- The struct inside is aligned to eight and begins at eight. -/
theorem cell_follows_abi :
    NumberInside.program.layouts 0 [] = .ok NumberInside.layouts ∧
    ∃ extents, Layouts.Follow 0 [] [NumberInside.cell, NumberInside.cell.behindChar]
      NumberInside.layouts extents := by
  have hlayouts : NumberInside.program.layouts 0 [] = .ok NumberInside.layouts := by decide +kernel
  have hordered : NumberInside.program.StructsOrdered NumberInside.layouts :=
    .behindChar (.of_all (by decide) rfl (by decide)) (by decide +kernel) (by decide)
      (by decide) (by decide +kernel) rfl
  have hcell : Layout.Even NumberInside.layouts.sizes NumberInside.cellLayout := by
    have hlong : CType.alignment NumberInside.layouts.sizes ⟨"long"⟩ = .ok 8 := by decide +kernel
    have hint : CType.alignment NumberInside.layouts.sizes .int = .ok 4 := by decide +kernel
    refine ⟨Or.inr ⟨("n", 0, ⟨"long"⟩), List.mem_cons_self, hlong⟩, ?_⟩
    rintro a (rfl | ⟨e, he, ha⟩)
    · decide
    · rcases List.mem_pair.1 he with rfl | rfl
      · obtain rfl := Except.ok.inj (hlong.symm.trans ha)
        decide
      · obtain rfl := Except.ok.inj (hint.symm.trans ha)
        decide
  -- nothing but the first struct is held by value
  have hheld : ∀ e ∈ NumberInside.layouts, ∀ member ∈ e.2.members,
      member.2.2.heldStruct? = none ∨ member.2.2.heldStruct? = some "struct cell" := by
    decide +kernel
  have heven : NumberInside.layouts.HeldEven := by
    intro e he member hmember name l hname hl
    rcases hheld e he member hmember with h | h
    · rw [h] at hname
      cases hname
    · obtain rfl := Option.some.inj (h.symm.trans hname)
      obtain rfl : NumberInside.cellLayout = l := Option.some.inj hl
      exact hcell
  obtain ⟨extents, hfollow, _⟩ := structs_follow_abi hlayouts hordered heven
  exact ⟨hlayouts, extents, hfollow⟩

/-! ## A pair of numbers in a struct -/

theorem Layouts.Follow.extents_eq_nil {spare : Nat} {macros : Macros} {layouts : Layouts}
    {extents : Extents} (h : Layouts.Follow spare macros [] layouts extents) : extents = [] := by
  generalize hstructs : ([] : List Struct) = structs at h
  cases h with
  | nil => rfl
  | snoc _ _ => simp at hstructs

theorem Layouts.Follow.concat_cases {spare : Nat} {macros : Macros} {structs : List Struct} {s : Struct}
    {layouts : Layouts} {e : String × Layout} {extents : Extents}
    (h : Layouts.Follow spare macros (structs ++ [s]) (layouts ++ [e]) extents) :
    ∃ known x, Layouts.Follow spare macros structs layouts known ∧
      s.LaidOut spare macros known e.2 x ∧ extents = known ++ [(s.typeName, x)] := by
  generalize hstructs : structs ++ [s] = structs' at h
  generalize hlayouts : layouts ++ [e] = layouts' at h
  cases h with
  | nil => simp at hstructs
  | snoc h hlaid =>
    obtain ⟨rfl, hs⟩ := List.append_inj' hstructs rfl
    obtain ⟨rfl, he⟩ := List.append_inj' hlayouts rfl
    obtain rfl := List.singleton_inj.1 hs
    obtain rfl := List.singleton_inj.1 he
    exact ⟨_, _, h, hlaid, rfl⟩

namespace PairInside

/-- A struct that is not even: eight bytes, with members aligned to four. -/
def pair : Struct :=
  ⟨1, "pair", [⟨1, .int, ["x", "y"].map fun name => ⟨1, name, 0, .none, none⟩⟩]⟩

/-- Its layout. -/
def pairLayout : Layout :=
  ⟨"struct pair", [("x", 0, .int), ("y", 4, .int)], 8⟩

/-- The layout of the struct with it behind a character. By the rules the pair begins at four. -/
def outerLayout : Layout :=
  ⟨"struct holder", [("tag", 0, ⟨"char"⟩), ("inner", 8, ⟨"struct pair"⟩)], 16⟩

/-- A program with both. -/
def program : Program := ⟨[.struct pair, .struct pair.behindChar]⟩

/-- The layouts of the program. -/
def layouts : Layouts :=
  [("struct pair", pairLayout), ("struct holder", outerLayout)]

end PairInside

/-- A pair of numbers behind a character is aligned to eight bytes, where the rules want four. -/
theorem pair_breaks_abi :
    PairInside.program.layouts 0 [] = .ok PairInside.layouts ∧
    PairInside.program.StructsOrdered PairInside.layouts ∧
    ¬∃ extents, Layouts.Follow 0 [] [PairInside.pair, PairInside.pair.behindChar] PairInside.layouts
      extents := by
  have hlayouts : PairInside.program.layouts 0 [] = .ok PairInside.layouts := by decide +kernel
  have hordered : PairInside.program.StructsOrdered PairInside.layouts :=
    .behindChar (.of_all (by decide) rfl (by decide)) (by decide +kernel) (by decide)
      (by decide) (by decide +kernel) rfl
  refine ⟨hlayouts, hordered, ?_⟩
  rintro ⟨extents, hfollow⟩
  have hsplit : Layouts.Follow 0 [] ([PairInside.pair] ++ [PairInside.pair.behindChar])
      ([("struct pair", PairInside.pairLayout)] ++ [("struct holder", PairInside.outerLayout)])
      extents := hfollow
  obtain ⟨known, outer, hfirst, houter, _⟩ := hsplit.concat_cases
  have hsplit : Layouts.Follow 0 [] ([] ++ [PairInside.pair])
      ([] ++ [("struct pair", PairInside.pairLayout)]) known := hfirst
  obtain ⟨before, inner, hempty, hinner, rfl⟩ := hsplit.concat_cases
  obtain rfl := hempty.extents_eq_nil
  have hint : CType.Spans [] .int ⟨4, 4⟩ :=
    .scalar (by decide) (by decide) (by decide +kernel) (by decide +kernel) (by decide)
  -- both members are integers, so the rules align the pair to four bytes
  have halign : inner.alignment = 4 := by
    refine hinner.largest.unique ⟨Or.inr ⟨("x", 0, .int), List.mem_cons_self, _, hint, rfl⟩, ?_⟩
    rintro a (rfl | ⟨e, he, x, hx, rfl⟩)
    · decide
    · rcases List.mem_pair.1 he with rfl | rfl <;> rw [hx.unique hint]
  obtain ⟨stop, haligned, _⟩ := houter.aligned
  cases haligned with
  | cons hchar _ hrest =>
    obtain rfl := hchar.unique (CType.spans_char _)
    cases hrest with
    | cons hspans hoffset _ =>
      have hheld : CType.heldStruct? ⟨"struct pair"⟩ = some "struct pair" := by decide +kernel
      obtain rfl := hspans.unique (.struct (by decide) (by decide) hheld rfl)
      -- the rules want the least multiple of four, and four itself is below eight
      rw [halign] at hoffset
      have hfour : (8 : Int) ≤ 4 := hoffset.2 ⟨by decide, by decide⟩
      exact absurd hfour (by decide)

end Stepwise
