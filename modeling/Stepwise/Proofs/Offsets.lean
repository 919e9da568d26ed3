/-
Which offsets the members of a struct get.

The members stand in the order of their declarations, each at the first offset behind
the member before it that its alignment allows, and the struct ends at the first
multiple of its largest alignment. An alignment is a size of at most eight bytes, so it
need not be a power of two: a struct of three characters is aligned to three.

All this is measured by the sizes that were known when the struct was laid out. Any
other table of sizes measures the same, as long as it agrees on the structs that the
members hold by value.
-/
import Stepwise.Proofs.Structs
import Mathlib

set_option autoImplicit false

namespace Stepwise

/-! ## Alignments -/

namespace CType

/-- Only the trimmed text counts. -/
theorem heldIn?_congr {a b : List Char} (h : Text.trim a = Text.trim b) : heldIn? a = heldIn? b := by
  rw [heldIn?, heldIn?, h]

/-- What stands before the last bracket does not depend on blanks in front of it. -/
theorem exists_beforeBracket? {text e : List Char} (harray : endsIn ']' text = true)
    (h : beforeBracket? (Text.trimRight text) = some e) :
    ∃ e', beforeBracket? (Text.trim text) = some e' ∧ Text.trim e' = Text.trim e := by
  rw [beforeBracket?] at h
  cases hi : Text.lastIndexOf? '[' (Text.trimRight text) with
  | none => simp [hi] at h
  | some i =>
    obtain ⟨pre, post, htext, hpost⟩ := Text.lastIndexOf?_cases hi
    have hlast : ('[' :: post).getLast? = some ']' := by
      rw [endsIn, beq_iff_eq, htext, List.getLast?_append] at harray
      simpa using harray
    have htrim : Text.trim text = Text.trimLeft pre ++ '[' :: post := by
      rw [← Text.trim_trimRight, htext]
      exact Text.trim_append_cons (by decide) hlast (by decide)
    refine ⟨Text.trim pre, ?_, ?_⟩
    · rw [beforeBracket?, htrim, Text.lastIndexOf?_eq_some hpost]
      simp [Text.trim]
    · obtain rfl : Text.trimRight pre = e := by
        rw [htext, Text.lastIndexOf?_eq_some hpost] at h
        simpa using h
      rw [Text.trim_trim, Text.trim_trimRight]

/-- An array holds by value what its elements hold. -/
theorem heldIn?_of_array {text e : List Char} (harray : endsIn ']' text = true)
    (h : beforeBracket? (Text.trimRight text) = some e) : heldIn? text = heldIn? e := by
  obtain ⟨e', he', htrim⟩ := exists_beforeBracket? harray h
  have hpointer : endsIn '*' (Text.trim text) = false := by
    rw [endsIn_trim, endsIn]
    rw [endsIn, beq_iff_eq] at harray
    rw [harray]
    decide
  rw [← heldIn?_congr htrim, heldIn?, hpointer, endsIn_trim, harray, if_neg (by decide), if_pos rfl,
    he']

theorem heldIn?_of_innermostText {text inner : List Char} (h : innermostText text = .ok inner) :
    heldIn? inner = heldIn? text := by
  induction hlength : text.length using Nat.strong_induction_on generalizing text with
  | _ k ih =>
    rw [innermostText] at h
    split at h
    · next harray =>
      split at h
      · next e he =>
        have hlt : e.length < text.length :=
          Nat.lt_of_lt_of_le (length_beforeBracket?_lt he) (length_trimRight_le text)
        rw [ih e.length (hlength ▸ hlt) h rfl, heldIn?_of_array harray he]
      · cases h
    · rw [Except.ok.inj h]

theorem heldStruct?_element {t element : CType} (harray : t.isArray = true)
    (h : t.element = .ok element) : element.heldStruct? = t.heldStruct? := by
  rw [CType.element, if_pos harray] at h
  split at h
  · next e he =>
    obtain rfl := Except.ok.inj h
    rw [heldStruct?, String.toList_ofList, heldStruct?, heldIn?_of_array harray he]
  · cases h

/-- Two tables that agree on the struct inside a type give it the same alignment. -/
theorem alignment_of_held {sizes sizes' : StructSizes} {t : CType}
    (h : ∀ name, t.heldStruct? = some name → sizes.find? name = sizes'.find? name) :
    t.alignment sizes = t.alignment sizes' := by
  rw [alignment, alignment]
  cases hinner : innermostText t.text.toList with
  | error fault => rfl
  | ok inner =>
    have hsize : sizeOfText sizes inner = sizeOfText sizes' inner := by
      apply sizeOfText_of_held
      rw [heldIn?_of_innermostText hinner]
      exact h
    simp only [bind, Except.bind, hsize]

end CType

namespace Layout

/-- Rounding up gives the first multiple that is not below the offset. -/
theorem isLeast_alignUp {offset alignment : Int} (h : 1 ≤ alignment) :
    IsLeast {n | alignment ∣ n ∧ offset ≤ n} (alignUp offset alignment) := by
  refine ⟨⟨Int.dvd_mul_left _ _, le_alignUp h⟩, ?_⟩
  rintro n ⟨⟨k, rfl⟩, hle⟩
  have hquotient : (offset + alignment - 1) / alignment < k + 1 := by
    rw [Int.ediv_lt_iff_lt_mul (by omega), Int.add_mul, Int.one_mul, Int.mul_comm k]
    omega
  rw [alignUp, Int.fdiv_eq_ediv_of_nonneg _ (by omega), Int.mul_comm alignment]
  exact Int.mul_le_mul_of_nonneg_right (by omega) (by omega)

end Layout

/-! ## Packed members -/

/-- Members one after the other, from an offset up to where the last one ends: each is at the first
offset behind those before it that its alignment allows. -/
inductive Members.Packed (sizes : StructSizes) : Int → Members → Int → Prop
  | nil (stop : Int) : Packed sizes stop [] stop
  | cons {start alignment offset size stop : Int} {name : String} {type : CType} {members : Members}
      (halignment : type.alignment sizes = .ok alignment)
      (hoffset : IsLeast {n | alignment ∣ n ∧ start ≤ n} offset)
      (hsize : type.size sizes = .ok size)
      (hrest : Packed sizes (offset + size) members stop) :
      Packed sizes start ((name, offset, type) :: members) stop

namespace Members.Packed

variable {sizes : StructSizes} {start stop : Int} {members : Members}

/-- Every member begins behind the start and ends in front of the stop. -/
theorem within (hsizes : ∀ e ∈ sizes, 0 ≤ e.2) (h : Packed sizes start members stop) :
    start ≤ stop ∧ ∀ e ∈ members,
      start ≤ e.2.1 ∧ ∃ n, e.2.2.size sizes = .ok n ∧ 0 ≤ n ∧ e.2.1 + n ≤ stop := by
  induction h with
  | nil stop => simp
  | @cons start alignment offset size stop name type members _ hoffset hsize _ ih =>
    have hstart : start ≤ offset := hoffset.1.2
    have hnonneg : 0 ≤ size := CType.size_nonneg hsizes hsize
    refine ⟨by omega, ?_⟩
    intro e he
    rcases List.mem_cons.1 he with rfl | he
    · exact ⟨hstart, size, hsize, hnonneg, ih.1⟩
    · obtain ⟨hle, hmore⟩ := ih.2 e he
      exact ⟨by omega, hmore⟩

/-- Every member ends in front of the ones behind it. -/
theorem inOrder (hsizes : ∀ e ∈ sizes, 0 ≤ e.2) (h : Packed sizes start members stop) :
    members.Pairwise fun e f => ∀ n, e.2.2.size sizes = .ok n → e.2.1 + n ≤ f.2.1 := by
  induction h with
  | nil stop => exact List.Pairwise.nil
  | cons _ _ hsize hrest ih =>
    refine List.pairwise_cons.2 ⟨?_, ih⟩
    intro f hf n hn
    obtain rfl := Except.ok.inj (hsize.symm.trans hn)
    exact ((hrest.within hsizes).2 f hf).1

theorem congr {sizes' : StructSizes} (h : Packed sizes start members stop)
    (hsame : ∀ e ∈ members, e.2.2.alignment sizes = e.2.2.alignment sizes' ∧
      e.2.2.size sizes = e.2.2.size sizes') : Packed sizes' start members stop := by
  induction h with
  | nil stop => exact .nil stop
  | cons halignment hoffset hsize _ ih =>
    obtain ⟨halign, hsize'⟩ := hsame _ List.mem_cons_self
    exact .cons (halign ▸ halignment) hoffset (hsize' ▸ hsize)
      (ih fun e he => hsame e (List.mem_cons_of_mem _ he))

end Members.Packed

/-- The alignments that members ask for; one is always allowed. -/
def Members.alignments (sizes : StructSizes) (members : Members) : Set Int :=
  {a | a = 1 ∨ ∃ e ∈ members, e.2.2.alignment sizes = .ok a}

/-- A layout as C asks for it, by a table of sizes: where the last member ends, and the largest
alignment. -/
structure Layout.Packed (sizes : StructSizes) (l : Layout) (stop widest : Int) : Prop where
  /-- The members are packed, beginning at the offset zero. -/
  members : Members.Packed sizes 0 l.members stop
  /-- The largest alignment of a member, at least one. -/
  largest : IsGreatest (Members.alignments sizes l.members) widest
  /-- The struct ends at the first multiple of it behind the members. -/
  size : IsLeast {n | widest ∣ n ∧ stop ≤ n} l.size
  /-- No member reaches into one that is declared later. -/
  inOrder : l.members.Pairwise fun e f => ∀ n, e.2.2.size sizes = .ok n → e.2.1 + n ≤ f.2.1
  /-- All members are in the struct. -/
  within : ∀ e ∈ l.members, 0 ≤ e.2.1 ∧ ∃ n, e.2.2.size sizes = .ok n ∧ 0 ≤ n ∧ e.2.1 + n ≤ l.size

namespace Layout

theorem Packed.congr {sizes sizes' : StructSizes} {l : Layout} {stop widest : Int}
    (h : l.Packed sizes stop widest)
    (hheld : ∀ e ∈ l.members, ∀ name, e.2.2.heldStruct? = some name →
      sizes.find? name = sizes'.find? name) : l.Packed sizes' stop widest := by
  have halign : ∀ e ∈ l.members, e.2.2.alignment sizes = e.2.2.alignment sizes' :=
    fun e he => CType.alignment_of_held (hheld e he)
  have hsize : ∀ e ∈ l.members, e.2.2.size sizes = e.2.2.size sizes' :=
    fun e he => CType.size_of_held (hheld e he)
  have halignments : Members.alignments sizes l.members = Members.alignments sizes' l.members := by
    ext a
    refine or_congr_right (exists_congr fun e => and_congr_right fun he => ?_)
    rw [halign e he]
  refine ⟨h.members.congr fun e he => ⟨halign e he, hsize e he⟩, halignments ▸ h.largest, h.size,
    ?_, ?_⟩
  · refine h.inOrder.imp_of_mem ?_
    intro e f he _ hbehind n hn
    exact hbehind n ((hsize e he).trans hn)
  · intro e he
    rw [← hsize e he]
    exact h.within e he

/-! ## Laying out -/

variable {spare : Nat} {macros : Macros} {sizes : StructSizes}

/-- A declared name and the member that it becomes, wherever it is put. -/
def Becomes (spare : Nat) (macros : Macros) (sizes : StructSizes) (declared : CType × Variable)
    (member : String × Int × CType) : Prop :=
  member.1 = declared.2.name ∧
    declared.2.fullType declared.1 (fun e => constantValue macros sizes e spare) = .ok member.2.2

/-- The largest alignment so far, after one more member. -/
theorem isGreatest_alignments_cons {before alignment widest offset : Int} {name : String}
    {type : CType} {members : Members} (halignment : type.alignment sizes = .ok alignment)
    (h : IsGreatest {a | a = max before alignment ∨ ∃ e ∈ members, e.2.2.alignment sizes = .ok a}
      widest) :
    IsGreatest {a | a = before ∨
      ∃ e ∈ (name, offset, type) :: members, e.2.2.alignment sizes = .ok a} widest := by
  have hmax : max before alignment ≤ widest := h.2 (Or.inl rfl)
  constructor
  · rcases h.1 with rfl | ⟨e, he, hwidest⟩
    · rcases max_choice before alignment with hchoice | hchoice
      · exact Or.inl hchoice
      · exact Or.inr ⟨_, List.mem_cons_self, by rw [hchoice, halignment]⟩
    · exact Or.inr ⟨e, List.mem_cons_of_mem _ he, hwidest⟩
  · rintro a (rfl | ⟨e, he, ha⟩)
    · omega
    · rcases List.mem_cons.1 he with rfl | he
      · obtain rfl := Except.ok.inj (halignment.symm.trans ha)
        omega
      · exact h.2 (Or.inr ⟨e, he, ha⟩)

/-- Placing declared names one after the other packs them behind the members placed before. -/
theorem fold_packed {declared : List (CType × Variable)} {p p' : Partial}
    (hnew : ∀ f ∈ declared, Table.find? p.members f.2.name = none)
    (hnames : (declared.map fun f => f.2.name).Nodup)
    (h : declared.foldlM
      (fun (p : Partial) (declared, v) => do
        let type ← v.fullType declared fun e => constantValue macros sizes e spare
        p.place sizes v.name type) p = .ok p') :
    ∃ members, p'.members = p.members ++ members ∧
      List.Forall₂ (Becomes spare macros sizes) declared members ∧
      Members.Packed sizes p.offset members p'.offset ∧
      IsGreatest {a | a = p.widest ∨ ∃ e ∈ members, e.2.2.alignment sizes = .ok a} p'.widest := by
  induction declared generalizing p with
  | nil =>
    obtain rfl := Except.ok.inj h
    refine ⟨[], (List.append_nil _).symm, .nil, .nil _, ?_⟩
    simp [isGreatest_singleton]
  | cons f declared ih =>
    rw [List.foldlM_cons] at h
    obtain ⟨p₁, h₁, h⟩ := bind_eq_ok.1 h
    obtain ⟨type, htype, hplace⟩ := bind_eq_ok.1 h₁
    obtain ⟨alignment, halignment, hplace⟩ := bind_eq_ok.1 hplace
    obtain ⟨size, hsize, hplace⟩ := bind_eq_ok.1 hplace
    obtain rfl := Except.ok.inj hplace
    obtain ⟨hname, hnames⟩ := List.nodup_cons.1 hnames
    -- a new name is put behind the others
    have hput : Table.put p.members f.2.name (alignUp p.offset alignment, type)
        = p.members ++ [(f.2.name, alignUp p.offset alignment, type)] :=
      Table.put_of_find?_eq_none _ (hnew f List.mem_cons_self)
    -- the names still to come differ from this one
    have hmore : ∀ g ∈ declared, Table.find?
        (Table.put p.members f.2.name (alignUp p.offset alignment, type)) g.2.name = none := by
      intro g hg
      have hne : (f.2.name == g.2.name) = false := by
        rw [beq_eq_false_iff_ne]
        intro heq
        exact hname (List.mem_map.2 ⟨g, hg, heq.symm⟩)
      rw [Table.find?_put_of_ne hne]
      exact hnew g (List.mem_cons_of_mem _ hg)
    obtain ⟨members, hmembers, hbecomes, hpacked, hwidest⟩ := ih hmore hnames h
    refine ⟨(f.2.name, alignUp p.offset alignment, type) :: members, ?_, ?_, ?_, ?_⟩
    · rw [hmembers]
      simp [hput]
    · exact .cons ⟨rfl, htype⟩ hbecomes
    · exact .cons halignment (isLeast_alignUp (one_le_alignment halignment)) hsize hpacked
    · exact isGreatest_alignments_cons halignment hwidest

/-- A struct whose members have different names is packed. -/
theorem ofStruct_packed (hsizes : ∀ e ∈ sizes, 0 ≤ e.2) {s : Struct} {l : Layout}
    (hnames : ((fields s).map fun f => f.2.name).Nodup)
    (h : ofStruct spare macros sizes s = .ok l) :
    List.Forall₂ (Becomes spare macros sizes) (fields s) l.members ∧
      ∃ stop widest, l.Packed sizes stop widest := by
  obtain ⟨p, hp, h⟩ := bind_eq_ok.1 h
  obtain rfl := Except.ok.inj h
  obtain ⟨members, hmembers, hbecomes, hpacked, hwidest⟩ :=
    fold_packed (fun f _ => rfl) hnames hp
  obtain rfl : p.members = members := hmembers
  have hpositive : (1 : Int) ≤ p.widest := hwidest.2 (Or.inl rfl)
  have hsize : IsLeast {n | p.widest ∣ n ∧ p.offset ≤ n} (alignUp p.offset p.widest) :=
    isLeast_alignUp hpositive
  refine ⟨hbecomes, p.offset, p.widest, hpacked, hwidest, hsize, hpacked.inOrder hsizes, ?_⟩
  intro e he
  obtain ⟨hstart, n, hn, hnonneg, hstop⟩ := (hpacked.within hsizes).2 e he
  exact ⟨hstart, n, hn, hnonneg, Int.le_trans hstop hsize.1.2⟩

end Layout

/-! ## Programs -/

/-- Structs of other names leave a layout alone. -/
theorem Layouts.find?_extend {spare : Nat} {macros : Macros} {known layouts : Layouts} {name : String}
    {structs : List Struct} (hother : ∀ s ∈ structs, s.typeName ≠ name)
    (h : known.extend spare macros structs = .ok layouts) :
    layouts.find? name = known.find? name := by
  induction structs generalizing known with
  | nil => rw [← Except.ok.inj h]
  | cons s structs ih =>
    obtain ⟨l, _, h⟩ := extend_cons_eq_ok.1 h
    rw [ih (fun t ht => hother t (List.mem_cons_of_mem _ ht)) h]
    exact Table.find?_put_of_ne (beq_eq_false_iff_ne.2 (hother s List.mem_cons_self))

/-- A struct is laid out with the sizes of the structs before it, and its layout is found under its
name unless a later struct takes the name. -/
theorem Program.laid_out {p : Program} {spare : Nat} {macros : Macros} {layouts : Layouts}
    (h : p.layouts spare macros = .ok layouts) {pre post : List Struct} {s : Struct}
    (hsplit : p.structs = pre ++ s :: post) :
    ∃ (known : Layouts) (l : Layout),
      Layouts.extend [] spare macros pre = .ok known ∧
      Layout.ofStruct spare macros known.sizes s = .ok l ∧
      known.extend spare macros (s :: post) = .ok layouts ∧
      ((∀ t ∈ post, t.typeName ≠ s.typeName) → layouts.find? s.typeName = some l) := by
  rw [Program.layouts_eq_extend, hsplit] at h
  obtain ⟨known, hknown, hlater⟩ := Layouts.extend_append_eq_ok.1 h
  obtain ⟨l, hl, h⟩ := Layouts.extend_cons_eq_ok.1 hlater
  refine ⟨known, l, hknown, hl, hlater, fun hlast => ?_⟩
  rw [Layouts.find?_extend hlast h]
  exact Table.find?_put_of_beq (beq_self_eq_true _)

/-- **Every struct whose members have different names is packed.** Its members are the declared names
in order, with the types that the sizes known before it give; it is found under its name unless a
later struct takes the name. -/
theorem structs_are_packed {p : Program} {spare : Nat} {macros : Macros} {layouts : Layouts}
    (h : p.layouts spare macros = .ok layouts) {pre post : List Struct} {s : Struct}
    (hsplit : p.structs = pre ++ s :: post)
    (hnames : ((Layout.fields s).map fun f => f.2.name).Nodup) :
    ∃ known l stop widest,
      Layouts.extend [] spare macros pre = .ok known ∧
      Layout.ofStruct spare macros known.sizes s = .ok l ∧
      ((∀ t ∈ post, t.typeName ≠ s.typeName) → layouts.find? s.typeName = some l) ∧
      List.Forall₂ (Layout.Becomes spare macros known.sizes) (Layout.fields s) l.members ∧
      l.Packed known.sizes stop widest ∧
      ((∀ e ∈ l.members, ∀ name, e.2.2.heldStruct? = some name →
          known.sizes.find? name = layouts.sizes.find? name) →
        l.Packed layouts.sizes stop widest) := by
  obtain ⟨known, l, hknown, hl, _, hfound⟩ := p.laid_out h hsplit
  have hsound : known.Sound := Layouts.Sound.extend (fun e he => by cases he) hknown
  obtain ⟨hbecomes, stop, widest, hpacked⟩ :=
    Layout.ofStruct_packed hsound.sizes_nonneg hnames hl
  exact ⟨known, l, stop, widest, hknown, hl, hfound, hbecomes, hpacked, hpacked.congr⟩

namespace ThreeChars

/-- A struct that is aligned to three bytes: it has three characters. -/
def triple : Struct :=
  ⟨1, "triple", [⟨1, ⟨"char"⟩, ["a", "b", "c"].map fun name => ⟨1, name, 0, .none, none⟩⟩]⟩

/-- Its layout. -/
def tripleLayout : Layout :=
  ⟨"struct triple", [("a", 0, ⟨"char"⟩), ("b", 1, ⟨"char"⟩), ("c", 2, ⟨"char"⟩)], 3⟩

/-- A struct with the other one between a character and a number. -/
def holder : Struct :=
  ⟨2, "holder", [⟨2, ⟨"char"⟩, [⟨2, "tag", 0, .none, none⟩]⟩,
    ⟨2, ⟨"struct triple"⟩, [⟨2, "middle", 0, .none, none⟩]⟩,
    ⟨2, .int, [⟨2, "n", 0, .none, none⟩]⟩]⟩

/-- A program with both structs. -/
def program : Program := ⟨[.struct triple, .struct holder]⟩

/-- The layout of the second struct. -/
def holderLayout : Layout :=
  ⟨"struct holder", [("tag", 0, ⟨"char"⟩), ("middle", 3, ⟨"struct triple"⟩), ("n", 8, .int)], 12⟩

/-- The layouts of both. -/
def layouts : Layouts :=
  [("struct triple", tripleLayout), ("struct holder", holderLayout)]

end ThreeChars

/-- The struct in the middle begins at the first multiple of three. -/
theorem holder_is_packed :
    ThreeChars.program.layouts 0 [] = .ok ThreeChars.layouts ∧
    ∃ stop widest, ThreeChars.holderLayout.Packed ThreeChars.layouts.sizes stop widest := by
  have hlayouts : ThreeChars.program.layouts 0 [] = .ok ThreeChars.layouts := by decide +kernel
  have hsplit : ThreeChars.program.structs = [ThreeChars.triple] ++ ThreeChars.holder :: [] := rfl
  obtain ⟨known, l, stop, widest, hknown, _, hfound, _, _, hpacked⟩ :=
    structs_are_packed hlayouts hsplit (by decide)
  obtain rfl : ThreeChars.holderLayout = l := Option.some.inj (hfound fun t ht => by cases ht)
  have hfirst : Layouts.extend [] 0 [] [ThreeChars.triple]
      = .ok [("struct triple", ThreeChars.tripleLayout)] := by decide +kernel
  obtain rfl := Except.ok.inj (hfirst.symm.trans hknown)
  refine ⟨hlayouts, stop, widest, hpacked ?_⟩
  -- only the member in the middle holds a struct
  have hheld : ∀ e ∈ ThreeChars.holderLayout.members,
      e.2.2.heldStruct? = none ∨ e.2.2.heldStruct? = some "struct triple" := by decide +kernel
  intro e he name hname
  rcases hheld e he with h | h
  · rw [h] at hname
    cases hname
  · obtain rfl := Option.some.inj (h.symm.trans hname)
    rfl

end Stepwise
