/-
The structs of a well-defined program.

A struct is laid out with the sizes of the structs before it. Where every struct is
defined once, the structs before it are exactly those in front of it in the list of
layouts; and where a struct holds by value only structs that are defined before it,
a type in it has the same size then as it has when the program runs. So the members
do not overlap by the sizes that objects are placed by, and every struct takes some
space.

A struct type is looked up in two ways: by its text for its members, and by the
words of its text for its size. The two find the same layout because a tag is a
single word.
-/
import Stepwise.Proofs.Layouts
import Mathlib.Data.List.Nodup

set_option autoImplicit false

namespace Stepwise

/-! ## Words -/

namespace Text

theorem wordsFrom_of_no_blank {current s : List Char} (hs : ∀ c ∈ s, isBlank c = false)
    (hne : current ≠ [] ∨ s ≠ []) : wordsFrom current s = [current.reverse ++ s] := by
  induction s generalizing current with
  | nil =>
    have hcurrent : current ≠ [] := by simpa using hne
    rw [wordsFrom, if_neg (by simpa using hcurrent), List.append_nil]
  | cons c s ih =>
    rw [wordsFrom, hs c List.mem_cons_self, if_neg (by decide),
      ih (fun d hd => hs d (List.mem_cons_of_mem _ hd)) (Or.inl (List.cons_ne_nil _ _)),
      List.reverse_cons, List.append_assoc, List.singleton_append]

end Text

/-- A tag that is a single word and says something: no blank is in it, and it is no qualifier. -/
structure Struct.Tagged (s : Struct) : Prop where
  nonempty : s.tag.toList ≠ []
  word : ∀ c ∈ s.tag.toList, Text.isBlank c = false
  telling : s.tag ∉ CType.qualifiers

namespace Struct.Tagged

variable {s : Struct}

/-- The words of the full name are `struct` and the tag. -/
theorem words_typeName (h : s.Tagged) :
    (Text.words s.typeName.toList).map String.ofList = ["struct", s.tag] := by
  have hsplit : Text.words ("struct ".toList ++ s.tag.toList)
      = "struct".toList :: Text.wordsFrom [] s.tag.toList := rfl
  rw [Struct.typeName, String.toList_append, hsplit,
    Text.wordsFrom_of_no_blank h.word (Or.inr h.nonempty)]
  simp

theorem filter_words (h : s.Tagged) :
    ["struct", s.tag].filter (fun w => !CType.qualifiers.contains w) = ["struct", s.tag] := by
  have hstruct : CType.qualifiers.contains "struct" = false := by decide
  have htag : CType.qualifiers.contains s.tag = false := by
    rw [List.contains_eq_mem, decide_eq_false_iff_not]
    exact h.telling
  simp only [List.filter_cons, hstruct, htag, List.filter_nil]
  rfl

theorem wordsSize_typeName (h : s.Tagged) (sizes : StructSizes) :
    CType.wordsSize sizes ["struct", s.tag] = (sizes.find? s.typeName).getD CType.pointerSize := by
  unfold CType.wordsSize
  rw [h.filter_words]
  rfl

theorem spelledStruct?_typeName (h : s.Tagged) :
    CType.spelledStruct? ["struct", s.tag] = some s.typeName := by
  unfold CType.spelledStruct?
  rw [h.filter_words]
  rfl

section Text

variable {t : CType} (hstruct : t.isStruct = true)
  (htext : Text.trim t.text.toList = s.typeName.toList)

include hstruct htext

/-- A type with the full name for its text has the size that is known for the name. -/
theorem size_of_text (h : s.Tagged) (sizes : StructSizes) :
    t.size sizes = .ok ((sizes.find? s.typeName).getD CType.pointerSize) := by
  rw [CType.isStruct, Bool.and_eq_true, Bool.and_eq_true, Bool.not_eq_true', Bool.not_eq_true']
    at hstruct
  obtain ⟨⟨_, hpointer⟩, harray⟩ := hstruct
  have hpointer' : CType.endsIn '*' t.text.toList = false := hpointer
  have harray' : CType.endsIn ']' t.text.toList = false := harray
  rw [CType.size, CType.sizeOfText_eq, hpointer', harray', if_neg (by decide),
    if_neg (by decide), htext, h.words_typeName, h.wordsSize_typeName]

/-- It holds the struct by value. -/
theorem heldStruct?_of_text (h : s.Tagged) : t.heldStruct? = some s.typeName := by
  rw [CType.isStruct, Bool.and_eq_true, Bool.and_eq_true, Bool.not_eq_true', Bool.not_eq_true']
    at hstruct
  obtain ⟨⟨_, hpointer⟩, harray⟩ := hstruct
  have hpointer' : CType.endsIn '*' t.text.toList = false := hpointer
  have harray' : CType.endsIn ']' t.text.toList = false := harray
  rw [CType.heldStruct?, CType.heldIn?, CType.endsIn_trim, CType.endsIn_trim, hpointer', harray',
    if_neg (by decide), if_neg (by decide), htext, h.words_typeName, h.spelledStruct?_typeName]

end Text

end Struct.Tagged

/-! ## One after the other -/

theorem Layouts.find?_sizes (layouts : Layouts) (name : String) :
    layouts.sizes.find? name = (layouts.find? name).map Layout.size := by
  induction layouts with
  | nil => rfl
  | cons e layouts ih =>
    rw [Table.find?_cons]
    show (if e.1 == name then some e.2.size else (Layouts.sizes layouts).find? name) = _
    rw [ih]
    split <;> rfl

/-- Where every struct is defined once, each is laid out with the sizes of those in front of it. -/
theorem layouts_split {p : Program} {spare : Nat} {macros : Macros} {layouts : Layouts}
    (h : p.layouts spare macros = .ok layouts) (honce : (p.structs.map Struct.typeName).Nodup)
    {pre post : Layouts} {e : String × Layout} (hsplit : layouts = pre ++ e :: post) :
    ∃ s ∈ p.structs, e.1 = s.typeName ∧ Layout.ofStruct spare macros pre.sizes s = .ok e.2 := by
  -- for any layouts known before: an entry is one of those, or it is that of a struct
  have hfold : ∀ (structs : List Struct) (known layouts : Layouts),
      (known.keys ++ structs.map Struct.typeName).Nodup →
      known.extend spare macros structs = .ok layouts →
      ∀ pre e post, layouts = pre ++ e :: post →
        (∃ rest, known = pre ++ e :: rest) ∨
        ∃ s ∈ structs, e.1 = s.typeName ∧
          Layout.ofStruct spare macros (Layouts.sizes pre) s = .ok e.2 := by
    intro structs
    induction structs with
    | nil =>
      intro known layouts _ h pre e post hsplit
      obtain rfl := Except.ok.inj h
      exact Or.inl ⟨post, hsplit⟩
    | cons s structs ih =>
      intro known layouts hnodup h pre e post hsplit
      obtain ⟨l, hl, h⟩ := Layouts.extend_cons_eq_ok.1 h
      have hnew : known.find? s.typeName = none := by
        rw [Table.find?_eq_none_iff]
        intro f hf
        rw [beq_eq_false_iff_ne]
        rintro heq
        have hkey : f.1 ∈ Table.keys known := Table.mem_keys.2 ⟨f.2, hf⟩
        rw [List.map_cons, List.nodup_append] at hnodup
        exact hnodup.2.2 _ hkey _ List.mem_cons_self heq
      rw [Table.put_of_find?_eq_none l hnew] at h
      have hkeys : (Table.keys (known ++ [(s.typeName, l)]) ++ structs.map Struct.typeName).Nodup := by
        have happend : Table.keys (known ++ [(s.typeName, l)]) = Table.keys known ++ [s.typeName] := by
          simp [Table.keys]
        rw [happend, List.append_assoc]
        exact hnodup
      rcases ih _ layouts hkeys h pre e post hsplit with ⟨rest, hrest⟩ | ⟨s', hs', hlaid⟩
      · rcases List.eq_nil_or_concat rest with rfl | ⟨front, last, rfl⟩
        · obtain ⟨rfl, hlast⟩ := List.append_inj' hrest rfl
          obtain rfl := List.singleton_inj.1 hlast
          exact Or.inr ⟨s, List.mem_cons_self, rfl, hl⟩
        · rw [List.concat_eq_append, ← List.cons_append, ← List.append_assoc] at hrest
          exact Or.inl ⟨front, (List.append_inj' hrest rfl).1⟩
      · exact Or.inr ⟨s', List.mem_cons_of_mem _ hs', hlaid⟩
  have hnodup : (Table.keys ([] : Layouts) ++ p.structs.map Struct.typeName).Nodup := honce
  rcases hfold p.structs [] layouts hnodup h pre e post hsplit with ⟨rest, hrest⟩ | hlaid
  · exact absurd hrest.symm (by simp)
  · exact hlaid

/-! ## Well-defined structs -/

/-- The structs of a program as they have to be: each is defined once and has members; a member
holds by value only structs defined before, and every array in it has elements. -/
structure Program.StructsDefined (p : Program) (layouts : Layouts) : Prop where
  once : (p.structs.map Struct.tag).Nodup
  nonempty : ∀ s ∈ p.structs, Layout.fields s ≠ []
  before : ∀ (pre post : Layouts) e, layouts = pre ++ e :: post → ∀ member ∈ e.2.members,
    ∀ name, member.2.2.heldStruct? = some name → name ∈ pre.keys
  filled : ∀ e ∈ layouts, ∀ member ∈ e.2.members, member.2.2.Filled

/-- Layouts that hold by the sizes they give themselves: no members overlap, all of them and all
structs take some space, and a struct type has the size of its layout. -/
structure Layouts.Settled (layouts : Layouts) : Prop where
  placed : ∀ e ∈ layouts, Members.Placed layouts.sizes e.2.size e.2.members
  filled : ∀ e ∈ layouts, ∀ member ∈ e.2.members, member.2.2.Filled
  pos : ∀ e ∈ layouts.sizes, 0 < e.2
  spelled : ∀ (type : CType) l, type.isStruct = true →
    layouts.find? (String.ofList (Text.trim type.text.toList)) = some l →
    type.size layouts.sizes = .ok l.size

theorem Members.Placed.congr {sizes sizes' : StructSizes} {stop : Int} {members : Members}
    (h : Members.Placed sizes stop members)
    (hsame : ∀ e ∈ members, e.2.2.size sizes = e.2.2.size sizes') :
    Members.Placed sizes' stop members where
  within e he := by
    rw [← hsame e he]
    exact h.within e he
  beside := by
    refine List.Pairwise.imp_of_mem ?_ h.beside
    intro e f he hf hbeside n k hn hk
    rw [← hsame e he] at hn
    rw [← hsame f hf] at hk
    exact hbeside n k hn hk

/-- A struct with a member that takes some space takes some space. -/
theorem Members.Placed.pos {sizes : StructSizes} (hsizes : ∀ e ∈ sizes, 0 < e.2) {stop : Int}
    {members : Members} (h : Members.Placed sizes stop members) (hne : members ≠ [])
    (hfilled : ∀ e ∈ members, e.2.2.Filled) : 0 < stop := by
  obtain ⟨e, he⟩ := List.exists_mem_of_ne_nil members hne
  obtain ⟨hstart, n, hn, hend⟩ := h.within e he
  have hpos : 0 < n := (hfilled e he).size_pos hsizes hn
  omega

theorem Layout.ofStruct_members_ne_nil {spare : Nat} {macros : Macros} {sizes : StructSizes}
    (hsizes : ∀ e ∈ sizes, 0 ≤ e.2) {s : Struct} {l : Layout} (hne : fields s ≠ [])
    (h : ofStruct spare macros sizes s = .ok l) : l.members ≠ [] := by
  obtain ⟨p, hp, h⟩ := bind_eq_ok.1 h
  obtain rfl := Except.ok.inj h
  exact (fold_sound hsizes (Partial.sound_empty sizes) hp).2 hne

namespace Program.StructsDefined

variable {p : Program} {spare : Nat} {macros : Macros} {layouts : Layouts}

theorem typeNames_nodup (hdefined : p.StructsDefined layouts) :
    (p.structs.map Struct.typeName).Nodup := by
  have hnames : p.structs.map Struct.typeName
      = (p.structs.map Struct.tag).map fun tag => "struct " ++ tag := by
    rw [List.map_map]
    rfl
  rw [hnames]
  refine List.Nodup.map ?_ hdefined.once
  intro a b hab
  have hlist := congrArg String.toList hab
  rw [String.toList_append, String.toList_append] at hlist
  exact String.toList_injective (List.append_cancel_left hlist)

/-- The members of a struct have the sizes they had when it was laid out. -/
theorem placed (hdefined : p.StructsDefined layouts) (h : p.layouts spare macros = .ok layouts)
    {pre post : Layouts} {e : String × Layout} (hsplit : layouts = pre ++ e :: post)
    (hpos : ∀ f ∈ pre.sizes, 0 < f.2) :
    e.2.members ≠ [] ∧ Members.Placed pre.sizes e.2.size e.2.members ∧
      Members.Placed layouts.sizes e.2.size e.2.members := by
  have hnonneg : ∀ f ∈ pre.sizes, 0 ≤ f.2 := fun f hf => Int.le_of_lt (hpos f hf)
  obtain ⟨s, hs, _, hlaid⟩ := layouts_split h hdefined.typeNames_nodup hsplit
  have hsound := Layout.ofStruct_sound hnonneg hlaid
  refine ⟨Layout.ofStruct_members_ne_nil hnonneg (hdefined.nonempty s hs) hlaid, hsound.placed,
    hsound.placed.congr ?_⟩
  intro member hmember
  refine CType.size_of_held ?_
  intro name hname
  obtain ⟨l, hl⟩ := Table.mem_keys.1 (hdefined.before pre post e hsplit member hmember name hname)
  have hfound : pre.find? name ≠ none := by
    rw [Ne, Table.find?_eq_none_iff]
    intro hnone
    have hself := hnone _ hl
    simp at hself
  rw [Layouts.find?_sizes, Layouts.find?_sizes, hsplit, Table.find?_append]
  cases hl' : pre.find? name with
  | none => exact absurd hl' hfound
  | some l' => rfl

/-- Every struct takes some space. -/
theorem sizes_pos (hdefined : p.StructsDefined layouts) (h : p.layouts spare macros = .ok layouts)
    {pre post : Layouts} (hsplit : layouts = pre ++ post) : ∀ e ∈ pre.sizes, 0 < e.2 := by
  induction pre using List.reverseRecOn generalizing post with
  | nil =>
    intro e he
    cases he
  | append_singleton pre e ih =>
    rw [List.append_assoc, List.singleton_append] at hsplit
    have hpre := ih hsplit
    obtain ⟨hne, hplaced, _⟩ := hdefined.placed h hsplit hpre
    have he : e ∈ layouts := by
      rw [hsplit]
      exact List.mem_append_right _ List.mem_cons_self
    intro f hf
    obtain ⟨g, hg, rfl⟩ := List.mem_map.1 hf
    rcases List.mem_append.1 hg with hg | hg
    · exact hpre _ (List.mem_map_of_mem hg)
    · obtain rfl := List.mem_singleton.1 hg
      exact hplaced.pos hpre hne (hdefined.filled _ he)

/-- **The layouts of a well-defined program hold by the sizes they give.** -/
theorem settled (hdefined : p.StructsDefined layouts) (htags : ∀ s ∈ p.structs, s.Tagged)
    (h : p.layouts spare macros = .ok layouts) : layouts.Settled where
  placed e he := by
    obtain ⟨pre, post, hsplit⟩ := List.append_of_mem he
    exact (hdefined.placed h hsplit (hdefined.sizes_pos h hsplit)).2.2
  filled := hdefined.filled
  pos := hdefined.sizes_pos h (List.append_nil layouts).symm
  spelled type l hstruct hl := by
    obtain ⟨key, hkey, heq⟩ := Table.mem_of_find? hl
    obtain ⟨pre, post, hsplit⟩ := List.append_of_mem hkey
    obtain ⟨s, hs, hname, _⟩ := layouts_split h hdefined.typeNames_nodup hsplit
    have htrim : s.typeName = String.ofList (Text.trim type.text.toList) :=
      hname.symm.trans (eq_of_beq heq)
    have htext : Text.trim type.text.toList = s.typeName.toList := by
      rw [htrim, String.toList_ofList]
    rw [(htags s hs).size_of_text hstruct htext, Layouts.find?_sizes, htrim, hl]
    rfl

/-- Members that are plain integers leave nothing to be said of their order. -/
theorem of_ints (honce : (p.structs.map Struct.tag).Nodup)
    (hnonempty : ∀ s ∈ p.structs, Layout.fields s ≠ [])
    (hints : ∀ e ∈ layouts, ∀ member ∈ e.2.members, member.2.2 = .int) :
    p.StructsDefined layouts where
  once := honce
  nonempty := hnonempty
  before pre post e hsplit member hmember name hname := by
    have he : e ∈ layouts := by
      rw [hsplit]
      exact List.mem_append_right _ List.mem_cons_self
    have hnone : CType.heldStruct? .int = none := by decide +kernel
    rw [hints e he member hmember, hnone] at hname
    cases hname
  filled e he member hmember := by
    rw [hints e he member hmember]
    exact .single (by decide)

end Program.StructsDefined

end Stepwise
