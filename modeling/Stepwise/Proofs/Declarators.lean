/-
Declared types, read back.

A type is declared with words, a star for each level of indirection, and a count in brackets if it
is an array, and all of it is written into one text. What the type is, what it is made of and how
much space it takes is read off that text again, from its end: a bracket is taken off, then a star,
and in the end there are words. So it matters that no word ends like a star or a bracket and that
none has a blank in it. The words of a type are keywords, names from the headers, and tags; a tag is
a name that follows a keyword, and such a name is a run of word characters.

Qualifiers are words, too. They are passed over where words are looked at, and a pointer or an array
takes the space it takes whatever it is made of.
-/
import Stepwise.Proofs.Access
import Stepwise.Proofs.Counts
import Stepwise.Proofs.Derivation

set_option autoImplicit false

namespace Stepwise

/-! ## Words of a text -/

namespace Text

theorem wordsFrom_append_space {current w : List Char} (hw : ∀ c ∈ w, isBlank c = false)
    (hne : current ≠ [] ∨ w ≠ []) (rest : List Char) :
    wordsFrom current (w ++ ' ' :: rest) = (current.reverse ++ w) :: words rest := by
  induction w generalizing current with
  | nil =>
    have hcurrent : current ≠ [] := by simpa using hne
    rw [List.nil_append, List.append_nil, wordsFrom, if_pos (by decide),
      if_neg (by simpa using hcurrent), words]
  | cons c w ih =>
    rw [List.forall_mem_cons] at hw
    rw [List.cons_append, wordsFrom, hw.1, if_neg (by decide),
      ih hw.2 (Or.inl (List.cons_ne_nil _ _)), List.reverse_cons, List.append_assoc,
      List.singleton_append]

/-- Words that are joined by spaces are the words of the text. -/
theorem words_intercalate {ws : List (List Char)}
    (h : ∀ w ∈ ws, w ≠ [] ∧ ∀ c ∈ w, isBlank c = false) : words ([' '].intercalate ws) = ws := by
  induction ws with
  | nil => rfl
  | cons w ws ih =>
    rw [List.forall_mem_cons] at h
    obtain ⟨⟨hne, hw⟩, hws⟩ := h
    cases ws with
    | nil =>
      rw [List.intercalate_singleton, words, wordsFrom_of_no_blank hw (Or.inr hne)]
      rfl
    | cons next ws =>
      rw [List.intercalate_cons_cons, List.append_assoc, List.singleton_append, words,
        wordsFrom_append_space hw (Or.inr hne), ih hws]
      rfl

/-- Words that are joined by spaces begin and end with characters of theirs. -/
theorem intercalate_ends {ws : List (List Char)} (h : ∀ w ∈ ws, w ≠ []) (hne : ws ≠ []) :
    ∃ c rest d, [' '].intercalate ws = c :: rest ∧ (c :: rest).getLast? = some d ∧
      (∃ w ∈ ws, c ∈ w) ∧ ∃ w ∈ ws, d ∈ w := by
  induction ws with
  | nil => exact absurd rfl hne
  | cons w ws ih =>
    rw [List.forall_mem_cons] at h
    obtain ⟨c, w, rfl⟩ := List.exists_cons_of_ne_nil h.1
    cases ws with
    | nil =>
      refine ⟨c, w, (c :: w).getLast (List.cons_ne_nil _ _), List.intercalate_singleton,
        List.getLast?_eq_some_getLast _, ⟨_, List.mem_cons_self, List.mem_cons_self⟩,
        ⟨_, List.mem_cons_self, List.getLast_mem _⟩⟩
    | cons next ws =>
      obtain ⟨c', rest, d, hjoined, hlast, _, ⟨v, hv, hd⟩⟩ := ih h.2 (List.cons_ne_nil _ _)
      refine ⟨c, w ++ (' ' :: c' :: rest), d, ?_, ?_, ⟨_, List.mem_cons_self, List.mem_cons_self⟩,
        ⟨v, List.mem_cons_of_mem _ hv, hd⟩⟩
      · rw [List.intercalate_cons_cons, hjoined, List.append_assoc, List.singleton_append,
          List.cons_append]
      · rw [← List.cons_append, List.getLast?_append, List.getLast?_cons_cons, hlast,
          Option.some_or]

end Text

namespace CType

variable {t : CType} {words : List String}

/-- The text of the type is these words, joined by spaces. -/
structure Worded (t : CType) (words : List String) : Prop where
  text : t.text = " ".intercalate words
  nonempty : ∀ w ∈ words, w.toList ≠ []
  chars : ∀ w ∈ words, ∀ c ∈ w.toList, Text.isWordChar c = true

namespace Worded

theorem toList_text (h : t.Worded words) :
    t.text.toList = [' '].intercalate (words.map String.toList) := by
  rw [h.text, String.toList_intercalate]
  rfl

theorem words_text (h : t.Worded words) :
    (Text.words t.text.toList).map String.ofList = words := by
  have hwords : ∀ w ∈ words.map String.toList, w ≠ [] ∧ ∀ c ∈ w, Text.isBlank c = false := by
    rw [List.forall_mem_map]
    exact fun w hw => ⟨h.nonempty w hw, fun c hc => Text.isBlank_of_isWordChar (h.chars w hw c hc)⟩
  rw [h.toList_text, Text.words_intercalate hwords, List.map_map]
  simp

/-- The text begins and ends with word characters. -/
theorem ends (h : t.Worded words) (hne : words ≠ []) :
    ∃ c rest d, t.text.toList = c :: rest ∧ (c :: rest).getLast? = some d ∧
      Text.isWordChar c = true ∧ Text.isWordChar d = true := by
  have hnonempty : ∀ w ∈ words.map String.toList, w ≠ [] := List.forall_mem_map.2 h.nonempty
  have hchars : ∀ w ∈ words.map String.toList, ∀ c ∈ w, Text.isWordChar c = true :=
    List.forall_mem_map.2 h.chars
  obtain ⟨c, rest, d, htext, hlast, ⟨v, hv, hc⟩, ⟨w, hw, hd⟩⟩ :=
    Text.intercalate_ends hnonempty (by simpa using hne)
  exact ⟨c, rest, d, h.toList_text.trans htext, hlast, hchars v hv c hc, hchars w hw d hd⟩

theorem trim_text (h : t.Worded words) : Text.trim t.text.toList = t.text.toList := by
  by_cases hne : words = []
  · rw [h.toList_text, hne]
    rfl
  · obtain ⟨c, rest, d, htext, hlast, hc, hd⟩ := h.ends hne
    rw [htext]
    show Text.trim ([] ++ c :: rest) = Text.trimLeft [] ++ c :: rest
    exact Text.trim_append_cons (Text.isBlank_of_isWordChar hc) hlast
      (Text.isBlank_of_isWordChar hd)

theorem trimRight_text (h : t.Worded words) : Text.trimRight t.text.toList = t.text.toList := by
  have htrim : Text.trimRight (Text.trim t.text.toList) = Text.trim t.text.toList :=
    Text.trimRight_trimRight _
  rwa [h.trim_text] at htrim

/-- The text has no mark at its end. -/
theorem endsIn_eq_false (h : t.Worded words) {mark : Char} (hmark : Text.isWordChar mark = false) :
    endsIn mark t.text.toList = false := by
  rw [endsIn, h.trimRight_text]
  by_cases hne : words = []
  · rw [h.toList_text, hne]
    rfl
  · obtain ⟨c, rest, d, htext, hlast, _, hd⟩ := h.ends hne
    rw [htext, hlast]
    refine beq_eq_false_iff_ne.2 fun heq => ?_
    rw [Option.some.inj heq, hmark] at hd
    cases hd

/-- The words decide how much space the type takes. -/
theorem size_eq (h : t.Worded words) (sizes : StructSizes) :
    t.size sizes = .ok (wordsSize sizes words) := by
  rw [size, sizeOfText_eq, h.endsIn_eq_false (by decide), h.endsIn_eq_false (by decide),
    if_neg (by decide), if_neg (by decide), h.trim_text, h.words_text]

end Worded

/-! ## Stars and counts -/

theorem withStars_succ (t : CType) (n : Nat) : t.withStars (n + 1) = (t.withStars n).pointer := by
  refine congrArg CType.mk (String.toList_injective ?_)
  simp [withStars, Grammar.starred, List.replicate_succ']

/-- A pointer takes the same space whatever its target is. -/
theorem size_of_isPointer (sizes : StructSizes) (h : t.isPointer = true) :
    t.size sizes = .ok pointerSize := by
  have hmark : endsIn '*' t.text.toList = true := h
  rw [size, sizeOfText_eq, if_pos hmark]

theorem isPointer_arrayOf (t : CType) (count : String) :
    (t.arrayOf count).isPointer = false := by
  rw [isPointer, endsIn, toList_arrayOf, ← List.cons_append, ← List.append_assoc,
    Text.trimRight_of_getLast? List.getLast?_concat (by decide), List.getLast?_concat]
  rfl

/-- The declared type: stars for each level of indirection, and for an array its count. -/
def declared (t : CType) (stars : Nat) : Option Nat → CType
  | none => t.withStars stars
  | some n => (t.withStars stars).arrayOf (Numeral.decimal n)

/-- The type without the words that say nothing about its size. -/
def unqualified (t : CType) : CType :=
  ⟨" ".intercalate
    (((Text.words t.text.toList).map String.ofList).filter fun w => !qualifiers.contains w)⟩

namespace Worded

theorem isArray_withStars (h : t.Worded words) (n : Nat) : (t.withStars n).isArray = false := by
  cases n with
  | zero =>
    rw [withStars_zero]
    exact h.endsIn_eq_false (by decide)
  | succ n =>
    rw [withStars_succ]
    exact isArray_pointer _

theorem isPointer_withStars (h : t.Worded words) (n : Nat) :
    (t.withStars n).isPointer = decide (0 < n) := by
  cases n with
  | zero =>
    rw [withStars_zero]
    exact h.endsIn_eq_false (by decide)
  | succ n =>
    rw [withStars_succ]
    exact isPointer_pointer _

theorem trimRight_withStars (h : t.Worded words) (n : Nat) :
    Text.trimRight (t.withStars n).text.toList = (t.withStars n).text.toList := by
  cases n with
  | zero =>
    rw [withStars_zero]
    exact h.trimRight_text
  | succ n => rw [withStars_succ, trimRight_pointer, toList_pointer]

theorem element_withStars_succ (h : t.Worded words) (n : Nat) :
    (t.withStars (n + 1)).element = .ok (t.withStars n) := by
  rw [withStars_succ, pointer_element, h.trimRight_withStars, String.ofList_toList]

theorem element_declared_array (h : t.Worded words) (stars n : Nat) :
    (t.declared stars (some n)).element = .ok (t.withStars stars) := by
  rw [declared, element_arrayOf, h.trimRight_withStars, String.ofList_toList]

theorem unqualified (h : t.Worded words) :
    t.unqualified.Worded (words.filter fun w => !qualifiers.contains w) where
  text := by rw [CType.unqualified, h.words_text]
  nonempty w hw := h.nonempty w (List.mem_of_mem_filter hw)
  chars w hw := h.chars w (List.mem_of_mem_filter hw)

/-- Without qualifiers the type takes the same space. -/
theorem size_unqualified (h : t.Worded words) (sizes : StructSizes) :
    t.unqualified.size sizes = t.size sizes := by
  rw [h.unqualified.size_eq, h.size_eq]
  -- qualifiers are left out of the words before the size is looked up, so leaving them out twice
  -- makes no difference
  unfold wordsSize
  simp only [List.filter_filter, Bool.and_self]

theorem size_unqualified_declared (h : t.Worded words) (sizes : StructSizes) (stars : Nat)
    (count : Option Nat) :
    (t.unqualified.declared stars count).size sizes = (t.declared stars count).size sizes := by
  have hstars : (t.unqualified.withStars stars).size sizes = (t.withStars stars).size sizes := by
    -- behind a star the words do not matter at all
    cases stars with
    | zero =>
      rw [withStars_zero, withStars_zero]
      exact h.size_unqualified sizes
    | succ n =>
      rw [withStars_succ, withStars_succ, size_of_isPointer sizes (isPointer_pointer _),
        size_of_isPointer sizes (isPointer_pointer _)]
  cases count with
  | none => exact hstars
  | some n => rw [declared, declared, size_arrayOf, size_arrayOf, hstars]

end Worded

end CType

/-! ## Types that are read -/

namespace Grammar

/-- Words of a type that stand in a source text are runs of word characters. -/
theorem TypeWords.isWordChar {source : String} {pre used rest : List Token} {words : List String}
    (h : TypeWords used words) (hsource : tokenize source = pre ++ (used ++ rest)) :
    ∀ w ∈ words, w.toList ≠ [] ∧ ∀ c ∈ w.toList, Text.isWordChar c = true := by
  have hfixed : ∀ w ∈ typeKeywords ++ tagKeywords ++ typedefNames,
      w.toList ≠ [] ∧ ∀ c ∈ w.toList, Text.isWordChar c = true := by
    simp only [← List.all_eq_true]
    decide
  -- `pre` grows: a tag is known to be a word only from the keyword right in front of it
  induction h generalizing pre with
  | nil => exact fun w hw => by cases hw
  | @keyword t s words _ hword _ ih =>
    rw [List.cons_append, ← List.singleton_append, ← List.append_assoc] at hsource
    exact List.forall_mem_cons.2 ⟨hfixed _ (by simp [hword]), ih hsource⟩
  | @tag t tag s words hkind hword htag _ ih =>
    have hname : tag.IsName := Token.name_after_keyword hsource hkind htag
    have hrest : tokenize source = (pre ++ [t, tag]) ++ (s ++ rest) := by
      rw [hsource, List.append_assoc]
      rfl
    exact List.forall_mem_cons.2 ⟨hfixed _ (by simp [hword]),
      List.forall_mem_cons.2 ⟨⟨hname.nonempty, hname.word⟩, ih hrest⟩⟩
  | header _ hword => exact List.forall_mem_singleton.2 (hfixed _ (by simp [hword]))

/-- A type that is read in a source text is words. -/
theorem exists_worded {source : String} {pre s : List Token} {r : Reading false s CType}
    (hsource : tokenize source = pre ++ s) (hread : typeName s = .ok r) :
    ∃ words, r.value.Worded words := by
  obtain ⟨used, words, hs, _, hwords, htype⟩ := typeName_spans s r hread
  have hchars := hwords.isWordChar (hs ▸ hsource)
  exact ⟨words, congrArg CType.text htype, fun w hw => (hchars w hw).1, fun w hw => (hchars w hw).2⟩

end Grammar

/-! ## Types that are built -/

namespace Variable

variable {v : Variable} {base t : CType} {evaluate : Expr → Except Fault Value}

/-- What is declared is no array, or it is one with a count: the initializer implies it, or the size
in the brackets is evaluated to it. -/
inductive HasCount (v : Variable) (evaluate : Expr → Except Fault Value) : Option Nat → Prop where
  | single (h : v.brackets = .none) : HasCount v evaluate none
  | implied {n : Nat} (hbrackets : v.brackets = .unsized)
      (h : Init.impliedCount? v.init = some n) : HasCount v evaluate (some n)
  | sized {size : Expr} {n : Nat} (hbrackets : v.brackets = .sized size)
      (h : evaluate size = .ok (.int n)) : HasCount v evaluate (some n)

theorem HasCount.fullType_eq {count : Option Nat} (h : v.HasCount evaluate count) :
    v.fullType base evaluate = .ok (base.declared v.stars count) := by
  unfold Variable.fullType
  cases h with
  | single h =>
    rw [h]
    rfl
  | implied hbrackets h =>
    rw [hbrackets, h]
    rfl
  | sized hbrackets h =>
    rw [hbrackets]
    dsimp only
    rw [h]
    rfl

theorem fullType_cases (h : v.fullType base evaluate = .ok t) :
    (v.brackets.isArray = false ∧ t = base.withStars v.stars) ∨
    (v.brackets.isArray = true ∧ ∃ count, t = (base.withStars v.stars).arrayOf count) := by
  unfold Variable.fullType at h
  dsimp only at h
  split at h
  · next hbrackets =>
    rw [hbrackets]
    exact Or.inl ⟨rfl, (Except.ok.inj h).symm⟩
  · next hbrackets =>
    rw [hbrackets]
    exact Or.inr ⟨rfl, _, (Except.ok.inj h).symm⟩
  · next hbrackets =>
    obtain ⟨count, _, h⟩ := bind_eq_ok.1 h
    rw [hbrackets]
    exact Or.inr ⟨rfl, _, (Except.ok.inj h).symm⟩

/-- Where a size is evaluated in some state, the type is built from what it comes to there. -/
theorem map_fst_fullType {σ : Type} (v : Variable) (base : CType)
    (evaluate : Expr → Eval σ Value) (x : σ) :
    (v.fullType base evaluate x).map Prod.fst
      = v.fullType base fun e => (evaluate e x).map Prod.fst := by
  unfold Variable.fullType
  cases v.brackets with
  | none => rfl
  | unsized => rfl
  | sized size =>
    show (Except.bind (evaluate size x) _).map Prod.fst = Except.bind ((evaluate size x).map _) _
    cases evaluate size x <;> rfl

end Variable

/-- **What was declared is read off the text of its type.** The type of a declarator is built from
the words in front of it, as they are read in a source text. It is seen to be an array exactly if
there are brackets, and a pointer exactly if there are stars and no brackets, whatever the size in the
brackets comes to. If that is a count, or the initializer implies one, a type is built: its elements
are of the words' type with the stars, there are as many as the count says, and all of them take as
much space as that many of one. Taking one star off leaves the others, any pointer takes eight bytes,
and without the qualifiers among the words everything takes the same space. Where a machine evaluates
the size, the same type is built. -/
theorem declared_types_are_read_back {source : String} {pre s : List Token}
    {r : Grammar.Reading false s CType} (hsource : tokenize source = pre ++ s)
    (hread : Grammar.typeName s = .ok r) (sizes : StructSizes) :
    (∀ (v : Variable) (evaluate : Expr → Except Fault Value) (t : CType),
      v.fullType r.value evaluate = .ok t →
        (t.isArray = true ↔ v.brackets.isArray = true) ∧
        (t.isPointer = true ↔ v.brackets.isArray = false ∧ 0 < v.stars)) ∧
    (∀ (v : Variable) (evaluate : Expr → Except Fault Value) (count : Option Nat),
      v.HasCount evaluate count →
        v.fullType r.value evaluate = .ok (r.value.declared v.stars count)) ∧
    (∀ {σ : Type} (v : Variable) (evaluate : Expr → Eval σ Value) (x : σ),
      (v.fullType r.value evaluate x).map Prod.fst
        = v.fullType r.value fun e => (evaluate e x).map Prod.fst) ∧
    (∀ stars n : Nat,
      (r.value.declared stars (some n)).element = .ok (r.value.withStars stars) ∧
      (r.value.declared stars (some n)).length = .ok (n : Int) ∧
      ∃ size, (r.value.withStars stars).size sizes = .ok size ∧
        (r.value.declared stars (some n)).size sizes = .ok (n * size)) ∧
    (∀ stars, (r.value.withStars (stars + 1)).element = .ok (r.value.withStars stars)) ∧
    (∀ t : CType, t.isPointer = true → t.size sizes = .ok 8) ∧
    ∀ stars count, (r.value.unqualified.declared stars count).size sizes
      = (r.value.declared stars count).size sizes := by
  obtain ⟨words, hwords⟩ := Grammar.exists_worded hsource hread
  refine ⟨fun v evaluate t ht => ?_, fun v evaluate count hcount => hcount.fullType_eq,
    fun v evaluate x => v.map_fst_fullType _ evaluate x, fun stars n => ?_,
    hwords.element_withStars_succ, fun t => CType.size_of_isPointer sizes,
    hwords.size_unqualified_declared sizes⟩
  · -- without brackets the type has only the stars; with them it is an array
    rcases Variable.fullType_cases ht with ⟨hbrackets, rfl⟩ | ⟨hbrackets, count, rfl⟩
    · rw [hwords.isArray_withStars, hwords.isPointer_withStars, hbrackets]
      simp
    · rw [CType.isArray_arrayOf, CType.isPointer_arrayOf, hbrackets]
      simp
  · obtain ⟨size, hsize⟩ :=
      CType.exists_size_of_not_isArray sizes (hwords.isArray_withStars stars)
    refine ⟨hwords.element_declared_array stars n, CType.length_arrayOf _ n, size, hsize, ?_⟩
    rw [CType.declared, CType.size_arrayOf, hsize, Int.mul_comm]
    rfl

namespace PointPath

/-- An array of pointers to constant points. -/
def source : String :=
  "const struct Point *path[4];"

/-- Its tokens. -/
def tokens : List Token :=
  [⟨.keyword, "const", 1, 1⟩, ⟨.keyword, "struct", 1, 7⟩, ⟨.identifier, "Point", 1, 14⟩,
    ⟨.operator, "*", 1, 20⟩, ⟨.identifier, "path", 1, 21⟩, ⟨.punctuation, "[", 1, 25⟩,
    ⟨.literal, "4", 1, 26⟩, ⟨.punctuation, "]", 1, 27⟩, ⟨.punctuation, ";", 1, 28⟩]

/-- The variable that they declare. -/
def path : Variable :=
  ⟨1, "path", 1, .sized (.literal 1 "4"), none⟩

/-- A point takes as much space as two numbers. -/
def sizes : StructSizes :=
  [("struct Point", 8)]

theorem tokenize_source : tokenize source = tokens :=
  Token.tokenize_of_chars rfl (by decide +kernel) (by decide)

theorem exists_read :
    ∃ r, Grammar.typeName tokens = .ok r ∧ r.value = ⟨"const struct Point"⟩ :=
  ⟨_, rfl, rfl⟩

theorem hasCount : path.HasCount (fun e => constantValue [] sizes e 1) (some 4) :=
  .sized rfl rfl

end PointPath

/-- The path is an array of four pointers, and a constant point takes the space of a point. -/
theorem path_of_points_is_read_back :
    tokenize PointPath.source = [] ++ PointPath.tokens ∧
    ∃ r, Grammar.typeName PointPath.tokens = .ok r ∧ r.value = ⟨"const struct Point"⟩ ∧
      ∃ t, PointPath.path.fullType r.value (fun e => constantValue [] PointPath.sizes e 1) = .ok t ∧
        t.text = "const struct Point*[4]" ∧ t.isArray = true ∧ t.isPointer = false ∧
        t.element = .ok ⟨"const struct Point*"⟩ ∧ t.length = .ok 4 ∧
        t.size PointPath.sizes = .ok 32 ∧
        r.value.size PointPath.sizes = CType.size PointPath.sizes ⟨"struct Point"⟩ := by
  obtain ⟨r, hread, hvalue⟩ := PointPath.exists_read
  have hsource : tokenize PointPath.source = [] ++ PointPath.tokens := PointPath.tokenize_source
  obtain ⟨hkind, hbuilt, _, hdecoded, _, hpointer, hqualifiers⟩ :=
    declared_types_are_read_back hsource hread PointPath.sizes
  have ht := hbuilt _ _ _ PointPath.hasCount
  obtain ⟨harray, hnot⟩ := hkind _ _ _ ht
  obtain ⟨helement, hlength, size, hsize, htotal⟩ := hdecoded 1 4
  have hone : (r.value.withStars 1).size PointPath.sizes = .ok 8 := by
    refine hpointer _ ?_
    rw [CType.withStars_succ]
    exact CType.isPointer_pointer _
  obtain rfl : size = 8 := Except.ok.inj (hsize.symm.trans hone)
  have hunqualified := hqualifiers 0 none
  refine ⟨hsource, r, hread, hvalue, _, ht, ?_, harray.2 rfl, ?_, ?_, hlength, htotal, ?_⟩
  · rw [hvalue]
    decide
  · exact Bool.eq_false_iff.2 fun h => by cases (hnot.1 h).1
  · rw [hvalue] at helement ⊢
    exact helement
  · rw [CType.declared, CType.declared, CType.withStars_zero, CType.withStars_zero, hvalue]
      at hunqualified
    rw [hvalue, ← hunqualified]
    congr 1

end Stepwise
