/-
Nestings that come to an end.

A chain of expansions that repeats no macro has at most as many links as there are
macros, and an object that repeats no struct inside itself is nested at most as deep
as the types of all members are long. Where macros do not refer to themselves and
structs do not contain themselves, not even through others, nothing is repeated. So
the bounds on nestings are never met, and how far they lie above what is needed
cannot be observed.

In both cases what has been entered so far is kept as a list without repetitions.
Every macro that can be used next is reached from each of them, every struct that
can be found next is contained in each of them, and so it is a new one.
-/
import Stepwise.Proofs.Agreement
import Stepwise.Proofs.Words
import Mathlib.Data.List.Perm.Subperm
import Mathlib.Logic.Relation

set_option autoImplicit false

namespace Stepwise

/-- A relation along which a rank goes down leads nowhere back. -/
theorem not_transGen_of_rank {α : Type} {r : α → α → Prop} (rank : α → Nat)
    (h : ∀ a b, r a b → rank b < rank a) (a : α) : ¬Relation.TransGen r a a := by
  have hpath : ∀ b, Relation.TransGen r a b → rank b < rank a := by
    intro b hb
    induction hb with
    | single hab => exact h _ _ hab
    | tail _ hbc ih => exact Nat.lt_trans (h _ _ hbc) ih
  exact fun ha => Nat.lt_irrefl _ (hpath a ha)

/-! ## Macros -/

/-- No macro refers to itself, be it through other macros. -/
def Macros.Acyclic (macros : Macros) : Prop :=
  ∀ name, ¬Relation.TransGen macros.Refers name name

/-- The names that a macro's body uses are those of macros it refers to, as far as they are names of
macros at all. -/
def Macros.Named (macros : Macros) : Prop :=
  ∀ a m e, macros.find? a = some m → m.expression = .ok e → ∀ b ∈ e.names,
    macros.has b = true → macros.Refers a b

/-- Different keys of a table are no more than its entries. -/
theorem Table.length_le_of_nodup {κ ν : Type} [BEq κ] {table : Table κ ν} {keys : List κ}
    (hnodup : keys.Nodup) (hkeys : keys ⊆ table.keys) : keys.length ≤ table.length := by
  have hle := (List.subperm_of_subset hnodup hkeys).length_le
  rwa [Table.keys, List.length_map] at hle

section Macros

variable {σ : Type} {L : Likeness σ} {h g : Host σ}

/-- Inside the expansions of these macros, one in another, an expression is evaluated alike under
all budgets that leave one expansion for every other macro. The induction is on the first budget. -/
theorem evalWithin_alike (hh : h.Alike L g) (hnamed : h.macros.Named) (hacyclic : h.macros.Acyclic)
    {entered : List String} (hnodup : entered.Nodup) (hkeys : entered ⊆ h.macros.keys)
    {e : Expr} (hreach : ∀ b ∈ e.names, h.macros.has b = true → ∀ a ∈ entered,
      Relation.TransGen h.macros.Refers a b)
    {budget budget' : Nat} (hbudget : h.macros.length < budget + entered.length)
    (hbudget' : h.macros.length < budget' + entered.length) (scope : Scope) :
    L.rel (evalWithin h budget scope e) (evalWithin g budget' scope e) := by
  have hlength := Table.length_le_of_nodup hnodup hkeys
  induction budget generalizing budget' entered e scope with
  | zero => omega
  | succ budget ih =>
    cases budget' with
    | zero => omega
    | succ budget' =>
      refine eval_alike hh (e.lined_of_forall fun _ => trivial).callsOn
        fun b hb m body hm hbody scope => ?_
      have hnames : h.macros.has b = true := Table.has_eq_true_iff.2 ⟨m, hm⟩
      have hnew : b ∉ entered := fun hin => hacyclic b (hreach b hb hnames b hin)
      have hkeys' : b :: entered ⊆ h.macros.keys := by
        obtain ⟨key, hkey, heq⟩ := Table.mem_of_find? hm
        obtain rfl := eq_of_beq heq
        exact List.cons_subset.2 ⟨Table.mem_keys.2 ⟨m, hkey⟩, hkeys⟩
      have hnodup' : (b :: entered).Nodup := List.nodup_cons.2 ⟨hnew, hnodup⟩
      have hreach' : ∀ c ∈ body.names, h.macros.has c = true → ∀ a ∈ b :: entered,
          Relation.TransGen h.macros.Refers a c := by
        intro c hc hnames' a ha
        have hrefers := hnamed b m body hm hbody c hc hnames'
        rcases List.mem_cons.1 ha with rfl | ha
        · exact .single hrefers
        · exact (hreach b hb hnames a ha).tail hrefers
      refine ih hnodup' hkeys' hreach' ?_ ?_ scope (Table.length_le_of_nodup hnodup' hkeys')
      · rw [List.length_cons]
        omega
      · rw [List.length_cons]
        omega

/-- Where macros do not refer to themselves, an expression is evaluated alike whatever there is to
spare. -/
theorem evaluate_alike_of_acyclic (hh : h.Alike L g) (hnamed : h.macros.Named)
    (hacyclic : h.macros.Acyclic) {spare spare' : Nat} (hspare : 1 ≤ spare)
    (hspare' : 1 ≤ spare') (scope : Scope) (e : Expr) :
    L.rel (evaluate h spare scope e) (evaluate g spare' scope e) := by
  unfold evaluate
  rw [← hh.macros]
  refine evalWithin_alike hh hnamed hacyclic List.nodup_nil (List.nil_subset _) ?_ ?_ ?_ scope
  · intro b _ _ a ha
    cases ha
  · rw [List.length_nil]
    omega
  · rw [List.length_nil]
    omega

end Macros

theorem Macros.agree_of_acyclic {F : Tolerance} {macros : Macros} (hnamed : macros.Named)
    (hacyclic : macros.Acyclic) {spare spare' : Nat} (hspare : 1 ≤ spare) (hspare' : 1 ≤ spare') :
    macros.Agree F spare spare' := by
  rintro σ h g rfl hhost scope e
  exact evaluate_alike_of_acyclic hhost hnamed hacyclic hspare hspare' scope e

theorem Program.macros_named (p : Program) (source : String) :
    (p.macros (Text.lines source)).Named :=
  fun _ _ _ hm he _ hb hnames => Program.refers_of_expression hm he hb hnames

/-! ## Structs -/

/-- An object of the type is a struct with this full name, or an array of them. -/
inductive CType.Holds : CType → String → Prop
  | struct {t : CType} (h : t.isStruct = true) : Holds t (String.ofList (Text.trim t.text.toList))
  | array {t element : CType} {name : String} (harray : t.isArray = true)
      (helement : t.element = .ok element) (h : Holds element name) : Holds t name

namespace Layouts

/-- The first struct has a member that holds the second one by value. -/
def Contains (layouts : Layouts) (a b : String) : Prop :=
  layouts.has b = true ∧ ∃ l, layouts.find? a = some l ∧ ∃ member ∈ l.members, member.2.2.Holds b

/-- No struct contains itself, be it through other structs. -/
def Acyclic (layouts : Layouts) : Prop :=
  ∀ name, ¬Relation.TransGen layouts.Contains name name

/-- How deep the members of structs can be nested, those of the entered ones left out. -/
def depthBeyond (layouts : Layouts) (entered : List String) : Nat :=
  ((layouts.filter fun entry => !entered.contains entry.1).map fun entry => entry.2.depth).sum

theorem depthBeyond_nil (layouts : Layouts) :
    layouts.depthBeyond [] = (layouts.map fun entry => entry.2.depth).sum := by
  have hall : layouts.filter (fun entry => !([] : List String).contains entry.1) = layouts :=
    List.filter_eq_self.2 fun _ _ => rfl
  rw [depthBeyond, hall]

theorem depthBeyond_cons {layouts : Layouts} {entered : List String} {name : String} {l : Layout}
    (hmem : (name, l) ∈ layouts) (hnew : name ∉ entered) :
    l.depth + layouts.depthBeyond (name :: entered) ≤ layouts.depthBeyond entered := by
  have hcons : ∀ (entry : String × Layout) (layouts : Layouts) (entered : List String),
      depthBeyond (entry :: layouts) entered
        = (if entry.1 ∈ entered then 0 else entry.2.depth) + depthBeyond layouts entered := by
    intro entry layouts entered
    unfold depthBeyond
    rw [List.filter_cons]
    by_cases hin : entry.1 ∈ entered <;> simp [hin]
  have hmono : ∀ layouts : Layouts,
      layouts.depthBeyond (name :: entered) ≤ layouts.depthBeyond entered := by
    intro layouts
    induction layouts with
    | nil => exact Nat.le_refl _
    | cons entry layouts ih =>
      rw [hcons, hcons]
      by_cases hin : entry.1 ∈ entered
      · rw [if_pos (List.mem_cons_of_mem _ hin), if_pos hin]
        exact Nat.add_le_add_left ih 0
      · rw [if_neg hin]
        split <;> omega
  induction layouts with
  | nil => cases hmem
  | cons entry layouts ih =>
    rw [hcons, hcons]
    rcases List.mem_cons.1 hmem with rfl | hmem
    · rw [if_pos List.mem_cons_self, if_neg hnew]
      exact Nat.add_le_add_left (by rw [Nat.zero_add]; exact hmono layouts) _
    · have hrest := ih hmem
      by_cases hin : entry.1 ∈ entered
      · rw [if_pos (List.mem_cons_of_mem _ hin), if_pos hin]
        omega
      · rw [if_neg hin]
        split <;> omega

theorem depth_le_of_mem {l : Layout} {member : String × Int × CType} (h : member ∈ l.members) :
    member.2.2.depth ≤ l.depth := by
  unfold Layout.depth
  generalize l.members = members at h ⊢
  induction members with
  | nil => cases h
  | cons first members ih =>
    rw [List.map_cons, List.foldr_cons]
    rcases List.mem_cons.1 h with rfl | h
    · exact Nat.le_max_left _ _
    · exact Nat.le_trans (ih h) (Nat.le_max_right _ _)

end Layouts

theorem CType.element_depth_lt {t e : CType} (harray : t.isArray = true) (h : t.element = .ok e) :
    e.depth < t.depth := by
  rw [CType.element, if_pos harray] at h
  split at h
  · next text htext =>
    obtain rfl := Except.ok.inj h
    have hlt := Nat.lt_of_lt_of_le (length_beforeBracket?_lt htext) (length_trimRight_le _)
    unfold CType.depth
    simp only [String.length_ofList]
    rw [String.length_toList] at hlt
    omega
  · cases h

/-- Inside these structs, one in another, the cells of an object are the same under all bounds that
leave room for the type and for all other structs. The induction is on the first bound. -/
theorem cellsWithin_agrees {F : Tolerance} {layouts : Layouts} (hacyclic : layouts.Acyclic)
    {entered : List String} {type : CType}
    (hreach : ∀ b, type.Holds b → layouts.has b = true → ∀ a ∈ entered,
      Relation.TransGen layouts.Contains a b)
    {depth depth' : Nat} (hdepth : type.depth + layouts.depthBeyond entered ≤ depth)
    (hdepth' : type.depth + layouts.depthBeyond entered ≤ depth') (name : String) (address : Int)
    (value : Value) :
    Agrees F (cellsWithin layouts depth name type address value)
      (cellsWithin layouts depth' name type address value) := by
  have hpos : 0 < type.depth := Nat.succ_pos _
  induction depth generalizing depth' entered type name address value with
  | zero => omega
  | succ depth ih =>
    cases depth' with
    | zero => omega
    | succ depth' =>
      rw [cellsWithin, cellsWithin]
      split
      · next hstruct =>
        refine .bind (.refl (Layouts.membersOf_usual _ _)) fun members hmembers => ?_
        obtain ⟨l, hl, rfl⟩ := Layouts.membersOf_eq_ok hmembers
        refine .foldlM (fun cells member hmember => ?_) []
        let b := String.ofList (Text.trim type.text.toList)
        have hb : layouts.has b = true := Table.has_eq_true_iff.2 ⟨l, hl⟩
        -- a struct that was entered already would contain itself
        have hnew : b ∉ entered := fun hin => hacyclic b (hreach b (.struct hstruct) hb b hin)
        obtain ⟨key, hkey, heq⟩ := Table.mem_of_find? hl
        obtain rfl : key = b := eq_of_beq heq
        -- entering it takes its depth off what the others need
        have hbeyond := Layouts.depthBeyond_cons hkey hnew
        have hmemberDepth := Layouts.depth_le_of_mem hmember
        have hreach' : ∀ c, member.2.2.Holds c → layouts.has c = true → ∀ a ∈ b :: entered,
            Relation.TransGen layouts.Contains a c := by
          intro c hc hhas a ha
          have hcontains : layouts.Contains b c := ⟨hhas, l, hl, member, hmember, hc⟩
          rcases List.mem_cons.1 ha with rfl | ha
          · exact .single hcontains
          · exact (hreach b (.struct hstruct) hb a ha).tail hcontains
        exact .bind (ih hreach' (by omega) (by omega) _ _ _ (Nat.succ_pos _)) fun _ _ =>
          .refl (usual_pure _)
      · split
        · next harray =>
          refine .bind (.refl (by simp)) fun element helement =>
            .bind (.refl (by simp)) fun isText _ => ?_
          have hlt := CType.element_depth_lt harray helement
          split
          · exact .refl (by simp)
          · refine .bind (.refl (by simp)) fun size _ => .bind (.refl (by simp)) fun length _ => ?_
            refine .foldlM (fun cells i _ => .bind (.refl (by simp)) fun item _ => ?_) []
            refine .bind (ih (fun b hb => hreach b (.array harray helement hb)) (by omega)
              (by omega) _ _ _ (Nat.succ_pos _)) fun _ _ => .refl (usual_pure _)
        · exact .refl (by simp)

/-- The cells of an object are the same whatever there is to spare. -/
theorem Layouts.agree_of_acyclic {F : Tolerance} {layouts : Layouts} (hacyclic : layouts.Acyclic)
    (spare spare' : Nat) : layouts.Agree F spare spare' := by
  intro name type address value
  have hdepth : type.depth + layouts.depthBeyond [] = layouts.depth type := by
    rw [Layouts.depthBeyond_nil, Layouts.depth, List.sum_eq_foldr]
  have hreach : ∀ b, type.Holds b → layouts.has b = true → ∀ a ∈ ([] : List String),
      Relation.TransGen layouts.Contains a b := by
    intro b _ _ a ha
    cases ha
  exact cellsWithin_agrees hacyclic hreach (by omega) (by omega) name address value

/-! ## Struct definitions -/

/-- The struct definitions of a program by full name; the last definition of a name counts. -/
def Program.definitions (p : Program) : Table String Struct :=
  Table.ofEntries (p.structs.map fun s => (s.typeName, s))

/-- The first struct has a member that is the second one or an array of them, not a pointer. -/
def Program.Contains (p : Program) (a b : String) : Prop :=
  p.definitions.has b = true ∧ ∃ s, p.definitions.find? a = some s ∧
    ∃ field ∈ Layout.fields s, (field.1.withStars field.2.stars).Holds b

/-- No struct contains itself by value, be it through other structs. -/
def Program.StructsAcyclic (p : Program) : Prop :=
  ∀ name, ¬Relation.TransGen p.Contains name name

namespace CType

/-- Blanks behind a type's text make no difference. -/
theorem Holds.of_trimRight {text : List Char} {name : String}
    (h : Holds ⟨String.ofList (Text.trimRight text)⟩ name) : Holds ⟨String.ofList text⟩ name := by
  have hends : ∀ mark, endsIn mark (Text.trimRight text) = endsIn mark text := by
    intro mark
    rw [endsIn, Text.trimRight_trimRight, endsIn]
  have harray : isArray ⟨String.ofList (Text.trimRight text)⟩ = isArray ⟨String.ofList text⟩ := by
    simp only [isArray, String.toList_ofList, hends]
  have hpointer : isPointer ⟨String.ofList (Text.trimRight text)⟩
      = isPointer ⟨String.ofList text⟩ := by
    simp only [isPointer, String.toList_ofList, hends]
  cases h with
  | struct h =>
    have hstruct : isStruct ⟨String.ofList text⟩ = true := by
      rw [isStruct, Bool.and_eq_true, Bool.and_eq_true, harray, hpointer] at h
      rw [isStruct, Bool.and_eq_true, Bool.and_eq_true]
      refine ⟨⟨?_, h.1.2⟩, h.2⟩
      have hprefix : Text.trimRight text <+: text := List.rdropWhile_prefix _ _
      have hnames := h.1.1
      simp only [namesStruct, List.isPrefixOf_iff_prefix, String.toList_ofList] at hnames ⊢
      exact hnames.trans hprefix
    have hholds := Holds.struct hstruct
    rw [String.toList_ofList] at hholds ⊢
    rw [Text.trim_trimRight]
    exact hholds
  | array h helement hinner =>
    refine .array (harray ▸ h) ?_ hinner
    rw [element, harray, hpointer, String.toList_ofList, Text.trimRight_trimRight] at helement
    rw [element, String.toList_ofList]
    exact helement

/-- The elements of an array have the type in front of the last bracket. -/
theorem element_eq_ok {t e : CType} (harray : t.isArray = true) (h : t.element = .ok e) :
    ∃ pre post, Text.trimRight t.text.toList = pre ++ '[' :: post ∧ '[' ∉ post ∧
      e = ⟨String.ofList (Text.trimRight pre)⟩ := by
  rw [element, if_pos harray] at h
  split at h
  · next text htext =>
    obtain rfl := Except.ok.inj h
    unfold beforeBracket? at htext
    split at htext
    · next i hi =>
      obtain ⟨pre, post, hsplit, hpost⟩ := Text.lastIndexOf?_cases hi
      rw [hsplit, Text.lastIndexOf?_eq_some hpost] at hi
      obtain rfl := Option.some.inj hi
      rw [hsplit, List.take_left] at htext
      obtain rfl := Option.some.inj htext
      exact ⟨pre, post, hsplit, hpost, rfl⟩
    · cases htext
  · cases h

/-- What is held by an array type is held by the type in front of any of its brackets, if its name
has no bracket in it. -/
theorem Holds.before_bracket {front rest : List Char} {name : String} (hname : '[' ∉ name.toList)
    (h : Holds ⟨String.ofList (front ++ '[' :: rest)⟩ name) :
    Holds ⟨String.ofList front⟩ name := by
  have hbracket : Text.isBlank '[' = false := by decide +kernel
  generalize ht : (⟨String.ofList (front ++ '[' :: rest)⟩ : CType) = t at h
  induction h generalizing rest with
  | struct hstruct =>
    refine absurd ?_ hname
    rw [← ht, String.toList_ofList, String.toList_ofList]
    exact Text.mem_trim (List.mem_append_right _ List.mem_cons_self) hbracket
  | array harray helement hinner ih =>
    obtain ⟨pre, post, hsplit, hpost, rfl⟩ := element_eq_ok harray helement
    rw [← ht, String.toList_ofList, Text.trimRight_append_cons _ _ hbracket] at hsplit
    -- the last bracket is the first one, or it lies behind it
    rcases List.append_eq_append_iff.1 hsplit with ⟨between, rfl, hbetween⟩ | ⟨between, rfl, hbetween⟩
    · cases between with
      | nil =>
        rw [List.append_nil] at hinner
        exact hinner.of_trimRight
      | cons c between =>
        obtain ⟨rfl, _⟩ := List.cons.inj hbetween
        have helement := Text.trimRight_append_cons front between hbracket
        exact ih hname (congrArg (fun text => CType.mk (String.ofList text)) helement.symm)
    · cases between with
      | nil =>
        rw [List.append_nil]
        exact hinner.of_trimRight
      | cons c between =>
        obtain ⟨_, rfl⟩ := List.cons.inj hbetween
        exact absurd (List.mem_append_right _ List.mem_cons_self) hpost

theorem Holds.of_arrayOf {t : CType} {count name : String} (hname : '[' ∉ name.toList)
    (h : (t.arrayOf count).Holds name) : t.Holds name := by
  have htext : t.arrayOf count
      = ⟨String.ofList (t.text.toList ++ '[' :: (count ++ "]").toList)⟩ := by
    unfold CType.arrayOf
    congr 1
    apply String.toList_injective
    simp
  rw [htext] at h
  simpa using h.before_bracket hname

end CType

/-- A member holds by value what its declaration names without a star. -/
theorem Variable.holds_of_fullType {v : Variable} {declared type : CType}
    {evaluate : Expr → Except Fault Value} (h : v.fullType declared evaluate = .ok type)
    {name : String} (hname : '[' ∉ name.toList) (hholds : type.Holds name) :
    (declared.withStars v.stars).Holds name := by
  unfold Variable.fullType at h
  dsimp only at h
  split at h
  · obtain rfl := Except.ok.inj h
    exact hholds
  · obtain rfl := Except.ok.inj h
    exact hholds.of_arrayOf hname
  · obtain ⟨count, _, h⟩ := bind_eq_ok.1 h
    obtain rfl := Except.ok.inj h
    exact hholds.of_arrayOf hname

/-- The members of a layout have the types of the struct's declarations. -/
theorem Layout.ofStruct_types {spare : Nat} {macros : Macros} {sizes : StructSizes} {s : Struct}
    {l : Layout} (h : ofStruct spare macros sizes s = .ok l) {member : String × Int × CType}
    (hmember : member ∈ l.members) :
    ∃ field ∈ fields s,
      field.2.fullType field.1 (fun e => constantValue macros sizes e spare)
        = .ok member.2.2 := by
  obtain ⟨placed, hplaced, h⟩ := bind_eq_ok.1 h
  obtain rfl := Except.ok.inj h
  -- a member comes from where the placing started or from a field placed since
  have hfold : ∀ (more : List (CType × Variable)) (start stop : Partial),
      more.foldlM
        (fun (p : Partial) (field : CType × Variable) => do
          let type ← field.2.fullType field.1 fun e => constantValue macros sizes e spare
          p.place sizes field.2.name type) start = .ok stop →
      ∀ member ∈ stop.members, member ∈ start.members ∨ ∃ field ∈ more,
        field.2.fullType field.1 (fun e => constantValue macros sizes e spare)
          = .ok member.2.2 := by
    intro more
    induction more with
    | nil =>
      intro start stop hstop member hmember
      obtain rfl := Except.ok.inj hstop
      exact Or.inl hmember
    | cons field more ih =>
      intro start stop hstop member hmember
      rw [List.foldlM_cons] at hstop
      obtain ⟨next, hnext, hstop⟩ := bind_eq_ok.1 hstop
      obtain ⟨type, htype, hplace⟩ := bind_eq_ok.1 hnext
      rcases ih next stop hstop member hmember with hmember | ⟨found, hfound, hfull⟩
      · obtain ⟨alignment, _, hplace⟩ := bind_eq_ok.1 hplace
        obtain ⟨size, _, hplace⟩ := bind_eq_ok.1 hplace
        obtain rfl := Except.ok.inj hplace
        rcases Table.mem_put hmember with hold | rfl | ⟨_, hvalue, _⟩
        · exact Or.inl hold
        · exact Or.inr ⟨field, List.mem_cons_self, htype⟩
        · rw [hvalue]
          exact Or.inr ⟨field, List.mem_cons_self, htype⟩
      · exact Or.inr ⟨found, List.mem_cons_of_mem _ hfound, hfull⟩
  rcases hfold _ _ _ hplaced member hmember with hmember | hfield
  · cases hmember
  · exact hfield

/-- A layout is that of the definition that counts. -/
theorem Program.definition_of_layout {p : Program} {spare : Nat} {macros : Macros}
    {layouts : Layouts} (h : p.layouts spare macros = .ok layouts) {name : String} {l : Layout}
    (hl : layouts.find? name = some l) :
    ∃ s sizes, p.definitions.find? name = some s ∧
      Layout.ofStruct spare macros sizes s = .ok l := by
  -- of two definitions with one name the later one counts, for the layouts as for the table
  have hfold : ∀ (structs : List Struct) (known layouts : Layouts) (defined : Table String Struct),
      (∀ name l, known.find? name = some l → ∃ s sizes, defined.find? name = some s ∧
        Layout.ofStruct spare macros sizes s = .ok l) →
      structs.foldlM
        (fun (layouts : Layouts) s => do
          return Table.put layouts s.typeName (← Layout.ofStruct spare macros layouts.sizes s))
        known = .ok layouts →
      ∀ name l, layouts.find? name = some l → ∃ s sizes,
        (defined.putAll (structs.map fun s => (s.typeName, s))).find? name = some s ∧
          Layout.ofStruct spare macros sizes s = .ok l := by
    intro structs
    induction structs with
    | nil =>
      intro known layouts defined hknown h
      obtain rfl := Except.ok.inj h
      exact hknown
    | cons s structs ih =>
      intro known layouts defined hknown h
      rw [List.foldlM_cons] at h
      obtain ⟨next, hnext, h⟩ := bind_eq_ok.1 h
      obtain ⟨laid, hlaid, hnext⟩ := bind_eq_ok.1 hnext
      obtain rfl := Except.ok.inj hnext
      refine ih _ layouts (defined.put s.typeName s) ?_ h
      intro name l hl
      rw [Table.find?_put] at hl ⊢
      split at hl
      · next hname =>
        obtain rfl := Option.some.inj hl
        exact ⟨s, known.sizes, if_pos hname, hlaid⟩
      · next hname =>
        rw [if_neg hname]
        exact hknown name l hl
  exact hfold p.structs [] layouts [] (fun _ _ h => by cases h) h name l hl

theorem Program.typeName_of_definition {p : Program} {name : String} {s : Struct}
    (h : p.definitions.find? name = some s) : ∃ s ∈ p.structs, s.typeName = name := by
  obtain ⟨key, hkey, heq⟩ := Table.mem_of_find? h
  have hentry : ∃ entry ∈ p.structs.map fun s => (s.typeName, s), (entry.1 == name) = true := by
    rcases Table.mem_putAll hkey with hkey | hkey | ⟨entry, hentry, hsame, _⟩
    · cases hkey
    · exact ⟨_, hkey, heq⟩
    · exact ⟨entry, hentry, by rw [← eq_of_beq hsame]; exact heq⟩
  obtain ⟨entry, hentry, heq⟩ := hentry
  obtain ⟨s, hs, rfl⟩ := List.mem_map.1 hentry
  exact ⟨s, hs, eq_of_beq heq⟩

/-- Layouts contain one another only where the definitions do. -/
theorem Program.layouts_acyclic {p : Program} {spare : Nat} {macros : Macros} {layouts : Layouts}
    (h : p.layouts spare macros = .ok layouts)
    (hnames : ∀ s ∈ p.structs, '[' ∉ s.typeName.toList) (hacyclic : p.StructsAcyclic) :
    layouts.Acyclic := by
  have hcontains : ∀ a b, layouts.Contains a b → p.Contains a b := by
    rintro a b ⟨hb, l, hl, member, hmember, hholds⟩
    obtain ⟨lb, hlb⟩ := Table.has_eq_true_iff.1 hb
    obtain ⟨sb, _, hsb, _⟩ := Program.definition_of_layout h hlb
    obtain ⟨s, sizes, hs, hlaid⟩ := Program.definition_of_layout h hl
    obtain ⟨field, hfield, htype⟩ := Layout.ofStruct_types hlaid hmember
    have hname : '[' ∉ b.toList := by
      obtain ⟨s, hs, rfl⟩ := Program.typeName_of_definition hsb
      exact hnames s hs
    exact ⟨Table.has_eq_true_iff.2 ⟨sb, hsb⟩, s, hs, field, hfield,
      Variable.holds_of_fullType htype hname hholds⟩
  intro name hpath
  exact hacyclic name (Relation.TransGen.mono hcontains _ _ hpath)

/-- The full name of a struct in a source text has no bracket in it. -/
theorem parse_bracket_not_mem {source : String} {p : Program}
    (h : parse (tokenize source) = .ok p) : ∀ s ∈ p.structs, '[' ∉ s.typeName.toList := by
  intro s hs hbracket
  obtain ⟨name, hname, htag⟩ := parse_tag h s hs
  rw [Struct.typeName, String.toList_append, List.mem_append, ← htag] at hbracket
  rcases hbracket with hbracket | hbracket
  · exact absurd hbracket (by decide)
  · exact absurd (hname.word '[' hbracket) (by decide +kernel)

end Stepwise
