/-
What a braced initializer leaves out.

A list may be shorter than the struct or the array that it is for, and so may the lists
in it, so some leaves of an object are covered by no expression. Only an array fills up:
if its own list has items, an element behind them is given a zero. That helps a leaf if
the element is a leaf itself; an element with parts has nothing to hand on to them, and a
struct gives its members nothing either. So a leaf that is left out ends up as a zero
exactly if it is such an element (`Zeroed`), and otherwise without a value.

The induction is on the levels of an object, for the cells as they are made: each cell is
that of a leaf, and its path says which item of which list was meant for it.
-/
import Stepwise.Proofs.Access
import Stepwise.Proofs.Copies

set_option autoImplicit false

namespace Stepwise

variable {layouts : Layouts}

/-! ## Leaves that are left out -/

/-- No expression in an initializer covers the part of an object at a path: on the way to it, a list
ends too early. -/
inductive LeftOut (layouts : Layouts) : Init → CType → Path → Prop
  /-- The list of an array ends in front of the element. -/
  | element {line i : Nat} {items : List Init} {t : CType} {path : Path}
      (hitem : items[i]? = none) : LeftOut layouts (.list line items) t (.element i :: path)
  /-- The list of a struct ends in front of the member. -/
  | member {line k : Nat} {items : List Init} {t : CType} {members : Members}
      {e : String × Int × CType} {path : Path} (hmembers : layouts.membersOf t = .ok members)
      (he : members[k]? = some e) (hitem : items[k]? = none) :
      LeftOut layouts (.list line items) t (.member e.1 :: path)
  /-- It is left out of what is meant for an element. -/
  | inElement {line i : Nat} {items : List Init} {init : Init} {t element : CType} {path : Path}
      (helement : t.element = .ok element) (hitem : items[i]? = some init)
      (h : LeftOut layouts init element path) :
      LeftOut layouts (.list line items) t (.element i :: path)
  /-- It is left out of what is meant for a member. -/
  | inMember {line k : Nat} {items : List Init} {init : Init} {t : CType} {members : Members}
      {e : String × Int × CType} {path : Path} (hmembers : layouts.membersOf t = .ok members)
      (he : members[k]? = some e) (hitem : items[k]? = some init)
      (h : LeftOut layouts init e.2.2 path) :
      LeftOut layouts (.list line items) t (.member e.1 :: path)

/-- The part of an object at a path is an element behind the items of a list that has some. -/
inductive Zeroed (layouts : Layouts) : Init → CType → Path → Prop
  /-- The list of an array has items and ends in front of the element. -/
  | element {line i : Nat} {items : List Init} {t : CType} (hitems : items ≠ [])
      (hitem : items[i]? = none) : Zeroed layouts (.list line items) t [.element i]
  /-- It is such a part of an element. -/
  | inElement {line i : Nat} {items : List Init} {init : Init} {t element : CType} {path : Path}
      (helement : t.element = .ok element) (hitem : items[i]? = some init)
      (h : Zeroed layouts init element path) :
      Zeroed layouts (.list line items) t (.element i :: path)
  /-- It is such a part of a member. -/
  | inMember {line k : Nat} {items : List Init} {init : Init} {t : CType} {members : Members}
      {e : String × Int × CType} {path : Path} (hmembers : layouts.membersOf t = .ok members)
      (he : members[k]? = some e) (hitem : items[k]? = some init)
      (h : Zeroed layouts init e.2.2 path) :
      Zeroed layouts (.list line items) t (.member e.1 :: path)

/-- An expression leaves nothing out. -/
theorem LeftOut.not_expr {e : Expr} {t : CType} {path : Path} : ¬LeftOut layouts (.expr e) t path := by
  intro h
  cases h

section Lists

variable {line i k : Nat} {items : List Init} {init : Init} {t element : CType} {members : Members}
  {e : String × Int × CType} {path : Path}

theorem leftOut_of_element (helement : t.element = .ok element) (hitem : items[i]? = some init)
    (h : LeftOut layouts (.list line items) t (.element i :: path)) :
    LeftOut layouts init element path := by
  cases h with
  | element hnone => simp [hitem] at hnone
  | inElement helement' hitem' h =>
    obtain rfl := Except.ok.inj (helement.symm.trans helement')
    obtain rfl := Option.some.inj (hitem.symm.trans hitem')
    exact h

theorem zeroed_element_iff (helement : t.element = .ok element) (hitem : items[i]? = some init) :
    Zeroed layouts (.list line items) t (.element i :: path) ↔ Zeroed layouts init element path := by
  refine ⟨fun h => ?_, .inElement helement hitem⟩
  cases h with
  | element _ hnone => simp [hitem] at hnone
  | inElement helement' hitem' h =>
    obtain rfl := Except.ok.inj (helement.symm.trans helement')
    obtain rfl := Option.some.inj (hitem.symm.trans hitem')
    exact h

theorem zeroed_missing_iff (hitem : items[i]? = none) :
    Zeroed layouts (.list line items) t (.element i :: path) ↔ items ≠ [] ∧ path = [] := by
  refine ⟨fun h => ?_, ?_⟩
  · cases h with
    | element hitems _ => exact ⟨hitems, rfl⟩
    | inElement _ hsome => simp [hitem] at hsome
  · rintro ⟨hitems, rfl⟩
    exact .element hitems hitem

/-- The position of a member is known from its name. -/
theorem position_unique (hnames : members.Apart) {j : Nat} {f : String × Int × CType}
    (he : members[k]? = some e) (hf : members[j]? = some f) (hname : e.1 = f.1) : k = j := by
  obtain ⟨hk, rfl⟩ := List.getElem?_eq_some_iff.1 he
  obtain ⟨hj, rfl⟩ := List.getElem?_eq_some_iff.1 hf
  rcases Nat.lt_trichotomy k j with hlt | heq | hlt
  · have hapart := List.pairwise_iff_getElem.1 hnames k j hk hj hlt
    simp [hname] at hapart
  · exact heq
  · have hapart := List.pairwise_iff_getElem.1 hnames j k hj hk hlt
    simp [hname] at hapart

theorem leftOut_of_member (hnames : members.Apart) (hmembers : layouts.membersOf t = .ok members)
    (he : members[k]? = some e) (hitem : items[k]? = some init)
    (h : LeftOut layouts (.list line items) t (.member e.1 :: path)) :
    LeftOut layouts init e.2.2 path := by
  generalize hname : e.1 = name at h
  cases h with
  | member hmembers' he' hnone =>
    obtain rfl := Except.ok.inj (hmembers.symm.trans hmembers')
    obtain rfl := position_unique hnames he he' hname
    simp [hitem] at hnone
  | inMember hmembers' he' hitem' h =>
    obtain rfl := Except.ok.inj (hmembers.symm.trans hmembers')
    obtain rfl := position_unique hnames he he' hname
    obtain rfl := Option.some.inj (he.symm.trans he')
    obtain rfl := Option.some.inj (hitem.symm.trans hitem')
    exact h

theorem zeroed_member_iff (hnames : members.Apart) (hmembers : layouts.membersOf t = .ok members)
    (he : members[k]? = some e) :
    Zeroed layouts (.list line items) t (.member e.1 :: path) ↔
      ∃ init, items[k]? = some init ∧ Zeroed layouts init e.2.2 path := by
  refine ⟨fun h => ?_, fun ⟨init, hitem, h⟩ => .inMember hmembers he hitem h⟩
  generalize hname : e.1 = name at h
  cases h with
  | inMember hmembers' he' hitem' h =>
    obtain rfl := Except.ok.inj (hmembers.symm.trans hmembers')
    obtain rfl := position_unique hnames he he' hname
    obtain rfl := Option.some.inj (he.symm.trans he')
    exact ⟨_, hitem', h⟩

end Lists

/-! ## What lists give -/

section Values

variable {evaluate : Expr → Run Typed}

/-- An initializer gives a value to an object of a type. -/
def Gives (layouts : Layouts) (evaluate : Expr → Run Typed) (t : CType) (init : Init)
    (value : Value) : Prop :=
  ∃ m m', initialValue layouts evaluate t init m = .ok (value, m')

/-- An element gets what its item gives, and there is a value for every item. -/
theorem initialItems_gives {element : CType} {items : List Init} {values : List Value}
    {m m' : Machine} (h : initialItems layouts evaluate element items m = .ok (values, m')) :
    values.length = items.length ∧
      ∀ (i : Nat) init, items[i]? = some init →
        ∃ v, values[i]? = some v ∧ Gives layouts evaluate element init v := by
  induction items generalizing values m with
  | nil =>
    obtain ⟨rfl, _⟩ := Eval.pure_eq_ok.1 h
    exact ⟨rfl, fun i init hi => by simp at hi⟩
  | cons first items ih =>
    obtain ⟨v, m₁, hfirst, h⟩ := Eval.bind_eq_ok.1 h
    obtain ⟨more, m₂, hmore, h⟩ := Eval.bind_eq_ok.1 h
    obtain ⟨rfl, rfl⟩ := Eval.pure_eq_ok.1 h
    obtain ⟨hlength, hgiven⟩ := ih hmore
    refine ⟨by rw [List.length_cons, List.length_cons, hlength], fun i init hi => ?_⟩
    cases i with
    | zero =>
      obtain rfl : first = init := by simpa using hi
      exact ⟨v, rfl, m, m₁, hfirst⟩
    | succ i => exact hgiven i init (by simpa using hi)

/-- A member gets what its item gives, and nothing if it has none. -/
theorem initialMembers_gives {members : Members} (hnames : members.Apart) {items : List Init}
    {values : List (String × Value)} {m m' : Machine}
    (h : initialMembers layouts evaluate members items m = .ok (values, m')) {k : Nat}
    {e : String × Int × CType} (he : members[k]? = some e) :
    match items[k]? with
    | some init => ∃ v, values.lookup e.1 = some v ∧ Gives layouts evaluate e.2.2 init v
    | none => values.lookup e.1 = none := by
  induction items generalizing members values m k with
  | nil =>
    obtain ⟨rfl, _⟩ := Eval.pure_eq_ok.1 h
    rfl
  | cons init items ih =>
    cases members with
    | nil => simp at he
    | cons first members =>
      obtain ⟨v, m₁, hfirst, h⟩ := Eval.bind_eq_ok.1 h
      obtain ⟨more, m₂, hmore, h⟩ := Eval.bind_eq_ok.1 h
      obtain ⟨rfl, rfl⟩ := Eval.pure_eq_ok.1 h
      obtain ⟨hhead, htail⟩ := List.pairwise_cons.1 hnames
      cases k with
      | zero =>
        obtain rfl : first = e := by simpa using he
        exact ⟨v, by simp, m, m₁, hfirst⟩
      | succ k =>
        rw [List.getElem?_cons_succ] at he ⊢
        have hother : (e.1 == first.1) = false := by
          have hapart := hhead e (List.mem_of_getElem? he)
          rw [beq_eq_false_iff_ne] at hapart ⊢
          exact hapart.symm
        rw [List.lookup_cons, hother]
        exact ih htail hmore he

/-! ## What the cells hold -/

/-- What a leaf that is left out holds: a zero of its type or nothing. -/
def Filler (layouts : Layouts) (init : Init) (t : CType) (path : Path) (leaf : CType)
    (v : Value) : Prop :=
  Zeroed layouts init t path ∧ (Value.int 0).coerce leaf = .ok v ∨
    ¬Zeroed layouts init t path ∧ v = .uninit

theorem coerce_zero_of_parts {t : CType} (h : t.isStruct = true ∨ t.isArray = true) :
    (Value.int 0).coerce t = .ok (.int 0) := by
  unfold Value.coerce
  rcases h with h | h
  · rw [CType.isStruct, Bool.and_eq_true, Bool.and_eq_true] at h
    rw [h.1.1, Bool.or_true, if_pos rfl]
  · rw [h, Bool.or_true, Bool.true_or, if_pos rfl]

theorem noParts_zero : (Value.int 0).NoParts :=
  ⟨fun _ => rfl, rfl⟩

/-- An element that is given a zero holds it, if it is a leaf, and otherwise its leaves hold
nothing. -/
theorem cells_of_zero {depth : Nat} {name : String} {element : CType} {address : Int} {zero : Value}
    {cells : Table Number CellPatch} (hzero : (Value.int 0).coerce element = .ok zero)
    (h : cellsWithin layouts depth name element address zero = .ok cells) :
    (element.IsCell → cells = [(.int address, ⟨zero, name, element⟩)]) ∧
      (¬element.IsCell → ∀ c ∈ cells, c.2.value = .uninit) := by
  refine ⟨fun hcell => ?_, fun hparts => ?_⟩
  · cases harray : element.isArray with
    | false => exact cellsWithin_scalar (by rw [CType.isAggregate, harray, hcell.1]; rfl) h
    | true =>
      rw [coerce_zero_of_parts (Or.inr harray)] at hzero
      obtain rfl := Except.ok.inj hzero
      obtain ⟨v, rfl, rfl | rfl⟩ := cellsWithin_of_isCell hcell h <;> rfl
  · have hwhole : element.isStruct = true ∨ element.isArray = true := by
      cases hstruct : element.isStruct with
      | true => exact Or.inl rfl
      | false =>
        refine Or.inr (Bool.of_not_eq_false fun hnot => hparts ⟨hstruct, fun harray => ?_⟩)
        rw [hnot] at harray
        cases harray
    rw [coerce_zero_of_parts hwhole] at hzero
    obtain rfl := Except.ok.inj hzero
    exact cellsWithin_uninit noParts_zero (fun hcell => absurd hcell hparts) h

/-- Every cell is that of a leaf of an object, and holds a filler if the leaf is left out. -/
def HoldFillers (layouts : Layouts) (init : Init) (t : CType) (name : String) (address : Int)
    (cells : Table Number CellPatch) : Prop :=
  ∀ c ∈ cells, ∃ path offset leaf v, LeafAt layouts t path offset leaf ∧
    c = (.int (address + offset), ⟨v, name ++ path.text, leaf⟩) ∧
    (LeftOut layouts init t path → Filler layouts init t path leaf v)

/-- The cells of a part are cells of the object, if what the part is left without the object is
left without. -/
theorem HoldFillers.of_part {part : Part} {init init' : Init} {t t' : CType} {name : String}
    {address start : Int} {cells : Table Number CellPatch}
    (hleaf : ∀ path offset leaf, LeafAt layouts t' path offset leaf →
      LeafAt layouts t (part :: path) (start + offset) leaf)
    (hout : ∀ path, LeftOut layouts init t (part :: path) → LeftOut layouts init' t' path)
    (hzero : ∀ path, Zeroed layouts init t (part :: path) ↔ Zeroed layouts init' t' path)
    (h : HoldFillers layouts init' t' (name ++ part.text) (address + start) cells) :
    HoldFillers layouts init t name address cells := by
  intro c hc
  obtain ⟨path, offset, leaf, v, hpart, rfl, hfill⟩ := h c hc
  refine ⟨part :: path, start + offset, leaf, v, hleaf path offset leaf hpart, ?_, fun hleft => ?_⟩
  · rw [Path.text, Int.add_assoc, String.append_assoc]
  · unfold Filler
    rw [hzero]
    exact hfill (hout path hleft)

/-- What an object of a struct type that is left out altogether holds. -/
theorem HoldFillers.of_uninit {init : Init} {t t' : CType} {part : Part} {name : String}
    {address start : Int} {depth : Nat} {value : Value} {cells : Table Number CellPatch}
    (hleaf : ∀ path offset leaf, LeafAt layouts t' path offset leaf →
      LeafAt layouts t (part :: path) (start + offset) leaf)
    (hzero : ∀ path offset leaf, LeafAt layouts t' path offset leaf →
      ¬Zeroed layouts init t (part :: path))
    (h : cellsWithin layouts depth (name ++ part.text) t' (address + start) value = .ok cells)
    (huninit : ∀ c ∈ cells, c.2.value = .uninit) : HoldFillers layouts init t name address cells := by
  intro c hc
  obtain ⟨path, offset, leaf, v, hpart, rfl⟩ := cells_are_leaves h c hc
  refine ⟨part :: path, start + offset, leaf, v, hleaf path offset leaf hpart, ?_, fun _ => ?_⟩
  · rw [Path.text, Int.add_assoc, String.append_assoc]
  · exact Or.inr ⟨hzero path offset leaf hpart, huninit _ hc⟩

/-- The cells of parts that are put together are those of the parts. -/
theorem HoldFillers.foldl {init : Init} {t : CType} {name : String} {address : Int}
    {parts : List (Table Number CellPatch)} (hwhole : ∀ part ∈ parts, part.Whole)
    (h : ∀ part ∈ parts, HoldFillers layouts init t name address part) :
    HoldFillers layouts init t name address (parts.foldl Table.putAll []) := by
  intro c hc
  rcases Table.mem_foldl_putAll Table.whole_nil hwhole hc with hnil | ⟨part, hpart, hmem⟩
  · cases hnil
  · exact h part hpart c hmem

/-- Objects with so many levels hold what is meant for them, and fillers where nothing is. -/
def FillsWithin (layouts : Layouts) (evaluate : Expr → Run Typed) (depth : Nat) : Prop :=
  ∀ {name : String} {t : CType} {address : Int} {init : Init} {value : Value}
    {cells : Table Number CellPatch}, Gives layouts evaluate t init value →
    cellsWithin layouts depth name t address value = .ok cells →
    HoldFillers layouts init t name address cells

section Levels

variable {depth : Nat} {name : String} {t : CType} {address : Int} {line : Nat} {items : List Init}
  {value : Value} {cells : Table Number CellPatch}

/-- The cells of a struct with a list hold fillers if those of its members do. -/
theorem holdFillers_struct (hnames : ∀ e ∈ layouts, e.2.members.Apart)
    (ih : FillsWithin layouts evaluate depth) (hstruct : t.isStruct = true)
    (hgives : Gives layouts evaluate t (.list line items) value)
    (h : cellsWithin layouts (depth + 1) name t address value = .ok cells) :
    HoldFillers layouts (.list line items) t name address cells := by
  obtain ⟨m, m', hvalue⟩ := hgives
  rw [initialValue, if_pos hstruct] at hvalue
  obtain ⟨members, m₁, hlift, hvalue⟩ := Eval.bind_eq_ok.1 hvalue
  obtain ⟨hmembers, rfl⟩ := Eval.lift_eq_ok.1 hlift
  obtain ⟨values, m₂, hvalues, hvalue⟩ := Eval.bind_eq_ok.1 hvalue
  obtain ⟨rfl, rfl⟩ := Eval.pure_eq_ok.1 hvalue
  obtain ⟨members', parts, hmembers', hparts, rfl⟩ := cellsWithin_of_isStruct hstruct h
  obtain rfl := Except.ok.inj (hmembers.symm.trans hmembers')
  have hapart : members.Apart := by
    obtain ⟨l, hl, rfl⟩ := Layouts.membersOf_eq_ok hmembers
    obtain ⟨key, hkey, _⟩ := Table.mem_of_find? hl
    exact hnames _ hkey
  refine .foldl (fun part hpart => ?_) fun part hpart => ?_
  · obtain ⟨e, _, hfill⟩ := mem_of_forall₂ hparts hpart
    exact cellsWithin_whole hfill
  obtain ⟨e, he, hfill⟩ := mem_of_forall₂ hparts hpart
  obtain ⟨k, hk⟩ := List.mem_iff_getElem?.1 he
  have hmember := initialMembers_gives hapart hvalues hk
  rw [String.append_assoc] at hfill
  have hleaf : ∀ path offset leaf, LeafAt layouts e.2.2 path offset leaf →
      LeafAt layouts t (.member e.1 :: path) (e.2.1 + offset) leaf :=
    fun path offset leaf hleaf => .member hstruct hmembers he hleaf
  -- a member with an item takes what that gives, any other stays uninitialized
  cases hitem : items[k]? with
  | some init =>
    rw [hitem] at hmember
    obtain ⟨v, hlookup, hgiven⟩ := hmember
    rw [Value.memberOf, hlookup, Option.getD_some] at hfill
    refine .of_part hleaf (fun path hout => ?_) (fun path => ?_) (ih hgiven hfill)
    · exact leftOut_of_member hapart hmembers hk hitem hout
    · rw [zeroed_member_iff hapart hmembers hk]
      simp [hitem]
  | none =>
    rw [hitem] at hmember
    rw [Value.memberOf, hmember, Option.getD_none] at hfill
    refine .of_uninit hleaf (fun path offset leaf _ hzero => ?_) hfill
      (cellsWithin_uninit Value.noParts_uninit (fun _ => rfl) hfill)
    obtain ⟨init, hsome, _⟩ := (zeroed_member_iff hapart hmembers hk).1 hzero
    simp [hitem] at hsome

/-- The cells of an element behind the items hold fillers. Without items the array is not filled up;
otherwise the element is given a zero. -/
theorem holdFillers_missing {i : Nat} {start : Int} {element : CType} {item : Value}
    {values : List Value} (hlength : values.length = items.length) (hitem : items[i]? = none)
    (hvalue : itemValue (Value.list values).items element i = .ok item)
    (hleaf : ∀ path offset leaf, LeafAt layouts element path offset leaf →
      LeafAt layouts t (.element i :: path) (start + offset) leaf)
    (h : cellsWithin layouts depth (name ++ (Part.element i).text) element (address + start) item
      = .ok cells) :
    HoldFillers layouts (.list line items) t name address cells := by
  have hnone : values[i]? = none := by
    rw [List.getElem?_eq_none_iff] at hitem ⊢
    omega
  unfold itemValue Value.items at hvalue
  rw [hnone] at hvalue
  dsimp only at hvalue
  -- an array without items stays as it is, any other is filled up with zeros
  by_cases hempty : values.isEmpty = true
  · rw [if_pos hempty] at hvalue
    obtain rfl := Except.ok.inj hvalue
    refine .of_uninit hleaf (fun path offset leaf _ hzero => ?_) h
      (cellsWithin_uninit Value.noParts_uninit (fun _ => rfl) h)
    have hitems := ((zeroed_missing_iff hitem).1 hzero).1
    rw [List.isEmpty_iff] at hempty
    rw [hempty, List.length_nil] at hlength
    exact hitems (List.length_eq_zero_iff.1 hlength.symm)
  · rw [if_neg hempty] at hvalue
    obtain ⟨hcell, huninit⟩ := cells_of_zero hvalue h
    -- a zero fills a cell; what has parts cannot be one and stays uninitialized
    by_cases hone : element.IsCell
    · intro c hc
      rw [hcell hone, List.mem_singleton] at hc
      refine ⟨[.element i], start, element, item, ?_, ?_, fun _ => Or.inl ⟨?_, hvalue⟩⟩
      · simpa using hleaf [] 0 element (.cell hone)
      · rw [hc, Path.text, Path.text, String.append_empty]
      · rw [zeroed_missing_iff hitem]
        refine ⟨?_, rfl⟩
        rintro rfl
        exact hempty (by simpa using hlength)
    · refine .of_uninit hleaf (fun path offset leaf hpart hzero => ?_) h (huninit hone)
      obtain ⟨_, rfl⟩ := (zeroed_missing_iff hitem).1 hzero
      cases hpart with
      | cell hcell => exact hone hcell

/-- The cells of an array with a list hold fillers if those of its elements do. -/
theorem holdFillers_array (ih : FillsWithin layouts evaluate depth) (hstruct : t.isStruct = false)
    (harray : t.isArray = true) {element : CType} (helement : t.element = .ok element)
    (htext : isCharElement element = .ok false)
    (hgives : Gives layouts evaluate t (.list line items) value)
    (h : cellsWithin layouts (depth + 1) name t address value = .ok cells) :
    HoldFillers layouts (.list line items) t name address cells := by
  obtain ⟨m, m', hvalue⟩ := hgives
  rw [initialValue, hstruct, if_neg Bool.false_ne_true, if_pos harray] at hvalue
  obtain ⟨element', m₁, hlift, hvalue⟩ := Eval.bind_eq_ok.1 hvalue
  obtain ⟨helement', rfl⟩ := Eval.lift_eq_ok.1 hlift
  obtain rfl := Except.ok.inj (helement.symm.trans helement')
  obtain ⟨values, m₂, hvalues, hvalue⟩ := Eval.bind_eq_ok.1 hvalue
  obtain ⟨rfl, rfl⟩ := Eval.pure_eq_ok.1 hvalue
  obtain ⟨hlength, hgiven⟩ := initialItems_gives hvalues
  obtain ⟨size, length, parts, hsize, hcount, hparts, rfl⟩ :=
    cellsWithin_of_isArray hstruct harray helement htext h
  refine .foldl (fun part hpart => ?_) fun part hpart => ?_
  · obtain ⟨_, _, _, _, hfill⟩ := mem_of_forall₂ hparts hpart
    exact cellsWithin_whole hfill
  obtain ⟨i, hi, item, hvalue, hfill⟩ := mem_of_forall₂ hparts hpart
  have hname : name ++ "[" ++ Numeral.decimal i ++ "]" = name ++ (Part.element i).text := by
    rw [Part.text, String.append_assoc, String.append_assoc, String.append_assoc]
  rw [hname] at hfill
  -- a leaf of an element is one of the array, with the index in front of its path
  have hleaf : ∀ path offset leaf, LeafAt layouts element path offset leaf →
      LeafAt layouts t (.element i :: path) (i * size + offset) leaf :=
    fun path offset leaf hleaf =>
      .element hstruct harray helement htext hsize hcount (List.mem_range.1 hi) hleaf
  cases hitem : items[i]? with
  | none => exact holdFillers_missing hlength hitem hvalue hleaf hfill
  | some init =>
    obtain ⟨v, hv, hgives⟩ := hgiven i init hitem
    unfold itemValue Value.items at hvalue
    rw [hv] at hvalue
    obtain rfl := Except.ok.inj hvalue
    refine .of_part hleaf (fun path hout => ?_) (fun path => ?_) (ih hgives hfill)
    · exact leftOut_of_element helement hitem hout
    · exact zeroed_element_iff helement hitem

end Levels

/-- **The cells of an object hold what is meant for them**, and fillers where nothing is. The
induction is on the levels of the object. -/
theorem holdFillers (hnames : ∀ e ∈ layouts, e.2.members.Apart) (depth : Nat) :
    FillsWithin layouts evaluate depth := by
  induction depth with
  | zero =>
    intro name t address init value cells _ h
    cases h
  | succ depth ih =>
    intro name t address init value cells hgives h
    cases init with
    | expr e =>
      intro c hc
      obtain ⟨path, offset, leaf, v, hleaf, rfl⟩ := cells_are_leaves h c hc
      exact ⟨path, offset, leaf, v, hleaf, rfl, fun hout => absurd hout LeftOut.not_expr⟩
    | list line items =>
      cases hstruct : t.isStruct with
      | true => exact holdFillers_struct hnames ih hstruct hgives h
      | false =>
        obtain hcell | ⟨harray, element, helement, htext⟩ := isCell_or_isArray hstruct h
        · intro c hc
          obtain ⟨path, offset, leaf, v, hleaf, rfl⟩ := cells_are_leaves h c hc
          refine ⟨path, offset, leaf, v, hleaf, rfl, fun hout => ?_⟩
          -- nothing of a single cell is left out
          obtain ⟨rfl, _⟩ := hleaf.of_isCell hcell
          cases hout
        · exact holdFillers_array ih hstruct harray helement htext hgives h

end Values

/-! ## Declarations -/

/-- A declaration stores what the cells of its object hold. -/
theorem declare_stores {setup : Setup} {m m' : Machine} (hm : m.Faithful) {frame name : String}
    {t : CType} {line : Int} {value : Value} {description : String} {b : Int}
    (h : declare setup frame name t line value description m = .ok (b, m')) :
    ∃ cells, objectCells setup.analysis.spare setup.analysis.layouts name t b value = .ok cells ∧
      ∀ a c, (.int a, c) ∈ cells → m'.read (.int a) = .ok c.value := by
  obtain ⟨size, cursor, cells, _, _, hcells, hemit⟩ := declare_cases h
  have hapart : cells.Apart := cellsWithin_apart hcells
  refine ⟨cells, hcells, fun a c hc => ?_⟩
  have hquiet : m.Quiet (({ m with cursor := cursor }).own t b frame name) :=
    Machine.Quiet.trans ⟨rfl, rfl, rfl, rfl, rfl⟩ (Machine.quiet_own _ _ _ _ _)
  have hplain : (declarationDelta frame name t b value cells).Plain := ⟨rfl, hapart⟩
  refine ((hm.quiet hquiet).read_emitted hplain hemit).2 ?_
  show ((Table.find? cells (.int a)).map CellPatch.value).or _ = _
  rw [Table.find?_of_mem hapart (by simp) hc]
  rfl

/-- What a declared object holds where its initializer leaves a leaf out. -/
theorem declare_fills {p : Program} {analysis : Analysis} {settings : Settings} {spare : Nat}
    {macros : Macros} (hlayouts : p.layouts spare macros = .ok analysis.layouts)
    (htags : ∀ s ∈ p.structs, s.Tagged) {n : Nat} {t : CType} (ht : p.Builds analysis.layouts n t)
    {evaluate : Expr → Run Typed} {init : Init} {value : Value}
    (hgives : Gives analysis.layouts evaluate t init value) {m m' : Machine} (hm : m.Faithful)
    {frame name : String} {line : Int} {description : String} {b : Int}
    (h : declare ⟨analysis, settings⟩ frame name t line value description m = .ok (b, m'))
    {path : Path} {offset : Int} {leaf : CType}
    (hleaf : LeafAt analysis.layouts t path offset leaf)
    (hout : LeftOut analysis.layouts init t path) :
    ∃ v, m'.read (.int (b + offset)) = .ok v ∧ Filler analysis.layouts init t path leaf v := by
  obtain ⟨cells, hcells, hstored⟩ := declare_stores hm h
  obtain ⟨size, cells', _, hcells', hat⟩ := ht.cellsAtLeaves hlayouts htags analysis.spare name b value
  obtain rfl := Except.ok.inj (hcells.symm.trans hcells')
  obtain ⟨v, hv⟩ := hat.cell path offset leaf hleaf
  refine ⟨v, hstored _ _ hv, ?_⟩
  have hfillers := holdFillers (layouts_members_apart hlayouts) _ hgives hcells
  obtain ⟨path', offset', leaf', v', hleaf', heq, hfill⟩ := hfillers _ hv
  obtain ⟨haddress, hcell⟩ := Prod.mk.inj heq
  obtain ⟨rfl, _, _⟩ := CellPatch.mk.inj hcell
  -- one address is that of one leaf
  obtain rfl : offset = offset' := by
    have haddress := Number.int.inj haddress
    omega
  obtain ⟨rfl, rfl⟩ := hat.unique _ _ _ _ _ hleaf hleaf'
  exact hfill hout

/-- **What an initializer leaves out is zero only where an array fills up.** In an object that is
declared with a braced list, a leaf that no expression covers holds a zero of its type if it is an
element behind the items of a list that has some, and it has no value otherwise: not if it is a
member behind the items of a struct's list, not if it is a part of an element behind the items, and
not if its list is empty. -/
theorem gaps_are_filled_in_arrays {source : String} {p : Program} {analysis : Analysis}
    {settings : Settings} (hparse : parse (tokenize source) = .ok p)
    (ha : analyze p source (tokenize source) = .ok analysis) {t : CType}
    (ht : p.Builds analysis.layouts p.structs.length t) {evaluate : Expr → Run Typed}
    {line : Nat} {items : List Init} {value : Value} {m₀ m m' : Machine}
    (hvalue : initialValue analysis.layouts evaluate t (.list line items) m₀ = .ok (value, m))
    (hm : Setup.Passes ⟨analysis, settings⟩ m) {frame name : String} {declared : Int}
    {description : String} {b : Int}
    (h : declare ⟨analysis, settings⟩ frame name t declared value description m = .ok (b, m')) :
    ∀ path offset leaf, LeafAt analysis.layouts t path offset leaf →
      LeftOut analysis.layouts (.list line items) t path →
      ∃ v, m'.read (.int (b + offset)) = .ok v ∧
        (Zeroed analysis.layouts (.list line items) t path ∧ (Value.int 0).coerce leaf = .ok v ∨
          ¬Zeroed analysis.layouts (.list line items) t path ∧ v = .uninit) := by
  intro path offset leaf hleaf hout
  exact declare_fills (analyze_layouts ha).1 (parse_tagged hparse) ht ⟨m₀, m, hvalue⟩ hm.faithful h
    hleaf hout

namespace ShortLists

open StructArray (program analysis isCell_int)

/-- What the declarations run under. -/
def setup : Setup := ⟨analysis, {}⟩

/-- How the items of a list are evaluated. -/
def evaluate : Expr → Run Typed :=
  evaluateWith setup (callAt setup noCommentary 1) []

/-- A list with a single number. -/
def list : Init := .list 2 [.expr (.literal 2 "1")]

/-- The type of an array of numbers. -/
def numbers : CType := ⟨"int[3]"⟩

/-- The machine with an object of a type that has the list as its initializer. -/
def declared (t : CType) (value : Value) : Except Fault (Int × Machine) :=
  declare setup "globals" "a" t 2 value "Declaration" (Machine.start {})

theorem exists_declared {t : CType} {value : Value}
    (h : (match declared t value with
      | .ok (b, _) => b == 4096
      | .error _ => false) = true) : ∃ m, declared t value = .ok (4096, m) := by
  cases hdeclared : declared t value with
  | error fault => simp [hdeclared] at h
  | ok result =>
    obtain ⟨b, m⟩ := result
    rw [hdeclared] at h
    exact ⟨m, by rw [eq_of_beq h]⟩

theorem initialValue_numbers (m : Machine) :
    initialValue analysis.layouts evaluate numbers list m = .ok (.list [.int 1], m) := by
  rfl

theorem initialValue_struct (m : Machine) :
    initialValue analysis.layouts evaluate ⟨"struct p"⟩ list m =
      .ok (.record [("x", .int 1)], m) := by
  rfl

theorem builds_numbers : program.Builds analysis.layouts program.structs.length numbers :=
  .array (by decide) rfl rfl rfl (by decide)
    (.cell isCell_int (.single (by decide)) (by decide +kernel))

theorem leaf_number : LeafAt analysis.layouts numbers [.element 2] 8 .int :=
  have hsize : CType.int.size analysis.layouts.sizes = .ok 4 := by decide +kernel
  .element (i := 2) (by decide) (by decide) rfl rfl hsize rfl (by decide) (.cell isCell_int)

/-- The first member is one, and the second one has no value. -/
def isHalf (m : Machine) : Bool :=
  match m.read (.int 4096), m.read (.int 4100) with
  | .ok (.num (.int n)), .ok .uninit => n == 1
  | _, _ => false

theorem exists_half : ∃ m, declared ⟨"struct p"⟩ (.record [("x", .int 1)]) = .ok (4096, m) ∧
    m.read (.int 4096) = .ok (.int 1) ∧ m.read (.int 4100) = .ok .uninit := by
  have hhalf : (match declared ⟨"struct p"⟩ (.record [("x", .int 1)]) with
      | .ok (b, m) => b == 4096 && isHalf m
      | .error _ => false) = true := by
    decide +kernel
  cases hdeclared : declared ⟨"struct p"⟩ (.record [("x", .int 1)]) with
  | error fault => simp [hdeclared] at hhalf
  | ok result =>
    obtain ⟨b, m⟩ := result
    rw [hdeclared, Bool.and_eq_true] at hhalf
    refine ⟨m, by rw [eq_of_beq hhalf.1], ?_⟩
    have hread := hhalf.2
    unfold isHalf at hread
    split at hread
    · next n hfirst hsecond => exact ⟨by rw [hfirst, eq_of_beq hread], hsecond⟩
    · cases hread

theorem leftOut_member : LeftOut analysis.layouts list ⟨"struct p"⟩ [.member "y"] :=
  have hmembers : analysis.layouts.membersOf ⟨"struct p"⟩
      = .ok [("x", 0, .int), ("y", 4, .int)] := rfl
  .member (k := 1) (e := ("y", 4, .int)) hmembers rfl rfl

theorem leaf_member : LeafAt analysis.layouts ⟨"struct p"⟩ [.member "y"] 4 .int :=
  .member (e := ("y", 4, .int)) (by decide) rfl (by decide) (.cell isCell_int)

end ShortLists

/-- The last of three numbers is zero if the first one is given. -/
theorem short_array_is_filled_up :
    parse (tokenize StructArray.source) = .ok StructArray.program ∧
    analyze StructArray.program StructArray.source (tokenize StructArray.source)
      = .ok StructArray.analysis ∧
    StructArray.program.Builds StructArray.analysis.layouts StructArray.program.structs.length
      ShortLists.numbers ∧
    initialValue StructArray.analysis.layouts ShortLists.evaluate ShortLists.numbers ShortLists.list
      (Machine.start {}) = .ok (.list [.int 1], Machine.start {}) ∧
    ShortLists.setup.Passes (Machine.start {}) ∧
    LeafAt StructArray.analysis.layouts ShortLists.numbers [.element 2] 8 .int ∧
    LeftOut StructArray.analysis.layouts ShortLists.list ShortLists.numbers [.element 2] ∧
    ∃ m, ShortLists.declared ShortLists.numbers (.list [.int 1]) = .ok (4096, m) ∧
      m.read (.int 4104) = .ok (.int 0) := by
  have hparse : parse (tokenize StructArray.source) = .ok StructArray.program := by
    rw [StructArray.tokenize_source, StructArray.parse_tokens]
  have hanalyze : analyze StructArray.program StructArray.source (tokenize StructArray.source)
      = .ok StructArray.analysis := by
    rw [StructArray.tokenize_source, StructArray.analyze_program]
  have hvalue := ShortLists.initialValue_numbers (Machine.start {})
  have hpasses : ShortLists.setup.Passes (Machine.start {}) := .refl
  have hout : LeftOut StructArray.analysis.layouts ShortLists.list ShortLists.numbers [.element 2] :=
    .element rfl
  have hdeclared : (match ShortLists.declared ShortLists.numbers (.list [.int 1]) with
      | .ok (b, _) => b == 4096
      | .error _ => false) = true := by decide +kernel
  obtain ⟨m, hm⟩ := ShortLists.exists_declared hdeclared
  refine ⟨hparse, hanalyze, ShortLists.builds_numbers, hvalue, hpasses, ShortLists.leaf_number, hout,
    m, hm, ?_⟩
  obtain ⟨v, hread, ⟨_, hzero⟩ | ⟨hnot, _⟩⟩ := gaps_are_filled_in_arrays hparse hanalyze
    ShortLists.builds_numbers hvalue hpasses hm _ _ _ ShortLists.leaf_number hout
  · obtain rfl : Value.int 0 = v := Except.ok.inj hzero
    exact hread
  · exact absurd (Zeroed.element (by simp) rfl) hnot

/-- The second member of a struct has no value if only the first one is given. -/
theorem short_struct_is_not_filled_up :
    initialValue StructArray.analysis.layouts ShortLists.evaluate ⟨"struct p"⟩ ShortLists.list
      (Machine.start {}) = .ok (.record [("x", .int 1)], Machine.start {}) ∧
    LeafAt StructArray.analysis.layouts ⟨"struct p"⟩ [.member "y"] 4 .int ∧
    LeftOut StructArray.analysis.layouts ShortLists.list ⟨"struct p"⟩ [.member "y"] ∧
    ∃ m, ShortLists.declared ⟨"struct p"⟩ (.record [("x", .int 1)]) = .ok (4096, m) ∧
      m.read (.int 4096) = .ok (.int 1) ∧ m.read (.int 4100) = .ok .uninit :=
  ⟨ShortLists.initialValue_struct _, ShortLists.leaf_member, ShortLists.leftOut_member,
    ShortLists.exists_half⟩

end Stepwise
