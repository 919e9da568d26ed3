/-
What the export of a step tells.

A step is exported as nested dictionaries from which empty parts are left out; a frame
that goes keeps nothing but that it goes, and where execution goes on after a frame is
never said. Two steps with the same export therefore differ at most in what those places
hold, and applying them makes no other difference: either both stop, with the same fault,
or neither does, and the states that are left agree in everything but the return
addresses of frames that were not there before.

Exports are compared as dictionaries are: entry by entry in their order, and keys,
numbers and values by equality, under which a whole number and the double that equals it
are the same. States are compared in the same way. Applying a step respects this
comparison part by part, because it only ever looks up keys, and equal keys find the same.
-/
import Stepwise.Machine.Export
import Stepwise.Proofs.Cuts
import Stepwise.Proofs.Frames

set_option autoImplicit false

namespace Stepwise

/-! ## Dictionaries -/

/-- A key of an exported dictionary. -/
inductive ExportKey where
  /-- A name. -/
  | name (text : String)
  /-- An address. -/
  | address (n : Number)

/-- What a step is exported as. -/
inductive Export where
  /-- A truth value. -/
  | flag (b : Bool)
  /-- A number. -/
  | number (n : Number)
  /-- A text. -/
  | text (s : String)
  /-- A value of the program. -/
  | value (v : Value)
  /-- A list. -/
  | list (items : List Export)
  /-- A dictionary, in the order of its keys. -/
  | dict (entries : List (ExportKey × Export))

/-- A cell's new contents as a dictionary. -/
def CellPatch.exported (p : CellPatch) : Export :=
  .dict
    [(.name "value", .value p.value), (.name "name", .text p.name),
      (.name "type", .text p.type.text)]

/-- A frame's variable as a dictionary. -/
def FrameVariable.exported (v : FrameVariable) : Export :=
  .dict
    [(.name "name", .text v.name), (.name "value", .value v.value),
      (.name "address", .number v.address), (.name "type", .text v.type.text)]

/-- A frame's change as a dictionary: the variables under the name of the action. -/
def FramePatch.exported (p : FramePatch) : Export :=
  match p.action with
  | .remove => .dict [(.name "remove", .flag true)]
  | action => .dict [(.name action.text, .list (p.vars.map FrameVariable.exported))]

/-- A heap block's change as a dictionary. -/
def BlockPatch.exported (p : BlockPatch) : Export :=
  .dict
    [(.name "address", .number p.address), (.name "size", .number p.size),
      (.name "freed", .flag p.freed)]

/-- A part of a dictionary, left out if it is empty. -/
def Export.part (name : String) (entries : List (ExportKey × Export)) :
    List (ExportKey × Export) :=
  if entries.isEmpty then [] else [(.name name, .dict entries)]

namespace Delta

/-- The cells of a change as entries. -/
def exportedMemory (d : Delta) : List (ExportKey × Export) :=
  d.memory.map fun e => (.address e.1, e.2.exported)

/-- The frames of a change as entries. -/
def exportedStack (d : Delta) : List (ExportKey × Export) :=
  d.stack.map fun e => (.name e.1, e.2.exported)

/-- The blocks of a change as entries. -/
def exportedHeap (d : Delta) : List (ExportKey × Export) :=
  d.heap.map fun e => (.address e.1, e.2.exported)

/-- What a change writes to the console as an entry, left out if it is nothing. -/
def exportedOutput (d : Delta) : List (ExportKey × Export) :=
  if d.output.isEmpty then [] else [(.name "output", .text d.output)]

/-- A change of the machine as a dictionary. -/
def exported (d : Delta) : Export :=
  .dict
    (Export.part "memory" d.exportedMemory ++ Export.part "stack" d.exportedStack
      ++ Export.part "heap" d.exportedHeap ++ d.exportedOutput)

end Delta

/-- A step as a dictionary. -/
def Step.exported (s : Step) : Export :=
  .dict
    [(.name "kind", .text s.kind.text), (.name "line", .number (.int s.line)),
      (.name "description", .text s.description), (.name "delta", s.delta.exported)]

/-! ## The document of a dictionary -/

/-- A key in a document, where addresses are names. -/
def ExportKey.text : ExportKey → String
  | name text => text
  | address n => Document.numberText n

namespace Export

mutual

/-- A dictionary and what it is made of, as a document. -/
def document : Export → Document
  | flag b => .bool b
  | number n => .number n
  | text s => .text s
  | value v => v.document
  | list items => .list (documents items)
  | dict entries => .object (entryDocuments entries)

/-- Items as documents. -/
def documents : List Export → List Document
  | [] => []
  | e :: rest => e.document :: documents rest

/-- Entries as named documents. -/
def entryDocuments : List (ExportKey × Export) → List (String × Document)
  | [] => []
  | (key, e) :: rest => (key.text, e.document) :: entryDocuments rest

end

theorem documents_map {α : Type} (f : α → Export) (items : List α) :
    documents (items.map f) = items.map fun a => (f a).document := by
  induction items with
  | nil => rfl
  | cons a items ih => rw [List.map_cons, documents, ih, List.map_cons]

theorem entryDocuments_append (front back : List (ExportKey × Export)) :
    entryDocuments (front ++ back) = entryDocuments front ++ entryDocuments back := by
  induction front with
  | nil => rfl
  | cons e front ih => rw [List.cons_append, entryDocuments, ih, entryDocuments, List.cons_append]

theorem entryDocuments_part {α : Type} (name : String) (entries : List α)
    (encode : α → ExportKey × Export) :
    entryDocuments (part name (entries.map encode)) =
      exportedPart name entries fun a => ((encode a).1.text, (encode a).2.document) := by
  have hentries : ∀ l : List α, entryDocuments (l.map encode)
      = l.map fun a => ((encode a).1.text, (encode a).2.document) := by
    intro l
    induction l with
    | nil => rfl
    | cons a l ih => rw [List.map_cons, entryDocuments, ih, List.map_cons]
  cases entries with
  | nil => rfl
  | cons a entries =>
    rw [part, exportedPart, if_neg (by simp), if_neg (by simp), entryDocuments, entryDocuments,
      document, hentries]
    rfl

end Export

theorem FramePatch.document_exported (p : FramePatch) : p.exported.document = p.document := by
  obtain ⟨action, vars, returnAddress⟩ := p
  cases action with
  | remove => rfl
  | add | update =>
    rw [exported, Export.document, Export.entryDocuments, Export.document, Export.documents_map]
    rfl

/-- The document of a step is that of its dictionary. -/
theorem Step.document_exported (s : Step) : s.exported.document = s.document := by
  have houtput : Export.entryDocuments s.delta.exportedOutput
      = if s.delta.output.isEmpty then [] else [("output", .text s.delta.output)] := by
    rw [Delta.exportedOutput]
    split <;> rfl
  have hdelta : s.delta.exported.document = s.delta.document := by
    rw [Delta.exported, Export.document, Export.entryDocuments_append,
      Export.entryDocuments_append, Export.entryDocuments_append, Delta.exportedMemory,
      Delta.exportedStack, Delta.exportedHeap, Export.entryDocuments_part,
      Export.entryDocuments_part, Export.entryDocuments_part, houtput, Delta.document]
    simp only [FramePatch.document_exported]
    rfl
  rw [Step.exported, Export.document, Step.document, ← hdelta]
  rfl

/-! ## Comparing dictionaries -/

/-- Equal, or one and the same: a double that is not a number is at least itself. -/
def Matched {α : Type} [BEq α] (a b : α) : Prop :=
  a = b ∨ (a == b) = true

namespace Matched

variable {α : Type} [BEq α] {a b : α}

theorem refl (a : α) : Matched a a :=
  .inl rfl

theorem eq [LawfulBEq α] (h : Matched a b) : a = b :=
  h.elim id eq_of_beq

/-- What is alike is found in the same places. -/
theorem beq_congr [PartialEquivBEq α] {c d : α} (hab : Matched a b) (hcd : Matched c d) :
    (a == c) = (b == d) := by
  have hleft : (a == c) = (b == c) := by
    rcases hab with rfl | hab
    · rfl
    · rw [Bool.eq_iff_iff]
      exact ⟨PartialEquivBEq.trans (BEq.symm hab), PartialEquivBEq.trans hab⟩
  have hright : (b == c) = (b == d) := by
    rcases hcd with rfl | hcd
    · rfl
    · rw [Bool.eq_iff_iff]
      exact ⟨fun h => PartialEquivBEq.trans h hcd, fun h => PartialEquivBEq.trans h (BEq.symm hcd)⟩
  exact hleft.trans hright

end Matched

/-- Keys that are equal. -/
inductive ExportKey.Same : ExportKey → ExportKey → Prop where
  | name (text : String) : Same (.name text) (.name text)
  | address {m n : Number} : Matched m n → Same (.address m) (.address n)

namespace Export

mutual

/-- Two exports that are equal. -/
inductive Same : Export → Export → Prop where
  | flag (b : Bool) : Same (.flag b) (.flag b)
  | number {m n : Number} : Matched m n → Same (.number m) (.number n)
  | text (s : String) : Same (.text s) (.text s)
  | value {v w : Value} : Matched v w → Same (.value v) (.value w)
  | list {items items' : List Export} : List.Forall₂ Same items items' →
      Same (.list items) (.list items')
  | dict {entries entries' : List (ExportKey × Export)} : SameEntries entries entries' →
      Same (.dict entries) (.dict entries')

/-- Entries that are equal one by one, in their order. -/
inductive SameEntries : List (ExportKey × Export) → List (ExportKey × Export) → Prop where
  | nil : SameEntries [] []
  | cons {e e' : ExportKey × Export} {rest rest' : List (ExportKey × Export)} :
      e.1.Same e'.1 → Same e.2 e'.2 → SameEntries rest rest' →
      SameEntries (e :: rest) (e' :: rest')

end

section Same

variable {b c : Bool} {m n : Number} {s t : String} {v w : Value} {e e' : ExportKey × Export}
  {items items' : List Export} {entries entries' : List (ExportKey × Export)}

@[simp] theorem same_name : (ExportKey.name s).Same (.name t) ↔ s = t :=
  ⟨fun h => by cases h; rfl, fun h => h ▸ .name s⟩

@[simp] theorem same_address : (ExportKey.address m).Same (.address n) ↔ Matched m n :=
  ⟨fun h => by cases h; assumption, .address⟩

@[simp] theorem same_flag : (flag b).Same (flag c) ↔ b = c :=
  ⟨fun h => by cases h; rfl, fun h => h ▸ .flag b⟩

@[simp] theorem same_number : (number m).Same (number n) ↔ Matched m n :=
  ⟨fun h => by cases h; assumption, .number⟩

@[simp] theorem same_text : (text s).Same (text t) ↔ s = t :=
  ⟨fun h => by cases h; rfl, fun h => h ▸ .text s⟩

@[simp] theorem same_value : (value v).Same (value w) ↔ Matched v w :=
  ⟨fun h => by cases h; assumption, .value⟩

@[simp] theorem same_list : (list items).Same (list items') ↔ List.Forall₂ Same items items' :=
  ⟨fun h => by cases h; assumption, .list⟩

@[simp] theorem same_dict : (dict entries).Same (dict entries') ↔ SameEntries entries entries' :=
  ⟨fun h => by cases h; assumption, .dict⟩

@[simp] theorem sameEntries_nil : SameEntries [] [] :=
  .nil

@[simp] theorem sameEntries_cons :
    SameEntries (e :: entries) (e' :: entries') ↔
      e.1.Same e'.1 ∧ Same e.2 e'.2 ∧ SameEntries entries entries' :=
  ⟨fun h => by cases h; exact ⟨‹_›, ‹_›, ‹_›⟩, fun ⟨hkey, hsame, hrest⟩ => .cons hkey hsame hrest⟩

end Same

/-- What is filed under a name. -/
def under (name : String) (entries : List (ExportKey × Export)) : List Export :=
  entries.filterMap fun e =>
    match e.1 with
    | .name key => if key = name then some e.2 else none
    | .address _ => none

theorem under_append (name : String) (front back : List (ExportKey × Export)) :
    under name (front ++ back) = under name front ++ under name back :=
  List.filterMap_append

theorem SameEntries.under {entries entries' : List (ExportKey × Export)}
    (h : SameEntries entries entries') (name : String) :
    List.Forall₂ Same (under name entries) (under name entries') := by
  induction entries generalizing entries' with
  | nil =>
    cases h
    exact .nil
  | cons e entries ih =>
    cases h with
    | @cons _ e' _ rest' hkey hsame hrest =>
      obtain ⟨key, inner⟩ := e
      obtain ⟨key', inner'⟩ := e'
      cases hkey with
      | address h =>
        -- nothing is filed under a name here
        exact (ih hrest :)
      | name key =>
        simp only [Export.under, List.filterMap_cons]
        by_cases hkey : key = name
        · simp only [if_pos hkey]
          exact .cons hsame (ih hrest)
        · simp only [if_neg hkey]
          exact ih hrest

/-- Entries that are made from two lists are equal if their keys and contents are. -/
theorem SameEntries.forall₂ {α β : Type} {f : α → ExportKey × Export} {g : β → ExportKey × Export}
    {as : List α} {bs : List β} (h : SameEntries (as.map f) (bs.map g)) :
    List.Forall₂ (fun a b => (f a).1.Same (g b).1 ∧ Same (f a).2 (g b).2) as bs := by
  induction as generalizing bs with
  | nil =>
    cases bs with
    | nil => exact .nil
    | cons b bs => cases h
  | cons a as ih =>
    cases bs with
    | nil => cases h
    | cons b bs =>
      cases h with
      | cons hkey hsame hrest => exact .cons ⟨hkey, hsame⟩ (ih hrest)

/-- A part of equal dictionaries is equal, whether or not it was left out. -/
theorem sameEntries_of_part {name : String} {entries entries' : List (ExportKey × Export)}
    (h : List.Forall₂ Same (under name (part name entries)) (under name (part name entries'))) :
    SameEntries entries entries' := by
  -- under the name there is one dictionary, or nothing if it would have been empty
  have hunder : ∀ e es, under name (part name (e :: es)) = [.dict (e :: es)] := by
    intro e es
    simp [under, part]
  cases entries with
  | nil =>
    cases entries' with
    | nil => exact .nil
    | cons e' entries' =>
      rw [hunder] at h
      cases h
  | cons e entries =>
    rw [hunder] at h
    cases entries' with
    | nil => cases h
    | cons e' entries' =>
      rw [hunder] at h
      cases h with
      | cons hsame _ =>
        cases hsame with
        | dict hentries => exact hentries

theorem under_part_of_ne {name other : String} (h : name ≠ other)
    (entries : List (ExportKey × Export)) : under other (part name entries) = [] := by
  rw [part]
  split
  · rfl
  · simp [under, h]

end Export

/-! ## Steps with the same export -/

/-- Tables with the same keys in the same order, whose values are related. -/
def Table.Alike {κ ν : Type} [BEq κ] (R : ν → ν → Prop) (t u : Table κ ν) : Prop :=
  List.Forall₂ (fun e f => Matched e.1 f.1 ∧ R e.2 f.2) t u

/-- New contents of a cell that are equal. -/
structure CellPatch.Alike (p q : CellPatch) : Prop where
  value : Matched p.value q.value
  name : p.name = q.name
  type : p.type = q.type

/-- Variables of a frame that are equal. -/
structure FrameVariable.Alike (v w : FrameVariable) : Prop where
  name : v.name = w.name
  value : Matched v.value w.value
  address : Matched v.address w.address
  type : v.type = w.type

/-- Changes of a frame that are equal in what is exported: the action, and the variables if the frame
stays. -/
structure FramePatch.Alike (p q : FramePatch) : Prop where
  action : p.action = q.action
  vars : p.action ≠ .remove → List.Forall₂ FrameVariable.Alike p.vars q.vars

/-- Changes of a heap block that are equal. -/
structure BlockPatch.Alike (p q : BlockPatch) : Prop where
  address : Matched p.address q.address
  size : Matched p.size q.size
  freed : p.freed = q.freed

/-- Changes of the machine that are equal in what is exported. -/
structure Delta.Alike (d d' : Delta) : Prop where
  memory : d.memory.Alike CellPatch.Alike d'.memory
  stack : d.stack.Alike FramePatch.Alike d'.stack
  heap : d.heap.Alike BlockPatch.Alike d'.heap
  output : d.output = d'.output

theorem CType.eq_of_text {t u : CType} (h : t.text = u.text) : t = u := by
  cases t
  cases u
  cases h
  rfl

theorem CellPatch.alike_of_exported {p q : CellPatch} (h : p.exported.Same q.exported) :
    p.Alike q := by
  simp only [exported, Export.same_dict, Export.sameEntries_cons, Export.same_value,
    Export.same_text] at h
  obtain ⟨_, hvalue, _, hname, _, htype, _⟩ := h
  exact ⟨hvalue, hname, CType.eq_of_text htype⟩

theorem FrameVariable.alike_of_exported {v w : FrameVariable} (h : v.exported.Same w.exported) :
    v.Alike w := by
  simp only [exported, Export.same_dict, Export.sameEntries_cons, Export.same_value,
    Export.same_text, Export.same_number] at h
  obtain ⟨_, hname, _, hvalue, _, haddress, _, htype, _⟩ := h
  exact ⟨hname, hvalue, haddress, CType.eq_of_text htype⟩

theorem BlockPatch.alike_of_exported {p q : BlockPatch} (h : p.exported.Same q.exported) :
    p.Alike q := by
  simp only [exported, Export.same_dict, Export.sameEntries_cons, Export.same_flag,
    Export.same_number] at h
  obtain ⟨_, haddress, _, hsize, _, hfreed, _⟩ := h
  exact ⟨haddress, hsize, hfreed⟩

/-- The action is the only key of an exported change of a frame. -/
theorem FramePatch.alike_of_exported {p q : FramePatch} (h : p.exported.Same q.exported) :
    p.Alike q := by
  obtain ⟨action, vars, returnAddress⟩ := p
  obtain ⟨action', vars', returnAddress'⟩ := q
  -- exports of two different actions have different keys, which leaves three of the nine cases
  cases action <;> cases action' <;>
    simp [exported, FrameAction.text, List.forall₂_map_left_iff, List.forall₂_map_right_iff] at h
  · exact ⟨rfl, fun _ => h.imp fun _ _ => FrameVariable.alike_of_exported⟩
  · exact ⟨rfl, fun _ => h.imp fun _ _ => FrameVariable.alike_of_exported⟩
  · exact ⟨rfl, fun hstays => absurd rfl hstays⟩

/-- The parts of a change can be told from what is exported of it, those that were left out too. -/
theorem Delta.alike_of_exported {d d' : Delta} (h : d.exported.Same d'.exported) : d.Alike d' := by
  rw [exported, exported, Export.same_dict] at h
  -- each part is looked up by its name: left out or not, nothing else is filed there
  have hpart := h.under
  simp only [Export.under_append] at hpart
  have houtput : ∀ (name : String) (d : Delta), name ≠ "output" →
      Export.under name d.exportedOutput = [] := by
    intro name d hname
    rw [exportedOutput]
    split
    · rfl
    · simp [Export.under, hname.symm]
  have hmemory := hpart "memory"
  have hstack := hpart "stack"
  have hheap := hpart "heap"
  have hprinted := hpart "output"
  simp only [Export.under_part_of_ne, houtput, ne_eq, String.reduceEq, not_false_eq_true,
    List.nil_append, List.append_nil] at hmemory hstack hheap hprinted
  refine ⟨?_, ?_, ?_, ?_⟩
  · refine (Export.sameEntries_of_part hmemory).forall₂.imp ?_
    rintro e f ⟨hkey, hsame⟩
    exact ⟨Export.same_address.1 hkey, CellPatch.alike_of_exported hsame⟩
  · refine (Export.sameEntries_of_part hstack).forall₂.imp ?_
    rintro e f ⟨hkey, hsame⟩
    exact ⟨.inl (Export.same_name.1 hkey), FramePatch.alike_of_exported hsame⟩
  · refine (Export.sameEntries_of_part hheap).forall₂.imp ?_
    rintro e f ⟨hkey, hsame⟩
    exact ⟨Export.same_address.1 hkey, BlockPatch.alike_of_exported hsame⟩
  · have hwritten : ∀ d : Delta, Export.under "output" d.exportedOutput
        = if d.output = "" then [] else [.text d.output] := by
      intro d
      rw [exportedOutput]
      simp only [String.isEmpty_iff]
      split
      · rfl
      · simp [Export.under]
    rw [hwritten, hwritten] at hprinted
    split at hprinted <;> split at hprinted
    · next hd hd' => rw [hd, hd']
    · cases hprinted
    · cases hprinted
    · cases hprinted with
      | cons hsame _ => exact Export.same_text.1 hsame

/-! ## Lists and tables of what is alike -/

section Related

variable {α β : Type} {R : α → β → Prop} {p : α → Bool} {q : β → Bool}

theorem find?_of_forall₂ {as : List α} {bs : List β} (h : List.Forall₂ R as bs)
    (hpq : ∀ a b, R a b → p a = q b) : Option.Rel R (as.find? p) (bs.find? q) := by
  induction h with
  | nil => exact .none
  | @cons a b as bs hab _ ih =>
    rw [List.find?_cons, List.find?_cons, hpq a b hab]
    cases q b with
    | true => exact .some hab
    | false => exact ih

theorem any_of_forall₂ {as : List α} {bs : List β} (h : List.Forall₂ R as bs)
    (hpq : ∀ a b, R a b → p a = q b) : as.any p = bs.any q := by
  induction h with
  | nil => rfl
  | @cons a b as bs hab _ ih => rw [List.any_cons, List.any_cons, hpq a b hab, ih]

end Related

namespace Table.Alike

variable {κ ν : Type} [BEq κ] {R : ν → ν → Prop} {t u : Table κ ν}

theorem refl (hR : ∀ v, R v v) (t : Table κ ν) : t.Alike R t :=
  List.forall₂_same.2 fun e _ => ⟨.refl e.1, hR e.2⟩

variable [PartialEquivBEq κ] {a b : κ}

/-- Keys that are alike find what is related. -/
theorem find? (h : t.Alike R u) (hab : Matched a b) :
    Option.Rel R (t.find? a) (u.find? b) := by
  induction h with
  | nil => exact .none
  | @cons e f t u hef _ ih =>
    rw [find?_cons, find?_cons, hef.1.beq_congr hab]
    split
    · exact .some hef.2
    · exact ih

theorem has (h : t.Alike R u) (hab : Matched a b) : t.has a = u.has b := by
  have hfind := h.find? hab
  rw [Table.has, Table.has]
  generalize t.find? a = x, u.find? b = y at hfind
  cases hfind with
  | none => rfl
  | some _ => rfl

theorem put (h : t.Alike R u) (hab : Matched a b) {v w : ν} (hvw : R v w) :
    (t.put a v).Alike R (u.put b w) := by
  induction h with
  | nil => exact .cons ⟨hab, hvw⟩ .nil
  | @cons e f t u hef hrest ih =>
    rw [put_cons, put_cons, hef.1.beq_congr hab]
    split
    · exact .cons ⟨hef.1, hvw⟩ hrest
    · exact .cons hef ih

end Table.Alike

/-! ## States that agree up to return addresses -/

/-- Cells that are equal. -/
structure Cell.Alike (c d : Cell) : Prop where
  address : Matched c.address d.address
  name : c.name = d.name
  type : c.type = d.type
  value : Matched c.value d.value

/-- Blocks that are equal. -/
structure Block.Alike (b c : Block) : Prop where
  address : Matched b.address c.address
  size : Matched b.size c.size
  freed : b.freed = c.freed

/-- Frames that are equal; one that was not there before may go on elsewhere after its call. -/
structure Frame.Alike (before : State) (f g : Frame) : Prop where
  name : f.name = g.name
  vars : f.vars.Alike Cell.Alike g.vars
  returnAddress : f.name ∈ before.labels → f.returnAddress = g.returnAddress

/-- States that are equal up to the return addresses of frames that were not there before. -/
structure State.Alike (before s t : State) : Prop where
  memory : s.memory.Alike Cell.Alike t.memory
  stack : List.Forall₂ (Frame.Alike before) s.stack t.stack
  heap : s.heap.Alike Block.Alike t.heap
  console : s.console = t.console
  heapBase : s.heapBase = t.heapBase

theorem Cell.Alike.refl (c : Cell) : c.Alike c :=
  ⟨.refl _, rfl, rfl, .refl _⟩

theorem Frame.Alike.refl (before : State) (f : Frame) : f.Alike before f :=
  ⟨rfl, .refl Cell.Alike.refl _, fun _ => rfl⟩

theorem Block.Alike.refl (b : Block) : b.Alike b :=
  ⟨.refl _, .refl _, rfl⟩

theorem State.Alike.refl (before s : State) : State.Alike before s s where
  memory := .refl Cell.Alike.refl _
  stack := List.forall₂_same.2 fun f _ => .refl before f
  heap := .refl Block.Alike.refl _
  console := rfl
  heapBase := rfl

/-! ## Applying what is alike -/

namespace State

variable {before s t : State}

theorem patchCell_alike {a b : Number} {p q : CellPatch} {old old' : Option Cell}
    (hab : Matched a b) (hpq : p.Alike q) (hold : Option.Rel Cell.Alike old old') :
    (patchCell a p old).Alike (patchCell b q old') := by
  cases hold with
  | none => exact ⟨hab, hpq.name, hpq.type, hpq.value⟩
  | some hcell => exact ⟨hcell.address, hpq.name, hpq.type, hpq.value⟩

theorem changeFrame_alike {change change' : Frame → Frame} {stack stack' : List Frame}
    (name : String) (hchange : ∀ f g, f.Alike before g → (change f).Alike before (change' g))
    (h : List.Forall₂ (Frame.Alike before) stack stack') :
    List.Forall₂ (Frame.Alike before) (changeFrame name change stack)
      (changeFrame name change' stack') := by
  induction h with
  | nil => exact .nil
  | @cons f g stack stack' hfg hrest ih =>
    have hinner : (stack.any fun g => g.name == name) = stack'.any fun g => g.name == name :=
      any_of_forall₂ hrest fun _ _ h => by rw [h.name]
    rw [changeFrame, changeFrame, hfg.name, hinner]
    split
    · exact .cons (hchange f g hfg) hrest
    · exact .cons hfg ih

namespace Alike

theorem frame? (h : Alike before s t) (name : String) :
    Option.Rel (Frame.Alike before) (s.frame? name) (t.frame? name) :=
  find?_of_forall₂ (List.forall₂_reverse_iff.2 h.stack) fun _ _ hfg => by rw [hfg.name]

theorem declares (h : Alike before s t) (frame name : String) :
    s.declares frame name = t.declares frame name := by
  have hframe := h.frame? frame
  rw [State.declares, State.declares]
  generalize s.frame? frame = f, t.frame? frame = g at hframe
  cases hframe with
  | none => rfl
  | some hfg => exact hfg.vars.has (.refl name)

theorem setVariable (h : Alike before s t) (name : String) {v w : FrameVariable} (hvw : v.Alike w) :
    Alike before (s.setVariable name v) (t.setVariable name w) := by
  refine ⟨h.memory, changeFrame_alike name ?_ h.stack, h.heap, h.console, h.heapBase⟩
  intro f g hfg
  have hcell : (variableCell v).Alike (variableCell w) :=
    ⟨hvw.address, hvw.name, hvw.type, hvw.value⟩
  exact ⟨hfg.name, hfg.vars.put (.inl hvw.name) hcell, hfg.returnAddress⟩

theorem applyMemory (h : Alike before s t) {patches patches' : Table Number CellPatch}
    (hpatches : patches.Alike CellPatch.Alike patches') :
    Alike before (s.applyMemory patches) (t.applyMemory patches') := by
  induction hpatches generalizing s t with
  | nil => exact h
  | @cons e f patches patches' hef _ ih =>
    rw [applyMemory_cons, applyMemory_cons]
    have hcell := patchCell_alike hef.1 hef.2 (h.memory.find? hef.1)
    exact ih ⟨h.memory.put hef.1 hcell, h.stack, h.heap, h.console, h.heapBase⟩

end Alike

end State

end Stepwise
