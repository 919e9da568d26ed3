/-
The frames of the active calls.

The machine keeps a list of the functions that are being executed, and computes
the label of a call from it: the name of the function, with a number from the
second active call on. The frames are part of the state, and steps find them by
their labels. That the frames are those of the active calls, in their order, is
kept by every move: an act and a declaration add no frame but that of the
variables outside functions, a call adds one on top, under a label that no other
has, and a return takes that frame away again.

Labels are told apart because the name of a function has no number sign in it.
-/
import Stepwise.Proofs.Names
import Stepwise.Proofs.Views
import Stepwise.Syntax.Equality
import Mathlib.Data.List.Permutation

set_option autoImplicit false

namespace Stepwise

open Relation (ReflTransGen)

/-! ## Labels -/

/-- The labels of calls, outermost first, given the functions that are called, innermost first. The
first active call of a function has its name as label, the second has the number two added, and so
on. -/
def callLabels : List String → List String
  | [] => []
  | name :: outer => callLabels outer ++ [Machine.label name (outer.count name)]

example : callLabels ["f", "g", "f", "main"] = ["main", "f", "g", "f#2"] := by decide

theorem Numeral.decimal_inj {i j : Nat} (h : decimal i = decimal j) : i = j := by
  have hdigits : Nat.toDigits 10 i = Nat.toDigits 10 j := by
    rw [← toList_decimal, h, toList_decimal]
  calc i = Nat.ofDigitChars 10 (Nat.toDigits 10 i) 0 := Nat.ofDigitChars_ten_toDigits.symm
    _ = Nat.ofDigitChars 10 (Nat.toDigits 10 j) 0 := by rw [hdigits]
    _ = j := Nat.ofDigitChars_ten_toDigits

namespace Machine

/-- What stands before the number sign in a label is the name. -/
theorem takeWhile_label {name : String} (h : '#' ∉ name.toList) (earlier : Nat) :
    (label name earlier).toList.takeWhile (· != '#') = name.toList := by
  have hname : ∀ c ∈ name.toList, (c != '#') = true := by
    intro c hc
    rw [bne_iff_ne]
    rintro rfl
    exact h hc
  unfold label
  split
  · rw [List.takeWhile_eq_self_iff]
    exact hname
  · rw [String.toList_append, String.toList_append, List.append_assoc,
      List.takeWhile_append_of_pos hname]
    show name.toList ++ List.takeWhile _ ('#' :: _) = name.toList
    rw [List.takeWhile_cons, if_neg (by decide), List.append_nil]

theorem label_inj {a b : String} (ha : '#' ∉ a.toList) (hb : '#' ∉ b.toList) {i j : Nat}
    (h : label a i = label b j) : a = b ∧ i = j := by
  have hname : a = b := by
    rw [String.ext_iff, ← takeWhile_label ha i, h, takeWhile_label hb]
  subst hname
  refine ⟨rfl, ?_⟩
  have hsign : ∀ number : String, a ≠ a ++ "#" ++ number := by
    intro number heq
    rw [heq] at ha
    exact ha (by simp)
  unfold label at h
  split at h
  · split at h
    · omega
    · exact absurd h (hsign _)
  · split at h
    · exact absurd h.symm (hsign _)
    · have hnumber : Numeral.decimal (i + 1 : Nat) = Numeral.decimal (j + 1 : Nat) :=
        (String.append_right_inj _).1 h
      have := Numeral.decimal_inj hnumber
      omega

end Machine

/-- Names that labels can be told apart by: no number sign in them, and not the one of the frame
outside functions. -/
structure Callable (name : String) : Prop where
  sign : '#' ∉ name.toList
  notGlobal : name ≠ globalFrame

theorem label_ne_globalFrame {name : String} (h : Callable name) (earlier : Nat) :
    Machine.label name earlier ≠ globalFrame := by
  intro heq
  refine h.notGlobal (Machine.label_inj h.sign (by decide) (i := earlier) (j := 0) ?_).1
  rw [heq]
  rfl

/-- The labels of a function's calls are numbered below the number of the calls. -/
theorem lt_count_of_label_mem {calls : List String} {name : String} {k : Nat}
    (hname : Callable name) (hcalls : ∀ other ∈ calls, Callable other)
    (h : Machine.label name k ∈ callLabels calls) : k < calls.count name := by
  induction calls with
  | nil => cases h
  | cons other outer ih =>
    rw [List.forall_mem_cons] at hcalls
    rw [callLabels, List.mem_append, List.mem_singleton] at h
    rw [List.count_cons]
    rcases h with h | h
    · have := ih hcalls.2 h
      omega
    · obtain ⟨rfl, rfl⟩ := Machine.label_inj hname.sign hcalls.1.sign h
      rw [beq_self_eq_true, if_pos rfl]
      omega

theorem nextLabel_not_mem {calls : List String} {name : String} (hname : Callable name)
    (hcalls : ∀ other ∈ calls, Callable other) :
    Machine.label name (calls.count name) ∉ callLabels calls := by
  intro h
  have := lt_count_of_label_mem hname hcalls h
  omega

theorem globalFrame_not_mem {calls : List String} (hcalls : ∀ name ∈ calls, Callable name) :
    globalFrame ∉ callLabels calls := by
  induction calls with
  | nil => exact List.not_mem_nil
  | cons name outer ih =>
    rw [List.forall_mem_cons] at hcalls
    rw [callLabels, List.mem_append, List.mem_singleton, not_or]
    exact ⟨ih hcalls.2, (label_ne_globalFrame hcalls.1 _).symm⟩

theorem callLabels_nodup {calls : List String} (hcalls : ∀ name ∈ calls, Callable name) :
    (callLabels calls).Nodup := by
  induction calls with
  | nil => exact List.nodup_nil
  | cons name outer ih =>
    rw [List.forall_mem_cons] at hcalls
    rw [callLabels, List.nodup_append]
    refine ⟨ih hcalls.2, List.nodup_singleton _, ?_⟩
    intro a ha b hb heq
    rw [List.mem_singleton.1 hb] at heq
    exact nextLabel_not_mem hcalls.1 hcalls.2 (heq ▸ ha)

/-! ## Labels after a step -/

namespace State

/-- The labels of the stack after a frame was patched. -/
def relabelled (label : String) (action : FrameAction) (labels : List String) : List String :=
  match action with
  | .update => labels
  | .add => if label ∈ labels then labels else labels ++ [label]
  | .remove => (labels.reverse.erase label).reverse

theorem map_name_dropFrame (label : String) (stack : List Frame) :
    (dropFrame label stack).map Frame.name = ((stack.map Frame.name).reverse.erase label).reverse := by
  have hlabel : (fun f : Frame => f.name == label) = (fun name => label == name) ∘ Frame.name := by
    funext f
    exact BEq.comm
  rw [dropFrame, hlabel, List.map_reverse, ← List.eraseP_map, List.map_reverse,
    List.erase_eq_eraseP]

theorem applyFrame_labels {s s' : State} {label : String} {patch : FramePatch}
    (h : s.applyFrame label patch = .ok s') : s'.labels = relabelled label patch.action s.labels := by
  unfold applyFrame at h
  split at h
  · cases h
  · next haction _ =>
    obtain rfl := Except.ok.inj h
    rw [haction]
    exact map_name_dropFrame label s.stack
  · cases h
  · next haction hnone =>
    have hfresh : label ∉ s.labels := frameIn_eq_none_iff.1 hnone
    rw [(applyVariables_frames h).1, haction, relabelled, if_neg hfresh]
    simp [labels]
  · next f hsome hremove =>
    rw [(applyVariables_frames h).1]
    have hmem : label ∈ s.labels := by
      obtain ⟨hf, hname⟩ := frameIn_some hsome
      rw [← hname]
      exact List.mem_map_of_mem hf
    cases haction : patch.action with
    | remove => exact absurd haction hremove
    | update => rfl
    | add => exact (if_pos hmem).symm

/-- Where all patches but those of one label are updates, that one decides on the labels. -/
theorem applyStack_labels {s s' : State} {patches : Table String FramePatch} (label : String)
    (hpatches : patches.Apart) (hothers : ∀ e ∈ patches, e.1 ≠ label → e.2.action = .update)
    (h : s.applyStack patches = .ok s') :
    s'.labels = match patches.find? label with
      | some patch => relabelled label patch.action s.labels
      | none => s.labels := by
  induction patches generalizing s with
  | nil =>
    obtain rfl := Except.ok.inj h
    rfl
  | cons e patches ih =>
    obtain ⟨hhead, htail⟩ := List.pairwise_cons.1 hpatches
    rw [List.forall_mem_cons] at hothers
    rw [applyStack] at h
    cases he : s.applyFrame e.1 e.2 with
    | error stopped =>
      rw [he] at h
      cases h
    | ok s₁ =>
      rw [he] at h
      rw [ih htail hothers.2 h, applyFrame_labels he, Table.find?_cons]
      by_cases heq : e.1 = label
      · have hnone : Table.find? patches label = none := by
          rw [Table.find?_eq_none_iff]
          intro f hf
          have hne := hhead f hf
          rw [beq_eq_false_iff_ne] at hne ⊢
          exact fun hlabel => hne (heq.trans hlabel.symm)
        rw [hnone, if_pos (by simpa using heq), heq]
      · rw [if_neg (by simpa using heq), hothers.1 heq]
        rfl

end State

/-! ## What a step does to the calls -/

/-- What a step does to the active calls: one of the program's functions is entered, the innermost
call is left, or they stay as they are. -/
inductive Step.Turns (p : Program) (step : Step) : List String → List String → Prop
  | enter (f : Function) (calls : List String) (hf : p.function? f.name = some f)
      (hkind : step.kind = .call) : Turns p step calls (f.name :: calls)
  | leave (name : String) (calls : List String) (hkind : step.kind = .ret) :
      Turns p step (name :: calls) calls
  | stay (calls : List String) : Turns p step calls calls

/-- The step turns the calls of one machine into those of the other, and takes away no frame but the
topmost one. -/
structure Step.Links (p : Program) (m : Machine) (step : Step) (m' : Machine) : Prop where
  turns : step.Turns p m.active m'.active
  pops : ∀ e ∈ step.delta.stack, e.2.action = .remove → m.state.labels = m'.state.labels ++ [e.1]

/-- The frames of the state are those of the calls, outermost first; that of the variables outside
functions is below them, if it is there. -/
def State.Frames (calls : List String) (s : State) : Prop :=
  s.labels = callLabels calls ∨ s.labels = globalFrame :: callLabels calls

namespace State.Frames

variable {s s' : State} {calls : List String}

theorem mem (h : s.Frames calls) {label : String} (hlabel : label ∈ callLabels calls) :
    label ∈ s.labels := by
  rcases h with h | h <;> rw [h]
  · exact hlabel
  · exact List.mem_cons_of_mem _ hlabel

theorem not_mem (h : s.Frames calls) {label : String} (hlabel : label ∉ callLabels calls)
    (hglobal : label ≠ globalFrame) : label ∉ s.labels := by
  rcases h with h | h <;> rw [h]
  · exact hlabel
  · rw [List.mem_cons, not_or]
    exact ⟨hglobal, hlabel⟩

theorem nodup (h : s.Frames calls) (hcalls : ∀ name ∈ calls, Callable name) : s.labels.Nodup := by
  rcases h with h | h <;> rw [h]
  · exact callLabels_nodup hcalls
  · exact List.nodup_cons.2 ⟨globalFrame_not_mem hcalls, callLabels_nodup hcalls⟩

theorem congr (h : s.Frames calls) (hlabels : s'.labels = s.labels) : s'.Frames calls := by
  unfold State.Frames at h ⊢
  rw [hlabels]
  exact h

/-- A frame on top of the others. -/
theorem push (h : s.Frames calls) {name : String}
    (hlabels : s'.labels = s.labels ++ [Machine.label name (calls.count name)]) :
    s'.Frames (name :: calls) := by
  unfold State.Frames
  rw [hlabels, callLabels]
  rcases h with h | h <;> rw [h]
  · exact Or.inl rfl
  · exact Or.inr rfl

/-- Taking away the frame of the innermost call takes away the topmost frame. -/
theorem pop {name : String} (h : s.Frames (name :: calls))
    (hlabels : s'.labels
      = State.relabelled (Machine.label name (calls.count name)) .remove s.labels) :
    s'.Frames calls ∧ s.labels = s'.labels ++ [Machine.label name (calls.count name)] := by
  have hlast : ∀ (below : List String) (label : String),
      State.relabelled label .remove (below ++ [label]) = below := by
    intro below label
    rw [State.relabelled, List.reverse_append, List.reverse_singleton, List.singleton_append,
      List.erase_cons_head, List.reverse_reverse]
  unfold State.Frames at h
  rw [callLabels, ← List.cons_append] at h
  rcases h with h | h
  · rw [h, hlast] at hlabels
    exact ⟨Or.inl hlabels, by rw [h, hlabels]⟩
  · rw [h, hlast] at hlabels
    exact ⟨Or.inr hlabels, by rw [h, hlabels]⟩

end State.Frames

/-! ## Moves -/

section Moves

variable {setup : Setup} {m m' : Machine} {kind : StepKind} {line : Int} {description : String}
  {delta : Delta}

/-- What is held back only updates frames. -/
theorem Machine.find?_of_mem_stack {e : String × FramePatch}
    (he : e ∈ (m.nextStep kind line description delta).delta.stack) (hstack : delta.stack.Apart)
    (haction : e.2.action ≠ .update) : delta.stack.find? e.1 = some e.2 := by
  have hfound := Table.find?_of_mem (Booked.stack_apart m) (beq_self_eq_true e.1) he
  rw [Booked.find?_stack m hstack] at hfound
  rcases Option.or_eq_some_iff.1 hfound with hfound | ⟨_, hpending⟩
  · exact hfound
  · unfold updateOf at hpending
    split at hpending
    · cases hpending
    · rw [← Option.some.inj hpending] at haction
      exact absurd rfl haction

/-- An emitted step relabels the stack by what its own change says, if that is about one frame at
most. -/
theorem Machine.emit_labels (label : String) (hdelta : ∀ e ∈ delta.stack, e.1 = label)
    (hapart : delta.stack.Apart) (h : m.emit kind line description delta = .ok m') :
    m'.state.labels = match delta.stack.find? label with
      | some patch => State.relabelled label patch.action m.state.labels
      | none => m.state.labels := by
  obtain ⟨state, happly, rfl⟩ := Machine.emit_eq_ok.1 h
  obtain ⟨stacked, _, hstack, _, _, hs', _⟩ := State.apply_cases happly
  have hothers : ∀ e ∈ (m.nextStep kind line description delta).delta.stack, e.1 ≠ label →
      e.2.action = .update := by
    intro e he hne
    by_contra haction
    obtain ⟨key, hkey, hlabel⟩ := Table.mem_of_find? (Machine.find?_of_mem_stack he hapart haction)
    exact hne ((eq_of_beq hlabel).symm.trans (hdelta _ hkey))
  have hlabels := State.applyStack_labels label (Booked.stack_apart m) hothers hstack
  rw [Booked.find?_stack m hapart] at hlabels
  have hbefore : (m.state.applyMemory (m.nextStep kind line description delta).delta.memory).labels
      = m.state.labels := by
    rw [State.labels, (State.applyMemory_beside _ _).1]
    rfl
  rw [hbefore] at hlabels
  show List.map Frame.name state.stack = _
  rw [hs']
  refine Eq.trans hlabels ?_
  cases delta.stack.find? label with
  | some patch => rfl
  | none =>
    rw [Option.none_or, updateOf]
    by_cases hheld : m.heldBack label = []
    · rw [if_pos hheld]
    · rw [if_neg hheld]
      rfl

/-- A step that shows only what was held back keeps the labels. -/
theorem Machine.emit_labels_of_nil (hdelta : delta.stack = [])
    (h : m.emit kind line description delta = .ok m') : m'.state.labels = m.state.labels := by
  have hlabels := Machine.emit_labels "" (by simp [hdelta]) (by simp [hdelta, Table.Apart]) h
  rw [hdelta] at hlabels
  exact hlabels

theorem Machine.emit_labels_of_singleton {label : String} {patch : FramePatch}
    (hdelta : delta.stack = [(label, patch)]) (h : m.emit kind line description delta = .ok m') :
    m'.state.labels = State.relabelled label patch.action m.state.labels := by
  have hlabels := Machine.emit_labels label (by simp [hdelta]) (by simp [hdelta, Table.Apart]) h
  rw [hdelta, Table.find?_cons, if_pos (beq_self_eq_true _)] at hlabels
  exact hlabels

/-- A step whose own change takes no frame away takes none away. -/
theorem Machine.emit_keeps_frames {e : String × FramePatch}
    (he : e ∈ (m.nextStep kind line description delta).delta.stack) (hapart : delta.stack.Apart)
    (hkept : ∀ e ∈ delta.stack, e.2.action ≠ .remove) : e.2.action ≠ .remove := by
  intro haction
  have hfound := Machine.find?_of_mem_stack he hapart (by rw [haction]; decide)
  obtain ⟨key, hkey, _⟩ := Table.mem_of_find? hfound
  exact hkept _ hkey haction

/-- What a move shows of the calls: nothing, or a step that links the two machines. -/
def Walk.Shows (setup : Setup) (m m' : Machine) : Prop :=
  (m'.state = m.state ∧ m'.steps = m.steps ∧ m'.active = m.active) ∨
    ∃ step, m'.steps = m.steps.push step ∧ m.state.apply step = .ok m'.state ∧
      step.Links setup.analysis.program m m'

/-- The active calls are of functions that labels can be told apart by, and the frames are theirs. -/
structure Machine.Stacked (m : Machine) : Prop where
  callable : ∀ name ∈ m.active, Callable name
  frames : m.state.Frames m.active

/-- A move that comes to emitting a step shows that step. -/
theorem Walk.Shows.of_emit {m₁ m₂ : Machine} (hemit : m₁.emit kind line description delta = .ok m₂)
    (hbefore : m₁.state = m.state ∧ m₁.steps = m.steps)
    (hafter : m'.state = m₂.state ∧ m'.steps = m₂.steps)
    (hturns : (m₁.nextStep kind line description delta).Turns setup.analysis.program m.active
      m'.active)
    (hpops : ∀ e ∈ (m₁.nextStep kind line description delta).delta.stack, e.2.action = .remove →
      m.state.labels = m'.state.labels ++ [e.1]) : Walk.Shows setup m m' := by
  obtain ⟨state, happly, rfl⟩ := Machine.emit_eq_ok.1 hemit
  refine Or.inr ⟨_, ?_, ?_, hturns, hpops⟩
  · rw [hafter.2, ← hbefore.2]
  · rw [hafter.1, ← hbefore.1]
    exact happly

theorem Act.stacked (h : Act setup m m') (hm : m.Stacked) : m'.Stacked ∧ Walk.Shows setup m m' := by
  have hactive := h.active
  cases h with
  | emit kind line description h =>
    refine ⟨⟨by rw [hactive]; exact hm.callable, ?_⟩, ?_⟩
    · rw [hactive]
      exact hm.frames.congr (Machine.emit_labels_of_nil rfl h)
    · refine .of_emit h ⟨rfl, rfl⟩ ⟨rfl, rfl⟩ (by rw [hactive]; exact .stay _) ?_
      intro e he haction
      refine absurd haction (Machine.emit_keeps_frames he List.Pairwise.nil ?_)
      exact fun e he => by cases he
  | write address value h =>
    obtain ⟨a, _, _, rfl⟩ := Machine.write_eq_ok.1 h
    exact ⟨⟨hm.callable, hm.frames⟩, Or.inl ⟨rfl, rfl, rfl⟩⟩
  | _ => exact ⟨⟨hm.callable, hm.frames⟩, Or.inl ⟨rfl, rfl, rfl⟩⟩

/-- The frame that a variable is declared in is that of the innermost call, which is there, or the
one of the variables outside functions, which comes first. -/
theorem State.Frames.declare {s s' : State} (h : s.Frames m.active)
    (hlabels : s'.labels = State.relabelled m.currentFrame .add s.labels) :
    s'.Frames m.active := by
  unfold Machine.currentFrame at hlabels
  cases hactive : m.active with
  | nil =>
    rw [hactive] at h hlabels
    rcases h with h | h
    · rw [h] at hlabels
      exact Or.inr hlabels
    · rw [h, State.relabelled, if_pos List.mem_cons_self] at hlabels
      exact Or.inr hlabels
  | cons name outer =>
    rw [hactive] at h hlabels
    have hmem : Machine.label name (outer.count name) ∈ s.labels :=
      h.mem (List.mem_append_right _ (List.mem_singleton_self _))
    rw [State.relabelled, if_pos hmem] at hlabels
    exact h.congr hlabels

/-- **Every move keeps the frames those of the active calls**, and the step it shows, if any, links
the calls before and after it. -/
theorem Walk.stacked
    (hnames : ∀ f, setup.analysis.program.function? f.name = some f → Callable f.name)
    (h : Walk setup m m') (hm : m.Stacked) : m'.Stacked ∧ Walk.Shows setup m m' := by
  cases h with
  | act h => exact h.stacked hm
  | declare name type line value description address h =>
    have hactive := declare_active h
    obtain ⟨size, cursor, cells, _, _, _, hemit⟩ := declare_cases h
    obtain ⟨hstate, hsteps, _⟩ :=
      Machine.quiet_own { m with cursor := cursor } type address m.currentFrame name
    -- the step names one frame, the current one
    have hlabels := Machine.emit_labels_of_singleton rfl hemit
    rw [hstate] at hlabels
    refine ⟨⟨by rw [hactive]; exact hm.callable, ?_⟩, ?_⟩
    · rw [hactive]
      exact hm.frames.declare hlabels
    · refine .of_emit hemit ⟨hstate, hsteps⟩ ⟨rfl, rfl⟩ (by rw [hactive]; exact .stay _) ?_
      intro e he haction
      refine absurd haction (Machine.emit_keeps_frames he (List.pairwise_singleton _ _) ?_)
      intro e he
      rw [List.mem_singleton.1 he]
      exact fun h => by cases h
  | enter f arguments line hf harity h =>
    obtain ⟨cells, vars, m₁, description, m₂, hplace, hemit, rfl⟩ := Invocation.enter_cases h
    obtain ⟨⟨hstate, hsteps, _⟩, _⟩ := Invocation.place_quiet List.Pairwise.nil hplace
    have hactive : m₂.active = m.active := by
      obtain ⟨state, _, rfl⟩ := Machine.emit_eq_ok.1 hemit
      show m₁.active = m.active
      exact Invocation.place_active hplace
    have hcallable := hnames f hf
    -- the label of the new frame counts the calls of the function that are still active
    have hfresh : Machine.label f.name (m.active.count f.name) ∉ m.state.labels :=
      hm.frames.not_mem (nextLabel_not_mem hcallable hm.callable)
        (label_ne_globalFrame hcallable _)
    have hlabels := Machine.emit_labels_of_singleton rfl hemit
    rw [hstate] at hlabels
    refine ⟨⟨?_, ?_⟩, ?_⟩
    · show ∀ name ∈ f.name :: m₂.active, Callable name
      rw [hactive, List.forall_mem_cons]
      exact ⟨hcallable, hm.callable⟩
    · show m₂.state.Frames (f.name :: m₂.active)
      rw [hactive]
      exact hm.frames.push (hlabels.trans (if_neg hfresh))
    · refine .of_emit hemit ⟨hstate, hsteps⟩ ⟨rfl, rfl⟩ ?_ ?_
      · show Step.Turns _ _ m.active (f.name :: m₂.active)
        rw [hactive]
        exact .enter f m.active hf rfl
      · intro e he haction
        refine absurd haction (Machine.emit_keeps_frames he (List.pairwise_singleton _ _) ?_)
        intro e he
        rw [List.mem_singleton.1 he]
        exact fun h => by cases h
  | leave f outer flow hactive h =>
    obtain ⟨line, description, m₁, hemit, rfl⟩ := Invocation.leave_cases h
    have hactive' : m₁.active = outer := by
      obtain ⟨state, _, rfl⟩ := Machine.emit_eq_ok.1 hemit
      show m.active.tail = outer
      rw [hactive]
      rfl
    have hframes := hm.frames
    rw [hactive] at hframes
    -- the frame that the step removes is the topmost one
    obtain ⟨hpopped, htop⟩ := hframes.pop (Machine.emit_labels_of_singleton rfl hemit)
    refine ⟨⟨?_, ?_⟩, ?_⟩
    · show ∀ name ∈ m₁.active, Callable name
      rw [hactive']
      exact fun name hname => hm.callable name (by rw [hactive]; exact List.mem_cons_of_mem _ hname)
    · show m₁.state.Frames m₁.active
      rw [hactive']
      exact hpopped
    · refine .of_emit hemit ⟨rfl, rfl⟩ ⟨rfl, rfl⟩ ?_ ?_
      · show Step.Turns _ _ m.active m₁.active
        rw [hactive, hactive']
        exact .leave f.name outer rfl
      · intro e he haction
        have hfound := Machine.find?_of_mem_stack he (List.pairwise_singleton _ _)
          (by rw [haction]; decide)
        obtain ⟨key, hkey, hlabel⟩ := Table.mem_of_find? hfound
        rw [← eq_of_beq hlabel, (Prod.mk.inj (List.mem_singleton.1 hkey)).1]
        exact htop

end Moves

/-! ## Runs -/

/-- A run that ends with one machine passes through another between two moves. -/
structure PassesThrough (setup : Setup) (last m : Machine) : Prop where
  reached : ReflTransGen (Walk setup) (Machine.start setup.settings) m
  leads : ReflTransGen (Walk setup) m last

/-- The frames are those of the active calls, no label occurs twice, and there are no more calls than
the settings allow. -/
structure Machine.CallsInOrder (settings : Settings) (m : Machine) : Prop where
  frames : m.state.Frames m.active
  distinct : m.state.labels.Nodup
  room : m.active.length ≤ settings.calls

/-- The step was shown by a run between two of its machines, in both of which the calls are in
order. -/
def ShownBetween (setup : Setup) (last : Machine) (s : State) (step : Step) (s' : State) : Prop :=
  ∃ m m', PassesThrough setup last m ∧ PassesThrough setup last m' ∧
    ReflTransGen (Walk setup) m m' ∧ m.state = s ∧ m'.state = s' ∧
    m.CallsInOrder setup.settings ∧ m'.CallsInOrder setup.settings ∧
    step.Links setup.analysis.program m m'

section Runs

variable {setup : Setup} {m m' last : Machine}

theorem Machine.Stacked.callsInOrder (hm : m.Stacked) {settings : Settings}
    (hroom : m.active.length ≤ settings.calls) : m.CallsInOrder settings :=
  ⟨hm.frames, hm.frames.nodup hm.callable, hroom⟩

theorem Machine.stacked_start (settings : Settings) : (Machine.start settings).Stacked :=
  ⟨fun _ h => absurd h List.not_mem_nil, Or.inl rfl⟩

theorem ShownBetween.extend {s s' : State} {step : Step} (h : ShownBetween setup last s step s')
    {later : Machine} (hlater : ReflTransGen (Walk setup) last later) :
    ShownBetween setup later s step s' := by
  obtain ⟨m, m', hm, hm', hrest⟩ := h
  exact ⟨m, m', ⟨hm.reached, hm.leads.trans hlater⟩, ⟨hm'.reached, hm'.leads.trans hlater⟩, hrest⟩

/-- A step that changes nothing is shown where the run passes. -/
theorem ShownBetween.of_no_change (hm : PassesThrough setup last m)
    (horder : m.CallsInOrder setup.settings) {step : Step} (hstep : step.delta = {}) :
    ShownBetween setup last m.state step m.state := by
  refine ⟨m, m, hm, hm, .refl, rfl, rfl, horder, horder, .stay _, ?_⟩
  intro e he
  rw [hstep] at he
  cases he

/-- **Along a run, every step is shown between machines whose calls are in order.** -/
theorem run_shownBetween
    (hnames : ∀ f, setup.analysis.program.function? f.name = some f → Callable f.name)
    (h : ReflTransGen (WalkUpTo setup setup.settings.calls) (Machine.start setup.settings) last) :
    last.Stacked ∧ ReflTransGen (Walk setup) (Machine.start setup.settings) last ∧
      Along (ShownBetween setup last) { heapBase := setup.settings.heapBase } last.steps.toList
        last.state := by
  induction h with
  | refl => exact ⟨Machine.stacked_start _, .refl, .nil⟩
  | @tail m m' _ hmove ih =>
    obtain ⟨hm, hreached, halong⟩ := ih
    obtain ⟨hm', hshows⟩ := hmove.walk.stacked hnames hm
    have hstep : ReflTransGen (Walk setup) m m' := .single hmove.walk
    have hreached' := hreached.trans hstep
    have hbefore := halong.mono fun _ _ _ hshown => hshown.extend hstep
    refine ⟨hm', hreached', ?_⟩
    rcases hshows with ⟨hstate, hsteps, _⟩ | ⟨step, hsteps, happly, hlinks⟩
    · rw [hstate, hsteps]
      exact hbefore
    · rw [hsteps, Array.toList_push]
      exact .snoc hbefore happly ⟨m, m', ⟨hreached, hstep⟩, ⟨hreached', .refl⟩, hstep, rfl, rfl,
        hm.callsInOrder hmove.before, hm'.callsInOrder hmove.after, hlinks⟩

end Runs

/-! ## The main result -/

/-- **The frames are those of the active calls.** In a trace of a program that was executed to its
end and has no function with the name of the frame outside functions: every step was shown between
two machines of the run, and in both the frames are those of the active calls, in their order, with
different labels and no more of them than allowed. A step enters a call, leaves the innermost one or
leaves the calls alone, and takes away no frame but the topmost. At the end no call is active. -/
theorem frames_are_active_calls {source : String} {p : Program} {analysis : Analysis}
    {settings : Settings} (hparse : parse (tokenize source) = .ok p)
    (hglobal : p.function? globalFrame = none)
    (ha : analyze p source (tokenize source) = .ok analysis)
    (hexec : analysis.category.executes = true)
    (hok : (p.trace source (tokenize source) settings).ok = true) :
    ∃ last, analysis.category.play { analysis, settings } (Machine.start settings) = .ok ((), last) ∧
      (p.trace source (tokenize source) settings).state = last.state ∧ last.active = [] ∧
      (last.state.labels = [] ∨ last.state.labels = [globalFrame]) ∧
      ∀ n step, (p.trace source (tokenize source) settings).steps[n]? = some step →
        ∃ s s', replayFrom { heapBase := settings.heapBase }
            ((p.trace source (tokenize source) settings).steps.take n) = .ok s ∧
          replayFrom { heapBase := settings.heapBase }
            ((p.trace source (tokenize source) settings).steps.take (n + 1)) = .ok s' ∧
          ShownBetween { analysis, settings } last s step s' := by
  obtain ⟨last, hplay⟩ := Program.play_of_trace_ok ha hok
  obtain ⟨hactive, hmoves⟩ := play_returns hexec _ _ _ hplay rfl
  rw [List.length_nil, Nat.zero_add] at hmoves
  have hprogram : analysis.program = p := (analyze_layouts ha).2
  -- a function that is called is of the program, so its label is none of the globals' frame
  have hnames : ∀ f, analysis.program.function? f.name = some f → Callable f.name := by
    intro f hf
    rw [hprogram] at hf
    refine ⟨parse_function_name hparse (List.mem_of_find?_eq_some hf), fun heq => ?_⟩
    rw [heq, hglobal] at hf
    cases hf
  obtain ⟨hlast, hreached, halong⟩ := run_shownBetween hnames hmoves
  -- the steps at the start and the end of the trace change nothing
  have hstart : ShownBetween { analysis, settings } last { heapBase := settings.heapBase }
      Trace.startStep { heapBase := settings.heapBase } := by
    refine ShownBetween.of_no_change ⟨.refl, hreached⟩ ?_ rfl
    exact (Machine.stacked_start settings).callsInOrder (Nat.zero_le _)
  have hend : ShownBetween { analysis, settings } last last.state (Trace.endStep (tokenize source))
      last.state := by
    refine ShownBetween.of_no_change ⟨hreached, .refl⟩ (hlast.callsInOrder ?_) rfl
    rw [hactive]
    exact Nat.zero_le _
  have hframes := hlast.frames
  rw [hactive] at hframes
  rw [trace_of_play ha hplay]
  refine ⟨last, hplay, rfl, hactive, hframes, fun n step hn => ?_⟩
  exact ((halong.snoc (State.apply_of_no_change _ rfl) hend).cons_no_change rfl hstart).getElem hn

/-! ## A function that calls itself -/

namespace Countdown

/-- A program with a variable outside functions and a function that calls itself. -/
def source : String :=
  "int g;\nint f(int n)\x7breturn n?f(n-1):g;\x7d\nint main()\x7bg=0;f(1);\x7d\n"

/-- Its tokens. -/
def tokens : List Token :=
  [⟨.keyword, "int", 1, 1⟩, ⟨.identifier, "g", 1, 5⟩, ⟨.punctuation, ";", 1, 6⟩,
    ⟨.keyword, "int", 2, 1⟩, ⟨.identifier, "f", 2, 5⟩, ⟨.punctuation, "(", 2, 6⟩,
    ⟨.keyword, "int", 2, 7⟩, ⟨.identifier, "n", 2, 11⟩, ⟨.punctuation, ")", 2, 12⟩,
    ⟨.punctuation, "\x7b", 2, 13⟩, ⟨.keyword, "return", 2, 14⟩, ⟨.identifier, "n", 2, 21⟩,
    ⟨.punctuation, "?", 2, 22⟩, ⟨.identifier, "f", 2, 23⟩, ⟨.punctuation, "(", 2, 24⟩,
    ⟨.identifier, "n", 2, 25⟩, ⟨.operator, "-", 2, 26⟩, ⟨.literal, "1", 2, 27⟩,
    ⟨.punctuation, ")", 2, 28⟩, ⟨.punctuation, ":", 2, 29⟩, ⟨.identifier, "g", 2, 30⟩,
    ⟨.punctuation, ";", 2, 31⟩, ⟨.punctuation, "\x7d", 2, 32⟩, ⟨.keyword, "int", 3, 1⟩,
    ⟨.identifier, "main", 3, 5⟩, ⟨.punctuation, "(", 3, 9⟩, ⟨.punctuation, ")", 3, 10⟩,
    ⟨.punctuation, "\x7b", 3, 11⟩, ⟨.identifier, "g", 3, 12⟩, ⟨.operator, "=", 3, 13⟩,
    ⟨.literal, "0", 3, 14⟩, ⟨.punctuation, ";", 3, 15⟩, ⟨.identifier, "f", 3, 16⟩,
    ⟨.punctuation, "(", 3, 17⟩, ⟨.literal, "1", 3, 18⟩, ⟨.punctuation, ")", 3, 19⟩,
    ⟨.punctuation, ";", 3, 20⟩, ⟨.punctuation, "\x7d", 3, 21⟩]

/-- The function that calls itself. -/
def function : Function where
  line := 2
  name := "f"
  returnType := .int
  parameters := [⟨.int, "n", false, false⟩]
  bodyLine := 2
  body :=
    [.ret 2 (some (.conditional 2 (.name 2 "n")
      (.call 2 "f" [.binary 2 (.arith .sub) (.name 2 "n") (.literal 2 "1")]) (.name 2 "g")))]

/-- Its main function. -/
def main : Function where
  line := 3
  name := "main"
  returnType := .int
  parameters := []
  bodyLine := 3
  body :=
    [.expr 3 (.assign 3 none (.name 3 "g") (.literal 3 "0")),
      .expr 3 (.call 3 "f" [.literal 3 "1"])]

/-- The program. -/
def program : Program :=
  ⟨[.decl ⟨1, .int, [⟨1, "g", 0, .none, none⟩]⟩, .function function, .function main]⟩

/-- What is known about it. -/
def analysis : Analysis where
  program := program
  source := source
  tokens := tokens
  lines := Text.lines source
  macros := []
  layouts := []

theorem tokenize_source : tokenize source = tokens :=
  Token.tokenize_of_chars rfl (by decide +kernel) (by decide)

theorem parse_tokens : parse tokens = .ok program := by
  decide +kernel

theorem analyze_program : analyze program source tokens = .ok analysis := rfl

theorem category_analysis : analysis.category = .recursion := by
  have hsource : analysis.source = String.ofList _ := rfl
  rw [Analysis.category, Analysis.lowered_eq hsource]
  decide

theorem trace_ok : (program.trace source tokens {}).ok = true := by
  rw [Program.trace_of_category analyze_program category_analysis]
  decide +kernel

end Countdown

/-- The steps of this program are shown between machines whose calls are in order. -/
theorem countdown_frames_are_calls :
    Countdown.program.function? globalFrame = none ∧
    ∃ last, (Countdown.program.trace Countdown.source (tokenize Countdown.source) {}).state
        = last.state ∧ last.active = [] ∧
      ∀ (n : Nat) (step : Step),
        (Countdown.program.trace Countdown.source (tokenize Countdown.source) {}).steps[n]?
          = some step → ∃ s s', ShownBetween ⟨Countdown.analysis, {}⟩ last s step s' := by
  have hglobal : Countdown.program.function? globalFrame = none := by decide
  refine ⟨hglobal, ?_⟩
  have hparse : parse (tokenize Countdown.source) = .ok Countdown.program := by
    rw [Countdown.tokenize_source]
    exact Countdown.parse_tokens
  have ha : analyze Countdown.program Countdown.source (tokenize Countdown.source)
      = .ok Countdown.analysis := by
    rw [Countdown.tokenize_source]
    exact Countdown.analyze_program
  have hok : (Countdown.program.trace Countdown.source (tokenize Countdown.source) {}).ok = true := by
    rw [Countdown.tokenize_source]
    exact Countdown.trace_ok
  have hexec : Countdown.analysis.category.executes = true := by
    rw [Countdown.category_analysis]
    rfl
  obtain ⟨last, _, hstate, hactive, _, hsteps⟩ :=
    frames_are_active_calls hparse hglobal ha hexec hok
  refine ⟨last, hstate, hactive, fun n step hn => ?_⟩
  obtain ⟨s, s', _, _, hshown⟩ := hsteps n step hn
  exact ⟨s, s', hshown⟩

end Stepwise
