/-
Frames after a step.

The stack is a list, but a step addresses a frame by its label. As long as no
label occurs twice, a frame of the stack is what its label finds, and the stack
part of a step can be read label by label: the frame under a label after the step
is the frame under it before, patched by what the step says of that label. The
same holds inside a frame for its variables.
-/
import Stepwise.Proofs.State
import Mathlib.Data.List.Nodup

set_option autoImplicit false

namespace Stepwise

/-! ## Variables of a frame -/

/-- The frame with variables set, later ones replacing earlier ones of the same name. -/
def Frame.setAll (f : Frame) (vars : List FrameVariable) : Frame :=
  { f with vars := f.vars.putAll (vars.map fun v => (v.name, State.variableCell v)) }

namespace Frame

@[simp] theorem setAll_name (f : Frame) (vars : List FrameVariable) : (f.setAll vars).name = f.name :=
  rfl

theorem setAll_cons (f : Frame) (v : FrameVariable) (vars : List FrameVariable) :
    f.setAll (v :: vars)
      = ({ f with vars := f.vars.put v.name (State.variableCell v) } : Frame).setAll vars := rfl

theorem apart_setAll {f : Frame} (h : f.vars.Apart) (vars : List FrameVariable) :
    (f.setAll vars).vars.Apart :=
  Table.apart_putAll _ h

/-- A variable of the frame is one of those that were set, or one of the others. -/
theorem find?_setAll_cases {f : Frame} {vars : List FrameVariable} {name : String} {c : Cell}
    (h : (f.setAll vars).vars.find? name = some c) :
    (∃ v ∈ vars, v.name = name ∧ c = State.variableCell v) ∨
      (name ∉ vars.map FrameVariable.name ∧ f.vars.find? name = some c) := by
  induction vars generalizing f with
  | nil => exact Or.inr ⟨by simp, h⟩
  | cons v vars ih =>
    rw [setAll_cons] at h
    rcases ih h with ⟨w, hw, hname, hc⟩ | ⟨hnot, hold⟩
    · exact Or.inl ⟨w, List.mem_cons_of_mem _ hw, hname, hc⟩
    · rw [Table.find?_put] at hold
      split at hold
      · next hv =>
        exact Or.inl ⟨v, List.mem_cons_self, eq_of_beq hv, (Option.some.inj hold).symm⟩
      · next hv =>
        refine Or.inr ⟨?_, hold⟩
        rw [List.map_cons, List.mem_cons, not_or]
        exact ⟨fun heq => hv (by rw [heq]; exact beq_self_eq_true _), hnot⟩

/-- A variable that is not set stays. -/
theorem find?_setAll_of_not_mem {f : Frame} {vars : List FrameVariable} {name : String}
    (h : name ∉ vars.map FrameVariable.name) :
    (f.setAll vars).vars.find? name = f.vars.find? name := by
  induction vars generalizing f with
  | nil => rfl
  | cons v vars ih =>
    rw [List.map_cons, List.mem_cons, not_or] at h
    rw [setAll_cons, ih h.2]
    refine Table.find?_put_of_ne ?_
    rw [beq_eq_false_iff_ne]
    exact fun heq => h.1 heq.symm

/-- A variable that is set is there, unless a later one has the same name. -/
theorem find?_setAll_of_mem {f : Frame} {vars : List FrameVariable} {v : FrameVariable}
    (hv : v ∈ vars) (hnodup : (vars.map FrameVariable.name).Nodup) :
    (f.setAll vars).vars.find? v.name = some (State.variableCell v) := by
  induction vars generalizing f with
  | nil => cases hv
  | cons w vars ih =>
    obtain ⟨hfirst, hrest⟩ := List.nodup_cons.1 hnodup
    rw [setAll_cons]
    rcases List.mem_cons.1 hv with rfl | hv
    · rw [find?_setAll_of_not_mem hfirst]
      exact Table.find?_put_of_beq (beq_self_eq_true _)
    · exact ih hv hrest

end Frame

namespace State

/-! ## One frame -/

/-- The labels of the stack. -/
def labels (s : State) : List String :=
  s.stack.map Frame.name

/-- The innermost frame of a stack with a label. -/
def frameIn (label : String) (stack : List Frame) : Option Frame :=
  stack.reverse.find? fun f => f.name == label

theorem frameIn_cons (label : String) (f : Frame) (stack : List Frame) :
    frameIn label (f :: stack)
      = (frameIn label stack).or (if f.name == label then some f else none) := by
  rw [frameIn, List.reverse_cons, List.find?_append, frameIn, List.find?_singleton]

theorem frameIn_append_singleton (label : String) (f : Frame) (stack : List Frame) :
    frameIn label (stack ++ [f]) = if f.name == label then some f else frameIn label stack := by
  rw [frameIn, List.reverse_append, List.reverse_singleton, List.singleton_append, List.find?_cons,
    frameIn]
  split
  · next h => rw [h]; rfl
  · next h => rw [h]; rfl

theorem frameIn_eq_none_iff {label : String} {stack : List Frame} :
    frameIn label stack = none ↔ label ∉ stack.map Frame.name := by
  rw [frameIn, List.find?_eq_none]
  simp

theorem frameIn_some {label : String} {stack : List Frame} {f : Frame}
    (h : frameIn label stack = some f) : f ∈ stack ∧ f.name = label := by
  refine ⟨List.mem_reverse.1 (List.mem_of_find?_eq_some h), ?_⟩
  have hname := List.find?_some h
  exact eq_of_beq hname

/-- Where no label occurs twice, a frame is what its label finds. -/
theorem frameIn_of_mem {stack : List Frame} (h : (stack.map Frame.name).Nodup) {f : Frame}
    (hf : f ∈ stack) : frameIn f.name stack = some f := by
  induction stack with
  | nil => cases hf
  | cons g stack ih =>
    obtain ⟨hhead, htail⟩ := List.nodup_cons.1 h
    rw [frameIn_cons]
    rcases List.mem_cons.1 hf with rfl | hf
    · rw [frameIn_eq_none_iff.2 hhead, if_pos (beq_self_eq_true _)]
      rfl
    · rw [ih htail hf]
      rfl

theorem frame?_of_mem {s : State} (h : s.labels.Nodup) {f : Frame} (hf : f ∈ s.stack) :
    s.frame? f.name = some f :=
  frameIn_of_mem h hf

theorem map_name_changeFrame {change : Frame → Frame} (hname : ∀ f, (change f).name = f.name)
    (label : String) (stack : List Frame) :
    (changeFrame label change stack).map Frame.name = stack.map Frame.name := by
  induction stack with
  | nil => rfl
  | cons f stack ih =>
    rw [changeFrame]
    split
    · rw [List.map_cons, List.map_cons, hname]
    · rw [List.map_cons, List.map_cons, ih]

/-- Changing the innermost frame of a label changes what that label finds, and nothing else. -/
theorem frameIn_changeFrame {change : Frame → Frame} (hname : ∀ f, (change f).name = f.name)
    (label other : String) (stack : List Frame) :
    frameIn other (changeFrame label change stack)
      = if label = other then (frameIn other stack).map change else frameIn other stack := by
  induction stack with
  | nil => simp [changeFrame, frameIn]
  | cons f stack ih =>
    rw [changeFrame]
    split
    · next hinner =>
      -- no frame further in has the label, so it is this one that changes
      simp only [Bool.and_eq_true, Bool.not_eq_true', List.any_eq_false] at hinner
      obtain ⟨hf, hrest⟩ := hinner
      have hnone : frameIn label stack = none := by
        rw [frameIn, List.find?_eq_none]
        intro g hg
        exact hrest g (List.mem_reverse.1 hg)
      rw [frameIn_cons, frameIn_cons, hname]
      by_cases heq : label = other
      · subst heq
        rw [hnone, if_pos hf, if_pos hf, if_pos rfl]
        rfl
      · have hother : ¬(f.name == other) = true := by
          intro hfo
          exact heq ((eq_of_beq hf).symm.trans (eq_of_beq hfo))
        rw [if_neg hother, if_neg hother, if_neg heq]
    · next houter =>
      -- the frame that changes is further in, or this one has another label
      rw [frameIn_cons, frameIn_cons, ih]
      split
      · next heq =>
        subst heq
        cases hfound : frameIn label stack with
        | some g => rfl
        | none =>
          have hf : ¬(f.name == label) = true := by
            intro hf
            refine houter ?_
            rw [hf, Bool.true_and, Bool.not_eq_true', List.any_eq_false]
            intro g hg
            rw [frameIn, List.find?_eq_none] at hfound
            exact hfound g (List.mem_reverse.2 hg)
          rw [if_neg hf]
          rfl
      · rfl

theorem frameIn_dropFrame_of_ne {label other : String} (h : label ≠ other) (stack : List Frame) :
    frameIn other (dropFrame label stack) = frameIn other stack := by
  rw [frameIn, dropFrame, List.reverse_reverse, frameIn]
  induction stack.reverse with
  | nil => rfl
  | cons f rest ih =>
    rw [List.eraseP_cons]
    cases hf : f.name == label with
    | true =>
      have hother : (f.name == other) = false := by
        rw [beq_eq_false_iff_ne]
        exact fun heq => h ((eq_of_beq hf).symm.trans heq)
      rw [List.find?_cons, hother]
      rfl
    | false =>
      rw [List.find?_cons, ← ih]
      rfl

theorem dropFrame_sublist (label : String) (stack : List Frame) :
    (dropFrame label stack).Sublist stack := by
  rw [← List.reverse_sublist, dropFrame, List.reverse_reverse]
  exact List.eraseP_sublist

theorem nodup_dropFrame {label : String} {stack : List Frame} (h : (stack.map Frame.name).Nodup) :
    ((dropFrame label stack).map Frame.name).Nodup :=
  h.sublist ((dropFrame_sublist label stack).map _)

theorem frameIn_dropFrame_self {label : String} {stack : List Frame}
    (h : (stack.map Frame.name).Nodup) : frameIn label (dropFrame label stack) = none := by
  have hreverse : (stack.reverse.map Frame.name).Nodup := by
    rw [List.map_reverse]
    exact List.nodup_reverse.2 h
  rw [frameIn, dropFrame, List.reverse_reverse]
  generalize stack.reverse = inner at hreverse
  induction inner with
  | nil => rfl
  | cons f rest ih =>
    obtain ⟨hhead, htail⟩ := List.nodup_cons.1 hreverse
    rw [List.eraseP_cons]
    cases hf : f.name == label with
    | true =>
      show List.find? _ rest = none
      rw [List.find?_eq_none]
      intro g hg hgname
      refine hhead ?_
      rw [eq_of_beq hf, ← eq_of_beq hgname]
      exact List.mem_map_of_mem hg
    | false =>
      show List.find? _ (f :: List.eraseP _ rest) = none
      rw [List.find?_cons, hf]
      exact ih htail

/-! ## Patches -/

theorem setVariable_stack (s : State) (label : String) (v : FrameVariable) :
    (s.setVariable label v).stack = changeFrame label (Frame.setAll · [v]) s.stack := rfl

/-- Setting variables changes the one frame with the label, and there only the variables. -/
theorem applyVariables_frames {s s' : State} {label : String} {action : FrameAction}
    {vars : List FrameVariable} (h : s.applyVariables label action vars = .ok s') :
    s'.labels = s.labels ∧ ∀ other, s'.frame? other =
      if label = other then (s.frame? other).map (Frame.setAll · vars) else s.frame? other := by
  induction vars generalizing s with
  | nil =>
    obtain rfl := Except.ok.inj h
    refine ⟨rfl, fun other => ?_⟩
    split
    · cases s.frame? other <;> rfl
    · rfl
  | cons v vars ih =>
    obtain ⟨hlabels, hframes⟩ := ih (applyVariables_cons_cases h).2
    have hname : ∀ f : Frame, (f.setAll [v]).name = f.name := fun f => rfl
    refine ⟨?_, fun other => ?_⟩
    · rw [hlabels, labels, setVariable_stack, map_name_changeFrame hname]
      rfl
    · have hset : (s.setVariable label v).frame? other
          = if label = other then (s.frame? other).map (Frame.setAll · [v]) else s.frame? other :=
        frameIn_changeFrame hname label other s.stack
      rw [hframes other, hset]
      split
      · rw [Option.map_map]
        rfl
      · rfl

/-- The frame under a label after a patch of that label. -/
def patched (label : String) (patch : FramePatch) (old : Option Frame) : Option Frame :=
  match patch.action with
  | .remove => none
  | .update => old.map (Frame.setAll · patch.vars)
  | .add =>
    some ((old.getD { name := label, returnAddress := patch.returnAddress }).setAll patch.vars)

theorem applyFrame_frames {s s' : State} {label : String} {patch : FramePatch}
    (hs : s.labels.Nodup) (h : s.applyFrame label patch = .ok s') :
    s'.labels.Nodup ∧ ∀ other, s'.frame? other =
      if label = other then patched label patch (s.frame? other) else s.frame? other := by
  unfold applyFrame at h
  -- nothing to remove, a removal, nothing to update, a new frame, a frame that is there
  split at h
  · cases h
  · next haction hold =>
    obtain rfl := Except.ok.inj h
    refine ⟨nodup_dropFrame hs, fun other => ?_⟩
    split
    · next heq =>
      subst heq
      rw [patched, haction]
      exact frameIn_dropFrame_self hs
    · next hne => exact frameIn_dropFrame_of_ne hne _
  · cases h
  · next haction hold =>
    obtain ⟨hlabels, hframes⟩ := applyVariables_frames h
    have hfresh : label ∉ s.labels := frameIn_eq_none_iff.1 hold
    refine ⟨?_, fun other => ?_⟩
    · rw [hlabels]
      show (List.map Frame.name (s.stack ++ [_])).Nodup
      rw [List.map_append, List.map_singleton, List.nodup_append]
      refine ⟨hs, List.nodup_singleton _, ?_⟩
      intro a ha b hb heq
      obtain rfl : b = label := List.mem_singleton.1 hb
      exact hfresh (heq ▸ ha)
    · rw [hframes other]
      show (if label = other then (frameIn other (s.stack ++ [_])).map _
        else frameIn other (s.stack ++ [_])) = _
      rw [frameIn_append_singleton]
      split
      · next heq =>
        subst heq
        rw [if_pos (beq_self_eq_true _), patched, haction, hold]
        rfl
      · next hne =>
        rw [if_neg (by simpa using hne)]
        rfl
  · next f hold hremove =>
    obtain ⟨hlabels, hframes⟩ := applyVariables_frames h
    refine ⟨by rw [hlabels]; exact hs, fun other => ?_⟩
    rw [hframes other]
    split
    · next heq =>
      subst heq
      rw [patched, hold]
      cases haction : patch.action with
      | remove => exact absurd haction hremove
      | update => rfl
      | add => rfl
    · rfl

/-- **The frame under a label after a step** is the one before it, patched by what the step says of
the label. -/
theorem applyStack_frames {s s' : State} {patches : Table String FramePatch} (hs : s.labels.Nodup)
    (hpatches : patches.Apart) (h : s.applyStack patches = .ok s') :
    s'.labels.Nodup ∧ ∀ label, s'.frame? label =
      match patches.find? label with
      | some patch => patched label patch (s.frame? label)
      | none => s.frame? label := by
  induction patches generalizing s with
  | nil =>
    obtain rfl := Except.ok.inj h
    exact ⟨hs, fun label => rfl⟩
  | cons e patches ih =>
    obtain ⟨hhead, htail⟩ := List.pairwise_cons.1 hpatches
    rw [applyStack] at h
    cases he : s.applyFrame e.1 e.2 with
    | error stopped =>
      rw [he] at h
      cases h
    | ok s₁ =>
      rw [he] at h
      obtain ⟨hnodup, hframe⟩ := applyFrame_frames hs he
      obtain ⟨hnodup', hframes⟩ := ih hnodup htail h
      refine ⟨hnodup', fun label => ?_⟩
      rw [hframes label, hframe label, Table.find?_cons]
      by_cases heq : e.1 = label
      · subst heq
        have hnone : Table.find? patches e.1 = none := by
          rw [Table.find?_eq_none_iff]
          intro f hf
          rw [beq_eq_false_iff_ne]
          have hne := hhead f hf
          rw [beq_eq_false_iff_ne] at hne
          exact hne.symm
        rw [hnone, if_pos rfl, if_pos (beq_self_eq_true _)]
      · rw [if_neg heq, if_neg (by simpa using heq)]

/-- The same for a whole step. -/
theorem apply_frames {s s' : State} {step : Step} (hs : s.labels.Nodup)
    (hpatches : step.delta.stack.Apart) (h : s.apply step = .ok s') :
    s'.labels.Nodup ∧ ∀ label, s'.frame? label =
      match step.delta.stack.find? label with
      | some patch => patched label patch (s.frame? label)
      | none => s.frame? label := by
  obtain ⟨stacked, _, hstack, _, _, hs', _⟩ := apply_cases h
  have hbefore : (s.applyMemory step.delta.memory).stack = s.stack := (applyMemory_beside s _).1
  have hlabels : (s.applyMemory step.delta.memory).labels = s.labels := by
    rw [labels, hbefore, labels]
  have hframe : ∀ label, (s.applyMemory step.delta.memory).frame? label = s.frame? label := by
    intro label
    rw [frame?, hbefore, frame?]
  obtain ⟨hnodup, hframes⟩ := applyStack_frames (by rw [hlabels]; exact hs) hpatches hstack
  refine ⟨by rw [labels, hs']; exact hnodup, fun label => ?_⟩
  have hlabel := hframes label
  rw [hframe label] at hlabel
  rw [frame?, hs']
  exact hlabel

/-! ## Shown variables -/

/-- No label occurs twice, and no frame has a variable twice. -/
structure Tidy (s : State) : Prop where
  labels : s.labels.Nodup
  vars : ∀ f ∈ s.stack, f.vars.Apart

/-- What the frame with a label shows of a variable. -/
def shown? (s : State) (label name : String) : Option Cell :=
  (s.frame? label).bind fun f => f.vars.find? name

/-- The variables of the frames are what is shown under their labels and names. -/
theorem Tidy.shown?_eq_some_iff {s : State} (hs : s.Tidy) {label name : String} {c : Cell} :
    s.shown? label name = some c ↔ ∃ f ∈ s.stack, f.name = label ∧ (name, c) ∈ f.vars := by
  constructor
  · intro h
    obtain ⟨f, hf, hc⟩ := Option.bind_eq_some_iff.1 h
    obtain ⟨hmem, hname⟩ := frameIn_some hf
    obtain ⟨key, hkey, heq⟩ := Table.mem_of_find? hc
    rw [eq_of_beq heq] at hkey
    exact ⟨f, hmem, hname, hkey⟩
  · rintro ⟨f, hf, rfl, hc⟩
    rw [shown?, frame?_of_mem hs.labels hf]
    exact Table.find?_of_mem (hs.vars f hf) (beq_self_eq_true _) hc

theorem Tidy.apply {s s' : State} {step : Step} (hs : s.Tidy) (hpatches : step.delta.stack.Apart)
    (h : s.apply step = .ok s') : s'.Tidy := by
  obtain ⟨hnodup, hframes⟩ := apply_frames hs.labels hpatches h
  have hold : ∀ label f, s.frame? label = some f → f.vars.Apart :=
    fun label f hf => hs.vars f (frameIn_some hf).1
  have hnew : ∀ label f, s'.frame? label = some f → f.vars.Apart := by
    intro label f hf
    rw [hframes label] at hf
    split at hf
    · next patch _ =>
      unfold patched at hf
      split at hf
      · cases hf
      · obtain ⟨g, hg, rfl⟩ := Option.map_eq_some_iff.1 hf
        exact Frame.apart_setAll (hold _ g hg) _
      · obtain rfl := Option.some.inj hf
        refine Frame.apart_setAll ?_ _
        cases hg : s.frame? label with
        | none => exact List.Pairwise.nil
        | some g => exact hold _ g hg
    · exact hold _ f hf
  exact ⟨hnodup, fun f hf => hnew f.name f (frame?_of_mem hnodup hf)⟩

/-- What a frame shows after a step is what the step says of the variable, or what was shown before,
if the step says nothing of it. -/
theorem Tidy.shown?_apply {s s' : State} {step : Step} (hs : s.Tidy)
    (hpatches : step.delta.stack.Apart) (h : s.apply step = .ok s') {label name : String} {c : Cell}
    (hc : s'.shown? label name = some c) :
    (step.delta.stack.find? label = none ∧ s.shown? label name = some c) ∨
    ∃ patch, step.delta.stack.find? label = some patch ∧ patch.action ≠ .remove ∧
      ((∃ v ∈ patch.vars, v.name = name ∧ c = variableCell v) ∨
        (name ∉ patch.vars.map FrameVariable.name ∧ s.shown? label name = some c)) := by
  obtain ⟨_, hframes⟩ := apply_frames hs.labels hpatches h
  obtain ⟨f, hf, hfind⟩ := Option.bind_eq_some_iff.1 hc
  have hfound := hframes label
  rw [hf] at hfound
  cases hpatch : step.delta.stack.find? label with
  | none =>
    rw [hpatch] at hfound
    dsimp only at hfound
    exact Or.inl ⟨rfl, by rw [shown?, ← hfound]; exact hfind⟩
  | some patch =>
    rw [hpatch] at hfound
    dsimp only at hfound
    unfold patched at hfound
    refine Or.inr ⟨patch, rfl, ?_⟩
    -- the patch removes the frame, updates it or adds it
    split at hfound
    · cases hfound
    · next haction =>
      obtain ⟨g, hg, rfl⟩ := Option.map_eq_some_iff.1 hfound.symm
      refine ⟨by rw [haction]; decide, ?_⟩
      rcases Frame.find?_setAll_cases hfind with hset | ⟨hnot, hkept⟩
      · exact Or.inl hset
      · exact Or.inr ⟨hnot, by rw [shown?, hg]; exact hkept⟩
    · next haction =>
      obtain rfl := Option.some.inj hfound
      refine ⟨by rw [haction]; decide, ?_⟩
      rcases Frame.find?_setAll_cases hfind with hset | ⟨hnot, hkept⟩
      · exact Or.inl hset
      · refine Or.inr ⟨hnot, ?_⟩
        cases hg : s.frame? label with
        | none =>
          rw [hg] at hkept
          cases hkept
        | some g =>
          rw [hg] at hkept
          rw [shown?, hg]
          exact hkept

/-- A step that adds variables to a frame goes on showing the others as they were. -/
theorem Tidy.shown?_apply_of_add {s s' : State} {step : Step} (hs : s.Tidy)
    (hpatches : step.delta.stack.Apart) (h : s.apply step = .ok s') {label name : String} {c : Cell}
    {patch : FramePatch} (hpatch : step.delta.stack.find? label = some patch)
    (hadd : patch.action = .add) (hnot : name ∉ patch.vars.map FrameVariable.name)
    (hc : s.shown? label name = some c) : s'.shown? label name = some c := by
  obtain ⟨_, hframes⟩ := apply_frames hs.labels hpatches h
  obtain ⟨f, hf, hfind⟩ := Option.bind_eq_some_iff.1 hc
  have hfound := hframes label
  rw [hpatch] at hfound
  dsimp only at hfound
  rw [patched, hadd, hf] at hfound
  rw [shown?, hfound]
  show (f.setAll patch.vars).vars.find? name = some c
  rw [Frame.find?_setAll_of_not_mem hnot]
  exact hfind

/-- A step that adds variables to a frame shows them there. -/
theorem Tidy.shown?_added {s s' : State} {step : Step} (hs : s.Tidy)
    (hpatches : step.delta.stack.Apart) (h : s.apply step = .ok s') {label : String}
    {patch : FramePatch} (hpatch : step.delta.stack.find? label = some patch)
    (hadd : patch.action = .add) {v : FrameVariable} (hv : v ∈ patch.vars)
    (hnodup : (patch.vars.map FrameVariable.name).Nodup) :
    s'.shown? label v.name = some (variableCell v) := by
  obtain ⟨_, hframes⟩ := apply_frames hs.labels hpatches h
  have hfound := hframes label
  rw [hpatch] at hfound
  dsimp only at hfound
  rw [patched, hadd] at hfound
  rw [shown?, hfound]
  exact Frame.find?_setAll_of_mem hv hnodup

end State

end Stepwise
