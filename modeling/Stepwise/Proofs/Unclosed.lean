/-
Files that were never closed.

A program about files is executed, then a warning is shown for every file that is
still open, and then what the files contain. When the main function has returned,
nothing is held back; so the heap of the state alone says which files are open, and
the steps that follow do not change it. The table of open files and the heap are
sorted by address, apart from one another; both have whole numbers as keys and no
key twice, so the handles come out in the same order as the blocks that are not free.

That no other step looks like such a warning needs a look at the whole execution: it
shows no warnings but those of loops that were cut short, and these end differently.
-/
import Stepwise.Proofs.Handles
import Stepwise.Proofs.Limits

set_option autoImplicit false

namespace Stepwise

open Relation (ReflTransGen)

/-! ## Tables by address -/

/-- Entries with different whole numbers as keys rise once they are sorted. -/
theorem sort_rises {ν : Type} {l : List (Int × ν)} (h : l.Pairwise fun a b => a.1 ≠ b.1) :
    (Sorting.sort (fun a b => decide (a.1 < b.1)) l).Pairwise fun a b => a.1 < b.1 := by
  have hperm := Sorting.sort_perm (fun a b : Int × ν => decide (a.1 < b.1)) l
  have horder : Sorting.InOrder (fun a b : Int × ν => decide (a.1 < b.1))
      (Sorting.sort (fun a b : Int × ν => decide (a.1 < b.1)) l) := by
    refine Sorting.sort_inOrder ?_ ?_ l
    · intro a b hab
      rw [decide_eq_true_eq] at hab
      rw [decide_eq_false_iff_not]
      omega
    · intro a b c hab hbc
      rw [decide_eq_false_iff_not] at hab hbc ⊢
      omega
  have hdistinct := hperm.symm.pairwise h fun hne => hne.symm
  refine (horder.and hdistinct).imp ?_
  rintro a b ⟨hle, hne⟩
  rw [decide_eq_false_iff_not] at hle
  omega

/-- The keys of a table in order of their addresses, if they are whole numbers and no two are equal:
they rise, and they are those under which something is found that passes the test. -/
theorem Table.byAddress_keys {ν : Type} {t : Table Number ν} (hwhole : t.Whole) (hapart : t.Apart)
    (p : ν → Bool) :
    ∃ keys : List Int, (t.byAddress.filter fun e => p e.2).map Prod.fst = keys.map Number.int ∧
      keys.Pairwise (· < ·) ∧ ∀ n, n ∈ keys ↔ ∃ v, t.find? (.int n) = some v ∧ p v = true := by
  -- the same table with its keys as integers
  let f : Int × ν → Number × ν := fun e => (.int e.1, e.2)
  obtain ⟨u, rfl⟩ : ∃ u : List (Int × ν), t = u.map f := by
    clear hapart
    induction t with
    | nil => exact ⟨[], rfl⟩
    | cons e t ih =>
      obtain ⟨n, hn⟩ := hwhole e List.mem_cons_self
      obtain ⟨u, rfl⟩ := ih fun e he => hwhole e (List.mem_cons_of_mem _ he)
      refine ⟨(n, e.2) :: u, ?_⟩
      rw [List.map_cons, show f (n, e.2) = e from Prod.ext hn.symm rfl]
  have hsorted : Table.byAddress (u.map f)
      = (Sorting.sort (fun a b => decide (a.1 < b.1)) u).map f :=
    Sorting.sort_map (fun a b => Number.less_int_int a.1 b.1) u
  have hperm := Sorting.sort_perm (fun a b : Int × ν => decide (a.1 < b.1)) u
  have hrises := sort_rises (l := u) ((List.pairwise_map.1 hapart).imp fun h => by simpa [f] using h)
  generalize Sorting.sort (fun a b : Int × ν => decide (a.1 < b.1)) u = sorted at *
  refine ⟨(sorted.filter fun e => p e.2).map Prod.fst, ?_, ?_, ?_⟩
  · rw [hsorted, List.filter_map, List.map_map, List.map_map]
    rfl
  · exact List.pairwise_map.2 (hrises.filter _)
  · intro n
    rw [List.mem_map]
    constructor
    · rintro ⟨e, he, rfl⟩
      obtain ⟨hmem, hp⟩ := List.mem_filter.1 he
      refine ⟨e.2, Table.find?_of_mem hapart (by simp) ?_, hp⟩
      exact List.mem_map.2 ⟨e, hperm.mem_iff.1 hmem, rfl⟩
    · rintro ⟨v, hfound, hp⟩
      obtain ⟨k, hk, heq⟩ := Table.mem_of_find? hfound
      obtain ⟨e, he, hke⟩ := List.mem_map.1 hk
      obtain ⟨rfl, rfl⟩ := Prod.mk.inj hke
      refine ⟨e, List.mem_filter.2 ⟨hperm.mem_iff.2 he, hp⟩, ?_⟩
      simpa using heq

/-- Two rising lists with the same elements are the same. -/
theorem eq_of_rising {l l' : List Int} (h : l.Pairwise (· < ·)) (h' : l'.Pairwise (· < ·))
    (hmem : ∀ n, n ∈ l ↔ n ∈ l') : l = l' := by
  have hperm : l.Perm l' :=
    (List.perm_ext_iff_of_nodup (h.imp Int.ne_of_lt) (h'.imp Int.ne_of_lt)).2 hmem
  refine hperm.eq_of_pairwise ?_ h h'
  intro a b _ _ hab hba
  omega

/-- The handles of the open files, in order, are the addresses of the blocks that are not free. -/
theorem Machine.Filed.handles_eq {m : Machine} (hm : m.Filed) (hblocks : m.blocks = []) :
    m.files.byAddress.map Prod.fst
      = (m.state.sortedBlocks.filter fun e => !e.2.freed).map Prod.fst := by
  obtain ⟨handles, hhandles, hrises, hopen⟩ :=
    Table.byAddress_keys hm.files_whole hm.files_apart fun _ => true
  obtain ⟨addresses, haddresses, hrises', hused⟩ :=
    Table.byAddress_keys hm.heap_whole hm.heap_apart fun block => !block.freed
  rw [List.filter_true] at hhandles
  rw [State.sortedBlocks, hhandles, haddresses]
  refine congrArg _ (eq_of_rising hrises hrises' ?_)
  intro n
  have hhas : (∃ file, m.files.find? (.int n) = some file ∧ true = true)
      ↔ m.files.has (.int n) = true := by
    rw [Table.has_eq_true_iff]
    exact ⟨fun ⟨file, hfile, _⟩ => ⟨file, hfile⟩, fun ⟨file, hfile⟩ => ⟨file, hfile, rfl⟩⟩
  rw [hopen n, hused n, hhas, hm.handle_iff, Machine.blockAt, hblocks]
  show (∃ size, (m.state.heap.find? (.int n)).map _ = some (size, false)) ↔ _
  cases m.state.heap.find? (.int n) with
  | none => simp
  | some block => simp

/-! ## Warnings of an execution -/

section Warnings

variable {setup : Setup}

/-- Every warning so far says that a loop reached its limit. -/
abbrev Machine.WarnsOfLoops (settings : Settings) : Machine → Prop :=
  Machine.Described fun step => step.kind = .warning → step.CutsLoop settings

/-- Only such warnings are added. -/
abbrev OnlyLoops (settings : Settings) : Machine → Machine → Prop :=
  Keeps (Machine.WarnsOfLoops settings)

theorem emitDelta_onlyLoops {kind : StepKind} (hkind : kind ≠ .warning) (line : Int)
    (description : String) (delta : Delta) :
    Follows (OnlyLoops setup.settings) (Run.emitDelta setup kind line description delta) :=
  emitDelta_described fun _ hwarning => absurd hwarning hkind

theorem loopWarning_onlyLoops (line : Int) :
    Follows (OnlyLoops setup.settings)
      (Run.emit setup .warning line (loopWarning setup.settings)) :=
  emitDelta_described fun m _ => ⟨rfl, m.suffix_fullDescription (loopWarning_ne_empty _)⟩

instance : Watching setup (OnlyLoops setup.settings) where
  library f arguments := library_follows setup.settings f arguments
  step _ line description delta hkind := emitDelta_onlyLoops hkind line description delta
  warn := loopWarning_onlyLoops

/-- **Executing a program shows no warnings but those of loops.** -/
theorem runMain_onlyLoops (category : Category) :
    Follows (OnlyLoops setup.settings) (runMain setup category.commentary) :=
  Watching.runMain_follows category

end Warnings

/-! ## After the execution -/

/-- The second machine shows more steps, and nothing else is different. -/
structure Machine.Adds (steps : List Step) (m m' : Machine) : Prop where
  idle : m'.hasPending = false
  state : m'.state = m.state
  files : m'.files = m.files
  steps : m'.steps.toList = m.steps.toList ++ steps

/-- Where nothing is held back, a step shows what it says and changes nothing. -/
theorem Machine.emit_adds {m m' : Machine} {kind : StepKind} {line : Int} {description : String}
    (hidle : m.hasPending = false) (h : m.emit kind line description {} = .ok m') :
    Machine.Adds [⟨kind, line, description, {}⟩] m m' := by
  simp only [Machine.hasPending, Bool.or_eq_false_iff, Bool.not_eq_eq_eq_not, Bool.not_false,
    List.isEmpty_iff, String.isEmpty_iff] at hidle
  obtain ⟨⟨⟨hwrites, hblocks⟩, houtput⟩, hnotes⟩ := hidle
  have hstep : m.nextStep kind line description {} = ⟨kind, line, description, {}⟩ := by
    simp [Machine.nextStep, Machine.fullDescription, Machine.pendingCells, Machine.pendingFrames,
      hwrites, hblocks, houtput, hnotes]
  obtain ⟨state, happly, rfl⟩ := Machine.emit_eq_ok.1 h
  rw [hstep, State.apply_of_no_change _ rfl] at happly
  refine ⟨rfl, (Except.ok.inj happly).symm, rfl, ?_⟩
  show (m.steps.push _).toList = _
  rw [hstep, Array.toList_push]

/-- Steps that are shown one after the other, each for one of the items. -/
theorem forM_adds {α : Type} {items : List α} {f : α → Run Unit} {Says : α → Step → Prop}
    (hf : ∀ a ∈ items, ∀ m m', m.hasPending = false → f a m = .ok ((), m') →
      ∃ step, Says a step ∧ Machine.Adds [step] m m')
    {m m' : Machine} (hidle : m.hasPending = false) (h : items.forM f m = .ok ((), m')) :
    ∃ steps, List.Forall₂ Says items steps ∧ Machine.Adds steps m m' := by
  induction items generalizing m with
  | nil =>
    obtain ⟨_, rfl⟩ := Eval.pure_eq_ok.1 h
    exact ⟨[], .nil, hidle, rfl, rfl, (List.append_nil _).symm⟩
  | cons a items ih =>
    obtain ⟨⟨⟩, m₁, hhead, htail⟩ := Eval.bind_eq_ok.1 h
    obtain ⟨step, hsays, hadds⟩ := hf a List.mem_cons_self m m₁ hidle hhead
    obtain ⟨steps, hall, hmore⟩ :=
      ih (fun b hb => hf b (List.mem_cons_of_mem _ hb)) hadds.idle htail
    refine ⟨step :: steps, .cons hsays hall, hmore.idle, hmore.state.trans hadds.state,
      hmore.files.trans hadds.files, ?_⟩
    rw [hmore.steps, hadds.steps, List.append_assoc]
    rfl

/-- The step warns that the file with a handle was never closed. -/
def Step.LeftOpen (address : Int) (step : Step) : Prop :=
  step.kind = .warning ∧ ∃ name : String,
    step.description = name ++ " was never closed (FILE at " ++ Numeral.address address ++ ")"

namespace Remark

variable {setup : Setup} {m m' : Machine}

/-- There is a warning for every open file, in order of their handles. -/
theorem openFiles_adds (hidle : m.hasPending = false) (h : openFiles setup m = .ok ((), m')) :
    ∃ warnings, List.Forall₂ (fun e step => ∃ a, e.1 = Number.int a ∧ Step.LeftOpen a step)
      m.files.byAddress warnings ∧ m.Adds warnings m' := by
  obtain ⟨files, m₁, h₁, h⟩ := Eval.bind_eq_ok.1 h
  obtain ⟨rfl, rfl⟩ := Run.ask_eq_ok.1 h₁
  refine forM_adds ?_ hidle h
  rintro ⟨handle, file⟩ _ n n' hn hopen
  obtain ⟨address, n₁, haddress, hemit⟩ := Eval.bind_eq_ok.1 hopen
  obtain ⟨hhandle, rfl⟩ := Eval.lift_eq_ok.1 haddress
  refine ⟨_, ⟨address, ?_, rfl, file.name, rfl⟩, Machine.emit_adds hn (Run.emit_eq_ok.1 hemit)⟩
  cases handle with
  | int a => rw [Except.ok.inj hhandle]
  | float x origin => cases hhandle

theorem contents_adds (hidle : m.hasPending = false) (h : contents setup m = .ok ((), m')) :
    ∃ steps, (∀ step ∈ steps, step.kind = .information) ∧ m.Adds steps m' := by
  obtain ⟨files, m₁, h₁, h⟩ := Eval.bind_eq_ok.1 h
  obtain ⟨rfl, rfl⟩ := Run.ask_eq_ok.1 h₁
  obtain ⟨steps, hall, hadds⟩ : ∃ steps, List.Forall₂ (fun _ step => step.kind = .information)
      (List.mergeSort m.disk fun a b => decide (a.1 ≤ b.1)) steps ∧ m.Adds steps m' := by
    refine forM_adds ?_ hidle h
    rintro ⟨name, content⟩ _ n n' hn hemit
    exact ⟨_, rfl, Machine.emit_adds hn (Run.emit_eq_ok.1 hemit)⟩
  refine ⟨steps, ?_, hadds⟩
  intro step hstep
  obtain ⟨_, _, hkind⟩ := mem_of_forall₂ hall hstep
  exact hkind

end Remark

/-- What is said of the entries of a table one by one is said of their keys. -/
theorem forall₂_of_keys {ν : Type} {R : Int → Step → Prop} {t : Table Number ν} {steps : List Step}
    {keys : List Int} (h : List.Forall₂ (fun e step => ∃ a, e.1 = Number.int a ∧ R a step) t steps)
    (hkeys : t.map Prod.fst = keys.map Number.int) : List.Forall₂ R keys steps := by
  induction h generalizing keys with
  | nil =>
    obtain rfl := List.map_eq_nil_iff.1 hkeys.symm
    exact .nil
  | cons hhead _ ih =>
    obtain ⟨a, ha, hR⟩ := hhead
    obtain ⟨key, rest, rfl, hkey, hrest⟩ := List.map_eq_cons_iff.1 hkeys.symm
    obtain rfl : key = a := Number.int.inj (hkey.trans ha)
    exact .cons hR (ih hrest.symm)

theorem getLast?_append_text (front back : String) {c : Char}
    (h : back.toList.getLast? = some c) : (front ++ back).toList.getLast? = some c := by
  rw [String.toList_append, List.getLast?_append, h]
  rfl

/-- A loop that was cut short and a file that was not closed are told apart by how the text ends. -/
theorem Step.CutsLoop.not_leftOpen {settings : Settings} {step : Step}
    (h : step.CutsLoop settings) (address : Int) : ¬step.LeftOpen address := by
  rintro ⟨_, name, htext⟩
  obtain ⟨rest, hrest⟩ := h.2
  have hloop : (loopWarning settings).toList.getLast? = some 's' :=
    getLast?_append_text _ " iterations" (by decide +kernel)
  have hfile : step.description.toList.getLast? = some ')' := by
    rw [htext]
    exact getLast?_append_text _ ")" (by decide +kernel)
  rw [← hrest, List.getLast?_append, hloop] at hfile
  cases hfile

section Scripts

variable {setup : Setup} {m : Machine}

/-- The steps of the script for programs about files: those of the execution, the warnings, and what
the files contain. -/
theorem fileIo_play (h : Category.fileIo.play setup (Machine.start setup.settings) = .ok ((), m)) :
    ∃ before warnings after addresses, m.steps.toList = before ++ (warnings ++ after) ∧
      (∀ step ∈ before ++ after, ∀ a, ¬step.LeftOpen a) ∧
      (m.state.sortedBlocks.filter fun e => !e.2.freed).map Prod.fst
        = addresses.map Number.int ∧
      addresses.Pairwise (· < ·) ∧ List.Forall₂ Step.LeftOpen addresses warnings := by
  obtain ⟨⟨⟩, m₁, hrun, h⟩ := Eval.bind_eq_ok.1 h
  obtain ⟨⟨⟩, m₂, hopen, hcontents⟩ := Eval.bind_eq_ok.1 h
  have hidle : m₁.hasPending = false := runMain_flushed hrun
  have hpasses : setup.Passes m₁ := (Returns.walks (runMain_returns .fileIo _ () m₁ hrun) rfl).1
  have hloops : m₁.WarnsOfLoops setup.settings :=
    runMain_onlyLoops .fileIo _ () m₁ hrun fun step hstep => absurd hstep (Array.not_mem_empty step)
  obtain ⟨warnings, hwarnings, hadds⟩ := Remark.openFiles_adds hidle hopen
  obtain ⟨after, hafter, hadds'⟩ := Remark.contents_adds hadds.idle hcontents
  have hblocks : m₁.blocks = [] := by
    simp only [Machine.hasPending, Bool.or_eq_false_iff, Bool.not_eq_eq_eq_not, Bool.not_false,
      List.isEmpty_iff] at hidle
    exact hidle.1.1.2
  obtain ⟨addresses, haddresses, hrises, _⟩ :=
    Table.byAddress_keys hpasses.filed.heap_whole hpasses.filed.heap_apart fun block => !block.freed
  have hkeys : m₁.files.byAddress.map Prod.fst = addresses.map Number.int :=
    (hpasses.filed.handles_eq hblocks).trans haddresses
  refine ⟨m₁.steps.toList, warnings, after, addresses, ?_, ?_, ?_, hrises, ?_⟩
  · rw [hadds'.steps, hadds.steps, List.append_assoc]
  · intro step hstep a hleft
    rcases List.mem_append.1 hstep with hstep | hstep
    · exact (hloops step (Array.mem_toList_iff.1 hstep) hleft.1).not_leftOpen a hleft
    · have hkind := hafter step hstep
      rw [hleft.1] at hkind
      cases hkind
  · rw [hadds'.state, hadds.state]
    exact haddresses
  · exact forall₂_of_keys hwarnings hkeys

end Scripts

/-- The steps of a trace warn of exactly the files whose blocks are not free at its end, in order of
their addresses. -/
def Trace.WarnsOfOpenFiles (t : Trace) : Prop :=
  ∃ before warnings after addresses, t.steps = before ++ (warnings ++ after) ∧
    (∀ step ∈ before ++ after, ∀ a, ¬step.LeftOpen a) ∧
    (t.state.sortedBlocks.filter fun e => !e.2.freed).map Prod.fst = addresses.map Number.int ∧
    addresses.Pairwise (· < ·) ∧ List.Forall₂ Step.LeftOpen addresses warnings

theorem Program.warnsOfOpenFiles {p : Program} {source : String} {tokens : List Token}
    {settings : Settings} (hok : (p.trace source tokens settings).ok = true)
    (hcategory : (p.trace source tokens settings).category = some .fileIo) :
    (p.trace source tokens settings).WarnsOfOpenFiles := by
  obtain ⟨analysis, ha⟩ := Program.analyze_of_trace_ok hok
  obtain ⟨m, hplay⟩ := Program.play_of_trace_ok ha hok
  have htrace := trace_of_play ha hplay
  rw [htrace] at hcategory ⊢
  rw [Option.some.inj hcategory] at hplay ⊢
  obtain ⟨before, warnings, after, addresses, hsteps, hothers, hblocks, hrises, hall⟩ :=
    fileIo_play hplay
  refine ⟨Trace.startStep :: before, warnings, after ++ [Trace.endStep tokens], addresses, ?_, ?_,
    hblocks, hrises, hall⟩
  · show Trace.startStep :: (m.steps.toList ++ [Trace.endStep tokens]) = _
    rw [hsteps]
    simp only [List.cons_append, List.append_assoc]
  · intro step hstep a hleft
    have hkind := hleft.1
    rcases List.mem_append.1 hstep with hstep | hstep
    · rcases List.mem_cons.1 hstep with rfl | hstep
      · cases hkind
      · exact hothers step (List.mem_append_left _ hstep) a hleft
    · rcases List.mem_append.1 hstep with hstep | hstep
      · exact hothers step (List.mem_append_right _ hstep) a hleft
      · rw [List.mem_singleton.1 hstep] at hkind
        cases hkind

/-! ## The main result -/

/-- **Open files and heap blocks agree.** In every machine that an execution passes through, the
handles of open files are the addresses of the blocks that are not free, what is held back included,
and every block has the size of a file's structure. A call that opens a file gives a handle that no
such call gave before, and any other gives a null handle. Only an open handle can be closed, and once
it is closed, it is not open and never closed again. Expressions, statements and whole scripts lead
from one such machine to another. So a trace about files that comes to its end warns of exactly the
blocks that are not free. -/
theorem handles_agree_with_blocks :
    (∀ (setup : Setup) (m : Machine), setup.Passes m →
      (∀ a, m.files.has a = true ↔ ∃ size, m.blockAt a = some (size, false)) ∧
      (∀ a size freed, m.blockAt a = some (size, freed) → size = .int 216) ∧
      (∀ arguments v m', Library.fopen arguments m = .ok (v, m') →
        (v.value = .int 0 ∧ m'.files = m.files) ∨
          ∃ handle, Library.Opens arguments m handle m') ∧
      (∀ arguments handle m', Library.Opens arguments m handle m' →
        ∀ n, ReflTransGen (Walk setup) m' n → ∀ arguments' handle' n',
          Library.Opens arguments' n handle' n' → (handle == handle') = false) ∧
      (∀ arguments v m', Library.fclose arguments m = .ok (v, m') →
        ∃ a key, arguments[0]? = some a ∧ a.value = .num key ∧ m.files.has key = true ∧
          m'.files.has key = false ∧
          ∀ n, ReflTransGen (Walk setup) m' n → ∀ arguments' w n',
            Library.fclose arguments' n = .ok (w, n') →
            ∃ b other, arguments'[0]? = some b ∧ b.value = .num other ∧
              (key == other) = false)) ∧
    (∀ (setup : Setup) (category : Category),
      (∀ m, setup.Passes m → ∀ active scope,
        (∀ e v m', evaluateWith setup (callAt setup category.commentary active) scope e m
          = .ok (v, m') → setup.Passes m') ∧
        ∀ body flow m', (walker setup category.commentary
          (callAt setup category.commentary active) scope).runBody body m = .ok (flow, m') →
          setup.Passes m') ∧
      (category.executes = true → ∀ m,
        category.play setup (Machine.start setup.settings) = .ok ((), m) → setup.Passes m)) ∧
    (∀ (p : Program) (source : String) (tokens : List Token) (settings : Settings),
      (p.trace source tokens settings).ok = true →
      (p.trace source tokens settings).category = some .fileIo →
      (p.trace source tokens settings).WarnsOfOpenFiles) := by
  refine ⟨?_, ?_, fun p source tokens settings => Program.warnsOfOpenFiles⟩
  · intro setup m hpasses
    have hm := hpasses.filed
    refine ⟨hm.handle_iff, hm.size, fun arguments v m' => Library.opens_or_null hm, ?_, ?_⟩
    · intro arguments handle m' hopen n hbetween arguments' handle' n' hopen'
      exact hopen.fresh hm hbetween hopen'
    · intro arguments v m' hclose
      -- closing frees the block, and a freed block is never in use again
      obtain ⟨a, key, hargument, hvalue, hhas, hm', size, hfree⟩ := Library.closes_open hm hclose
      refine ⟨a, key, hargument, hvalue, hhas, ?_, ?_⟩
      · cases hagain : m'.files.has key with
        | false => rfl
        | true =>
          obtain ⟨size', hused⟩ := (hm'.handle_iff key).1 hagain
          rw [hfree] at hused
          cases hused
      · intro n hbetween arguments' w n' hclose'
        exact Library.closes_once hm' hfree hbetween hclose'
  · intro setup category
    refine ⟨?_, ?_⟩
    · intro m hpasses active scope
      have hcall : ∀ scope name arguments line, Follows (Walks setup)
          (callAt setup category.commentary active scope name arguments line) :=
        callAt_follows category active
      exact ⟨fun e v m' h => hpasses.trans (evaluateWith_follows hcall scope e m v m' h).1,
        fun body flow m' h => hpasses.trans (runBody_follows category hcall scope body m flow m' h).1⟩
    · intro hexec m hplay
      exact (play_follows hexec hplay rfl).1

namespace ReopenedFile

/-- A program that closes a file, opens it again and leaves it open. -/
def source : String :=
  "int main() \x7b\n  FILE* f = fopen(\"a\", \"w\");\n  fputs(\"hi\", f);\n  fclose(f);\n" ++
    "  FILE* g = fopen(\"a\", \"r\");\n  return 0;\n\x7d\n"

/-- A declared handle. -/
def handle (line : Nat) (name mode : String) : Stmt :=
  .decl ⟨line, ⟨"FILE"⟩, [⟨line, name, 1, .none, some (.expr (.call line "fopen"
    [.literal line "\"a\"", .literal line mode]))⟩]⟩

/-- Its main function. -/
def main : Function where
  line := 1
  name := "main"
  returnType := .int
  parameters := []
  bodyLine := 1
  body :=
    [handle 2 "f" "\"w\"",
      .expr 3 (.call 3 "fputs" [.literal 3 "\"hi\"", .name 3 "f"]),
      .expr 4 (.call 4 "fclose" [.name 4 "f"]),
      handle 5 "g" "\"r\"",
      .ret 6 (some (.literal 6 "0"))]

/-- The program. -/
def program : Program :=
  ⟨[.function main]⟩

/-- What is known about it. -/
def analysis (tokens : List Token) : Analysis :=
  { program, source, tokens, lines := Text.lines source, macros := [], layouts := [] }

theorem analyze_eq (tokens : List Token) : analyze program source tokens = .ok (analysis tokens) :=
  rfl

theorem category_eq : (analysis (tokenize source)).category = .fileIo := by
  have hsource : source = String.ofList _ := Text.append_of_chars rfl rfl
  rw [Analysis.category, Analysis.lowered_eq hsource]
  decide +kernel

/-- What it is executed under. -/
def setup : Setup :=
  ⟨analysis (tokenize source), {}⟩

/-- What its script comes to. -/
def outcome : Except Fault (Unit × Machine) :=
  Category.fileIo.play setup (Machine.start {})

/-- The texts of the warnings. -/
def warnings (steps : List Step) : List String :=
  (steps.filter fun step => step.kind == .warning).map Step.description

/-- Of the two handles only the second is open, and there is one warning, of the second. -/
def comesOut (m : Machine) : Bool :=
  !m.files.has (.int 0x8000) && m.files.has (.int 0x80d8) &&
    warnings m.steps.toList == ["a was never closed (FILE at 0x80d8)"]

theorem outcome_comesOut :
    (match outcome with
      | .ok (_, m) => comesOut m
      | .error _ => false) = true := by
  have hmain : setup.analysis.main? = some main := rfl
  have hcalls : setup.settings.calls = 31 + 1 := rfl
  unfold outcome Category.play runMain
  rw [hmain]
  dsimp only
  rw [hcalls, invoke]
  -- statements are unfolded by their equations; the rest is computed
  simp only [main, handle, Walker.runBody, Walker.items, Walker.run]
  decide +kernel

theorem exists_run :
    ∃ m, outcome = .ok ((), m) ∧ m.files.has (.int 0x8000) = false ∧
      m.files.has (.int 0x80d8) = true ∧
      warnings m.steps.toList = ["a was never closed (FILE at 0x80d8)"] := by
  have h := outcome_comesOut
  split at h
  · next m hm =>
    simp only [comesOut, Bool.and_eq_true, Bool.not_eq_true', beq_iff_eq] at h
    exact ⟨m, hm, h.1.1, h.1.2, h.2⟩
  · cases h

theorem trace_eq {m : Machine} (h : outcome = .ok ((), m)) :
    program.trace source (tokenize source) {} = Trace.completed (tokenize source) .fileIo m := by
  have hplay : (analysis (tokenize source)).category.play setup (Machine.start {})
      = .ok ((), m) := by
    rw [category_eq]
    exact h
  rw [trace_of_play (analyze_eq _) hplay, category_eq]

end ReopenedFile

/-- This program closes a file, opens it again and comes to its end. The second handle is another
one, its block is not free, and its trace warns of it alone. -/
theorem reopened_file_is_warned_of :
    ∃ m t, t = ReopenedFile.program.trace ReopenedFile.source (tokenize ReopenedFile.source) {} ∧
      ReopenedFile.outcome = .ok ((), m) ∧ ReopenedFile.setup.Passes m ∧
      m.files.has (.int 0x8000) = false ∧ m.files.has (.int 0x80d8) = true ∧
      m.blockAt (.int 0x80d8) = some (.int 216, false) ∧
      t.ok = true ∧ t.category = some .fileIo ∧ t.WarnsOfOpenFiles ∧
      ReopenedFile.warnings t.steps = ["a was never closed (FILE at 0x80d8)"] := by
  obtain ⟨m, hrun, hfirst, hsecond, hwarnings⟩ := ReopenedFile.exists_run
  obtain ⟨hmachines, hscripts, htraces⟩ := handles_agree_with_blocks
  have hpasses : ReopenedFile.setup.Passes m := (hscripts _ .fileIo).2 rfl m hrun
  obtain ⟨hopen, hsize, _⟩ := hmachines _ m hpasses
  obtain ⟨size, hblock⟩ := (hopen _).1 hsecond
  rw [hsize _ _ _ hblock] at hblock
  have htrace := ReopenedFile.trace_eq hrun
  have hok : (ReopenedFile.program.trace ReopenedFile.source
      (tokenize ReopenedFile.source) {}).ok = true := by
    rw [htrace]
    rfl
  have hcategory : (ReopenedFile.program.trace ReopenedFile.source
      (tokenize ReopenedFile.source) {}).category = some .fileIo := by
    rw [htrace]
    rfl
  refine ⟨m, _, rfl, hrun, hpasses, hfirst, hsecond, hblock, hok, hcategory,
    htraces _ _ _ _ hok hcategory, ?_⟩
  rw [htrace]
  show ReopenedFile.warnings (Trace.startStep :: (m.steps.toList ++ [_])) = _
  rw [ReopenedFile.warnings, List.filter_cons_of_neg (by decide), List.filter_append,
    List.map_append]
  exact congrArg (· ++ _) hwarnings

end Stepwise
