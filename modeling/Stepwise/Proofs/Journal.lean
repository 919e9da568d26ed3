/-
Nothing is lost, repeated or reordered on the way into a step.

What an expression does is held back and goes out with whichever step comes next,
so a step merges any number of writes and texts, and a declaration's own cells on
top of them. The journal keeps every one of them apart and in the order in which
they happened. Held against it, the machine is *faithful*: its console and what
is held back for it are the printed texts one after the other, and at every
address it reads the value that was stored there last. The texts themselves are those
that `printf`, `puts` and `putchar` make of their arguments, call by call; nothing else
in a run prints.

Every tick of an executed program keeps a machine faithful, wherever steps are
emitted in between; so the order of flushes cannot matter. A run of the main
function ends with the step of its return, which leaves nothing held back.
-/
import Stepwise.Proofs.Pending
import Stepwise.Proofs.Record

set_option autoImplicit false

namespace Stepwise

/-! ## Reading the journal -/

/-- The text that was printed. -/
def Event.text? : Event → Option String
  | printed text => some text
  | wrote .. | emitted .. => none

/-- The value that was stored at an address: written there, or put there by a step of its own. -/
def Event.stored? (a : Number) : Event → Option Value
  | wrote b v => if b == a then some v else none
  | emitted change _ => (change.memory.find? a).map CellPatch.value
  | printed _ => none

/-- The printed texts in order. -/
def Machine.printedTexts (m : Machine) : List String :=
  m.journal.reverse.filterMap Event.text?

/-- The value that was stored at an address last. The newest event comes first. -/
def Machine.lastStored (m : Machine) (a : Number) : Option Value :=
  m.journal.findSome? (Event.stored? a)

theorem Machine.printedTexts_of_journal {m m' : Machine} {e : Event}
    (h : m'.journal = e :: m.journal) : m'.printedTexts = m.printedTexts ++ e.text?.toList := by
  rw [printedTexts, h, List.reverse_cons, List.filterMap_append, printedTexts]
  cases he : e.text? with
  | none => simp [he]
  | some text => simp [he]

theorem Machine.lastStored_of_journal {m m' : Machine} {e : Event}
    (h : m'.journal = e :: m.journal) (a : Number) :
    m'.lastStored a = (e.stored? a).or (m.lastStored a) := by
  rw [lastStored, h, List.findSome?_cons, lastStored]
  cases e.stored? a <;> rfl

/-! ## What library functions print -/

/-- The texts that a call of a library function prints. A console function prints one, made from its
arguments; the other functions print none. -/
inductive LibraryFunction.Prints (m : Machine) : LibraryFunction → List Typed → List String → Prop
  /-- The format with the other arguments put in. -/
  | printf {format text : String} {type : CType} {arguments : List Typed}
      (h : Stepwise.printf format arguments m.textReader = .ok text) :
      Prints m .printf (⟨.text format, type⟩ :: arguments) [text]
  /-- The text that the argument is or points to, and the end of its line. -/
  | puts {a : Typed} {text : String} {arguments : List Typed} (h : m.readText a.value = .ok text) :
      Prints m .puts (a :: arguments) [text ++ "\n"]
  /-- The character that has the argument as its code. -/
  | putchar {n : Int} {c : Char} {type : CType} {arguments : List Typed}
      (h : Literal.charOfCode n = .ok c) :
      Prints m .putchar (⟨.int n, type⟩ :: arguments) [String.singleton c]
  | other {f : LibraryFunction} {arguments : List Typed}
      (h : f ≠ .printf ∧ f ≠ .puts ∧ f ≠ .putchar) : Prints m f arguments []

/-- Nothing was printed in between. -/
def Machine.Mute (m m' : Machine) : Prop :=
  m'.printedTexts = m.printedTexts

instance : IsPreorder Machine Machine.Mute where
  refl _ := rfl
  trans _ _ _ h h' := h'.trans h

/-- An elementary change that prints nothing. -/
inductive Hush : Machine → Machine → Prop
  | emit {m m' : Machine} {kind : StepKind} {line : Int} {description : String} {delta : Delta}
      (h : m.emit kind line description delta = .ok m') : Hush m m'
  | write {m m' : Machine} {address value : Value} (h : m.write address value = .ok m') : Hush m m'
  | note (m : Machine) (text : String) : Hush m { m with notes := m.notes ++ [text] }
  | store (m : Machine) (disk : Table String String) : Hush m { m with disk := disk }
  | seek (m : Machine) (key : Number) (file : OpenFile) (position : Nat) :
      Hush m { m with files := m.files.put key { file with position := position } }
  | opened (m : Machine) (file : OpenFile) : Hush m (m.opened file)
  | closed (m : Machine) (key : Number) : Hush m (m.closed key)
  | cursor (m : Machine) (cursor : Cursor) : Hush m { m with cursor := cursor }
  | owners (m : Machine) (owners : Table Number Owner) : Hush m { m with owners := owners }
  | active (m : Machine) (active : List String) : Hush m { m with active := active }

/-- Anything but a text that enters the journal leaves the texts as they are. -/
theorem Machine.Mute.of_event {m m' : Machine} {e : Event} (h : m'.journal = e :: m.journal)
    (he : e.text? = none) : m.Mute m' := by
  rw [Mute, printedTexts_of_journal h, he, Option.toList_none, List.append_nil]

theorem Hush.mute {m m' : Machine} (h : Hush m m') : m.Mute m' := by
  cases h with
  | emit h =>
    obtain ⟨state, _, rfl⟩ := Machine.emit_eq_ok.1 h
    exact .of_event (m := m) rfl rfl
  | write h =>
    obtain ⟨a, _, _, rfl⟩ := Machine.write_eq_ok.1 h
    exact .of_event (m := m) rfl rfl
  | _ => rfl

instance : Silent Machine.Mute where
  write _ _ _ _ h := (Hush.write h).mute
  note _ _ := rfl
  store _ _ := rfl
  seek _ _ _ _ _ := rfl
  opened _ _ := rfl
  closed _ _ _ _ := rfl

namespace Library

variable {m m' : Machine}

theorem output_prints {via text : String} {u : Unit} (h : output via text m = .ok (u, m')) :
    m'.printedTexts = m.printedTexts ++ [text] := by
  obtain ⟨_, m₁, h₁, hnote⟩ := Eval.bind_eq_ok.1 h
  obtain rfl := Run.change_eq_ok.1 h₁
  have hmute : (m.print text).Mute m' := note_follows _ _ _ _ hnote
  rw [hmute, Machine.printedTexts_of_journal (m := m) rfl]
  rfl

theorem formatted_eq_ok {arguments : List Typed} {text : String}
    (h : formatted arguments m = .ok (text, m')) :
    m = m' ∧ ∃ format type rest, arguments = ⟨.text format, type⟩ :: rest ∧
      Stepwise.printf format rest m.textReader = .ok text := by
  unfold formatted at h
  split at h
  · next format type rest =>
    obtain ⟨hprintf, rfl⟩ := Run.query_eq_ok.1 h
    exact ⟨rfl, format, type, rest, rfl, hprintf⟩
  · exact absurd h Eval.fail_ne_ok

theorem argument_zero_eq_ok {arguments : List Typed} {a : Typed}
    (h : argument arguments 0 m = .ok (a, m')) : m = m' ∧ ∃ rest, arguments = a :: rest := by
  cases arguments with
  | nil => exact absurd h Eval.fail_ne_ok
  | cons b rest =>
    obtain ⟨rfl, rfl⟩ := Eval.pure_eq_ok.1 h
    exact ⟨rfl, rest, rfl⟩

end Library

/-- **What is printed is what the console functions make.** -/
theorem library_prints {settings : Settings} {f : LibraryFunction} {arguments : List Typed}
    {m m' : Machine} {v : Typed} (h : f.run settings arguments m = .ok (v, m')) :
    ∃ texts, f.Prints m arguments texts ∧ m'.printedTexts = m.printedTexts ++ texts := by
  have hmute (hf : f ≠ .printf ∧ f ≠ .puts ∧ f ≠ .putchar) (hm : m.Mute m') :
      ∃ texts, f.Prints m arguments texts ∧ m'.printedTexts = m.printedTexts ++ texts :=
    ⟨[], .other hf, by rw [hm, List.append_nil]⟩
  -- three functions print; what the others do is the work of the lemmas on what is silent
  cases f with
  | printf =>
    obtain ⟨text, m₁, hformatted, h₁⟩ := Eval.bind_eq_ok.1 h
    obtain ⟨rfl, format, type, rest, rfl, hprintf⟩ := Library.formatted_eq_ok hformatted
    obtain ⟨_, m₂, houtput, h₂⟩ := Eval.bind_eq_ok.1 h₁
    obtain ⟨_, rfl⟩ := Eval.pure_eq_ok.1 h₂
    exact ⟨[text], .printf hprintf, Library.output_prints houtput⟩
  | puts =>
    obtain ⟨a, m₁, hargument, h₁⟩ := Eval.bind_eq_ok.1 h
    obtain ⟨rfl, rest, rfl⟩ := Library.argument_zero_eq_ok hargument
    obtain ⟨text, m₂, hquery, h₂⟩ := Eval.bind_eq_ok.1 h₁
    obtain ⟨hread, rfl⟩ := Run.query_eq_ok.1 hquery
    obtain ⟨_, m₃, houtput, h₃⟩ := Eval.bind_eq_ok.1 h₂
    obtain ⟨_, rfl⟩ := Eval.pure_eq_ok.1 h₃
    exact ⟨[text ++ "\n"], .puts hread, Library.output_prints houtput⟩
  | putchar =>
    obtain ⟨⟨value, type⟩, m₁, hargument, h₁⟩ := Eval.bind_eq_ok.1 h
    obtain ⟨rfl, rest, rfl⟩ := Library.argument_zero_eq_ok hargument
    dsimp only at h₁
    split at h₁
    · next n =>
      obtain ⟨c, m₂, hlift, h₂⟩ := Eval.bind_eq_ok.1 h₁
      obtain ⟨hcode, rfl⟩ := Eval.lift_eq_ok.1 hlift
      obtain ⟨_, m₃, houtput, h₃⟩ := Eval.bind_eq_ok.1 h₂
      obtain ⟨_, rfl⟩ := Eval.pure_eq_ok.1 h₃
      exact ⟨[String.singleton c], .putchar hcode, Library.output_prints houtput⟩
    · exact absurd h₁ Eval.fail_ne_ok
  | scanf => exact hmute (by decide) (Library.scanf_follows settings arguments m v m' h)
  | strcpy => exact hmute (by decide) (Library.strcpy_follows arguments m v m' h)
  | strcat => exact hmute (by decide) (Library.strcat_follows arguments m v m' h)
  | strlen => exact hmute (by decide) (Library.strlen_follows arguments m v m' h)
  | strcmp => exact hmute (by decide) (Library.strcmp_follows arguments m v m' h)
  | fopen => exact hmute (by decide) (Library.fopen_follows arguments m v m' h)
  | fclose => exact hmute (by decide) (Library.fclose_follows arguments m v m' h)
  | fprintf => exact hmute (by decide) (Library.fprintf_follows arguments m v m' h)
  | fputs => exact hmute (by decide) (Library.fputs_follows arguments m v m' h)
  | fgets => exact hmute (by decide) (Library.fgets_follows arguments m v m' h)

/-! ## What a run prints -/

/-- The texts that calls of library functions between two machines print, call by call; whatever else
happens in between prints nothing. -/
inductive Speech (settings : Settings) (m : Machine) : List String → Machine → Prop
  | refl : Speech settings m [] m
  | hush {texts : List String} {n n' : Machine} (h : Speech settings m texts n)
      (hhush : Hush n n') : Speech settings m texts n'
  | call {texts more : List String} {n n' : Machine} {f : LibraryFunction} {arguments : List Typed}
      {v : Typed} (h : Speech settings m texts n) (hprints : f.Prints n arguments more)
      (hrun : f.run settings arguments n = .ok (v, n')) : Speech settings m (texts ++ more) n'

theorem Speech.trans {settings : Settings} {m n n' : Machine} {texts more : List String}
    (h : Speech settings m texts n) (h' : Speech settings n more n') :
    Speech settings m (texts ++ more) n' := by
  induction h' with
  | refl =>
    rw [List.append_nil]
    exact h
  | hush _ hhush ih => exact ih.hush hhush
  | call _ hprints hrun ih =>
    rw [← List.append_assoc]
    exact ih.call hprints hrun

/-- The texts in the journal are those that calls of library functions printed. -/
def Speaks (settings : Settings) (m m' : Machine) : Prop :=
  ∃ texts, Speech settings m texts m' ∧ m'.printedTexts = m.printedTexts ++ texts

instance {settings : Settings} : IsPreorder Machine (Speaks settings) where
  refl m := ⟨[], .refl, (List.append_nil _).symm⟩
  trans := by
    rintro m n n' ⟨texts, hspeech, htexts⟩ ⟨more, hspeech', hmore⟩
    exact ⟨texts ++ more, hspeech.trans hspeech', by rw [hmore, htexts, List.append_assoc]⟩

theorem Hush.speaks {settings : Settings} {m m' : Machine} (h : Hush m m') :
    Speaks settings m m' :=
  ⟨[], .hush .refl h, h.mute.trans (List.append_nil _).symm⟩

theorem library_speaks {settings : Settings} (f : LibraryFunction) (arguments : List Typed) :
    Follows (Speaks settings) (f.run settings arguments) := by
  intro m v m' h
  obtain ⟨texts, hprints, htexts⟩ := library_prints h
  exact ⟨texts, by simpa using Speech.refl.call hprints h, htexts⟩

instance {settings : Settings} : Unseen (Speaks settings) where
  write _ _ _ _ h := (Hush.write h).speaks
  note m text := (Hush.note m text).speaks
  store m disk := (Hush.store m disk).speaks
  seek m key file position _ := (Hush.seek m key file position).speaks
  opened m file := (Hush.opened m file).speaks
  closed m key _ _ := (Hush.closed m key).speaks
  cursor m cursor := (Hush.cursor m cursor).speaks
  owners m owners := (Hush.owners m owners).speaks
  active m active := (Hush.active m active).speaks

theorem emitDelta_speaks {setup : Setup} (kind : StepKind) (line : Int) (description : String)
    (delta : Delta) :
    Follows (Speaks setup.settings) (Run.emitDelta setup kind line description delta) :=
  Run.attempt_follows fun _ _ h => (Hush.emit h).speaks

instance {setup : Setup} : Watching setup (Speaks setup.settings) where
  library := library_speaks
  step kind line description delta _ := emitDelta_speaks kind line description delta
  warn line := emitDelta_speaks .warning line _ {}

/-- **What a run prints is what its calls of `printf`, `puts` and `putchar` make**, call by call. -/
theorem runMain_speaks {setup : Setup} (category : Category) :
    Follows (Speaks setup.settings) (runMain setup category.commentary) :=
  Watching.runMain_follows category

/-! ## Faithful machines -/

/-- The machine against its journal: nothing of what happened is lost, repeated or out of order. -/
structure Machine.Faithful (m : Machine) : Prop where
  /-- The console, with what is held back for it, has the printed texts. -/
  console : m.state.console ++ m.output = String.join m.printedTexts
  /-- Only what is there is written to. -/
  mapped : ∀ a v, m.writes.find? a = some v → ∃ cell, m.state.memory.find? a = some cell
  apart : m.writes.Apart
  /-- At every address there is the value that was stored there last, held back or not. -/
  stored : ∀ a, (m.writes.find? a).or ((m.state.memory.find? a).map Cell.value) = m.lastStored a

theorem Machine.faithful_start (settings : Settings) : (Machine.start settings).Faithful where
  console := rfl
  mapped a v h := by cases h
  apart := List.Pairwise.nil
  stored a := rfl

namespace Machine.Faithful

variable {m m' : Machine}

theorem quiet (hm : m.Faithful) (h : m.Quiet m') : m'.Faithful := by
  obtain ⟨hstate, _, hwrites, houtput, hjournal⟩ := h
  refine ⟨?_, ?_, ?_, ?_⟩
  · rw [hstate, houtput, printedTexts, hjournal]
    exact hm.console
  · rw [hwrites, hstate]
    exact hm.mapped
  · rw [hwrites]
    exact hm.apart
  · intro a
    rw [hwrites, hstate, lastStored, hjournal]
    exact hm.stored a

theorem print (hm : m.Faithful) (text : String) : (m.print text).Faithful := by
  have hjournal : (m.print text).journal = .printed text :: m.journal := rfl
  refine ⟨?_, hm.mapped, hm.apart, ?_⟩
  · show m.state.console ++ (m.output ++ text) = _
    rw [← String.append_assoc, hm.console, printedTexts_of_journal hjournal]
    simp [Event.text?, String.join]
  · intro a
    rw [lastStored_of_journal hjournal]
    exact hm.stored a

theorem write {address value : Value} (hm : m.Faithful) (h : m.write address value = .ok m') :
    m'.Faithful := by
  obtain ⟨a, rfl, hmapped, hm'⟩ := Machine.write_eq_ok.1 h
  have hjournal : m'.journal = .wrote a value :: m.journal := by rw [hm']
  have hstate : m'.state = m.state := by rw [hm']
  have hwrites : m'.writes = m.writes.put a value := by rw [hm']
  refine ⟨?_, ?_, ?_, ?_⟩
  · rw [printedTexts_of_journal hjournal, Event.text?, Option.toList_none, List.append_nil, hm']
    exact hm.console
  · intro b v hb
    rw [hwrites, Table.find?_put] at hb
    rw [hstate]
    split at hb
    · next hab =>
      obtain ⟨cell, hcell⟩ := Table.has_eq_true_iff.1 hmapped
      exact ⟨cell, by rw [← Table.find?_congr hab, hcell]⟩
    · exact hm.mapped b v hb
  · rw [hwrites]
    exact Table.apart_put a value hm.apart
  · intro b
    rw [lastStored_of_journal hjournal, Event.stored?, hwrites, hstate, Table.find?_put]
    split
    · rfl
    · exact hm.stored b

theorem emit {kind : StepKind} {line : Int} {description : String} {delta : Delta}
    (hm : m.Faithful) (hdelta : delta.Plain) (h : m.emit kind line description delta = .ok m') :
    m'.Faithful := by
  obtain ⟨state, happly, hm'⟩ := Machine.emit_eq_ok.1 h
  have hjournal : m'.journal = .emitted delta state :: m.journal := by rw [hm']
  have hwrites : m'.writes = [] := by
    rw [hm']
    rfl
  refine ⟨?_, ?_, ?_, ?_⟩
  -- the step takes along what was held back for the console
  · obtain ⟨_, _, _, _, _, _, _, hconsole, _⟩ := State.apply_cases happly
    rw [printedTexts_of_journal hjournal, Event.text?, Option.toList_none, List.append_nil, hm']
    show state.console ++ "" = _
    rw [String.append_empty, hconsole, ← hm.console]
    show m.state.console ++ (m.output ++ delta.output) = _
    rw [hdelta.output, String.append_empty]
  · intro a v ha
    rw [hwrites] at ha
    cases ha
  · rw [hwrites]
    exact List.Pairwise.nil
  · intro a
    -- at an address the step shows its own cell, else what was held back, else nothing
    have hvalue : (m'.state.memory.find? a).map Cell.value
        = ((m'.state.memory.find? a).map Cell.contents).map CellPatch.value := by
      cases m'.state.memory.find? a <;> rfl
    rw [lastStored_of_journal hjournal, ← hm.stored a, hwrites, hvalue, hm',
      Machine.find?_emitted hm.apart hdelta.memory happly a, find?_pendingCells, Event.stored?]
    cases delta.memory.find? a with
    | some patch => rfl
    | none =>
      cases hwrite : m.writes.find? a with
      | none =>
        cases m.state.memory.find? a <;> rfl
      | some v =>
        obtain ⟨cell, hcell⟩ := hm.mapped a v hwrite
        rw [hcell]
        rfl

end Machine.Faithful

/-- A tick of an executed program keeps the machine faithful. -/
theorem Tick.faithful {m m' : Machine} (h : Tick Delta.Plain m m') (hm : m.Faithful) :
    m'.Faithful := by
  cases h with
  | emit kind line description hdelta h => exact hm.emit hdelta h
  | write address value h => exact hm.write h
  | print text => exact hm.print text
  | quiet h => exact hm.quiet h

/-- So does every sequence of them, wherever steps are emitted in between. -/
theorem Ticks.faithful {m m' : Machine} (h : Ticks Delta.Plain m m') (hm : m.Faithful) :
    m'.Faithful := by
  induction h with
  | refl => exact hm
  | tail _ htick ih => exact htick.faithful ih

/-! ## Moments of a run -/

/-- The machines that a run passes through: whatever was ticked so far, a step may or may not have
shown it. -/
def Moment (settings : Settings) (m : Machine) : Prop :=
  Ticks Delta.Plain (Machine.start settings) m

theorem Moment.faithful {settings : Settings} {m : Machine} (h : Moment settings m) : m.Faithful :=
  Ticks.faithful h (Machine.faithful_start settings)

/-- A faithful machine reads what was stored last. -/
theorem Machine.Faithful.read_eq_ok {m : Machine} (hm : m.Faithful) {a : Number} {v : Value} :
    m.read (.num a) = .ok v ↔ m.lastStored a = some v := by
  rw [← hm.stored a]
  unfold Machine.read Machine.addressOf
  dsimp only [bind, Except.bind]
  cases m.writes.find? a with
  | some w => simp [pure, Except.pure]
  | none => cases m.state.memory.find? a <;> simp [pure, Except.pure]

/-! ## The end of a run -/

/-- The machine that leaves a function has nothing held back. -/
theorem Invocation.leave_flushed {setup : Setup} {f : Function} {frame : String} {flow : Flow}
    {m m' : Machine} {v : Typed} (h : leave setup f frame flow m = .ok (v, m')) :
    m'.hasPending = false := by
  obtain ⟨_, _, m₁, hemit, rfl⟩ := leave_cases h
  obtain ⟨state, _, rfl⟩ := Machine.emit_eq_ok.1 hemit
  rfl

theorem invoke_flushed {setup : Setup} {commentary : Commentary} {budget : Nat} {f : Function}
    {scope : Scope} {arguments : List Typed} {line : Nat} {m m' : Machine} {v : Typed}
    (h : invoke setup commentary budget f scope arguments line m = .ok (v, m')) :
    m'.hasPending = false := by
  cases budget with
  | zero => exact absurd h Eval.fail_ne_ok
  | succ budget =>
    unfold invoke Invocation.run at h
    split at h
    · exact absurd h Eval.fail_ne_ok
    · obtain ⟨_, _, _, h⟩ := Eval.bind_eq_ok.1 h
      obtain ⟨_, _, _, h⟩ := Eval.bind_eq_ok.1 h
      obtain ⟨_, _, _, h⟩ := Eval.bind_eq_ok.1 h
      exact Invocation.leave_flushed h

theorem runMain_flushed {setup : Setup} {commentary : Commentary} {m m' : Machine} {u : Unit}
    (h : runMain setup commentary m = .ok (u, m')) : m'.hasPending = false := by
  unfold runMain at h
  cases hmain : setup.analysis.main? with
  | none =>
    rw [hmain] at h
    exact absurd h Eval.fail_ne_ok
  | some main =>
    rw [hmain] at h
    obtain ⟨_, m₁, _, h⟩ := Eval.bind_eq_ok.1 h
    obtain ⟨v, m₂, hinvoke, h⟩ := Eval.bind_eq_ok.1 h
    obtain ⟨_, rfl⟩ := Eval.pure_eq_ok.1 h
    exact invoke_flushed hinvoke

theorem Machine.nothing_held_back {m : Machine} (h : m.hasPending = false) :
    m.writes = [] ∧ m.output = "" := by
  simp only [Machine.hasPending, Bool.or_eq_false_iff, Bool.not_eq_eq_eq_not, Bool.not_false,
    List.isEmpty_iff, String.isEmpty_iff] at h
  exact ⟨h.1.1.1, h.1.2⟩

/-- Where nothing is held back, the console has the printed texts. -/
theorem Machine.Faithful.console_eq {m : Machine} (hm : m.Faithful) (h : m.hasPending = false) :
    m.state.console = String.join m.printedTexts := by
  rw [← hm.console, (Machine.nothing_held_back h).2, String.append_empty]

/-- A run of the main function that comes to its end goes from one moment to another. -/
theorem Moment.runMain {setup : Setup} {category : Category} {m₀ m : Machine}
    (h : Moment setup.settings m₀) (hrest : m₀.active = [])
    (hrun : runMain setup category.commentary m₀ = .ok ((), m)) : Moment setup.settings m :=
  h.trans (Returns.walks (runMain_returns category m₀ () m hrun) hrest).ticks

/-- At the end of a run the console has the texts that its calls of library functions printed, call
by call. -/
theorem console_has_printed_texts {setup : Setup} {category : Category} {m : Machine}
    (hrun : runMain setup category.commentary (Machine.start setup.settings) = .ok ((), m)) :
    ∃ texts, Speech setup.settings (Machine.start setup.settings) texts m ∧
      m.state.console = String.join texts := by
  obtain ⟨texts, hspeech, htexts⟩ := runMain_speaks category _ _ _ hrun
  have hend : Moment setup.settings m := Moment.runMain .refl rfl hrun
  refine ⟨texts, hspeech, ?_⟩
  rw [hend.faithful.console_eq (runMain_flushed hrun), htexts]
  rfl

/-! ## The main result -/

/-- **No effect is lost, repeated or reordered.** If a run of the main function comes to its end,
from the start or after a script's remarks, then the console has the printed texts in order, every
address holds the value that was stored there last, and nothing is held back; and at every moment of
a run, reading an address gives the value that was stored there last. -/
theorem effects_happen_in_order (setup : Setup) (category : Category) :
    (∀ m₀ m, Moment setup.settings m₀ → m₀.active = [] →
      runMain setup category.commentary m₀ = .ok ((), m) →
      Moment setup.settings m ∧
      m.state.console = String.join m.printedTexts ∧
      (∀ a, (m.state.memory.find? a).map Cell.value = m.lastStored a) ∧
      m.hasPending = false) ∧
    (∀ m, Moment setup.settings m →
      ∀ a v, m.read (.num a) = .ok v ↔ m.lastStored a = some v) := by
  refine ⟨?_, fun m hm a v => hm.faithful.read_eq_ok⟩
  intro m₀ m hmoment hrest hrun
  have hend : Moment setup.settings m := hmoment.runMain hrest hrun
  have hflushed := runMain_flushed hrun
  refine ⟨hend, hend.faithful.console_eq hflushed, fun a => ?_, hflushed⟩
  have hstored := hend.faithful.stored a
  rw [(Machine.nothing_held_back hflushed).1] at hstored
  exact hstored

namespace ThreeTexts

/-- A function that prints in three ways. The first text is made while a new value of `x` is held
back, and the declaration of `y` takes along a value of `x` that is stored meanwhile. -/
def main : Function where
  line := 1
  name := "main"
  returnType := .int
  parameters := []
  bodyLine := 1
  body :=
    [.decl ⟨2, .int, [⟨2, "x", 0, .none, some (.expr (.literal 2 "1"))⟩]⟩,
      .decl ⟨3, .int, [⟨3, "y", 0, .none, some (.expr (.stepAfter 3 .increment (.name 3 "x")))⟩]⟩,
      .expr 4 (.call 4 "printf"
        [.literal 4 "\"%d \"", .assign 4 none (.name 4 "x") (.literal 4 "5")]),
      .expr 5 (.call 5 "puts" [.literal 5 "\"ab\""]),
      .expr 6 (.call 6 "putchar" [.literal 6 "99"]),
      .ret 7 (some (.literal 7 "0"))]

/-- What it is executed under. -/
def setup : Setup :=
  ⟨{ program := ⟨[.function main]⟩, source := "", tokens := [], lines := [], macros := [],
     layouts := [] }, {}⟩

/-- A run of the program. -/
def outcome : Except Fault (Unit × Machine) :=
  runMain setup Category.basic.commentary (Machine.start {})

/-- The whole number that was stored at an address last. -/
def lastNumber? (m : Machine) (a : Int) : Option Int :=
  match m.lastStored (.int a) with
  | some (.num (.int n)) => some n
  | _ => none

/-- Three texts are printed; `x` is five in the end, and `y` is one. -/
def comesOut : Bool :=
  match outcome with
  | .ok (_, m) =>
    m.printedTexts == ["5 ", "ab\n", "c"] && lastNumber? m 4096 == some 5 &&
      lastNumber? m 4100 == some 1
  | .error _ => false

theorem comesOut_eq : comesOut = true := by
  have hmain : setup.analysis.main? = some main := rfl
  have hcalls : setup.settings.calls = 31 + 1 := rfl
  unfold comesOut outcome runMain
  rw [hmain]
  dsimp only
  rw [hcalls, invoke]
  simp only [main, Walker.runBody, Walker.items, Walker.run]
  decide +kernel

theorem lastStored_of_number {m : Machine} {a n : Int} (h : (lastNumber? m a == some n) = true) :
    m.lastStored (.int a) = some (.int n) := by
  unfold lastNumber? at h
  split at h
  · next k hk => rw [hk, Option.some.inj (eq_of_beq h)]
  · cases h

theorem outcome_comesOut :
    ∃ m, outcome = .ok ((), m) ∧ m.printedTexts = ["5 ", "ab\n", "c"] ∧
      m.lastStored (.int 4096) = some (.int 5) ∧ m.lastStored (.int 4100) = some (.int 1) := by
  have h := comesOut_eq
  unfold comesOut at h
  split at h
  · next m hm =>
    rw [Bool.and_eq_true, Bool.and_eq_true] at h
    obtain ⟨⟨htexts, hx⟩, hy⟩ := h
    exact ⟨m, hm, eq_of_beq htexts, lastStored_of_number hx, lastStored_of_number hy⟩
  · cases h

end ThreeTexts

/-- This program comes to its end. The console has its three texts, one after the other; `x` is five
and `y` is one in the memory, and nothing is held back. -/
theorem three_texts_in_order :
    ∃ m, Moment {} (Machine.start {}) ∧ (Machine.start {}).active = [] ∧
      runMain ThreeTexts.setup Category.basic.commentary (Machine.start {}) = .ok ((), m) ∧
      m.printedTexts = ["5 ", "ab\n", "c"] ∧ m.state.console = "5 ab\nc" ∧
      (m.state.memory.find? (.int 4096)).map Cell.value = some (.int 5) ∧
      (m.state.memory.find? (.int 4100)).map Cell.value = some (.int 1) ∧
      m.read (.int 4096) = .ok (.int 5) ∧ m.hasPending = false := by
  obtain ⟨m, hrun, htexts, hx, hy⟩ := ThreeTexts.outcome_comesOut
  have hstart : Moment ThreeTexts.setup.settings (Machine.start {}) := .refl
  obtain ⟨hrunOf, hreadOf⟩ := effects_happen_in_order ThreeTexts.setup .basic
  obtain ⟨hend, hconsole, hmemory, hflushed⟩ := hrunOf _ m hstart rfl hrun
  refine ⟨m, hstart, rfl, hrun, htexts, ?_, (hmemory _).trans hx, (hmemory _).trans hy,
    (hreadOf m hend _ _).2 hx, hflushed⟩
  rw [hconsole, htexts]
  rfl

end Stepwise
