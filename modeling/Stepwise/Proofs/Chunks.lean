/-
Reading a file line by line.

A call of `fgets` stores what lies between where the file has been read to and where the
line or the room in the buffer ends, whichever comes first. Both ends are behind the start,
so every call gets on, and nothing between two calls' chunks is left out. The induction is
on what is left of the content: a call takes a chunk from its front, and the calls that
follow see the rest of it.

Between the calls the program may do whatever it likes, as long as it leaves the file, its
handle and the buffer as they are.
-/
import Stepwise.Proofs.Handles

set_option autoImplicit false

namespace Stepwise

namespace Library

/-! ## Where a chunk ends -/

/-- A line ends behind its start and in the content, and only its last character may be a line
feed. -/
theorem lineEnd_spec {content : List Char} {position : Nat} (h : position < content.length) :
    position < lineEnd content position ∧ lineEnd content position ≤ content.length ∧
      '\n' ∉ (content.drop position).take (lineEnd content position - position - 1) := by
  unfold lineEnd
  cases hfound : (content.drop position).findIdx? (· == '\n') with
  | none =>
    refine ⟨h, Nat.le_refl _, fun hmem => ?_⟩
    have hnone := List.findIdx?_eq_none_iff.mp hfound '\n' (List.mem_of_mem_take hmem)
    simp at hnone
  | some i =>
    obtain ⟨hi, _, hbefore⟩ := List.findIdx?_eq_some_iff_getElem.mp hfound
    have hlength := hi
    rw [List.length_drop] at hlength
    dsimp only
    refine ⟨by omega, by omega, fun hmem => ?_⟩
    obtain ⟨j, hj, hchar⟩ := List.mem_iff_getElem.mp hmem
    rw [List.length_take] at hj
    rw [List.getElem_take] at hchar
    have hno := hbefore j (by omega)
    simp [hchar] at hno

/-- What a call may store in a buffer: something, that fits with its end mark, of one line. -/
structure Chunk (limit : Int) (chunk : List Char) : Prop where
  nonempty : chunk ≠ []
  fits : chunk.length ≤ limit - 1
  oneLine : '\n' ∉ chunk.dropLast

/-- Where a call stops reading. -/
def stopAt (content : List Char) (position : Nat) (limit : Int) : Nat :=
  min (lineEnd content position) (position + (limit - 1).toNat)

theorem stopAt_spec {content : List Char} {position : Nat} {limit : Int} (hlimit : 2 ≤ limit)
    (h : position < content.length) :
    position < stopAt content position limit ∧ stopAt content position limit ≤ content.length ∧
      Chunk limit ((content.drop position).take (stopAt content position limit - position)) := by
  obtain ⟨hbehind, hinside, hline⟩ := lineEnd_spec h
  have hlength : ((content.drop position).take (stopAt content position limit - position)).length =
      stopAt content position limit - position := by
    rw [List.length_take, List.length_drop]
    unfold stopAt
    omega
  have hstop : position < stopAt content position limit := by
    unfold stopAt
    omega
  refine ⟨hstop, ?_, ?_, ?_, ?_⟩
  · unfold stopAt
    omega
  · intro hnil
    rw [hnil, List.length_nil] at hlength
    omega
  · rw [hlength]
    unfold stopAt
    omega
  · rw [List.dropLast_eq_take, hlength, List.take_take]
    refine fun hmem => hline (List.take_subset_take_left _ ?_ hmem)
    unfold stopAt
    omega

/-! ## One call -/

variable {buffer limit handle : Typed} {n : Int} {m : Machine} {key address : Number}
  {file : OpenFile}

/-- The content of a file on the disk. -/
def fileContent (m : Machine) (name : String) : List Char :=
  ((m.disk.find? name).getD "").toList

/-- A handle is that of an open file, and a buffer has a place in memory. -/
structure Ready (m : Machine) (key : Number) (file : OpenFile) (address : Number) : Prop where
  isOpen : m.files.find? key = some file
  mapped : m.state.memory.has address = true

/-- The arguments of a call: a buffer, a limit that is a whole number above one, and a handle. -/
structure Wanted (buffer limit handle : Typed) (address : Number) (n : Int) (key : Number) :
    Prop where
  buffer : buffer.value = .num address
  limit : limit.value = .int n
  two_le : 2 ≤ n
  handle : handle.value = .num key

theorem Ready.openFile (hm : Ready m key file address)
    (h : Wanted buffer limit handle address n key) :
    m.openFile handle.value = .ok (key, file) := by
  rw [h.handle, Machine.openFile]
  simp [Machine.handleKey, hm.isOpen, bind, Except.bind, pure, Except.pure]

/-- A call in front of the end of the file reads a chunk, stores it in the buffer and leaves the
file read up to the end of the chunk. -/
theorem fgets_reads (hm : Ready m key file address) (h : Wanted buffer limit handle address n key)
    (hleft : file.position < (fileContent m file.name).length) :
    ∃ m', fgets [buffer, limit, handle] m = .ok (buffer, m') ∧
      m'.read buffer.value = .ok (.text (String.ofList (((fileContent m file.name).drop
        file.position).take (stopAt (fileContent m file.name) file.position n - file.position)))) ∧
      Ready m' key { file with position := stopAt (fileContent m file.name) file.position n } address ∧
      fileContent m' file.name = fileContent m file.name := by
  have hlimit : readEnd (lineEnd (fileContent m file.name) file.position) file.position limit.value =
      .ok (stopAt (fileContent m file.name) file.position n) := by
    rw [h.limit]
    rfl
  generalize hstop : stopAt (fileContent m file.name) file.position n = stop at hlimit ⊢
  generalize hchunk : String.ofList (((fileContent m file.name).drop file.position).take
    (stop - file.position)) = chunk
  refine ⟨{ m with
      files := m.files.put key { file with position := stop }
      writes := m.writes.put address (.text chunk)
      journal := .wrote address (.text chunk) :: m.journal
      notes := m.notes ++ ["fgets reads " ++ Value.showText chunk ++ s!" from {file.name}"] },
    ?_, ?_, ⟨Table.find?_put_self hm.isOpen, hm.mapped⟩, rfl⟩
  · refine Eval.bind_eq_ok.2 ⟨(key, file), m, Run.query_eq_ok.2 ⟨hm.openFile h, rfl⟩,
      Eval.bind_eq_ok.2 ⟨fileContent m file.name, m, Run.ask_eq_ok.2 ⟨rfl, rfl⟩, ?_⟩⟩
    dsimp only
    rw [if_neg (by omega)]
    refine Eval.bind_eq_ok.2 ⟨stop, m, Eval.lift_eq_ok.2 ⟨hlimit, rfl⟩,
      Eval.bind_eq_ok.2 ⟨(), _, Run.change_eq_ok.2 rfl,
        Eval.bind_eq_ok.2 ⟨(), _, Run.attempt_eq_ok.2 (Machine.write_eq_ok.2
          ⟨address, h.buffer, hm.mapped, rfl⟩), Eval.bind_eq_ok.2 ⟨(), _, Run.change_eq_ok.2 rfl, ?_⟩⟩⟩⟩
    rw [hchunk]
    rfl
  · obtain ⟨cell, hcell⟩ := Table.has_eq_true_iff.mp hm.mapped
    rw [h.buffer]
    simp [Machine.read, Machine.addressOf, bind, Except.bind, pure, Except.pure,
      Table.find?_put_of_beq (Table.beq_self_of_find? hcell)]

/-- A call at the end of the file has a null result and stores nothing. -/
theorem fgets_ends (hm : Ready m key file address) (h : Wanted buffer limit handle address n key)
    (hend : (fileContent m file.name).length ≤ file.position) :
    ∃ m', fgets [buffer, limit, handle] m = .ok (⟨.int 0, ⟨"char*"⟩⟩, m') ∧
      ∀ a, m'.read a = m.read a := by
  refine ⟨{ m with notes := m.notes ++ [s!"fgets reached the end of {file.name}"] }, ?_,
    fun _ => rfl⟩
  refine Eval.bind_eq_ok.2 ⟨(key, file), m, Run.query_eq_ok.2 ⟨hm.openFile h, rfl⟩,
    Eval.bind_eq_ok.2 ⟨fileContent m file.name, m, Run.ask_eq_ok.2 ⟨rfl, rfl⟩, ?_⟩⟩
  dsimp only
  rw [if_pos hend]
  exact Eval.bind_eq_ok.2 ⟨(), _, Run.change_eq_ok.2 rfl, rfl⟩

/-! ## A number of calls -/

/-- The machine in front of a call, after a number of others like it, with some work in front of
each. -/
def reach (call : Run Typed) (work : Machine → Machine) : Nat → Machine → Except Fault Machine
  | 0, m => .ok (work m)
  | k + 1, m => do
    let (_, m') ← call (work m)
    reach call work k m'

/-- Work that leaves a file, its handle and the place of a buffer as they are. -/
structure Sparing (work : Machine → Machine) (key : Number) (name : String) (address : Number) :
    Prop where
  handle : ∀ m, (work m).files.find? key = m.files.find? key
  content : ∀ m, (work m).disk.find? name = m.disk.find? name
  mapped : ∀ m, m.state.memory.has address = true → (work m).state.memory.has address = true

variable {work : Machine → Machine}

theorem Sparing.ready (hwork : Sparing work key file.name address) (hm : Ready m key file address) :
    Ready (work m) key file address ∧ fileContent (work m) file.name = fileContent m file.name := by
  refine ⟨⟨(hwork.handle m).trans hm.isOpen, hwork.mapped m hm.mapped⟩, ?_⟩
  rw [fileContent, hwork.content, fileContent]

/-- What is left of a file comes in chunks, and then there is a null result. -/
def ComesInChunks (buffer limit handle : Typed) (n : Int) (work : Machine → Machine) (m : Machine)
    (rest : List Char) : Prop :=
  ∃ chunks : List (List Char), chunks.flatten = rest ∧ (∀ chunk ∈ chunks, Chunk n chunk) ∧
    (∀ k chunk, chunks[k]? = some chunk →
      ∃ m₁ m₂, reach (fgets [buffer, limit, handle]) work k m = .ok m₁ ∧
        fgets [buffer, limit, handle] m₁ = .ok (buffer, m₂) ∧
        m₂.read buffer.value = .ok (.text (String.ofList chunk))) ∧
    ∃ m₁ m₂, reach (fgets [buffer, limit, handle]) work chunks.length m = .ok m₁ ∧
      fgets [buffer, limit, handle] m₁ = .ok (⟨.int 0, ⟨"char*"⟩⟩, m₂) ∧
      ∀ a, m₂.read a = m₁.read a

/-- A chunk is followed by the chunks of the rest. -/
theorem ComesInChunks.cons {m' : Machine} {chunk rest : List Char} (hchunk : Chunk n chunk)
    (hcall : fgets [buffer, limit, handle] (work m) = .ok (buffer, m'))
    (hread : m'.read buffer.value = .ok (.text (String.ofList chunk)))
    (h : ComesInChunks buffer limit handle n work m' rest) :
    ComesInChunks buffer limit handle n work m (chunk ++ rest) := by
  obtain ⟨chunks, rfl, hchunks, hstored, hlast⟩ := h
  have hreach : ∀ k, reach (fgets [buffer, limit, handle]) work (k + 1) m =
      reach (fgets [buffer, limit, handle]) work k m' := by
    intro k
    rw [reach, hcall]
    rfl
  refine ⟨chunk :: chunks, rfl, ?_, ?_, ?_⟩
  · intro c hc
    rcases List.mem_cons.mp hc with rfl | hc
    · exact hchunk
    · exact hchunks c hc
  · intro k c hk
    cases k with
    | zero =>
      obtain rfl : chunk = c := by simpa using hk
      exact ⟨work m, m', rfl, hcall, hread⟩
    | succ k =>
      rw [hreach]
      exact hstored k c (by simpa using hk)
  · rw [List.length_cons, hreach]
    exact hlast

theorem comesInChunks (hwork : Sparing work key file.name address)
    (hm : Ready m key file address) (h : Wanted buffer limit handle address n key) :
    ComesInChunks buffer limit handle n work m ((fileContent m file.name).drop file.position) := by
  induction hleft : (fileContent m file.name).length - file.position using Nat.strongRecOn
    generalizing m file with
  | ind left ih =>
    obtain ⟨hready, hcontent⟩ := hwork.ready hm
    rw [← hcontent] at hleft ⊢
    by_cases hend : (fileContent (work m) file.name).length ≤ file.position
    · obtain ⟨m', hcall, hsame⟩ := fgets_ends hready h hend
      rw [List.drop_eq_nil_of_le hend]
      exact ⟨[], rfl, by simp, by simp, work m, m', rfl, hcall, hsame⟩
    · obtain ⟨m', hcall, hread, hready', hcontent'⟩ := fgets_reads hready h (by omega)
      have hunread : file.position < (fileContent (work m) file.name).length := by omega
      obtain ⟨hbehind, hinside, hchunk⟩ := stopAt_spec h.two_le hunread
      -- the calls that follow see the rest of the content
      have hless : (fileContent m' file.name).length -
          stopAt (fileContent (work m) file.name) file.position n < left := by
        rw [hcontent']
        omega
      have hrest := @ih _ hless m' { file with
        position := stopAt (fileContent (work m) file.name) file.position n } hwork hready' rfl
      rw [hcontent'] at hrest
      have hsplit : (fileContent (work m) file.name).drop file.position =
          ((fileContent (work m) file.name).drop file.position).take
              (stopAt (fileContent (work m) file.name) file.position n - file.position) ++
            (fileContent (work m) file.name).drop
              (stopAt (fileContent (work m) file.name) file.position n) := by
        have htail := List.drop_drop (l := fileContent (work m) file.name)
          (i := stopAt (fileContent (work m) file.name) file.position n - file.position)
          (j := file.position)
        rw [Nat.add_sub_cancel' (Nat.le_of_lt hbehind)] at htail
        rw [← htail, List.take_append_drop]
      rw [hsplit]
      exact hrest.cons hchunk hcall hread

end Library

open Library

/-- **Reading a file line by line loses nothing.** Called again and again with a buffer that has a
place in memory, a limit above one and the handle of a file that has not been read, `fgets` comes
to a null result after finitely many calls. The chunks that the calls in front of it left in the
buffer are the content of the file when they are joined; each of them has a character, is shorter
than the limit, and has a line feed only as its last character. Between the calls anything may
happen that leaves the file, its handle and the place of the buffer alone. -/
theorem lines_lose_nothing {buffer limit handle : Typed} {n : Int} {m : Machine}
    {key address : Number} {file : OpenFile} {work : Machine → Machine}
    (hm : Ready m key file address) (hfresh : file.position = 0)
    (h : Wanted buffer limit handle address n key)
    (hwork : Sparing work key file.name address) :
    ComesInChunks buffer limit handle n work m (fileContent m file.name) := by
  have hchunks := comesInChunks hwork hm h
  rwa [hfresh, List.drop_zero] at hchunks

/-- A machine with a file on its disk and a buffer of three characters. -/
def readingMachine : Machine :=
  { state := { memory := [(.int 4096, ⟨.int 4096, "line", ⟨"char[3]"⟩, .uninit⟩)] }
    cursor := {}
    disk := [("notes", "ab\n\nc")] }

/-- Two characters fit, so the line feed behind them comes by itself. -/
theorem short_buffer_splits_lines :
    ∃ m, fopen [⟨.text "notes", ⟨"char*"⟩⟩, ⟨.text "r", ⟨"char*"⟩⟩] readingMachine =
        .ok (⟨.int 32768, ⟨"FILE*"⟩⟩, m) ∧
      Ready m (.int 32768) ⟨"notes", "r", 0⟩ (.int 4096) ∧
      Wanted ⟨.int 4096, ⟨"char*"⟩⟩ ⟨.int 3, .int⟩ ⟨.int 32768, ⟨"FILE*"⟩⟩ (.int 4096) 3
        (.int 32768) ∧
      Sparing (Machine.print · "next ") (.int 32768) "notes" (.int 4096) ∧
      ComesInChunks ⟨.int 4096, ⟨"char*"⟩⟩ ⟨.int 3, .int⟩ ⟨.int 32768, ⟨"FILE*"⟩⟩ 3
        (Machine.print · "next ") m ['a', 'b', '\n', '\n', 'c'] := by
  have hsparing : Sparing (Machine.print · "next ") (.int 32768) "notes" (.int 4096) :=
    ⟨fun _ => rfl, fun _ => rfl, fun _ h => h⟩
  have hwanted : Wanted ⟨.int 4096, ⟨"char*"⟩⟩ ⟨.int 3, .int⟩ ⟨.int 32768, ⟨"FILE*"⟩⟩ (.int 4096) 3
      (.int 32768) :=
    ⟨rfl, rfl, by decide, rfl⟩
  obtain ⟨m, hopen, hready, hcontent⟩ : ∃ m,
      fopen [⟨.text "notes", ⟨"char*"⟩⟩, ⟨.text "r", ⟨"char*"⟩⟩] readingMachine =
        .ok (⟨.int 32768, ⟨"FILE*"⟩⟩, m) ∧
      Ready m (.int 32768) ⟨"notes", "r", 0⟩ (.int 4096) ∧
      fileContent m "notes" = ['a', 'b', '\n', '\n', 'c'] :=
    ⟨_, rfl, ⟨rfl, rfl⟩, rfl⟩
  refine ⟨m, hopen, hready, hwanted, hsparing, ?_⟩
  rw [← hcontent]
  exact lines_lose_nothing hready rfl hwanted hsparing

end Stepwise
