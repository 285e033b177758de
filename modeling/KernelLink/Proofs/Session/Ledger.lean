import KernelLink.Proofs.Session.Turns
/-!
# The account of the pipes

The log of a run and the pipes of its last state agree. What calls wrote is what the kernel took and
what is still on its way; what the kernel wrote are the lines that calls took and what they can
still read. A call that is not abandoned writes its whole line or the conversation ends, so the
kernel has received no more lines than calls have begun.

Main definitions:
* `World.Ledger`: the account.

Main results:
* `World.accounts_run`: its half of the kernel's output, along every run.
* `World.Ledger.step`: every event keeps it.
* `World.Ledger.received`: how many lines the kernel can have received.
-/
namespace KernelLink.Session.World

open Host (Pipe Delivery)

variable {w w' : World} {id : Nat} {line : List UInt8} {before after : Stage} {deeds : List Deed}
  {start : List UInt8} {log : Log}

/-- The log agrees with the pipes. At first the kernel's output held `start`, and its input was
empty; the lines of all calls end with their only line feed. -/
structure Ledger (start : List UInt8) (w : World) (log : Log) : Prop where
  /-- The lines that were taken are those at the front of what the kernel wrote. -/
  output : w.wires.output.Accounts (start ++ Log.spoken log) ((Log.taken log).map Prod.snd)
  /-- What the kernel took and what it can still take was written, in order. -/
  input : Log.heard log ++ w.wires.input.bytes <+: Log.written log
  /-- While the kernel reads, that is all that was written. -/
  reading : w.wires.input.reading = true →
    Log.heard log ++ w.wires.input.bytes = Log.written log
  /-- A line is one line. -/
  line : ∀ {id line stage}, w.task? id = some (.call line stage) → line.count 10 = 1
  /-- No more lines were written than calls have begun to write. -/
  written : (Log.written log).count 10 ≤ (Log.begun log).length
  /-- That is so even after the call that writes has written all. -/
  rest : ∀ {id line rest}, w.task? id = some (.call line (.writing rest)) →
    (Log.written log).count 10 + rest.count 10 ≤ (Log.begun log).length

/-- The kernel has received no more lines than calls have begun to write. -/
theorem Ledger.received (h : w.Ledger start log) :
    (Log.heard log).count 10 ≤ (Log.begun log).length := by
  have hpre : Log.heard log <+: Log.written log :=
    (List.prefix_append _ _).trans h.input
  exact (hpre.sublist.count_le 10).trans h.written

theorem Ledger.new (timing : Timing) (wires : Wires) (hin : wires.input.bytes = []) :
    (World.new timing wires).Ledger (wires.output.held ++ wires.output.bytes) [] where
  output := by
    show wires.output.Accounts (wires.output.held ++ wires.output.bytes ++ []) []
    rw [List.append_nil]
    exact Pipe.Accounts.start wires.output
  input := by
    show [] ++ wires.input.bytes <+: []
    rw [hin]
    exact List.prefix_rfl
  reading _ := by
    show [] ++ wires.input.bytes = []
    rw [hin]
    rfl
  line h := absurd h (by simp [World.new, task?])
  written := Nat.le_refl 0
  rest h := absurd h (by simp [World.new, task?])

/-! ## The output -/

/-- No poll of a call changes whether the kernel can still write, since no line that is taken is the
end. -/
theorem CallStep.writing (h : CallStep w id line before after w' deeds) :
    w'.wires.output.writing = w.wires.output.writing := by
  cases h with
  | skip waits going read | fail waits going read =>
    exact Pipe.nextLine?_writing read (by simp)
  | discard going read | reply going read | garbled going read =>
    exact Pipe.nextLine?_writing read (by simp)
  | fill waits going none some => exact (Pipe.fill?_cases some).2.2
  | _ => rfl

/-- A call does not speak for the kernel, whichever of its rules it follows. -/
theorem CallStep.spoken (h : CallStep w id line before after w' deeds) :
    Log.spoken deeds = [] := by
  cases h <;> rfl

theorem accounts_same {total : List UInt8}
    (h : w.wires.output.Accounts total ((Log.taken log).map Prod.snd))
    (ho : w'.wires.output = w.wires.output) (ht : Log.taken deeds = []) :
    w'.wires.output.Accounts total ((Log.taken (log ++ deeds)).map Prod.snd) := by
  rw [Log.taken_append, ht, List.append_nil, ho]
  exact h

/-- A line that is taken goes from what can be read to what was. -/
theorem accounts_took {total : List UInt8} {d : Delivery} {output : Pipe}
    (h : w.wires.output.Accounts total ((Log.taken log).map Prod.snd))
    (hr : w.wires.output.nextLine? = some (d, output)) (hd : d.isBlank = false)
    (ho : w'.wires.output = output) (ht : Log.taken deeds = [(id, d)]) :
    w'.wires.output.Accounts total ((Log.taken (log ++ deeds)).map Prod.snd) := by
  rw [Log.taken_append, ht, List.map_append, ho]
  exact h.takes hr hd

/-- A poll keeps the account of the output: whatever it reads is either taken over, and stands in
the log, or a blank line. -/
theorem CallStep.accounts {total : List UInt8} (h : CallStep w id line before after w' deeds)
    (ha : w.wires.output.Accounts total ((Log.taken log).map Prod.snd)) :
    w'.wires.output.Accounts total ((Log.taken (log ++ deeds)).map Prod.snd) := by
  cases h with
  | @skip _ text output waits going read blank =>
    rw [List.append_nil]
    exact ha.passes (Or.inr ⟨text, read, blank⟩)
  | fail waits going read => exact accounts_took ha read rfl rfl rfl
  | fill waits going none some =>
    rw [List.append_nil]
    exact ha.passes (Or.inl ⟨none, some⟩)
  | discard going read inked => exact accounts_took ha read inked rfl rfl
  | reply going read inked decoded => exact accounts_took ha read inked rfl rfl
  | garbled going read inked undecoded => exact accounts_took ha read inked rfl rfl
  | _ => exact accounts_same ha rfl rfl

/-- What happens to the wires keeps the account of the output: what the kernel says is put behind
what it said before, and no other event touches the output. -/
theorem WireStep.accounts {v v' : Wires} {total : List UInt8} {read : List Delivery}
    (h : WireStep v v' deeds) (ha : v.output.Accounts total read) :
    v'.output.Accounts (total ++ Log.spoken deeds) read := by
  cases h with
  | speak bytes writing =>
    have hput := ha.put bytes writing
    simpa [Log.spoken] using hput
  | shutOutput =>
    rw [show Log.spoken [] = [] from rfl, List.append_nil]
    exact ha.closeWriting
  | _ =>
    refine (congrArg (Pipe.Accounts _ · read) ?_).mpr ha
    exact List.append_nil total

/-- Every event keeps the account of the output; it is opened by kinds of event, as only the wires
add to it and only a poll of a call takes from it. -/
theorem EventStep.accounts {e : Event} (h : EventStep w e w' deeds)
    (ha : w.wires.output.Accounts (start ++ Log.spoken log) ((Log.taken log).map Prod.snd)) :
    w'.wires.output.Accounts (start ++ Log.spoken (log ++ deeds))
      ((Log.taken (log ++ deeds)).map Prod.snd) := by
  have hquiet : Log.spoken deeds = [] → start ++ Log.spoken (log ++ deeds) =
      start ++ Log.spoken log := by
    intro hs
    rw [Log.spoken_append, hs, List.append_nil]
  cases h with
  | wires e wires =>
    rw [Log.spoken_append, Log.taken_append, Log.taken_of_calm wires.log, List.append_nil,
      ← List.append_assoc]
    exact wires.accounts ha
  | step task poll =>
    rw [hquiet poll.spoken]
    exact poll.accounts ha
  | aside e aside =>
    rw [hquiet rfl]
    exact accounts_same ha (by rw [aside.wires]) rfl
  | _ =>
    rw [hquiet rfl]
    exact accounts_same ha rfl rfl

/-- The account of the output along a run from a state in which no line was taken. -/
theorem accounts_run (w : World) (events : List Event) :
    (w.run events).wires.output.Accounts
      (w.wires.output.held ++ w.wires.output.bytes ++ Log.spoken (w.log events))
      ((Log.taken (w.log events)).map Prod.snd) := by
  induction events using List.reverseRecOn with
  | nil =>
    show w.wires.output.Accounts (w.wires.output.held ++ w.wires.output.bytes ++ []) []
    rw [List.append_nil]
    exact Pipe.Accounts.start _
  | append_singleton past e ih =>
    rw [run_concat, log_concat]
    exact (apply_cases (w.run past) e).accounts ih

/-! ## The input -/

/-- A poll of a call either leaves what is on its way to the kernel alone or adds to it. -/
theorem CallStep.inputs (h : CallStep w id line before after w' deeds) :
    Log.heard deeds = [] ∧ w'.wires.input.reading = w.wires.input.reading ∧
      w'.wires.input.bytes = w.wires.input.bytes ++ Log.written deeds ∧
      (Log.written deeds = [] ∨ w.wires.input.reading = true) := by
  cases h with
  | @put rest more writing reading room =>
    refine ⟨rfl, rfl, ?_, Or.inr reading⟩
    simp [Log.written, goOn, setTask, Pipe.put]
  | _ => exact ⟨rfl, rfl, (List.append_nil _).symm, Or.inl rfl⟩

/-- What was heard and what is on its way, after an event. -/
theorem Ledger.inputs {e : Event} (hl : w.Ledger start log) (hw : w.Orderly)
    (h : EventStep w e w' deeds) :
    Log.heard (log ++ deeds) ++ w'.wires.input.bytes <+: Log.written (log ++ deeds) ∧
      (w'.wires.input.reading = true →
        Log.heard (log ++ deeds) ++ w'.wires.input.bytes = Log.written (log ++ deeds)) := by
  have hwires : WireStep w.wires w'.wires deeds →
      Log.heard (log ++ deeds) ++ w'.wires.input.bytes <+: Log.written (log ++ deeds) ∧
        (w'.wires.input.reading = true →
          Log.heard (log ++ deeds) ++ w'.wires.input.bytes = Log.written (log ++ deeds)) := by
    intro hv
    generalize w'.wires = v at hv ⊢
    cases hv with
    | hear count =>
      -- what the kernel takes moves from the pipe to the log
      have hsame : Log.heard (log ++ [.heard (w.wires.input.bytes.take count)]) ++
          w.wires.input.bytes.drop count = Log.heard log ++ w.wires.input.bytes := by
        have hone : Log.heard [.heard (w.wires.input.bytes.take count)] =
            w.wires.input.bytes.take count := by simp [Log.heard]
        rw [Log.heard_append, hone, List.append_assoc, List.take_append_drop]
      have hwr : Log.written (log ++ [.heard (w.wires.input.bytes.take count)]) =
          Log.written log := by
        rw [Log.written_append]
        exact List.append_nil _
      rw [hsame, hwr]
      exact ⟨hl.input, hl.reading⟩
    | shutInput =>
      -- what was on its way is lost, so the account is a prefix from here on
      rw [List.append_nil]
      refine ⟨?_, fun hr => absurd hr Bool.false_ne_true⟩
      show Log.heard log ++ [] <+: Log.written log
      rw [List.append_nil]
      exact (List.prefix_append _ _).trans hl.input
    | speak bytes | chunk =>
      rw [Log.heard_append, Log.written_append, show Log.heard [_] = [] from rfl, List.append_nil,
        show Log.written [_] = [] from rfl, List.append_nil]
      exact ⟨hl.input, hl.reading⟩
    | _ =>
      rw [List.append_nil]
      exact ⟨hl.input, hl.reading⟩
  rcases h.poll_or_calm hw with ⟨id, line, before, after, -, task, poll⟩ | calm
  · obtain ⟨hh, hr, hb, hn⟩ := poll.inputs
    rw [Log.heard_append, Log.written_append, hh, List.append_nil, hb, ← List.append_assoc]
    rcases hn with hn | hn
    · rw [hn, List.append_nil, List.append_nil, hr]
      exact ⟨hl.input, hl.reading⟩
    · rw [hl.reading hn]
      exact ⟨List.prefix_rfl, fun _ => rfl⟩
  · exact hwires calm.wires

/-! ## How many lines -/

/-- The lines of all calls are one line each: a call has the line that it was made with. -/
theorem Ledger.lines {e : Event} (hl : w.Ledger start log) (h : EventStep w e w' deeds)
    (he : ∀ id line, e = .call id line → line.count 10 = 1) {i : Nat} {line : List UInt8}
    {stage : Stage} (ht : w'.task? i = some (.call line stage)) : line.count 10 = 1 := by
  rcases h.call_cases ht with hs | ⟨-, hs, -⟩ | ⟨before, hs, -⟩ | ⟨hs, -⟩
  · exact hl.line hs
  · exact he i line hs
  · exact hl.line hs
  · exact hl.line hs

/-- A poll writes bytes of the line that its call has left to write, or none. -/
theorem CallStep.counts (h : CallStep w id line before after w' deeds) :
    (∃ rest, before = .writing rest ∧
      Log.written deeds ++ rest.drop (Log.written deeds).length = rest ∧
      ∀ more, after = .writing more → more = rest.drop (Log.written deeds).length) ∨
    Log.written deeds = [] ∧
      ∀ more, after = .writing more → more = line ∧ Log.begun deeds = [id] := by
  cases h with
  | enterReady next phase => exact Or.inr ⟨rfl, fun more e => ⟨(Stage.writing.inj e).symm, rfl⟩⟩
  | discard going read inked => exact Or.inr ⟨rfl, fun more e => ⟨(Stage.writing.inj e).symm, rfl⟩⟩
  | @put rest more writing reading room =>
    have hone : Log.written [.wrote id (rest.take w.wires.input.room)] =
        rest.take w.wires.input.room := by simp [Log.written]
    have hdrop : rest.drop (rest.take w.wires.input.room).length =
        rest.drop w.wires.input.room := by
      rw [List.length_take]
      rcases Nat.le_total w.wires.input.room rest.length with hle | hle
      · rw [Nat.min_eq_left hle]
      · rw [Nat.min_eq_right hle, List.drop_length, List.drop_eq_nil_of_le hle]
    refine Or.inl ⟨rest, rfl, ?_, fun more' e => ?_⟩
    · rw [hone, hdrop, List.take_append_drop]
    · rw [hone, hdrop]
      exact (Stage.writing.inj e).symm
  | skip waits | fill waits =>
    exact Or.inr ⟨rfl, fun more e => absurd e (ne_writing_of_waits waits more)⟩
  | _ => exact Or.inr ⟨rfl, fun more e => absurd e (by simp)⟩

/-- What was written after an event, and what the call that writes has still to write. -/
theorem Ledger.counts {e : Event} (hl : w.Ledger start log) (hw : w.Orderly)
    (h : EventStep w e w' deeds) :
    (Log.written (log ++ deeds)).count 10 ≤ (Log.begun (log ++ deeds)).length ∧
      ∀ {i l rest}, w'.task? i = some (.call l (.writing rest)) →
        (Log.written (log ++ deeds)).count 10 + rest.count 10 ≤
          (Log.begun (log ++ deeds)).length := by
  rw [Log.written_append, Log.begun_append, List.count_append, List.length_append]
  have hwritten := hl.written
  rcases h.poll_or_calm hw with ⟨id, line, before, after, rfl, task, poll⟩ | calm
  · rcases poll.counts with ⟨rest, rfl, hsplit, hmore⟩ | ⟨hnone, hmore⟩
    · -- the call that writes: what it writes now was counted as still to be written
      have hrest := hl.rest task
      have hcount : (Log.written deeds).count 10 +
          (rest.drop (Log.written deeds).length).count 10 = rest.count 10 := by
        rw [← List.count_append, hsplit]
      refine ⟨by omega, fun {i l more} ht => ?_⟩
      obtain rfl := poll.only_after hw task ht rfl
      replace ht := call_inj (poll.self task) ht
      rw [hmore more ht.2]
      omega
    · -- if it comes to write only now, it begins, and its line is one line
      rw [hnone]
      refine ⟨by simp only [List.count_nil]; omega, fun {i l more} ht => ?_⟩
      obtain rfl := poll.only_after hw task ht rfl
      replace ht := call_inj (poll.self task) ht
      obtain ⟨hl', hb⟩ := hmore more ht.2
      rw [hl', hl.line task, hb]
      simp only [List.count_nil, List.length_singleton]
      omega
  · rw [Log.written_of_calm calm.log, Log.begun_of_calm calm.log]
    refine ⟨hwritten, fun {i l more} ht => ?_⟩
    exact hl.rest (calm.inTurn ht rfl)

/-- Every event keeps the account, if calls have lines of one line. -/
theorem Ledger.step {e : Event} (hl : w.Ledger start log) (hw : w.Orderly)
    (h : EventStep w e w' deeds) (he : ∀ id line, e = .call id line → line.count 10 = 1) :
    w'.Ledger start (log ++ deeds) where
  output := h.accounts hl.output
  input := (hl.inputs hw h).1
  reading := (hl.inputs hw h).2
  line ht := hl.lines h he ht
  written := (hl.counts hw h).1
  rest ht := (hl.counts hw h).2 ht

end KernelLink.Session.World
