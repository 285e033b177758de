import KernelLink.Proofs.Session.Poll
/-!
# What one event can do

Each event, one rule for each way it can go, with the state that it leads to and what it shows. An
invariant of the link is proved by going through these rules; the polls of a call are one of them,
`EventStep.step`, and have rules of their own. So have the polls of a closing; they change nothing
that calls look at until its turn comes, so all of that is one rule here, `EventStep.aside`.

Main definitions:
* `World.CloseStep`: the rules for the polls of a closing.
* `World.Polled`: a poll that makes progress, of a call or of a closing.
* `World.Aside`: nothing that calls look at has changed.
* `World.WireStep`, `World.EventStep`: the rules.

Main results:
* `World.CallStep.self`, `World.CallStep.others`: a poll moves its own call and no other.
* `World.CallStep.deeds_eq`: a poll shows what its rule says.
* `World.apply_cases`: whatever happens follows one of the rules.
* `World.reaches_line`: a call that waits comes to take a line.
-/
namespace KernelLink.Session

/-- The events at which a task is made, told something or given up, but not polled. -/
def Event.ofTasks : Event → Bool
  | .call _ _ | .close _ | .giveUp _ | .abandon _ | .answer _ _ => true
  | _ => false

namespace World

open Control (shutDown)
open Host (Pipe Delivery)
open Stderr (Buffer)

/-! ## Looking tasks up -/

/-- Replacing every entry of one task by another changes what is found under its number, if anything
was, and under no other. Induction on the list; in each entry its own number and the wanted one are
compared with the one that is replaced. -/
theorem lookup_map_replace (tasks : List (Nat × Task)) (id i : Nat) (t : Task) :
    (tasks.map fun entry => if entry.1 = id then (id, t) else entry).lookup i =
      if i = id then (tasks.lookup i).map fun _ => t else tasks.lookup i := by
  induction tasks with
  | nil => simp
  | cons entry rest ih =>
    obtain ⟨j, u⟩ := entry
    rw [List.map_cons, List.lookup_cons]
    by_cases hj : j = id
    · subst hj
      rw [if_pos rfl, List.lookup_cons, ih]
      by_cases hi : i = j
      · subst hi
        simp
      · have hb : (i == j) = false := by simpa using hi
        simp only [hb, hi]
    · rw [if_neg hj, List.lookup_cons, ih]
      by_cases hi : i = j
      · subst hi
        simp [hj]
      · have hb : (i == j) = false := by simpa using hi
        simp only [hb]

/-- Where a task has been set anew, that task is found in the place of the old one; a number under
which there was none stays without one. -/
theorem task?_setTask (w : World) (id i : Nat) (t : Task) :
    (w.setTask id t).task? i = if i = id then (w.task? i).map fun _ => t else w.task? i :=
  lookup_map_replace w.tasks id i t

/-- A new task is found under its number and changes nothing else; it stands behind all others, so
this needs that the number was free. -/
theorem task?_addTask (w : World) (id i : Nat) (t : Task) (h : w.task? id = none) :
    (w.addTask id t).task? i = if i = id then some t else w.task? i := by
  unfold task? addTask at *
  rw [List.lookup_append]
  by_cases hi : i = id
  · subst hi
    simp [h]
  · have hb : (i == id) = false := by simpa using hi
    simp [List.lookup_cons, hb, hi]

/-- The same for a task that also joins the queue for the turn. -/
theorem task?_enqueue (w : World) (id i : Nat) (t : Task) (h : w.task? id = none) :
    ({ w with queue := w.queue ++ [id] }.addTask id t).task? i =
      if i = id then some t else w.task? i :=
  task?_addTask { w with queue := w.queue ++ [id] } id i t h

/-- Whoever goes away is not found any more, and everybody else is. A filter keeps the order, so the
induction meets the entries as they are looked up. -/
theorem task?_abandon (w : World) (id i : Nat) :
    (w.abandon id).task? i = if i = id then none else w.task? i := by
  show (w.tasks.filter (·.1 ≠ id)).lookup i = if i = id then none else w.tasks.lookup i
  induction w.tasks with
  | nil => simp
  | cons entry rest ih =>
    obtain ⟨j, u⟩ := entry
    rw [List.lookup_cons]
    by_cases hj : j = id
    · subst hj
      rw [List.filter_cons_of_neg (by simp), ih]
      by_cases hi : i = j
      · simp [hi]
      · have hb : (i == j) = false := by simpa using hi
        simp [hb, hi]
    · rw [List.filter_cons_of_pos (by simpa using hj), List.lookup_cons, ih]
      by_cases hi : i = j
      · subst hi
        simp [hj]
      · have hb : (i == j) = false := by simpa using hi
        simp [hb]

variable {w w' : World} {id : Nat} {line : List UInt8} {before after : Stage} {deeds : List Deed}

/-- A call has one line and is in one stage, since a number names one task. -/
theorem call_inj {l : List UInt8} {stage : Stage} (h : w.task? id = some (.call line before))
    (h' : w.task? id = some (.call l stage)) : line = l ∧ before = stage :=
  Task.call.inj (Option.some.inj (h.symm.trans h'))

/-! ## The polls of a call -/

/-- A poll replaces its own task or leaves all as they are. -/
theorem CallStep.tasks (h : CallStep w id line before after w' deeds) :
    w'.tasks = (w.setTask id (.call line after)).tasks ∨ w'.tasks = w.tasks ∧ after = before := by
  cases h <;> first | exact Or.inl rfl | exact Or.inr ⟨rfl, rfl⟩

/-- After a poll of a call by one of the rules, the call is in the stage that the rule names. -/
theorem CallStep.self (h : CallStep w id line before after w' deeds)
    (ht : w.task? id = some (.call line before)) : w'.task? id = some (.call line after) := by
  rcases h.tasks with hs | ⟨hs, rfl⟩
  · have hset : w'.task? id = (w.setTask id (.call line after)).task? id := by
      unfold task?
      rw [hs]
    rw [hset, task?_setTask, if_pos rfl, ht]
    rfl
  · have hsame : w'.task? id = w.task? id := by
      unfold task?
      rw [hs]
    rw [hsame, ht]

/-- A poll of one call leaves every other task as it is: all that the rules change beside it are the
wires, the phase, the turn and the result of the call itself. -/
theorem CallStep.others (h : CallStep w id line before after w' deeds) {i : Nat} (hi : i ≠ id) :
    w'.task? i = w.task? i := by
  rcases h.tasks with hs | ⟨hs, -⟩
  · have hset : w'.task? i = (w.setTask id (.call line after)).task? i := by
      unfold task?
      rw [hs]
    rw [hset, task?_setTask, if_neg hi]
  · unfold task?
    rw [hs]

theorem takenBy_none (h : w.wires.output.nextLine? = none) : w.takenBy id before = [] := by
  rw [takenBy, h]

/-- What a poll takes where a line stands ready: that line, if the call waits, no closing has begun
and the line is not blank. -/
theorem takenBy_some {d : Delivery} {output : Pipe}
    (h : w.wires.output.nextLine? = some (d, output)) :
    w.takenBy id before =
      if before.waits && !w.cancelled && !d.isBlank then [.took id d] else [] := by
  rw [takenBy, h]

/-- A call that does not wait takes no line, even if one stands ready. -/
theorem takenBy_of_not_waits (h : before.waits = false) : w.takenBy id before = [] := by
  unfold takenBy
  split <;> simp [h]

theorem takenBy_of_cancelled (h : w.cancelled = true) : w.takenBy id before = [] := by
  unfold takenBy
  split <;> simp [h]

/-- Nothing was written if the input of the kernel holds what it held. -/
theorem writtenBy_same (h : w'.wires.input.bytes = w.wires.input.bytes) :
    w.writtenBy w' id = [] := by
  unfold writtenBy
  rw [h, List.drop_length]

/-- What was written is what the input of the kernel holds in addition. -/
theorem writtenBy_put {bytes : List UInt8}
    (h : w'.wires.input.bytes = w.wires.input.bytes ++ bytes) (hb : bytes ≠ []) :
    w.writtenBy w' id = [.wrote id bytes] := by
  unfold writtenBy
  rw [h, List.drop_left]
  cases bytes with
  | nil => exact absurd rfl hb
  | cons b bs => rfl

/-- What a poll of a call shows, in its three parts: the line that it took, the request that it
began or gave up, and the bytes that it wrote. -/
theorem pollDeeds_eq (ht : w.task? id = some (.call line before))
    (hs : w'.task? id = some (.call line after)) :
    w.pollDeeds w' id =
      w.takenBy id before ++ before.deeds id after ++ w.writtenBy w' id := by
  unfold pollDeeds
  rw [ht, hs]


/-- A call that waits shows only what it takes, unless it begins to write. -/
theorem deeds_of_waits (h : before.waits = true) (ha : ∀ rest, after ≠ .writing rest) :
    before.deeds id after = [] := by
  cases before with
  | discarding deadline =>
    cases after with
    | writing rest => exact absurd rfl (ha rest)
    | _ => rfl
  | awaiting deadline graceEnd => rfl
  | queued => exact absurd h Bool.false_ne_true
  | writing rest => exact absurd h Bool.false_ne_true
  | leaving endsAt => exact absurd h Bool.false_ne_true
  | finished result => exact absurd h Bool.false_ne_true

theorem ne_writing_of_waits (h : before.waits = true) (rest : List UInt8) :
    before ≠ .writing rest := by
  rintro rfl
  exact Bool.false_ne_true h

/-- What a poll shows, read off the worlds before and after it, is what its rule says. Every rule is
gone through once, so no later proof looks into the log. -/
theorem CallStep.deeds_eq (h : CallStep w id line before after w' deeds)
    (ht : w.task? id = some (.call line before)) : w.pollDeeds w' id = deeds := by
  -- the deeds are read off the stages before and after, what was read and what was written; each
  -- rule says which of these there are
  rw [pollDeeds_eq ht (h.self ht)]
  cases h with
  | enterReady next phase =>
    rw [takenBy_of_not_waits rfl, writtenBy_same] <;> rfl
  | enterLate next phase =>
    rw [takenBy_of_not_waits rfl, writtenBy_same] <;> rfl
  | enterRefused next refusal =>
    rw [takenBy_of_not_waits rfl, writtenBy_same] <;> rfl
  | cancel waits told =>
    rw [takenBy_of_cancelled told, deeds_of_waits waits (by simp), writtenBy_same] <;> rfl
  | skip waits going read blank =>
    rw [takenBy_some read, deeds_of_waits waits (ne_writing_of_waits waits),
      if_neg (by simp [Host.Delivery.isBlank, blank]), writtenBy_same] <;> rfl
  | fail waits going read =>
    rw [takenBy_some read, deeds_of_waits waits (by simp),
      if_pos (by simp [Host.Delivery.isBlank, waits, going]), writtenBy_same] <;> rfl
  | gone waits going read =>
    rw [takenBy_some read, deeds_of_waits waits (by simp),
      if_neg (by simp [Host.Delivery.isBlank]), writtenBy_same] <;> rfl
  | fill waits going none some =>
    rw [takenBy_none none, deeds_of_waits waits (ne_writing_of_waits waits), writtenBy_same] <;> rfl
  | discard going read inked =>
    rw [takenBy_some read,
      if_pos (by simp [Host.Delivery.isBlank, Stage.waits, going, inked]), writtenBy_same] <;> rfl
  | missing quiet due =>
    rw [takenBy_none quiet.line, writtenBy_same] <;> rfl
  | written =>
    rw [takenBy_of_not_waits rfl, writtenBy_same] <;> rfl
  | broken more shut =>
    rw [takenBy_of_not_waits rfl, writtenBy_same] <;> rfl
  | @put rest more writing reading room =>
    rw [takenBy_of_not_waits rfl, writtenBy_put rfl (by simp [more, room])]
    rfl
  | reply going read inked decoded =>
    rw [takenBy_some read,
      if_pos (by simp [Host.Delivery.isBlank, Stage.waits, going, inked]), writtenBy_same] <;> rfl
  | garbled going read inked undecoded =>
    rw [takenBy_some read,
      if_pos (by simp [Host.Delivery.isBlank, Stage.waits, going, inked]), writtenBy_same] <;> rfl
  | stale quiet permit empty =>
    rw [takenBy_none quiet.line, writtenBy_same] <;> rfl
  | arm quiet permit filled =>
    rw [takenBy_none quiet.line, writtenBy_same] <;> rfl
  | disarm quiet due blank =>
    rw [takenBy_none quiet.line, writtenBy_same] <;> rfl
  | report quiet due inked =>
    rw [takenBy_none quiet.line, writtenBy_same] <;> rfl
  | overdue quiet due running unwoken =>
    rw [takenBy_none quiet.line, writtenBy_same] <;> rfl
  | leave due =>
    rw [takenBy_of_not_waits rfl, writtenBy_same] <;> rfl

/-! ## The polls of a closing -/

/-- One poll of a closing: `CloseStep w id before after w'` leads from `w` to `w'`. -/
inductive CloseStep (w : World) (id : Nat) : CloseStage → CloseStage → World → Prop where
  /-- It tells the tasks that wait, and waits for its turn. -/
  | tell : CloseStep w id .marked .queued
      ({ w with cancelled := true, queue := w.queue ++ [id] }.setTask id (.close .queued))
  /-- It has its turn and ends the conversation. -/
  | exit (next : w.isNext id = true) :
      CloseStep w id .queued .taking ((w.exit.setTask id (.close .taking)).release id)
  /-- It takes the process. -/
  | take (process : w.hasProcess = true) :
      CloseStep w id .taking (.stopping (shutDown w.timing.shutdownGrace))
        ({ w with hasProcess := false }.setTask id
          (.close (.stopping (shutDown w.timing.shutdownGrace))))
  /-- There is no process. -/
  | without (process : w.hasProcess = false) :
      CloseStep w id .taking (.finished (.ok ())) (w.setTask id (.close (.finished (.ok ()))))
  /-- The plan is carried out. -/
  | finish (result : Except LinkError Unit) :
      CloseStep w id (.stopping (.done result)) (.finished result)
        (w.setTask id (.close (.finished result)))

variable {stage stage' : CloseStage}

/-- Whatever a poll of a closing does follows one of the rules. -/
theorem pollClose_cases (hp : w.pollClose id stage = some w') :
    ∃ after, CloseStep w id stage after w' := by
  cases stage with
  | marked =>
    rw [pollClose, Option.some.injEq] at hp
    subst hp
    exact ⟨_, .tell⟩
  | queued =>
    unfold pollClose at hp
    by_cases hn : w.isNext id = true
    · rw [if_pos hn, Option.some.injEq] at hp
      subst hp
      exact ⟨_, .exit hn⟩
    · rw [if_neg hn] at hp
      exact nomatch hp
  | taking =>
    unfold pollClose at hp
    by_cases hh : w.hasProcess = true
    · rw [if_pos hh, Option.some.injEq] at hp
      subst hp
      exact ⟨_, .take hh⟩
    · rw [if_neg hh, Option.some.injEq] at hp
      subst hp
      exact ⟨_, .without (by simpa using hh)⟩
  | stopping plan =>
    cases plan with
    | done result =>
      rw [pollClose, Option.some.injEq] at hp
      subst hp
      exact ⟨_, .finish result⟩
    | ask c next => exact nomatch hp
  | finished result => exact nomatch hp

/-- No step of a closing changes whether the link has been closed: that was noted when the closing
began. -/
theorem CloseStep.closed (h : CloseStep w id stage stage' w') : w'.closed = w.closed := by
  cases h <;> rfl

/-- The closing is in the stage after, and the others are where they were. -/
theorem CloseStep.task? (h : CloseStep w id stage stage' w')
    (ht : w.task? id = some (.close stage)) (i : Nat) :
    w'.task? i = if i = id then some (.close stage') else w.task? i := by
  have hset : w'.task? i = (w.setTask id (.close stage')).task? i := by
    cases h <;> rfl
  rw [hset, task?_setTask]
  by_cases hi : i = id
  · rw [if_pos hi, if_pos hi, hi, ht]
    rfl
  · rw [if_neg hi, if_neg hi]

/-! ## Everything else -/

/-- Nothing that calls look at has changed, but they may have been told to stop. -/
structure Aside (w w' : World) : Prop where
  /-- The time limits. -/
  timing : w'.timing = w.timing
  /-- The pipes, the clock and the error output. -/
  wires : w'.wires = w.wires
  /-- The phase. -/
  phase : w'.phase = w.phase
  /-- Whose turn it is. -/
  holder : w'.holder = w.holder
  /-- The calls. -/
  calls : ∀ i line stage,
    w'.task? i = some (.call line stage) ↔ w.task? i = some (.call line stage)
  /-- A closing that has begun stays. -/
  closed : w.closed = true → w'.closed = true
  /-- What was told stays told. -/
  cancelled : w.cancelled = true → w'.cancelled = true

/-- What may happen to the wires while no call does anything: `WireStep v v' deeds` leads from `v`
to `v'`. -/
inductive WireStep (v : Wires) : Wires → List Deed → Prop where
  /-- Nothing. -/
  | same : WireStep v v []
  /-- Time passes. -/
  | pass (ms : Nat) : WireStep v { v with now := v.now + ms } []
  /-- The kernel writes. -/
  | speak (bytes : List UInt8) (writing : v.output.writing = true) :
      WireStep v { v with output := v.output.put bytes } [.spoke bytes]
  /-- The kernel writes to its error output. -/
  | complain (bytes : List UInt8) (writing : v.errors.writing = true) :
      WireStep v { v with errors := v.errors.put bytes } []
  /-- The kernel takes from its input. -/
  | hear (count : Nat) :
      WireStep v { v with input := { v.input with bytes := v.input.bytes.drop count } }
        [.heard (v.input.bytes.take count)]
  /-- The kernel closes its input. -/
  | shutInput : WireStep v { v with input := v.input.closeReading } []
  /-- The kernel's input ends. -/
  | endInput : WireStep v { v with input := v.input.closeWriting } []
  /-- The kernel closes its output. -/
  | shutOutput : WireStep v { v with output := v.output.closeWriting } []
  /-- The kernel closes its error output. -/
  | shutErrors : WireStep v { v with errors := v.errors.closeWriting } []
  /-- The background reader takes error output over. -/
  | chunk (reading : v.capture = .reading) (some : v.errors.bytes ≠ []) :
      WireStep v
        { v with
          capture := .owing
          errors := { v.errors with bytes := v.errors.bytes.drop Buffer.readSize }
          buffer := v.buffer.extend (v.errors.bytes.take Buffer.readSize) }
        [.captured (v.errors.bytes.take Buffer.readSize)]
  /-- The background reader stores the wake-up. -/
  | wake (owing : v.capture = .owing) :
      WireStep v { v with capture := .reading, buffer := v.buffer.notify } []
  /-- The background reader meets the end. -/
  | rest (reading : v.capture = .reading) (none : v.errors.bytes = [])
      (ended : v.errors.writing = false) :
      WireStep v { v with capture := .ended, buffer := v.buffer.notify } []

/-- One event: `EventStep w e w' deeds` leads from `w` to `w'`. -/
inductive EventStep (w : World) : Event → World → List Deed → Prop where
  /-- The wires change, or nothing does. -/
  | wires (e : Event) {v : Wires} {deeds : List Deed} (wires : WireStep w.wires v deeds) :
      EventStep w e { w with wires := v } deeds
  /-- A call begins. -/
  | call (id : Nat) (line : List UInt8) (fresh : w.task? id = none) (going : w.closed = false) :
      EventStep w (.call id line)
        ({ w with queue := w.queue ++ [id] }.addTask id (.call line .queued)) []
  /-- A call is refused because the link is closed. -/
  | refuse (id : Nat) (line : List UInt8) (fresh : w.task? id = none) (closed : w.closed = true) :
      EventStep w (.call id line) (w.addTask id (.call line (.finished (.error .closed)))) []
  /-- A call is polled. -/
  | step {id : Nat} {line : List UInt8} {before after : Stage} {w' : World} {deeds : List Deed}
      (task : w.task? id = some (.call line before))
      (poll : CallStep w id line before after w' deeds) : EventStep w (.poll id) w' deeds
  /-- A call that waits for its turn gives up. -/
  | giveUp {id : Nat} {line : List UInt8} (task : w.task? id = some (.call line .queued))
      (told : w.cancelled = true) :
      EventStep w (.giveUp id) (w.finish id line (.error .closed)) []
  /-- A caller goes away. -/
  | abandon (id : Nat) : EventStep w (.abandon id) (w.abandon id) []
  /-- A closing has its turn and ends the conversation. -/
  | exit {id : Nat} (task : w.task? id = some (.close .queued)) (next : w.isNext id = true) :
      EventStep w (.poll id) ((w.exit.setTask id (.close .taking)).release id) []
  /-- A closing goes on otherwise. -/
  | aside (e : Event) {w' : World} (aside : Aside w w') : EventStep w e w' []

/-- What the wires show is no deed of a call, so it changes nothing that is counted per call. -/
theorem WireStep.log {v v' : Wires} (h : WireStep v v' deeds) : ∀ d ∈ deeds, d.ofCall = false := by
  intro d hd
  cases h with
  | speak bytes =>
    rw [List.mem_singleton.mp hd]
    rfl
  | hear count =>
    rw [List.mem_singleton.mp hd]
    rfl
  | chunk reading some =>
    rw [List.mem_singleton.mp hd]
    rfl
  | _ => exact absurd hd (by simp)

/-- An event that does nothing follows a rule as well: the wires stay as they are and nothing is
shown. -/
theorem EventStep.idle (w : World) (e : Event) : EventStep w e w [] := .wires e .same

/-- Putting a closing in the place of a closing changes no call. -/
theorem calls_setTask (h : w.task? id = some (.close stage)) (i : Nat)
    (line : List UInt8) (s : Stage) :
    (w.setTask id (.close stage')).task? i = some (.call line s) ↔
      w.task? i = some (.call line s) := by
  rw [task?_setTask]
  by_cases hi : i = id
  · subst hi
    rw [if_pos rfl, h]
    simp
  · rw [if_neg hi]

/-- Adding a closing changes no call: its number was free, so no call had it. -/
theorem calls_addTask {stage : CloseStage} (h : w.task? id = none) (i : Nat) (line : List UInt8)
    (s : Stage) :
    (w.addTask id (.close stage)).task? i = some (.call line s) ↔
      w.task? i = some (.call line s) := by
  rw [task?_addTask w id i _ h]
  by_cases hi : i = id
  · subst hi
    rw [if_pos rfl, h]
    simp
  · rw [if_neg hi]

/-- A closing that has its turn ends the conversation; its other polls change nothing that calls
look at. -/
theorem CloseStep.eventStep (h : CloseStep w id stage stage' w')
    (ht : w.task? id = some (.close stage)) : EventStep w (.poll id) w' [] := by
  cases h with
  | exit next => exact .exit ht next
  | tell =>
    exact .aside _ ⟨rfl, rfl, rfl, rfl, fun i line s => calls_setTask ht i line s, fun h => h,
      fun _ => rfl⟩
  | take | without | finish =>
    exact .aside _ ⟨rfl, rfl, rfl, rfl, fun i line s => calls_setTask ht i line s, fun h => h,
      fun h => h⟩

/-- What a poll that makes progress is: one of a call, by the rules for calls, or one of a closing,
by the rules for closings. -/
inductive Polled (w : World) (id : Nat) (w' : World) : Prop where
  /-- A call is polled. -/
  | call {line : List UInt8} {before after : Stage} {deeds : List Deed}
      (task : w.task? id = some (.call line before))
      (step : CallStep w id line before after w' deeds) : Polled w id w'
  /-- A closing is polled. -/
  | close {stage after : CloseStage} (task : w.task? id = some (.close stage))
      (step : CloseStep w id stage after w') : Polled w id w'

/-- Every poll that makes progress is one of these; a number that stands for nothing makes none. -/
theorem poll_polled (hp : w.poll id = some w') : w.Polled id w' := by
  unfold poll at hp
  split at hp
  · next line stage ht =>
    obtain ⟨after, deeds, step⟩ := pollCall_cases hp
    exact .call ht step
  · next stage ht =>
    obtain ⟨after, step⟩ := pollClose_cases hp
    exact .close ht step
  · exact nomatch hp

/-- A poll follows one of the rules: of a call those for calls, of a closing those for closings, and
of a number that stands for nothing the idle one. -/
theorem poll_cases (w : World) (id : Nat) :
    EventStep w (.poll id) (w.apply (.poll id)) (w.deeds (.poll id)) := by
  unfold apply World.deeds
  dsimp only
  cases hp : w.poll id with
  | none => exact .idle w _
  | some w' =>
    show EventStep w (.poll id) w' (w.pollDeeds w' id)
    cases poll_polled hp with
    | call task step =>
      -- the rule also says what is shown, so the log needs no cases of its own
      rw [step.deeds_eq task]
      exact .step task step
    | close task step =>
      have hd : w.pollDeeds w' id = [] := by
        unfold pollDeeds
        rw [task]
      rw [hd]
      exact step.eventStep task

/-- A step of the reader of error output follows one of the rules. It reads a chunk, owes a wake-up
for it or has ended, and what it does in each of these is decided by the bytes that are there. -/
theorem capture_cases (w : World) :
    EventStep w .capture (w.apply .capture) (w.deeds .capture) := by
  unfold apply World.deeds onWires Wires.captureStep
  dsimp only
  cases hc : w.wires.capture with
  | reading =>
    by_cases hb : w.wires.errors.bytes = []
    · by_cases hw : w.wires.errors.writing = true
      · simp only [hb, List.isEmpty_nil, if_true, hw]
        exact .idle w _
      · rw [Bool.not_eq_true] at hw
        simp only [hb, List.isEmpty_nil, if_true, hw]
        exact .wires _ (.rest hc hb hw)
    · -- there are bytes: they make one chunk, and the wake-up for it is owed
      have he : ¬ w.wires.errors.bytes.isEmpty = true := by simpa using hb
      have hd : Capture.reading = .reading ∧ w.wires.errors.bytes ≠ [] := ⟨rfl, hb⟩
      rw [if_neg he, if_pos hd]
      exact .wires _ (.chunk hc hb)
  | owing =>
    have hd : ¬ (Capture.owing = .reading ∧ w.wires.errors.bytes ≠ []) := by simp
    rw [if_neg hd]
    exact .wires _ (.wake hc)
  | ended =>
    have hd : ¬ (Capture.ended = .reading ∧ w.wires.errors.bytes ≠ []) := by simp
    rw [if_neg hd]
    exact .idle w _

/-- The reader of error output keeps to the error output and the buffer. -/
theorem captureStep_leaves (v : Wires) :
    (v.captureStep.getD v).now = v.now ∧ (v.captureStep.getD v).input = v.input ∧
      (v.captureStep.getD v).output = v.output := by
  unfold Wires.captureStep
  split
  · exact ⟨rfl, rfl, rfl⟩
  · exact ⟨rfl, rfl, rfl⟩
  · split
    · split <;> exact ⟨rfl, rfl, rfl⟩
    · exact ⟨rfl, rfl, rfl⟩

/-- Whatever happens follows one of the rules: the one lemma in which `apply` is opened, event by
event. All that the theory says of a step it says by cases on the rules. -/
theorem apply_cases (w : World) (e : Event) : EventStep w e (w.apply e) (w.deeds e) := by
  cases e with
  | pass ms => exact .wires _ (.pass ms)
  | kernelWrites bytes =>
    unfold apply World.deeds onWires
    by_cases hw : w.wires.output.writing = true
    · simp only [hw, if_true]
      exact .wires _ (.speak bytes hw)
    · simp only [hw]
      exact .idle w _
  | kernelReports bytes =>
    unfold apply World.deeds onWires
    by_cases hw : w.wires.errors.writing = true
    · simp only [hw, if_true]
      exact .wires _ (.complain bytes hw)
    · simp only [hw]
      exact .idle w _
  | kernelTakes count => exact .wires _ (.hear count)
  | kernelClosesInput => exact .wires _ .shutInput
  | kernelClosesOutput => exact .wires _ .shutOutput
  | kernelClosesErrors => exact .wires _ .shutErrors
  | capture => exact capture_cases w
  | call id line =>
    unfold apply World.deeds beginCall
    dsimp only
    cases ht : w.task? id with
    | some t => exact .idle w _
    | none =>
      by_cases hc : w.closed = true
      · rw [if_pos hc]
        exact .refuse id line ht hc
      · rw [if_neg hc]
        exact .call id line ht (by simpa using hc)
  | close id =>
    unfold apply World.deeds beginClose
    dsimp only
    cases ht : w.task? id with
    | some t => exact .idle w _
    | none =>
      by_cases hc : w.closed = true
      · rw [if_pos hc]
        exact .aside _
          ⟨rfl, rfl, rfl, rfl, fun i line s => calls_addTask ht i line s, fun _ => hc, fun h => h⟩
      · rw [if_neg hc]
        exact .aside _
          ⟨rfl, rfl, rfl, rfl, fun i line s => calls_addTask ht i line s, fun _ => rfl, fun h => h⟩
  | poll id => exact poll_cases w id
  | giveUp id =>
    unfold apply World.deeds giveUp
    dsimp only
    split
    · next line ht =>
      by_cases hc : w.cancelled = true
      · rw [if_pos hc]
        exact .giveUp ht hc
      · rw [if_neg hc]
        exact .idle w _
    · exact .idle w _
  | abandon id => exact .abandon id
  | answer id exchange =>
    unfold apply World.deeds answer
    dsimp only
    split
    · next c next ht =>
      by_cases he : exchange.command = c
      · rw [dif_pos he]
        exact .aside _ ⟨rfl, rfl, rfl, rfl, fun i line s => calls_setTask ht i line s, fun h => h,
        fun h => h⟩
      · rw [dif_neg he]
        exact .idle w _
    · exact .idle w _

/-- Where a task is made, told something or given up, but not polled, nothing happens to the
wires. -/
theorem wires_apply {e : Event} (he : e.ofTasks = true) : (w.apply e).wires = w.wires := by
  cases e with
  | call | close =>
    unfold apply beginCall beginClose
    dsimp only
    split
    · rfl
    · split <;> rfl
  | giveUp id =>
    unfold apply giveUp
    dsimp only
    split
    · split <;> rfl
    · rfl
  | answer id exchange =>
    unfold apply answer
    dsimp only
    split
    · split <;> rfl
    · rfl
  | abandon => rfl
  | _ => exact nomatch he

/-! ## Polls that have an effect -/

/-- A poll of a number under which a call is found is a poll of that call. -/
theorem poll_eq (ht : w.task? id = some (.call line before)) :
    w.poll id = w.pollCall id line before := by
  unfold poll
  rw [ht]

/-- The world after a poll that makes progress is the one which that poll gives. -/
theorem apply_poll (h : w.poll id = some w') : w.apply (.poll id) = w' := by
  show (w.poll id).getD w = w'
  rw [h]
  rfl

theorem apply_poll_none (h : w.poll id = none) : w.apply (.poll id) = w := by
  show (w.poll id).getD w = w
  rw [h]
  rfl

theorem deeds_poll (h : w.poll id = some w') : w.deeds (.poll id) = w.pollDeeds w' id := by
  show ((w.poll id).map fun w' => w.pollDeeds w' id).getD [] = _
  rw [h]
  rfl

/-- A call that waits takes over the bytes that are on their way, as long as these do not yet
complete a line. -/
theorem pollCall_fill {q : Pipe} (hwaits : before.waits = true) (hgoing : w.cancelled = false)
    (hnone : w.wires.output.nextLine? = none) (hfill : w.wires.output.fill? = some q) :
    w.pollCall id line before = some (w.withOutput q) := by
  cases before with
  | discarding deadline =>
    simp only [pollCall, pollDiscarding, hgoing, hnone, hfill, Bool.false_eq_true, if_false]
  | awaiting deadline graceEnd =>
    simp only [pollCall, pollAwaiting, hgoing, hnone, hfill, Bool.false_eq_true, if_false]
  | _ => exact absurd hwaits Bool.false_ne_true

/-- A call that waits passes over a blank line and goes on waiting for the next one. -/
theorem pollCall_skip {q : Pipe} {text : String} (hwaits : before.waits = true)
    (hgoing : w.cancelled = false) (hnext : w.wires.output.nextLine? = some (.line text, q))
    (hblank : Text.isBlankText text = true) :
    w.pollCall id line before = some (w.withOutput q) := by
  cases before with
  | discarding deadline =>
    simp only [pollCall, pollDiscarding, hgoing, hnext, hblank, Bool.false_eq_true, if_false,
      if_true]
  | awaiting deadline graceEnd =>
    simp only [pollCall, pollAwaiting, hgoing, hnext, hblank, Bool.false_eq_true, if_false, if_true]
  | _ => exact absurd hwaits Bool.false_ne_true

/-- A call that makes way for later lines does nothing else, and that does not show. -/
theorem CallStep.passes {q : Pipe} (hwaits : before.waits = true) (hgoing : w.cancelled = false)
    (hq : w.wires.output.Passes q) :
    w.pollCall id line before = some (w.withOutput q) ∧
      CallStep w id line before before (w.withOutput q) [] := by
  rcases hq with ⟨hnone, hfill⟩ | ⟨text, hnext, hblank⟩
  · exact ⟨pollCall_fill hwaits hgoing hnone hfill, .fill hwaits hgoing hnone hfill⟩
  · exact ⟨pollCall_skip hwaits hgoing hnext hblank, .skip hwaits hgoing hnext hblank⟩

/-- The two together, as an event: while a call waits, what is blank or incomplete goes by and only
the output is changed. -/
theorem apply_poll_passes {q : Pipe} (ht : w.task? id = some (.call line before))
    (hwaits : before.waits = true) (hgoing : w.cancelled = false)
    (hq : w.wires.output.Passes q) : w.apply (.poll id) = w.withOutput q :=
  apply_poll ((poll_eq ht).trans (CallStep.passes hwaits hgoing hq).1)

/-- While a call lets blanks go by or takes bytes over, nothing is shown. -/
theorem deeds_poll_passes {q : Pipe} (ht : w.task? id = some (.call line before))
    (hwaits : before.waits = true) (hgoing : w.cancelled = false)
    (hq : w.wires.output.Passes q) : w.deeds (.poll id) = [] := by
  obtain ⟨hpoll, hs⟩ := CallStep.passes hwaits hgoing hq
  rw [deeds_poll ((poll_eq ht).trans hpoll), hs.deeds_eq ht]

/-- A call that waits does something if it is polled when a line has come that is not blank. -/
theorem pollCall_of_line {d : Delivery} {q : Pipe} (hwaits : before.waits = true)
    (hgoing : w.cancelled = false) (hnext : w.wires.output.nextLine? = some (d, q))
    (hinked : d.isBlank = false) : ∃ w', w.pollCall id line before = some w' := by
  cases d with
  | line text =>
    have hink : Text.isBlankText text = false := hinked
    cases before with
    | discarding deadline =>
      refine ⟨{ w.withOutput q with phase := .ready }.beginWriting id line, ?_⟩
      simp only [pollCall, pollDiscarding, hgoing, hnext, hink, Bool.false_eq_true, if_false]
    | awaiting deadline graceEnd =>
      refine ⟨(w.withOutput q).accept id line text, ?_⟩
      simp only [pollCall, pollAwaiting, hgoing, hnext, hink, Bool.false_eq_true, if_false]
    | _ => exact absurd hwaits Bool.false_ne_true
  | unreadable fault =>
    refine ⟨(w.withOutput q).streamFailed id line fault, ?_⟩
    cases before with
    | discarding deadline =>
      simp only [pollCall, pollDiscarding, hgoing, hnext, Bool.false_eq_true, if_false]
    | awaiting deadline graceEnd =>
      simp only [pollCall, pollAwaiting, hgoing, hnext, Bool.false_eq_true, if_false]
    | _ => exact absurd hwaits Bool.false_ne_true
  | ended => exact absurd hinked.symm Bool.false_ne_true

/-- A call that waits takes the next line that is not blank, and this is shown, whatever becomes of
the line. -/
theorem took_poll {d : Delivery} {q : Pipe} (ht : w.task? id = some (.call line before))
    (hwaits : before.waits = true) (hgoing : w.cancelled = false)
    (hnext : w.wires.output.nextLine? = some (d, q)) (hinked : d.isBlank = false) :
    .took id d ∈ w.deeds (.poll id) := by
  obtain ⟨w', hpoll⟩ : ∃ w', w.pollCall id line before = some w' :=
    pollCall_of_line hwaits hgoing hnext hinked
  obtain ⟨after, deeds, hs⟩ := pollCall_cases hpoll
  rw [deeds_poll ((poll_eq ht).trans hpoll), pollDeeds_eq ht (hs.self ht), takenBy_some hnext,
    if_pos (by simp [hwaits, hgoing, hinked])]
  simp

/-- A call that waits and is polled comes to take the first line that is not blank, if one has
come. -/
theorem reaches_line {d : Delivery} {ds : List Delivery}
    (ht : w.task? id = some (.call line before)) (hwaits : before.waits = true)
    (hgoing : w.cancelled = false)
    (hd : Host.textLines (!w.wires.output.writing)
      (w.wires.output.held ++ w.wires.output.bytes) = d :: ds) :
    ∃ n, (w.run (List.replicate n (.poll id))).task? id = some (.call line before) ∧
      .took id d ∈ (w.run (List.replicate n (.poll id))).deeds (.poll id) := by
  generalize hk : w.wires.output.held.length + 2 * w.wires.output.bytes.length = k
  induction k using Nat.strongRecOn generalizing w with
  | ind k ih =>
    rcases Pipe.next_of_textLines hd with ⟨q, hnext, hinked⟩ | ⟨q, hq, hrest, hless⟩
    · exact ⟨0, ht, took_poll ht hwaits hgoing hnext hinked⟩
    · obtain ⟨n, hn⟩ := ih _ (hk ▸ hless) (w := w.withOutput q) ht hgoing hrest rfl
      refine ⟨n + 1, ?_⟩
      rw [List.replicate_succ]
      show ((w.apply (.poll id)).run _).task? id = _ ∧ _ ∈ ((w.apply (.poll id)).run _).deeds _
      rw [apply_poll_passes ht hwaits hgoing hq]
      exact hn

/-! ## How a call gets where it is -/

/-- The caller of a task that is there did not just go away. -/
theorem ne_abandon {e : Event} {t : Task} (h : (w.apply e).task? id = some t) :
    e ≠ .abandon id := by
  rintro rfl
  rw [show (w.apply (.abandon id)).task? id = _ from task?_abandon w id id, if_pos rfl] at h
  exact absurd h.symm (Option.some_ne_none t)

/-- A call is where it was, has just begun, was polled, or has just given up. -/
theorem EventStep.call_cases {e : Event} {i : Nat} {stage : Stage}
    (h : EventStep w e w' deeds) (ht : w'.task? i = some (.call line stage)) :
    w.task? i = some (.call line stage) ∨
    (w.task? i = none ∧ e = .call i line ∧
      (w.closed = false ∧ stage = .queued ∨
        w.closed = true ∧ stage = .finished (.error .closed))) ∨
    (∃ before, w.task? i = some (.call line before) ∧
      CallStep w i line before stage w' deeds) ∨
    (w.task? i = some (.call line .queued) ∧ w.cancelled = true ∧
      stage = .finished (.error .closed)) := by
  cases h with
  | wires => exact Or.inl ht
  | call id line' fresh going =>
    rw [task?_enqueue w id i _ fresh] at ht
    by_cases hi : i = id
    · -- its own event: the stage it has now is the one that the rule gives
      subst hi
      rw [if_pos rfl, Option.some.injEq, Task.call.injEq] at ht
      obtain ⟨rfl, rfl⟩ := ht
      exact Or.inr (Or.inl ⟨fresh, rfl, Or.inl ⟨going, rfl⟩⟩)
    · rw [if_neg hi] at ht
      exact Or.inl ht
  | refuse id line' fresh closed =>
    rw [task?_addTask _ id i _ fresh] at ht
    by_cases hi : i = id
    · subst hi
      rw [if_pos rfl, Option.some.injEq, Task.call.injEq] at ht
      obtain ⟨rfl, rfl⟩ := ht
      exact Or.inr (Or.inl ⟨fresh, rfl, Or.inr ⟨closed, rfl⟩⟩)
    · rw [if_neg hi] at ht
      exact Or.inl ht
  | @step id line' before after _ _ task poll =>
    by_cases hi : i = id
    · subst hi
      obtain ⟨rfl, rfl⟩ := call_inj (poll.self task) ht
      exact Or.inr (Or.inr (Or.inl ⟨before, task, poll⟩))
    · rw [poll.others hi] at ht
      exact Or.inl ht
  | @giveUp id line' task told =>
    have hset : (w.finish id line' (.error .closed)).task? i = _ := task?_setTask w id i _
    rw [hset] at ht
    by_cases hi : i = id
    · subst hi
      rw [if_pos rfl, task, Option.map_some, Option.some.injEq, Task.call.injEq] at ht
      obtain ⟨rfl, rfl⟩ := ht
      exact Or.inr (Or.inr (Or.inr ⟨task, told, rfl⟩))
    · rw [if_neg hi] at ht
      exact Or.inl ht
  | abandon id =>
    rw [task?_abandon] at ht
    by_cases hi : i = id
    · rw [if_pos hi] at ht
      exact absurd ht (by simp)
    · rw [if_neg hi] at ht
      exact Or.inl ht
  | exit task next => exact Or.inl ((calls_setTask task i line stage).mp ht)
  | aside e aside => exact Or.inl ((aside.calls i line stage).mp ht)

/-- A call whose caller does not go away stays where it is, is polled, or gives up. -/
theorem EventStep.call_goes {e : Event} {i : Nat} {stage : Stage}
    (h : EventStep w e w' deeds) (ht : w.task? i = some (.call line stage))
    (ha : e ≠ .abandon i) :
    w'.task? i = some (.call line stage) ∨
    (∃ after, w'.task? i = some (.call line after) ∧
      CallStep w i line stage after w' deeds) ∨
    (stage = .queued ∧ w'.task? i = some (.call line (.finished (.error .closed)))) := by
  cases h with
  | wires => exact Or.inl ht
  | call id line' fresh going =>
    have hi : i ≠ id := by
      rintro rfl
      rw [fresh] at ht
      exact absurd ht (by simp)
    rw [task?_enqueue w id i _ fresh, if_neg hi]
    exact Or.inl ht
  | refuse id line' fresh closed =>
    have hi : i ≠ id := by
      rintro rfl
      rw [fresh] at ht
      exact absurd ht (by simp)
    rw [task?_addTask _ id i _ fresh, if_neg hi]
    exact Or.inl ht
  | @step id line' before after _ _ task poll =>
    by_cases hi : i = id
    · subst hi
      obtain ⟨rfl, rfl⟩ := call_inj task ht
      exact Or.inr (Or.inl ⟨after, poll.self task, poll⟩)
    · rw [poll.others hi]
      exact Or.inl ht
  | @giveUp id line' task told =>
    have hset : (w.finish id line' (.error .closed)).task? i = _ := task?_setTask w id i _
    rw [hset]
    by_cases hi : i = id
    · subst hi
      obtain ⟨rfl, rfl⟩ := call_inj task ht
      rw [if_pos rfl, task]
      exact Or.inr (Or.inr ⟨rfl, rfl⟩)
    · rw [if_neg hi]
      exact Or.inl ht
  | abandon id =>
    have hi : i ≠ id := fun e => ha (by rw [e])
    rw [task?_abandon, if_neg hi]
    exact Or.inl ht
  | exit task next => exact Or.inl ((calls_setTask task i line stage).mpr ht)
  | aside e aside => exact Or.inl ((aside.calls i line stage).mpr ht)

/-! ## Results -/

/-- A call has a result exactly if it is found in the stage in which it has finished with that
result. -/
theorem callResult?_eq_some {result : Result} :
    w.callResult? id = some result ↔
      ∃ line, w.task? id = some (.call line (.finished result)) := by
  unfold callResult?
  constructor
  · intro h
    split at h
    · next line r ht =>
      rw [Option.some.injEq] at h
      subst h
      exact ⟨line, ht⟩
    · exact absurd h (by simp)
  · rintro ⟨line, ht⟩
    rw [ht]

/-- No rule starts from a call that has finished, so its result is final. -/
theorem CallStep.not_finished {result : Result}
    (h : CallStep w id line (.finished result) after w' deeds) : False := by
  cases h with
  | cancel waits | skip waits | fail waits | gone waits | fill waits =>
    exact Bool.false_ne_true waits

/-- The result of a call stays as it is through every event, unless its caller goes away and takes
it along. -/
theorem EventStep.callResult?_of {e : Event} {i : Nat} {result : Result}
    (h : EventStep w e w' deeds) (hr : w.callResult? i = some result) (ha : e ≠ .abandon i) :
    w'.callResult? i = some result := by
  obtain ⟨line, ht⟩ := callResult?_eq_some.mp hr
  rcases h.call_goes ht ha with hs | ⟨after, -, hp⟩ | ⟨hq, -⟩
  · exact callResult?_eq_some.mpr ⟨line, hs⟩
  · exact absurd hp.not_finished not_false
  · exact absurd hq (by simp)

/-- A result stays along a run, unless its caller goes away; by induction on the events, from the
lemma about one. -/
theorem callResult?_run {i : Nat} {result : Result} (hr : w.callResult? i = some result)
    (events : List Event) (ha : .abandon i ∉ events) :
    (w.run events).callResult? i = some result := by
  induction events generalizing w with
  | nil => exact hr
  | cons e events ih =>
    rw [List.mem_cons, not_or] at ha
    exact ih ((apply_cases w e).callResult?_of hr (Ne.symm ha.1)) ha.2

/-- A call gets its result from a poll, or it is told that the link is closed. -/
theorem EventStep.callResult?_new {e : Event} {i : Nat} {result : Result}
    (h : EventStep w e w' deeds) (hn : w.callResult? i = none)
    (hr : w'.callResult? i = some result) :
    result = .error .closed ∨
    ∃ line before, w.task? i = some (.call line before) ∧
      CallStep w i line before (.finished result) w' deeds := by
  obtain ⟨line, ht⟩ := callResult?_eq_some.mp hr
  rcases h.call_cases ht with
    hs | ⟨-, -, ⟨-, hs⟩ | ⟨-, hs⟩⟩ | ⟨before, hb, hp⟩ | ⟨-, -, hs⟩
  · rw [callResult?_eq_some.mpr ⟨line, hs⟩] at hn
    exact absurd hn (by simp)
  · exact absurd hs (by simp)
  · exact Or.inl (Stage.finished.inj hs)
  · exact Or.inr ⟨line, before, hb, hp⟩
  · exact Or.inl (Stage.finished.inj hs)

end World
end KernelLink.Session
