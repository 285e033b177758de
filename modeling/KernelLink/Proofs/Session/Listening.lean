import KernelLink.Proofs.Session.InTime
import KernelLink.Session.Handshake
/-!
# Waiting for the greeting

While the greeting is awaited the kernel and the background reader do what they can do at any time,
and the waiting is polled now and then. Each poll follows one of a few rules. From them it follows
what can be said of the waiting after any events: as long as it has not ended no line was taken, and
it ends with what is made of the first line that is not blank, or with an error when no line has
come by the deadline or will ever come.

Main definitions:
* `Handshake.apply`, `Handshake.run`, `Handshake.after`: the waiting among other events.
* `Handshake.verdict`: what is made of a line.
* `Handshake.heard`: the lines that the kernel has written.
* `Handshake.PollStep`: the rules.
* `Handshake.Standing`: what can be said of each stage.

Main results:
* `Handshake.poll_cases`: whatever a poll does follows one of the rules.
* `Handshake.standing_after`: what can be said after any events.
* `Handshake.after_ended`: how the waiting ends.
* `Handshake.listens_out`: what polling leads to.
-/
namespace KernelLink.Session.Handshake

open Host (Delivery Pipe)
open World (WireStep)

variable {timing : Timing} {w v v' : Wires} {stage stage' : Stage} {deadline : Nat}
  {deeds : List Deed} {events past : List Event} {e : Event} {read : List Delivery} {d : Delivery}

/-! ## Events -/

/-- One event. A poll is one of the waiting; everything else happens to the wires as it does when
there are no calls. -/
def apply (timing : Timing) (s : Stage × Wires) : Event → Stage × Wires
  | .poll _ => (poll timing s.2 s.1).getD s
  | e => (s.1, ((World.new timing s.2).apply e).wires)

/-- A run. -/
def run (timing : Timing) (s : Stage × Wires) (events : List Event) : Stage × Wires :=
  events.foldl (apply timing) s

/-- What a run shows. -/
def log (timing : Timing) (s : Stage × Wires) : List Event → Log
  | [] => []
  | e :: events => (World.new timing s.2).deeds e ++ log timing (apply timing s e) events

/-- The waiting began over the wires `w`, and `events` is what has happened since. -/
def after (timing : Timing) (w : Wires) (events : List Event) : Stage × Wires :=
  run timing (begin timing w, w) events

/-- All bytes that the kernel has written to its output, but for those that were taken before the
waiting began. -/
def written (timing : Timing) (w : Wires) (events : List Event) : List UInt8 :=
  w.output.held ++ w.output.bytes ++ Log.spoken (log timing (begin timing w, w) events)

/-- The lines that the kernel has written, without blank ones. -/
def heard (timing : Timing) (w : Wires) (events : List Event) : List Delivery :=
  Host.textLines (!(after timing w events).2.output.writing) (written timing w events)

/-- When the greeting comes too late. -/
def expiry (timing : Timing) (w : Wires) : Nat := w.now + timing.handshakeTimeout

/-- The waiting for a greeting in two parts: the later events start from where the earlier ones led.
-/
theorem run_append (s : Stage × Wires) (past events : List Event) :
    run timing s (past ++ events) = run timing (run timing s past) events := List.foldl_append

/-- The log of the two parts is one log behind the other. Induction on the earlier events. -/
theorem log_append (s : Stage × Wires) (past events : List Event) :
    log timing s (past ++ events) = log timing s past ++ log timing (run timing s past) events := by
  induction past generalizing s with
  | nil => rfl
  | cons e past ih =>
    rw [List.cons_append, log, log, ih, List.append_assoc]
    rfl

theorem after_append (w : Wires) (past events : List Event) :
    after timing w (past ++ events) = run timing (after timing w past) events :=
  run_append _ past events

/-- One more event is applied to what the events before it have led to; this is the step of every
induction below. -/
theorem after_concat (w : Wires) (past : List Event) (e : Event) :
    after timing w (past ++ [e]) = apply timing (after timing w past) e := after_append w past [e]

/-- One more event adds what it lets the kernel say to what the kernel has said. -/
theorem written_concat (w : Wires) (past : List Event) (e : Event) :
    written timing w (past ++ [e]) = written timing w past ++
      Log.spoken ((World.new timing (after timing w past).2).deeds e) := by
  unfold written
  rw [log_append, Log.spoken_append, ← List.append_assoc]
  congr 2
  exact List.append_nil _

/-! ## What one event can do -/

/-- What is made of the first line. The end of the output is no line. -/
def verdict : Delivery → Except LinkError Hello
  | .line text => judge text
  | .unreadable fault => .error (unreadable fault)
  | .ended => .error (leftEarly "")

/-- One poll: `PollStep timing v stage stage' v'` leads from `v` to `v'`. -/
inductive PollStep (timing : Timing) (v : Wires) : Stage → Stage → Wires → Prop where
  /-- It makes way for later lines. -/
  | pass {deadline : Nat} {q : Pipe} (passes : v.output.Passes q) :
      PollStep timing v (.listening deadline) (.listening deadline) { v with output := q }
  /-- It takes the first line. -/
  | take {deadline : Nat} {d : Delivery} {q : Pipe} (read : v.output.nextLine? = some (d, q))
      (inked : d.isBlank = false) :
      PollStep timing v (.listening deadline) (.finished (verdict d)) { v with output := q }
  /-- It meets the end of the output. -/
  | gone {deadline : Nat} {q : Pipe} (read : v.output.nextLine? = some (.ended, q)) :
      PollStep timing v (.listening deadline) (.leaving deadline (v.now + timing.stderrGrace)) v
  /-- There is nothing to read, and the deadline has passed. -/
  | late {deadline : Nat} (line : v.output.nextLine? = none) (fill : v.output.fill? = none)
      (passed : deadline ≤ v.now) :
      PollStep timing v (.listening deadline) (.finished (.error (tooLate timing))) v
  /-- The grace has ended, and the last words are reported. -/
  | left {deadline endsAt : Nat} (passed : endsAt ≤ v.now) :
      PollStep timing v (.leaving deadline endsAt) (.finished (.error (leftEarly v.takeErrors.1)))
        v.takeErrors.2
  /-- The deadline has passed before that. -/
  | cut {deadline endsAt : Nat} (running : v.now < endsAt) (passed : deadline ≤ v.now) :
      PollStep timing v (.leaving deadline endsAt) (.finished (.error (tooLate timing))) v

/-- A poll of the waiting follows one of the rules. What is at the front of the output decides: a
line, one that cannot be read, the end, bytes on their way, or nothing, and then the clock. -/
theorem poll_listening (h : poll timing v (.listening deadline) = some (stage', v')) :
    PollStep timing v (.listening deadline) stage' v' := by
  simp only [poll] at h
  split at h
  · next text q hread =>
    split at h
    · next hblank =>
      cases h
      exact .pass (Or.inr ⟨text, hread, hblank⟩)
    · next hinked =>
      cases h
      exact .take hread (by simpa [Delivery.isBlank] using hinked)
  · next fault q hread =>
    cases h
    exact .take hread rfl
  · next q hread =>
    cases h
    exact .gone hread
  · next hline =>
    split at h
    · next q hfill =>
      cases h
      exact .pass (Or.inl ⟨hline, hfill⟩)
    · next hfill =>
      split at h
      · next hpassed =>
        cases h
        exact .late hline hfill hpassed
      · cases h

/-- Whatever a poll does follows one of the rules, in each stage of the waiting; after the end there
are none. -/
theorem poll_cases (h : poll timing v stage = some (stage', v')) :
    PollStep timing v stage stage' v' := by
  cases stage with
  | listening deadline => exact poll_listening h
  | leaving deadline endsAt =>
    simp only [poll] at h
    split at h
    · next hpassed =>
      cases h
      exact .left hpassed
    · next hrunning =>
      split at h
      · next hpassed =>
        cases h
        exact .cut (Nat.lt_of_not_le hrunning) hpassed
      · exact nomatch h
  | finished result => exact nomatch h

/-- What happens to the wires of a link without calls: the events of a call find none that they are
about. -/
theorem wires_alone (timing : Timing) (v : Wires) (e : Event) :
    WireStep v ((World.new timing v).apply e).wires ((World.new timing v).deeds e) := by
  have hstep := World.apply_cases (World.new timing v) e
  generalize (World.new timing v).apply e = after at hstep ⊢
  generalize (World.new timing v).deeds e = deeds at hstep ⊢
  cases hstep with
  | wires e wires => exact wires
  | step task poll => exact nomatch task
  | giveUp task told => exact nomatch task
  | exit task next => exact nomatch task
  | aside e aside =>
    rw [aside.wires]
    exact .same
  | _ => exact .same

/-- An event: `EventStep timing s e s' deeds` leads from `s` to `s'`. -/
inductive EventStep (timing : Timing) (s : Stage × Wires) : Event → Stage × Wires → List Deed → Prop
  where
  /-- A poll that has to wait. -/
  | wait (i : Nat) (waits : poll timing s.2 s.1 = none) : EventStep timing s (.poll i) s []
  /-- A poll that leads on. -/
  | poll (i : Nat) {stage' : Stage} {v' : Wires} (poll : PollStep timing s.2 s.1 stage' v') :
      EventStep timing s (.poll i) (stage', v') []
  /-- Something happens to the wires. -/
  | wires {e : Event} {v' : Wires} {deeds : List Deed} (other : ∀ i, e ≠ .poll i)
      (wires : WireStep s.2 v' deeds) : EventStep timing s e (s.1, v') deeds

/-- Whatever happens during the waiting follows one of three rules: a poll that makes progress, one
that does not, or something that happens to the wires. -/
theorem apply_cases (timing : Timing) (s : Stage × Wires) (e : Event) :
    EventStep timing s e (apply timing s e) ((World.new timing s.2).deeds e) := by
  have hwires := wires_alone timing s.2 e
  cases e with
  | poll i =>
    cases h : poll timing s.2 s.1 with
    | none =>
      have hsame : apply timing s (.poll i) = s := by
        show (poll timing s.2 s.1).getD s = s
        rw [h]
        rfl
      rw [hsame]
      exact .wait i h
    | some next =>
      obtain ⟨stage', v'⟩ := next
      have hnext : apply timing s (.poll i) = (stage', v') := by
        show (poll timing s.2 s.1).getD s = (stage', v')
        rw [h]
        rfl
      rw [hnext]
      exact .poll i (poll_cases h)
  | _ => exact .wires (fun i h => nomatch h) hwires

/-! ## What one event leaves alone -/

/-- A poll takes no time: only the clock of the wires says what time it is, and a poll reads it. -/
theorem PollStep.now (h : PollStep timing v stage stage' v') : v'.now = v.now := by
  cases h <;> rfl

/-- A poll does not change whether the kernel still writes. The one step that could is taking a
line, and a line that is taken is not the end. -/
theorem PollStep.writing (h : PollStep timing v stage stage' v') :
    v'.output.writing = v.output.writing := by
  cases h with
  | pass passes =>
    rcases passes with ⟨-, hfill⟩ | ⟨text, hread, -⟩
    · exact (Pipe.fill?_cases hfill).2.2
    · exact Pipe.nextLine?_writing hread (by simp)
  | take read inked =>
    refine Pipe.nextLine?_writing read ?_
    rintro rfl
    exact absurd inked (by decide)
  | _ => rfl

variable {s s' : Stage × Wires}

theorem EventStep.now (h : EventStep timing s e s' deeds) : s.2.now ≤ s'.2.now := by
  cases h with
  | wait => exact Nat.le_refl _
  | poll i poll => exact Nat.le_of_eq poll.now.symm
  | wires other wires => exact wires.now

/-- A kernel that has closed its output says no more, and a poll does not open it again. -/
theorem EventStep.shut (h : EventStep timing s e s' deeds) (hs : s.2.output.writing = false) :
    s'.2.output.writing = false ∧ Log.spoken deeds = [] := by
  cases h with
  | wait => exact ⟨hs, rfl⟩
  | poll i poll => exact ⟨poll.writing.trans hs, rfl⟩
  | wires other wires =>
    obtain ⟨hsame, hnone⟩ := wires.shut hs
    exact ⟨hsame ▸ hs, hnone⟩

/-- What the kernel says and what the clock does are different events: when something is said, the
clock stands still. -/
theorem EventStep.instant (h : EventStep timing s e s' deeds) :
    s'.2.now = s.2.now ∨ s'.2.output = s.2.output ∧ Log.spoken deeds = [] := by
  cases h with
  | wait => exact Or.inl rfl
  | poll i poll => exact Or.inl poll.now
  | wires other wires =>
    cases wires with
    | pass ms => exact Or.inr ⟨rfl, rfl⟩
    | _ => exact Or.inl rfl

/-- The waiting ends once: whatever happens afterwards, what it has ended with stays. -/
theorem EventStep.finished {result : Except LinkError Hello} (h : EventStep timing s e s' deeds)
    (hs : s.1 = .finished result) : s'.1 = .finished result := by
  cases h with
  | wait => exact hs
  | poll i poll =>
    rw [hs] at poll
    exact nomatch poll
  | wires => exact hs

/-! ## Standing -/

/-- What can be said in each stage of the waiting, if it ends at the deadline: which lines were
taken, and what is left of the output. -/
inductive Standing (deadline : Nat) (v : Wires) : Stage → List Delivery → Prop where
  /-- No line was taken. -/
  | listening : Standing deadline v (.listening deadline) []
  /-- No line was taken, and none will come. -/
  | leaving (endsAt : Nat) (shut : v.output.writing = false) (held : v.output.held = [])
      (bytes : v.output.bytes = []) : Standing deadline v (.leaving deadline endsAt) []
  /-- The first line was taken. -/
  | judged (d : Delivery) : Standing deadline v (.finished (verdict d)) [d]
  /-- The waiting ended without a line. -/
  | silent (why : String) : Standing deadline v (.finished (.error (.handshake why))) []

/-- A poll keeps the account of the output and what the stage stands for. If a line is taken it is
the first that is not blank, and the waiting is over. -/
theorem Standing.poll (h : Standing deadline v stage read) (hp : PollStep timing v stage stage' v')
    {total : List UInt8} (ha : v.output.Accounts total read) :
    ∃ read', Standing deadline v' stage' read' ∧ v'.output.Accounts total read' := by
  cases hp with
  | pass passes =>
    cases h
    exact ⟨[], .listening, ha.passes passes⟩
  | @take _ d q hread inked =>
    cases h
    exact ⟨[d], .judged d, ha.takes hread inked⟩
  | gone hread =>
    cases h
    obtain ⟨hshut, hheld, hbytes⟩ := Pipe.textLines_of_ended hread
    exact ⟨[], .leaving _ hshut hheld hbytes, ha⟩
  | late | left | cut =>
    cases h
    exact ⟨[], .silent _, ha⟩

/-- What the others do to the wires leaves what the stage stands for: they add to the end of the
output, and nothing to one that was shut. -/
theorem Standing.wires (h : Standing deadline v stage read) (hw : WireStep v v' deeds) :
    Standing deadline v' stage read := by
  cases h with
  | leaving endsAt shut held bytes =>
    have hsame := (hw.shut shut).1
    refine .leaving endsAt ?_ ?_ ?_ <;> rw [hsame]
    · exact shut
    · exact held
    · exact bytes
  | listening => exact .listening
  | judged d => exact .judged d
  | silent why => exact .silent why

/-- What can be said after any events, by induction on them: the lines that were read and those that
still can be read are those that the kernel has said, and the stage agrees. -/
theorem standing_after (timing : Timing) (w : Wires) (events : List Event) :
    ∃ read, Standing (expiry timing w) (after timing w events).2 (after timing w events).1 read ∧
      (after timing w events).2.output.Accounts (written timing w events) read := by
  induction events using List.reverseRecOn with
  | nil =>
    refine ⟨[], .listening, ?_⟩
    unfold written
    rw [show Log.spoken (log timing (begin timing w, w) []) = [] from rfl, List.append_nil]
    exact Pipe.Accounts.start w.output
  | append_singleton past e ih =>
    obtain ⟨read, hstands, haccount⟩ := ih
    have hstep := apply_cases timing (after timing w past) e
    rw [after_concat, written_concat]
    -- one event more: nothing new is said, or a poll reads what was said before
    generalize apply timing (after timing w past) e = s' at hstep ⊢
    generalize (World.new timing (after timing w past).2).deeds e = deeds at hstep ⊢
    cases hstep with
    | wait =>
      rw [show Log.spoken [] = [] from rfl, List.append_nil]
      exact ⟨read, hstands, haccount⟩
    | poll i poll =>
      rw [show Log.spoken [] = [] from rfl, List.append_nil]
      exact hstands.poll poll haccount
    | wires other wires => exact ⟨read, hstands.wires wires, wires.accounts haccount⟩

/-! ## Time and lines -/

/-- The clock does not go back over any number of events. Induction from the end, one event at a
time. -/
theorem now_le (timing : Timing) (w : Wires) (past events : List Event) :
    (after timing w past).2.now ≤ (after timing w (past ++ events)).2.now := by
  induction events using List.reverseRecOn with
  | nil => rw [List.append_nil]
  | append_singleton more e ih =>
    rw [← List.append_assoc, after_concat]
    exact Nat.le_trans ih (apply_cases timing _ e).now

/-- One more event can only add lines at the end, and none once the kernel has stopped writing; so
what was heard is a front of what is heard. -/
theorem heard_concat (w : Wires) (past : List Event) (e : Event) :
    heard timing w past <+: heard timing w (past ++ [e]) := by
  unfold heard
  rw [written_concat, after_concat]
  refine Host.textLines_grow _ fun hended => ?_
  have hshut : (after timing w past).2.output.writing = false := by simpa using hended
  obtain ⟨hstill, hnone⟩ := (apply_cases timing _ e).shut hshut
  exact ⟨hnone, by rw [hstill]; rfl⟩

/-- What the kernel has said stays said: more events only add to it at the end. -/
theorem heard_grows (w : Wires) (past events : List Event) :
    heard timing w past <+: heard timing w (past ++ events) := by
  induction events using List.reverseRecOn with
  | nil => rw [List.append_nil]
  | append_singleton more e ih =>
    rw [← List.append_assoc]
    exact ih.trans (heard_concat w _ e)

/-- An event that says nothing and shuts nothing leaves what was heard as it was. -/
theorem heard_concat_of_silent
    (hw : (after timing w (past ++ [e])).2.output.writing =
      (after timing w past).2.output.writing)
    (hs : Log.spoken ((World.new timing (after timing w past).2).deeds e) = []) :
    heard timing w (past ++ [e]) = heard timing w past := by
  unfold heard
  rw [hw, written_concat, hs, List.append_nil]

/-- A poll says nothing and takes no time, so neither what was heard nor the clock has changed after
it. -/
theorem after_poll (timing : Timing) (w : Wires) (past : List Event) (i : Nat) :
    heard timing w (past ++ [.poll i]) = heard timing w past ∧
      (after timing w (past ++ [.poll i])).2.now = (after timing w past).2.now := by
  have hstep := apply_cases timing (after timing w past) (.poll i)
  rw [← after_concat] at hstep
  have hboth : (after timing w (past ++ [.poll i])).2.output.writing =
      (after timing w past).2.output.writing ∧
      (after timing w (past ++ [.poll i])).2.now = (after timing w past).2.now := by
    generalize after timing w (past ++ [.poll i]) = s' at hstep ⊢
    generalize (World.new timing (after timing w past).2).deeds (.poll i) = deeds at hstep
    cases hstep with
    | wait => exact ⟨rfl, rfl⟩
    | poll i poll => exact ⟨poll.writing, poll.now⟩
    | wires other => exact absurd rfl (other i)
  exact ⟨heard_concat_of_silent hboth.1 rfl, hboth.2⟩

/-- Behind the end of the output there are no more lines; by induction from the last event, with the
output shut throughout. -/
theorem heard_of_shut (h : (after timing w past).2.output.writing = false) (events : List Event) :
    heard timing w (past ++ events) = heard timing w past ∧
      (after timing w (past ++ events)).2.output.writing = false := by
  induction events using List.reverseRecOn with
  | nil =>
    rw [List.append_nil]
    exact ⟨rfl, h⟩
  | append_singleton more e ih =>
    obtain ⟨hsame, hshut⟩ := ih
    obtain ⟨hstill, hnone⟩ := (apply_cases timing _ e).shut hshut
    rw [← after_concat] at hstill
    rw [← List.append_assoc]
    exact ⟨(heard_concat_of_silent (hstill.trans hshut.symm) hnone).trans hsame, hstill⟩

/-- What was read, and what can still be read, are the lines of the kernel. -/
theorem heard_eq (h : (after timing w events).2.output.Accounts (written timing w events) read) :
    heard timing w events =
      read ++ (World.new timing (after timing w events).2).unread := h.textLines_eq

/-! ## How the waiting ends -/

/-- The waiting has ended. -/
def Stage.Over (stage : Stage) : Prop := ∃ result, stage = .finished result

/-- How the waiting ends with the next poll behind `past`. -/
inductive Ending (timing : Timing) (w : Wires) (past : List Event) :
    Except LinkError Hello → Prop where
  /-- Something is made of the first line. -/
  | heard {d : Delivery} (first : (heard timing w past).head? = some d) :
      Ending timing w past (verdict d)
  /-- No line has come, and the deadline has passed, or there will be none. -/
  | silent (why : String) (none : heard timing w past = [])
      (expired : expiry timing w ≤ (after timing w past).2.now ∨
        (after timing w past).2.output.writing = false) :
      Ending timing w past (.error (.handshake why))

/-- If a poll ends the waiting, it does so for one of the reasons that count, and with what that
reason says. The account of the output tells that a line which is taken is the first of all. -/
theorem PollStep.ending {result : Except LinkError Hello}
    (hp : PollStep timing (after timing w past).2 (after timing w past).1 (.finished result) v') :
    Ending timing w past result := by
  obtain ⟨read, hstands, haccount⟩ := standing_after timing w past
  have hlines := heard_eq haccount
  generalize hs : after timing w past = s at hp hstands haccount hlines
  obtain ⟨stage, v⟩ := s
  cases hp with
  | take hread inked =>
    -- no line was taken before, so it is the first of all
    cases hstands
    have hfirst := haccount.next_eq hread inked
    refine .heard ?_
    rw [List.head?_eq_getElem?]
    unfold heard
    rw [hs]
    exact hfirst
  -- nothing stands ready, so what was read is all that was heard
  | late hline hfill passed =>
    cases hstands
    refine .silent _ ?_ (Or.inl (by rw [hs]; exact passed))
    rw [hlines]
    exact (Pipe.textLines_of_nothing hline hfill).2
  | left passed =>
    cases hstands with
    | leaving _ shut held bytes =>
      refine .silent _ ?_ (Or.inr (by rw [hs]; exact shut))
      rw [hlines]
      exact World.unread_of_empty held bytes
  | cut running passed =>
    cases hstands with
    | leaving _ shut held bytes =>
      refine .silent _ ?_ (Or.inr (by rw [hs]; exact shut))
      rw [hlines]
      exact World.unread_of_empty held bytes

/-- The waiting that has ended by some event ended with a poll before. -/
theorem after_ended {result : Except LinkError Hello}
    (h : (after timing w events).1 = .finished result) :
    ∃ past i rest, events = past ++ .poll i :: rest ∧ ¬ (after timing w past).1.Over ∧
      Ending timing w past result := by
  induction events using List.reverseRecOn with
  | nil => exact nomatch h
  | append_singleton past e ih =>
    have hstep := apply_cases timing (after timing w past) e
    rw [after_concat] at h
    by_cases hover : (after timing w past).1.Over
    · -- it had ended before, and with the same result
      obtain ⟨result', hpast⟩ := hover
      obtain rfl := Stage.finished.inj ((hstep.finished hpast).symm.trans h)
      obtain ⟨past', i, rest, rfl, hended⟩ := ih hpast
      exact ⟨past', i, rest ++ [e], by simp, hended⟩
    · have hkeeps : (after timing w past).1 ≠ .finished result := fun hr => hover ⟨result, hr⟩
      generalize apply timing (after timing w past) e = s' at hstep h
      generalize (World.new timing (after timing w past).2).deeds e = deeds at hstep
      cases hstep with
      | wait => exact absurd h hkeeps
      | @poll i stage' v' poll =>
        obtain rfl : stage' = .finished result := h
        exact ⟨past, i, [], rfl, hover, poll.ending⟩
      | wires => exact absurd h hkeeps

/-! ## What polling leads to -/

/-- While the waiting goes on, a blank line and bytes on their way go by, and only the output is
changed. -/
theorem poll_pass {q : Pipe} (h : v.output.Passes q) :
    poll timing v (.listening deadline) = some (.listening deadline, { v with output := q }) := by
  rcases h with ⟨hline, hfill⟩ | ⟨text, hread, hblank⟩
  · simp only [poll, hline, hfill]
  · simp only [poll, hread, hblank, if_true]

/-- The first line that is not blank ends the waiting, with what that line says. -/
theorem poll_take {q : Pipe} (hread : v.output.nextLine? = some (d, q)) (hd : d.isBlank = false) :
    poll timing v (.listening deadline) =
      some (.finished (verdict d), { v with output := q }) := by
  cases d with
  | line text =>
    have hinked : ¬ Text.isBlankText text = true := by simpa [Delivery.isBlank] using hd
    simp only [poll, hread, if_neg hinked, verdict]
  | unreadable fault => simp only [poll, hread, verdict]
  | ended => exact absurd hd (by decide)

/-- With nothing to read, a waiting whose time has passed ends as too late. -/
theorem poll_late (hline : v.output.nextLine? = none) (hfill : v.output.fill? = none)
    (hpassed : deadline ≤ v.now) :
    poll timing v (.listening deadline) = some (.finished (.error (tooLate timing)), v) := by
  simp only [poll, hline, hfill, if_pos hpassed]

/-- A waiting that looks after the error output of a kernel that is gone ends in any case once its
own time has passed. -/
theorem poll_leaving (timing : Timing) (endsAt : Nat) (hpassed : deadline ≤ v.now) :
    ∃ result v', poll timing v (.leaving deadline endsAt) = some (.finished result, v') := by
  simp only [poll, if_pos hpassed]
  split
  · exact ⟨_, _, rfl⟩
  · exact ⟨_, _, rfl⟩

theorem run_poll {n : Nat} {s s' : Stage × Wires} {next : Stage × Wires}
    (h : run timing s (List.replicate n (.poll 0)) = s') (hp : poll timing s'.2 s'.1 = some next) :
    run timing s (List.replicate (n + 1) (.poll 0)) = next := by
  rw [List.replicate_succ', run_append, h]
  show (poll timing s'.2 s'.1).getD s' = next
  rw [hp]
  rfl

/-- Polling ends the waiting if a line has come. Otherwise nothing is left to read but blanks, and
it goes on until the deadline, or until the end of the grace if there will be no line. -/
theorem listens_out (timing : Timing) (deadline : Nat) (v : Wires) :
    ∃ n stage' v', run timing (.listening deadline, v) (List.replicate n (.poll 0)) = (stage', v') ∧
      v'.now = v.now ∧
      ((∃ d ds, (World.new timing v).unread = d :: ds ∧ stage' = .finished (verdict d)) ∨
        (World.new timing v).unread = [] ∧
          (stage' = .leaving deadline (v.now + timing.stderrGrace) ∨
            stage' = .listening deadline ∧ v'.output.nextLine? = none ∧
              v'.output.fill? = none)) := by
  generalize hk : v.output.held.length + 2 * v.output.bytes.length = k
  induction k using Nat.strongRecOn generalizing v with
  | ind k ih =>
    rcases v.output.next_cases with ⟨hnext, hfill⟩ | ⟨q, hnext⟩ | ⟨d, q, hnext, hd, hlines⟩ |
      ⟨q, hpass, -, hlines, hless⟩
    · -- it has to wait for more
      refine ⟨0, _, _, rfl, rfl, Or.inr ⟨?_, Or.inr ⟨rfl, hnext, hfill⟩⟩⟩
      exact (Pipe.textLines_of_nothing hnext hfill).2
    · -- it meets the end of the output
      obtain ⟨-, hheld, hbytes⟩ := Pipe.textLines_of_ended hnext
      refine ⟨1, .leaving deadline (v.now + timing.stderrGrace), v, ?_, rfl,
        Or.inr ⟨World.unread_of_empty hheld hbytes, Or.inl rfl⟩⟩
      show ((poll timing v (.listening deadline)).getD (.listening deadline, v)) = _
      simp only [poll, hnext]
      rfl
    · refine ⟨1, .finished (verdict d), { v with output := q }, ?_, rfl, Or.inl ⟨d, _, hlines, rfl⟩⟩
      show ((poll timing v (.listening deadline)).getD (.listening deadline, v)) = _
      rw [poll_take hnext hd]
      rfl
    · -- it makes way for later lines, and less is left to read
      obtain ⟨n, stage', v', hrun, hnow, hends⟩ := ih _ (hk ▸ hless) { v with output := q } rfl
      refine ⟨n + 1, stage', v', ?_, hnow, ?_⟩
      · rw [List.replicate_succ]
        show run timing ((poll timing v (.listening deadline)).getD (.listening deadline, v)) _ = _
        rw [poll_pass hpass]
        exact hrun
      · have hsame : (World.new timing { v with output := q }).unread =
            (World.new timing v).unread := hlines
        rw [hsame] at hends
        exact hends

theorem after_polls (w : Wires) (past : List Event) (n : Nat) :
    after timing w (past ++ List.replicate n (.poll 0)) =
      run timing (after timing w past) (List.replicate n (.poll 0)) := after_append w past _

/-- Waiting that has not ended ends, as soon as it is polled often enough, with what is made of the
first line, once that has come. -/
theorem hears_out (hgoing : ¬ (after timing w past).1.Over)
    (hd : (heard timing w past).head? = some d) :
    ∃ n, (after timing w (past ++ List.replicate n (.poll 0))).1 = .finished (verdict d) := by
  obtain ⟨read, hstands, haccount⟩ := standing_after timing w past
  have hlines := heard_eq haccount
  simp only [after_polls]
  generalize after timing w past = s at hgoing hstands hlines ⊢
  obtain ⟨stage, v⟩ := s
  rw [hlines] at hd
  cases hstands with
  | listening =>
    -- no line was taken, so the first is still to be read
    obtain ⟨n, stage', v', hrun, -, ⟨d', ds, hunread, rfl⟩ | ⟨hunread, -⟩⟩ :=
      listens_out timing (expiry timing w) v
    · rw [show (World.new timing v).unread = d' :: ds from hunread] at hd
      obtain rfl := Option.some.inj hd
      exact ⟨n, by rw [hrun]⟩
    · rw [show (World.new timing v).unread = [] from hunread] at hd
      exact nomatch hd
  | leaving endsAt shut held bytes =>
    rw [World.unread_of_empty held bytes] at hd
    exact nomatch hd
  | judged => exact absurd ⟨_, rfl⟩ hgoing
  | silent => exact absurd ⟨_, rfl⟩ hgoing

/-- Once the deadline has come, it ends in any case: each poll reads a line or ends it, and there
are finitely many lines to be read. -/
theorem expires (hgoing : ¬ (after timing w past).1.Over)
    (hlate : expiry timing w ≤ (after timing w past).2.now) :
    ∃ n, (after timing w (past ++ List.replicate n (.poll 0))).1.Over := by
  obtain ⟨read, hstands, -⟩ := standing_after timing w past
  simp only [after_polls]
  generalize after timing w past = s at hgoing hstands hlate ⊢
  obtain ⟨stage, v⟩ := s
  cases hstands with
  | listening =>
    obtain ⟨n, stage', v', hrun, hnow, ⟨d, ds, -, rfl⟩ | ⟨-, rfl | ⟨rfl, hline, hfill⟩⟩⟩ :=
      listens_out timing (expiry timing w) v
    · exact ⟨n, verdict d, by rw [hrun]⟩
    · -- the deadline may come before the end of the grace, or after it
      obtain ⟨result, v'', hpoll⟩ := poll_leaving timing (v := v')
        (v.now + timing.stderrGrace) (hnow ▸ hlate)
      exact ⟨n + 1, result, by rw [run_poll hrun hpoll]⟩
    · exact ⟨n + 1, _, by rw [run_poll hrun (poll_late hline hfill (hnow ▸ hlate))]⟩
  | leaving endsAt =>
    obtain ⟨result, v', hpoll⟩ := poll_leaving timing endsAt hlate
    exact ⟨1, result, by rw [run_poll (n := 0) rfl hpoll]⟩
  | judged => exact absurd ⟨_, rfl⟩ hgoing
  | silent => exact absurd ⟨_, rfl⟩ hgoing

end KernelLink.Session.Handshake
