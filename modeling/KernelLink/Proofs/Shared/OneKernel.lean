import KernelLink.Proofs.Shared.Sharing
import Mathlib.Data.List.Induction
/-!
# One kernel, started once and closed for good

Starting, failing and closing race: whether a closing has begun is looked at before the kernel is
wanted, a closing may itself settle that there will be no kernel, and a kernel that is being started
while a closing begins is still delivered. Whatever the order of these steps, for any number of
operations, there is at most one start; all operations that get a kernel get that one; and no kernel
outlives a closing that has returned.

An operation *begins* with its first poll (`Began`); before that it has done nothing.

Main definitions:
* `Began`: an operation has begun.
* `OneKernel`: what holds of every run.

Main results:
* `closed_iff`: operations are turned away as soon as a closing has begun.
* `one_kernel`: `OneKernel` holds of every run.
-/
namespace KernelLink.Shared.World

variable {w w' : World} {id i : Nat} {deed : Deed} {stage : Stage}

/-! ## Beginning -/

/-- An operation begins after `past`: it is polled for the first time. -/
def Begins (events past : List Event) (id : Nat) (deed : Deed) : Prop :=
  ∃ later, events = past ++ .poll id :: later ∧ (new.run past).task? id = some ⟨deed, .fresh⟩

/-- An operation has begun. -/
def Began (events : List Event) (id : Nat) (deed : Deed) : Prop :=
  ∃ past, Begins events past id deed

theorem Move.closed_mono {e : Event} (move : Move w e w') (h : w.closed = true) :
    w'.closed = true := by
  cases move with
  | mark => rfl
  | _ => exact h

/-- Only the beginning of a closing lets it be known, and it is the first step of it. -/
theorem Move.closed_cases {e : Event} (move : Move w e w') (h : w'.closed = true) :
    w.closed = true ∨ ∃ id, e = .poll id ∧ w.task? id = some ⟨.close, .fresh⟩ := by
  cases move with
  | mark task => exact .inr ⟨_, rfl, task⟩
  | _ => exact .inl h

theorem closed_of (h : w.closed = true) (events : List Event) : (w.run events).closed = true := by
  induction events generalizing w with
  | nil => exact h
  | cons e events ih => exact ih ((apply_cases w e).closed_mono h)

/-- Operations are turned away as soon as a closing has begun, and not before; by induction from the
last event. -/
theorem closed_iff (events : List Event) :
    (new.run events).closed = true ↔ ∃ closer, Began events closer .close := by
  constructor
  · intro h
    induction events using List.reverseRecOn with
    | nil => cases h
    | append_singleton events e ih =>
      rw [run_concat] at h
      rcases (apply_cases _ e).closed_cases h with hold | ⟨closer, rfl, task⟩
      · obtain ⟨closer, past, later, rfl, task⟩ := ih hold
        exact ⟨closer, past, later ++ [e], by simp, task⟩
      · exact ⟨closer, events, [], rfl, task⟩
  · rintro ⟨closer, past, later, rfl, task⟩
    have happly : (new.run past).apply (.poll closer) =
        ({ new.run past with closed := true } : World).goOn closer .wanting := apply_fresh task
    have hclosed : ((new.run past).apply (.poll closer)).closed = true := by
      rw [happly]
      rfl
    rw [run_append]
    exact closed_of hclosed later

/-! ## The result of a closing -/

/-- Who is found after an operation got further is that operation, or was found before. -/
theorem task?_goOn_cases {v : World} {d : Deed} {before after : Stage}
    (hv : v.tasks = w.tasks) (task : w.task? id = some ⟨d, before⟩)
    (h : (v.goOn id after).task? i = some ⟨deed, stage⟩) :
    i = id ∧ deed = d ∧ stage = after ∨ w.task? i = some ⟨deed, stage⟩ := by
  have htask : v.task? id = some ⟨d, before⟩ := by rwa [task?, hv]
  rw [task?_goOn htask] at h
  by_cases hi : i = id
  · rw [if_pos hi, Option.some.injEq, Task.mk.injEq] at h
    exact .inl ⟨hi, h.1.symm, h.2.symm⟩
  · rw [if_neg hi, task?, hv] at h
    exact .inr h

/-- A closing gives nothing, or what the kernel gave when it was told to close. -/
theorem Move.closing_result {e : Event} {result : Result} (move : Move w e w') (h : Sharing w)
    (hr : w'.task? i = some ⟨.close, .finished result⟩) :
    w.task? i = some ⟨.close, .finished result⟩ ∨ result = .ok .nothing ∨
      ∃ given, e = .ended i given ∧ result = given.map fun _ => .nothing := by
  -- an operation that is no closing, or goes on without a result, is not the one
  have hold : ∀ {v : World} {id : Nat} {d : Deed} {before after : Stage}, v.tasks = w.tasks →
      w.task? id = some ⟨d, before⟩ → (d ≠ .close ∨ ∀ r, after ≠ .finished r) →
      (v.goOn id after).task? i = some ⟨.close, .finished result⟩ →
      w.task? i = some ⟨.close, .finished result⟩ := by
    intro v id d before after hv task hother hi
    rcases task?_goOn_cases hv task hi with ⟨-, hd, hs⟩ | hold
    · rcases hother with hne | hne
      · exact absurd hd.symm hne
      · exact absurd hs.symm (hne result)
    · exact hold
  cases move with
  | idle => exact .inl hr
  | begin id deed fresh =>
    rw [task?_begin fresh] at hr
    by_cases hi : i = id
    · simp [hi] at hr
    · rw [if_neg hi] at hr
      exact .inl hr
  | refuse task uses => exact .inl (hold rfl task (.inl uses) hr)
  | pass task => exact .inl (hold rfl task (.inr (by simp)) hr)
  | mark task => exact .inl (hold (v := { w with closed := true }) rfl task (.inr (by simp)) hr)
  | start task uses =>
    exact .inl (hold (v := { w with cell := _, starts := _ }) rfl task (.inl uses) hr)
  | forestall => exact .inl hr
  | fail task uses => exact .inl (hold rfl task (.inl uses) hr)
  | spare task =>
    rcases task?_goOn_cases rfl task hr with ⟨-, -, hs⟩ | hold
    · cases hs
      exact .inr (.inl rfl)
    · exact .inl hold
  | tell task => exact .inl (hold (v := { w with closings := _ }) rfl task (.inr (by simp)) hr)
  | there task => exact .inl (hold rfl task (.inl (by simp)) hr)
  | version task => exact .inl (hold rfl task (.inl (by simp)) hr)
  | ask task => exact .inl (hold (v := { w with asked := _ }) rfl task (.inl (by simp)) hr)
  | started _ cell =>
    obtain ⟨_, task⟩ := h.starter _ cell
    exact .inl (hold (v := { w with cell := _ }) rfl task (.inr (by simp)) hr)
  | replied _ task => exact .inl (hold rfl task (.inl (by simp)) hr)
  | ended given task =>
    rcases task?_goOn_cases rfl task hr with ⟨rfl, -, hs⟩ | hold
    · cases hs
      exact .inr (.inr ⟨given, rfl, rfl⟩)
    · exact .inl hold

/-! ## A start that fails -/

/-- A failure to start is told as such, unless it is that of a closing. -/
theorem failure_of_ne {cause : LinkError} (h : cause ≠ .closed) :
    failure cause = .initialization cause := by
  cases cause with
  | closed => exact absurd rfl h
  | _ => rfl

/-- An operation that has passed the first look, when the kernel cannot be started for `cause`: it
wants the kernel, or starts it, or has failed. -/
def Doomed (w : World) (id : Nat) (deed : Deed) (cause : LinkError) : Prop :=
  ∃ stage, w.task? id = some ⟨deed, stage⟩ ∧
    (stage = .wanting ∨ stage = .starting ∨ stage = .finished (.error (.initialization cause)))

/-- When an operation goes on, a doomed one stays doomed: it is another one, or this one at a stage
that it can come to. -/
theorem Doomed.goOn {cause : LinkError} {v : World} {id : Nat} {d : Deed} {before after : Stage}
    (hd : w.Doomed i deed cause) (hv : v.tasks = w.tasks)
    (task : w.task? id = some ⟨d, before⟩)
    (hafter : i = id → after = .wanting ∨ after = .starting ∨
      after = .finished (.error (.initialization cause))) :
    (v.goOn id after).Doomed i deed cause := by
  obtain ⟨stage, ht, hs⟩ := hd
  have htask : v.task? id = some ⟨d, before⟩ := by rwa [task?, hv]
  rw [Doomed, task?_goOn htask]
  by_cases hi : i = id
  · subst hi
    rw [task, Option.some.injEq, Task.mk.injEq] at ht
    rw [if_pos rfl, ht.1]
    exact ⟨after, rfl, hafter rfl⟩
  · rw [if_neg hi, task?, hv]
    exact ⟨stage, ht, hs⟩

/-- An operation at another stage is another one. -/
theorem Doomed.other {cause : LinkError} {id : Nat} {d : Deed} {before : Stage}
    (hd : w.Doomed i deed cause) (task : w.task? id = some ⟨d, before⟩)
    (hw : before ≠ .wanting) (hst : before ≠ .starting)
    (hf : ∀ result, before ≠ .finished result) : i ≠ id := by
  rintro rfl
  obtain ⟨stage, ht, hs⟩ := hd
  rw [task, Option.some.injEq, Task.mk.injEq] at ht
  rcases hs with rfl | rfl | rfl
  · exact hw ht.2
  · exact hst ht.2
  · exact hf _ ht.2

/-- A doomed operation stays doomed while there is no kernel; the cases are the moves, of which only
its own touch it. -/
theorem Doomed.step {cause : LinkError} {e : Event} (h : Sharing w) (uses : deed ≠ .close)
    (fatal : cause ≠ .closed) (hcell : ∀ slot, w.cell = .settled slot → slot = .error cause)
    (hd : w.Doomed i deed cause) (move : Move w e w') : w'.Doomed i deed cause := by
  -- the rules for a kernel that is there do not apply, as the cell never holds one
  have settled : ∀ {kernel : Started}, w.cell = .settled (.ok kernel) → False := by
    intro kernel hk
    cases hcell _ hk
  cases move with
  | idle => exact hd
  | begin id d fresh =>
    obtain ⟨stage, ht, hs⟩ := hd
    have hne : i ≠ id := by
      rintro rfl
      rw [fresh] at ht
      cases ht
    rw [Doomed, task?_begin fresh, if_neg hne]
    exact ⟨stage, ht, hs⟩
  | refuse task =>
    exact hd.goOn rfl task (fun hi => absurd hi (hd.other task (by simp) (by simp) (by simp)))
  | pass task => exact hd.goOn rfl task (fun _ => .inl rfl)
  | mark task => exact hd.goOn (v := { w with closed := true }) rfl task (fun _ => .inl rfl)
  | start task =>
    exact hd.goOn (v := { w with cell := _, starts := _ }) rfl task (fun _ => .inr (.inl rfl))
  | forestall => exact hd
  | @fail id d why task _ cell =>
    -- its own failure: the cause is the one in the cell, and it is not the one for closing
    have hwhy : why = cause := by
      have := hcell _ cell
      rwa [Except.error.injEq] at this
    refine hd.goOn rfl task (fun _ => .inr (.inr ?_))
    rw [hwhy, failure_of_ne fatal]
  | spare task =>
    refine hd.goOn rfl task (fun hi => ?_)
    obtain ⟨stage, ht, -⟩ := hd
    rw [← hi, ht, Option.some.injEq, Task.mk.injEq] at task
    exact absurd task.1 uses
  | tell _ cell => exact (settled cell).elim
  | there _ cell => exact (settled cell).elim
  | version _ cell => exact (settled cell).elim
  | ask _ cell => exact (settled cell).elim
  | started _ cell =>
    obtain ⟨_, task⟩ := h.starter _ cell
    exact hd.goOn (v := { w with cell := _ }) rfl task (fun _ => .inl rfl)
  | replied _ task =>
    exact hd.goOn rfl task (fun hi => absurd hi (hd.other task (by simp) (by simp) (by simp)))
  | ended _ task =>
    exact hd.goOn rfl task (fun hi => absurd hi (hd.other task (by simp) (by simp) (by simp)))

/-- An operation that wants the kernel, or has failed for want of it, is never given one if the cell
ends up settled with a failure. Induction on the events, with the cell already settled or not. -/
theorem Doomed.run {cause : LinkError} (h : Sharing w) (uses : deed ≠ .close)
    (fatal : cause ≠ .closed) (hd : w.Doomed i deed cause) (events : List Event)
    (hcell : (w.run events).cell = .settled (.error cause)) :
    (w.run events).Doomed i deed cause := by
  induction events generalizing w with
  | nil => exact hd
  | cons e events ih =>
    refine ih ((apply_cases w e).sharing h) (hd.step h uses fatal ?_ (apply_cases w e)) hcell
    intro slot hs
    have := (settled_run hs (e :: events)).1
    rw [hcell, Cell.settled.injEq] at this
    exact this.symm

/-- Once the start has failed, such an operation has failed with it, or does at its next poll. -/
theorem Doomed.poll {cause : LinkError} (h : Sharing w) (uses : deed ≠ .close)
    (fatal : cause ≠ .closed) (hd : w.Doomed i deed cause)
    (hcell : w.cell = .settled (.error cause)) :
    (w.apply (.poll i)).result? i = some (.error (.initialization cause)) := by
  obtain ⟨stage, ht, rfl | rfl | rfl⟩ := hd
  · have hreceive : w.receive i deed (.error cause) = w.finish i (.error (failure cause)) := by
      cases deed with
      | close => exact absurd rfl uses
      | _ => rfl
    rw [apply_settled ht hcell, hreceive, failure_of_ne fatal]
    exact result?_finish ht _
  · have hstarting : w.cell = .starting i := h.fits i deed _ ht
    rw [hcell] at hstarting
    cases hstarting
  · exact result?_run h (result?_eq_some.2 ⟨_, ht⟩) [.poll i]

/-! ## Every run -/

/-- The kernel that everything is done with. -/
structure Uses (w : World) (kernel : Started) : Prop where
  /-- Whoever wants a kernel now gets this one. -/
  cell : ∀ other, w.cell = .settled (.ok other) → other = kernel
  /-- All requests went to it. -/
  asked : ∀ entry ∈ w.asked, entry.1 = kernel.number
  /-- No other kernel was told to close. -/
  closings : ∀ number ∈ w.closings, number = kernel.number
  /-- Calls wait for its replies. -/
  asking : ∀ id deed other, w.task? id = some ⟨deed, .asking other⟩ → other = kernel
  /-- Closings wait for its end. -/
  closing : ∀ id deed other, w.task? id = some ⟨deed, .closing other⟩ → other = kernel
  /-- The version that is told is its version. -/
  versions : ∀ id text, w.result? id = some (.ok (.version text)) → text = kernel.version

/-- What holds of every run, whatever it consists of. -/
structure OneKernel (events : List Event) : Prop where
  /-- The kernel is started at most once. -/
  once : (new.run events).starts ≤ 1
  /-- It is never started if a closing is the first to want it. -/
  forestalled : ∀ past closer later, events = past ++ .poll closer :: later →
    (new.run past).task? closer = some ⟨.close, .wanting⟩ → (new.run past).cell = .empty →
    (new.run events).starts = 0
  /-- All operations get the same kernel, at every moment. -/
  same : ∃ kernel, ∀ past, past <+: events → (new.run past).Uses kernel
  /-- If it cannot be started, nobody tries again, and every operation that began before any closing
  has failed for that cause, or does so at its next poll. -/
  failed : ∀ past starter cause later, events = past ++ .started starter (.error cause) :: later →
    (new.run past).cell = .starting starter → cause ≠ .closed →
    (new.run events).starts = 1 ∧ ∀ before id deed, Begins events before id deed →
      deed ≠ .close → (∀ closer, ¬ Began before closer .close) →
      (∀ result, (new.run events).result? id = some result →
        result = .error (.initialization cause)) ∧
      (new.run (events ++ [.poll id])).result? id = some (.error (.initialization cause))
  /-- Every operation but a closing that begins after a closing has begun fails because of it. -/
  late : ∀ before id deed, Begins events before id deed → deed ≠ .close →
    (∃ closer, Began before closer .close) → (new.run events).result? id = some (.error .closed)
  /-- A closing gives nothing, or what the kernel gave when it was told to close. -/
  closings : ∀ id result, (new.run events).task? id = some ⟨.close, .finished result⟩ →
    result = .ok .nothing ∨
      ∃ given, .ended id given ∈ events ∧ result = given.map fun _ => .nothing
  /-- When a closing has returned, the kernel was told to close or there is none, and there never
  will be another one. -/
  released : ∀ id result, (new.run events).task? id = some ⟨.close, .finished result⟩ →
    ∀ later, (new.run (events ++ later)).Released ∧
      (new.run (events ++ later)).starts = (new.run events).starts

/-- If at most one kernel is in the cell, all that ask one ask that one. -/
theorem Sharing.uses {kernel : Started} (h : Sharing w)
    (hcell : ∀ other, w.cell = .settled (.ok other) → other = kernel) : w.Uses kernel where
  cell := hcell
  asked := by
    intro entry he
    obtain ⟨other, hother, hn⟩ := h.asked entry he
    rw [← hn, hcell other hother]
  closings := by
    intro number hn
    obtain ⟨other, hother, hn⟩ := h.closings number hn
    rw [← hn, hcell other hother]
  asking id deed other ht := hcell other (h.fits id deed _ ht)
  closing id deed other ht := hcell other (h.fits id deed _ ht).1
  versions := by
    intro id text hr
    obtain ⟨deed, ht⟩ := result?_eq_some.1 hr
    obtain ⟨other, hother, hv⟩ := (h.fits id deed _ ht).2 text rfl
    rw [← hv, hcell other hother]

/-- The kernel of a run is the one that is there at the end. -/
theorem uses_run (events : List Event) :
    ∃ kernel, ∀ past, past <+: events → (new.run past).Uses kernel := by
  by_cases h : ∃ kernel, (new.run events).cell = .settled (.ok kernel)
  · obtain ⟨kernel, hk⟩ := h
    refine ⟨kernel, fun past hpast => (sharing_run past).uses fun other hother => ?_⟩
    obtain ⟨later, rfl⟩ := hpast
    have hlast := (settled_run hother later).1
    rw [← run_append, hk, Cell.settled.injEq, Except.ok.injEq] at hlast
    exact hlast.symm
  · refine ⟨⟨0, ""⟩, fun past hpast => (sharing_run past).uses fun other hother => ?_⟩
    obtain ⟨later, rfl⟩ := hpast
    refine absurd ⟨other, ?_⟩ h
    rw [run_append]
    exact (settled_run hother later).1

/-- If a closing settles the empty cell, no kernel is ever started: before it there was no start,
and afterwards the cell is settled. -/
theorem forestalled_run (past later : List Event) {closer : Nat}
    (task : (new.run past).task? closer = some ⟨.close, .wanting⟩)
    (empty : (new.run past).cell = .empty) :
    (new.run (past ++ .poll closer :: later)).starts = 0 := by
  have hstarts := (sharing_run past).starts_of_empty empty
  have happly : (new.run past).apply (.poll closer) =
      { new.run past with cell := .settled (.error .closed) } := by
    simp [apply, poll, task, want, empty]
  have hsettled : ((new.run past).apply (.poll closer)).cell = .settled (.error .closed) := by
    rw [happly]
  rw [run_append]
  refine (settled_run hsettled later).2.trans ?_
  rw [happly]
  exact hstarts

/-- An operation that begins while no closing has begun passes the first look. -/
theorem Begins.passes {events before : List Event} (h : Begins events before id deed)
    (uses : deed ≠ .close) (early : ∀ closer, ¬ Began before closer .close) (cause : LinkError) :
    (new.run (before ++ [.poll id])).Doomed id deed cause := by
  obtain ⟨_, -, task⟩ := h
  have hgoing : (new.run before).closed ≠ true := by
    intro hclosed
    obtain ⟨closer, hcloser⟩ := (closed_iff before).1 hclosed
    exact early closer hcloser
  have hlook : (new.run before).look id deed = (new.run before).goOn id .wanting := by
    cases deed with
    | close => exact absurd rfl uses
    | _ => exact if_neg hgoing
  rw [run_concat, apply_fresh task, hlook]
  refine ⟨.wanting, ?_, .inl rfl⟩
  rw [task?_goOn task, if_pos rfl]

/-- If the start fails, the failure stays in the cell and there is no other start. -/
theorem failed_run (past later : List Event) {starter : Nat} {cause : LinkError}
    (cell : (new.run past).cell = .starting starter) :
    (new.run (past ++ .started starter (.error cause) :: later)).cell = .settled (.error cause) ∧
      (new.run (past ++ .started starter (.error cause) :: later)).starts = 1 := by
  have hstarts := (sharing_run past).starts_of_starting cell
  have happly : (new.run past).apply (.started starter (.error cause)) =
      ({ new.run past with cell := .settled (.error cause) } : World).goOn starter .wanting := by
    simp [apply, World.started, cell, Except.map]
  have hsettled : ((new.run past).apply (.started starter (.error cause))).cell =
      .settled (.error cause) := by
    rw [happly]
    rfl
  rw [run_append]
  obtain ⟨hcell, hcount⟩ := settled_run hsettled later
  refine ⟨hcell, hcount.trans ?_⟩
  rw [happly]
  exact hstarts

/-- An operation that begins after a closing has begun is turned away. -/
theorem Begins.refused {events before : List Event} (h : Begins events before id deed)
    (uses : deed ≠ .close) (late : ∃ closer, Began before closer .close) :
    (new.run events).result? id = some (.error .closed) := by
  obtain ⟨later, rfl, task⟩ := h
  have hlook : (new.run before).look id deed = (new.run before).finish id (.error .closed) := by
    cases deed with
    | close => exact absurd rfl uses
    | _ => exact if_pos ((closed_iff before).2 late)
  have hresult : ((new.run before).apply (.poll id)).result? id = some (.error .closed) := by
    rw [apply_fresh task, hlook]
    exact result?_finish task _
  rw [run_append]
  exact result?_run ((apply_cases _ _).sharing (sharing_run before)) hresult later

/-- A closing succeeds without a kernel, or gives what ending the kernel gave. Induction on the
events from the end; the last one is what may have ended it. -/
theorem closing_result_run (events : List Event) {result : Result}
    (h : (new.run events).task? id = some ⟨.close, .finished result⟩) :
    result = .ok .nothing ∨
      ∃ given, .ended id given ∈ events ∧ result = given.map fun _ => .nothing := by
  induction events using List.reverseRecOn with
  | nil => cases h
  | append_singleton events e ih =>
    rw [run_concat] at h
    have hcases := (apply_cases _ e).closing_result (sharing_run events) h
    rcases hcases with hold | hnone | ⟨given, he, hr⟩
    · rcases ih hold with hnone | ⟨given, hmem, hr⟩
      · exact .inl hnone
      · exact .inr ⟨given, List.mem_append_left _ hmem, hr⟩
    · exact .inl hnone
    · exact .inr ⟨given, by simp [he], hr⟩

/-- In every run, whatever the order of its steps, there is one kernel, started once and closed for
good. -/
theorem one_kernel (events : List Event) : OneKernel events where
  once := (sharing_run events).counted.le_one
  forestalled := by
    rintro past closer later rfl task empty
    exact forestalled_run past later task empty
  same := uses_run events
  failed := by
    rintro past starter cause later hevents cell fatal
    have hfailed : (new.run events).cell = .settled (.error cause) ∧
        (new.run events).starts = 1 := by
      rw [hevents]
      exact failed_run past later cell
    refine ⟨hfailed.2, fun before id deed begins uses early => ?_⟩
    -- it has passed the first look, so it can only want the kernel, start it or have failed
    have hdoomed : (new.run events).Doomed id deed cause := by
      have hpassed := begins.passes uses early cause
      obtain ⟨after, hsplit, -⟩ := begins
      have hrest : new.run events = (new.run (before ++ [.poll id])).run after := by
        rw [← run_append, hsplit, List.append_assoc, List.singleton_append]
      rw [hrest] at hfailed ⊢
      exact hpassed.run (sharing_run _) uses fatal after hfailed.1
    have hpoll : (new.run (events ++ [.poll id])).result? id =
        some (.error (.initialization cause)) := by
      rw [run_concat]
      exact hdoomed.poll (sharing_run events) uses fatal hfailed.1
    refine ⟨fun result hr => ?_, hpoll⟩
    have hkept := result?_run (sharing_run events) hr [.poll id]
    rw [← run_append, hpoll, Option.some.injEq] at hkept
    exact hkept.symm
  late before id deed begins uses closing := begins.refused uses closing
  closings id result h := closing_result_run events h
  released := by
    intro id result h later
    obtain ⟨slot, hcell, htold⟩ := ((sharing_run events).fits id .close _ h).1 rfl
    obtain ⟨hlast, hstarts⟩ := settled_run hcell later
    rw [← run_append] at hlast hstarts
    refine ⟨⟨slot, hlast, fun kernel hk => ?_⟩, hstarts⟩
    have htold := htold kernel hk
    rw [run_append]
    exact closings_run _ later htold

/-- Closing twice. -/
def closedTwice : List Event :=
  [.begin 0 .close, .poll 0, .poll 0, .poll 0, .begin 1 .close, .poll 1, .poll 1]

/-- A closing that begins after a closing has begun does not fail because of it: it finds that there
is nothing to do. -/
theorem second_closing_succeeds :
    ∃ before, Begins closedTwice before 1 .close ∧ (∃ closer, Began before closer .close) ∧
      (new.run closedTwice).result? 1 = some (.ok .nothing) :=
  ⟨[.begin 0 .close, .poll 0, .poll 0, .poll 0, .begin 1 .close], ⟨[.poll 1], rfl, rfl⟩,
    ⟨0, [.begin 0 .close], [.poll 0, .poll 0, .begin 1 .close], rfl, rfl⟩, rfl⟩

end KernelLink.Shared.World
