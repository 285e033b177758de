import KernelLink.Proofs.Plan.Runs
import KernelLink.Proofs.Session.Closing
import KernelLink.Proofs.Session.Listening
import KernelLink.Session.Engine
/-!
# A conversation that is played out is a run of the link

The engine chooses one schedule out of all. Whatever it does to a link can be written down as a list
of events, as long as the other side reaches the link through the kernel's ends of the pipes alone;
so what is proved of every run of the link holds of everything that is played out.

What happens to the wires alone is collected first, since the waiting for a greeting and the link
after it share their wires. The loops of the engine are gone through once, for any relation that
each thing brings about which is done; that it is a run of the link is one such relation, and what
becomes of the other side is another.

Main definitions:
* `Event.flows`, `Wires.Flows`: what happens to the wires alone.
* `Backend.Faithful`: the other side has only the kernel's ends of the pipes.
* `Scene.Course`: a relation that each thing brings about which is done.
* `Event.begins`, `Scene.Plays`: what is done between two scenes is a run that begins no task.

Main results:
* `greet_run`: waiting for a greeting in time is a run of the waiting.
* `World.run_fresh`: a run that begins no task leaves the free numbers free.
* `Scene.Course.runUntil`: playing on brings about what each thing does.
* `Scene.course_plays`: whatever is done is a run of the link.
-/
namespace KernelLink.Session

open Plan (nextDue patience)

/-! ## The wires alone -/

/-- Does it happen to the wires alone? -/
def Event.flows : Event → Bool
  | .pass _ | .kernelWrites _ | .kernelReports _ | .kernelTakes _ | .kernelClosesInput
  | .kernelClosesOutput | .kernelClosesErrors | .capture => true
  | .call .. | .close _ | .poll _ | .giveUp _ | .abandon _ | .answer .. => false

/-- The wires after an event, when there is nothing else that it could happen to. -/
def Wires.after (v : Wires) (e : Event) : Wires := ((World.new .standard v).apply e).wires

/-- The wires come from one state to another by events that happen to them alone. -/
def Wires.Flows (v v' : Wires) : Prop :=
  ∃ events : List Event, (∀ e ∈ events, e.flows = true) ∧ events.foldl Wires.after v = v'

/-- Such an event does the same to the wires of every link, and nothing else to the link. -/
theorem World.apply_flows {e : Event} (h : e.flows = true) (w : World) :
    w.apply e = { w with wires := w.wires.after e } := by
  cases e <;> first | rfl | exact absurd h Bool.false_ne_true

/-- Nor does it touch the waiting for a greeting, whose wires it changes in the same way. -/
theorem Handshake.apply_flows {e : Event} (h : e.flows = true) (timing : Timing)
    (s : Handshake.Stage × Wires) : Handshake.apply timing s e = (s.1, s.2.after e) := by
  cases e <;> first | rfl | exact absurd h Bool.false_ne_true

/-- Events that happen to the wires alone lead a link to itself with other wires: by induction on
the events, each of which does so. -/
theorem World.run_flows (events : List Event) (h : ∀ e ∈ events, e.flows = true) (w : World) :
    w.run events = { w with wires := events.foldl Wires.after w.wires } := by
  induction events generalizing w with
  | nil => rfl
  | cons e events ih =>
    show (w.apply e).run events = _
    rw [World.apply_flows (h e List.mem_cons_self) w,
      ih fun d hd => h d (List.mem_cons_of_mem _ hd)]
    rfl

/-- They lead the waiting for a greeting to the same stage of it. -/
theorem Handshake.run_flows (timing : Timing) (events : List Event)
    (h : ∀ e ∈ events, e.flows = true) (s : Handshake.Stage × Wires) :
    Handshake.run timing s events = (s.1, events.foldl Wires.after s.2) := by
  induction events generalizing s with
  | nil => rfl
  | cons e events ih =>
    show Handshake.run timing (Handshake.apply timing s e) events = _
    rw [Handshake.apply_flows (h e List.mem_cons_self) timing s,
      ih fun d hd => h d (List.mem_cons_of_mem _ hd)]
    rfl

namespace Wires

variable {v v' v'' : Wires}

theorem Flows.refl (v : Wires) : v.Flows v := ⟨[], by simp, rfl⟩

theorem Flows.trans (h : v.Flows v') (h' : v'.Flows v'') : v.Flows v'' := by
  obtain ⟨events, hevents, rfl⟩ := h
  obtain ⟨more, hmore, rfl⟩ := h'
  refine ⟨events ++ more, fun e he => ?_, List.foldl_append⟩
  exact (List.mem_append.mp he).elim (hevents e) (hmore e)

/-- One event is enough to show that something flows, if it is of the kind that no caller makes. -/
theorem Flows.of_event {e : Event} (h : e.flows = true) (hv : v.after e = v') : v.Flows v' :=
  ⟨[e], fun _ he => List.mem_singleton.mp he ▸ h, hv⟩

/-- What the background reader does is an event of the link, and nobody calls for it. -/
theorem Flows.capture (h : v.captureStep = some v') : v.Flows v' := by
  refine .of_event (e := .capture) rfl ?_
  show v.captureStep.getD v = v'
  rw [h]
  rfl

/-- Moving the clock forward lets time pass, as much as lies between the two instants. -/
theorem Flows.moveTo {t : Nat} (h : v.now ≤ t) : v.Flows (moveTo t v) := by
  refine .of_event (e := .pass (t - v.now)) rfl ?_
  show { v with now := v.now + (t - v.now) } = { v with now := t }
  rw [Nat.add_sub_cancel' h]

end Wires

/-! ## The other side -/

variable {σ : Type}

/-- The other side has the kernel's ends of the pipes and nothing else: neither what the kernel does
nor what its manager is asked changes the wires in any other way than by events of the link. -/
structure Backend.Faithful (b : Backend σ) : Prop where
  /-- The kernel does something. -/
  act : ∀ {v : Wires} {s p}, b.act v s = some p → v.Flows p.1
  /-- A command is begun. -/
  start : ∀ now c (v : Wires) s, v.Flows (b.manager.start now c (v, s)).1
  /-- A command is looked at. -/
  look : ∀ since now c (v : Wires) s, v.Flows (b.manager.look since now c (v, s)).2.1

/-- Whatever the other side does, and whatever its manager is asked, leads from one of its states to
another one in some way. -/
structure Backend.Leads (b : Backend σ) (K : σ → σ → Prop) : Prop where
  /-- Nothing is done. -/
  refl : ∀ r, K r r
  /-- One thing is done after another. -/
  trans : ∀ {r r' r''}, K r r' → K r' r'' → K r r''
  /-- The kernel does something. -/
  act : ∀ {v r p}, b.act v r = some p → K r p.2
  /-- A command is begun. -/
  start : ∀ now c v r, K r (b.manager.start now c (v, r)).2
  /-- A command is looked at. -/
  look : ∀ since now c v r, K r (b.manager.look since now c (v, r)).2.2

variable {b : Backend σ}

/-- The kernel does something, or it has nothing to do and the background reader goes on. -/
theorem actOnce_flows (hb : b.Faithful) {s s' : Wires × σ} (h : actOnce b s = some s') :
    s.1.Flows s'.1 := by
  unfold actOnce at h
  split at h
  · next p hact =>
    cases h
    exact hb.act hact
  · obtain ⟨v, hv, rfl⟩ := Option.map_eq_some_iff.mp h
    exact .capture hv

/-- Doing all that can be done is one thing after another, and each of these flows. -/
theorem actAll_flows (hb : b.Faithful) (fuel : Nat) (s : Wires × σ) :
    s.1.Flows (actAll b fuel s).1 := by
  induction fuel generalizing s with
  | zero => exact .refl _
  | succ fuel ih =>
    rw [actAll]
    split
    · next s' hact => exact (actOnce_flows hb hact).trans (ih s')
    · exact .refl _

/-- The clockwork of a faithful other side only ever lets the wires flow on. -/
theorem clockwork_keeps (hb : b.Faithful) (v : Wires) :
    (clockwork b).Keeps fun s => v.Flows s.1 where
  start now c s hs := hs.trans (hb.start now c s.1 s.2)
  look since now c s hs := hs.trans (hb.look since now c s.1 s.2)
  settle s hs := hs.trans (actAll_flows hb patience s)
  moveTo _ _ hlt hs := hs.trans (.moveTo (Nat.le_of_lt hlt))

/-- Carrying out a plan of process control happens to the wires alone. -/
theorem runPlan_flows (hb : b.Faithful) {α : Type} (plan : Control.Routine α) (s : Wires × σ) :
    s.1.Flows (runPlan b plan s).2.1 :=
  (clockwork_keeps hb s.1).runIn plan (.refl s.1)

/-! ## Waiting for the greeting -/

/-- Waiting for a greeting in time is a run of the waiting. What it gives is what the run has ended
with, or the error that no greeting came, when nothing is due any more. The induction is on how
often the wires may still be looked at; each round is what the other side can do, and then a poll or
a move of the clock. -/
theorem greet_run (hb : b.Faithful) (timing : Timing) (fuel : Nat) (stage : Handshake.Stage)
    (s : Wires × σ) :
    ∃ events stage', Handshake.run timing (stage, s.1) events =
        (stage', (greet b timing fuel stage s).2.1) ∧
      (stage' = .finished (greet b timing fuel stage s).1 ∨
        (greet b timing fuel stage s).1 = .error (Handshake.tooLate timing)) := by
  -- what happens to the wires first can be put in front of any run
  have hfirst : ∀ {v : Wires} {stage'} {v' : Wires} (stage : Handshake.Stage) (events)
      {v₀ : Wires}, v₀.Flows v → Handshake.run timing (stage, v) events = (stage', v') →
      ∃ events, Handshake.run timing (stage, v₀) events = (stage', v') := by
    rintro v stage' v' stage events v₀ ⟨before, hflows, rfl⟩ hrun
    refine ⟨before ++ events, ?_⟩
    rw [Handshake.run_append, Handshake.run_flows timing before hflows]
    exact hrun
  induction fuel generalizing stage s with
  | zero => exact ⟨[], stage, rfl, Or.inr rfl⟩
  | succ fuel ih =>
    have hacted := actAll_flows hb patience s
    unfold greet
    generalize actAll b patience s = s' at hacted
    split
    · next result =>
      obtain ⟨events, hrun⟩ := hfirst (.finished result) [] hacted rfl
      exact ⟨events, _, hrun, Or.inl rfl⟩
    · dsimp only
      split
      · next stage' v hpoll =>
        obtain ⟨events, stage'', hrun, hends⟩ := ih stage' (v, s'.2)
        have hpolled : Handshake.run timing (stage, s'.1) (.poll 0 :: events) =
            (stage'', (greet b timing fuel stage' (v, s'.2)).2.1) := by
          show Handshake.run timing ((Handshake.poll timing s'.1 stage).getD _) events = _
          rw [hpoll]
          exact hrun
        obtain ⟨events, hrun⟩ := hfirst stage _ hacted hpolled
        exact ⟨events, stage'', hrun, hends⟩
      · split
        · next t hdue =>
          obtain ⟨events, stage'', hrun, hends⟩ := ih stage (moveTo t s'.1, s'.2)
          have hmoved : s.1.Flows (moveTo t s'.1) :=
            hacted.trans (.moveTo (Nat.le_of_lt (Plan.lt_of_nextDue hdue)))
          obtain ⟨events, hrun⟩ := hfirst stage _ hmoved hrun
          exact ⟨events, stage'', hrun, hends⟩
        · obtain ⟨events, hrun⟩ := hfirst stage [] hacted rfl
          exact ⟨events, _, hrun, Or.inr rfl⟩

/-! ## Free numbers -/

/-- Does a task begin? -/
def Event.begins : Event → Bool
  | .call .. | .close _ => true
  | _ => false

namespace World

variable {w : World} {i : Nat}

/-- No task appears but by beginning: a call that is there now was there, or has just begun, and so
has a closing. -/
theorem apply_fresh {e : Event} (he : e.begins = false) (h : w.task? i = none) :
    (w.apply e).task? i = none := by
  have hcalls := apply_cases w e
  have hclosings := closing_cases w e
  generalize w.apply e = w' at hcalls hclosings ⊢
  generalize w.deeds e = deeds at hcalls
  generalize w.exchanged e = xs at hclosings
  -- were there a task now, it would be a call or a closing that was there before or is begun here
  by_contra hnew
  obtain ⟨t, ht⟩ := Option.ne_none_iff_exists'.mp hnew
  cases t with
  | call line stage =>
    rcases hcalls.call_cases ht with hs | ⟨-, rfl, -⟩ | ⟨before, hs, -⟩ | ⟨hs, -⟩
    · exact nomatch h.symm.trans hs
    · exact nomatch he
    · exact nomatch h.symm.trans hs
    · exact nomatch h.symm.trans hs
  | close stage =>
    have hnone : w.task? i ≠ some (.close stage) := not_close_of_none h stage
    cases hclosings with
    | same e same => exact hnone ((same.closings i stage).mp ht)
    | first | late => exact nomatch he
    | @poll id before after _ task step =>
      rw [step.task? task i] at ht
      by_cases hi : i = id
      · rw [hi, task] at h
        exact nomatch h
      · rw [if_neg hi] at ht
        exact hnone ht
    | @answer id c next answer task =>
      rw [task?_setTask, h] at ht
      by_cases hi : i = id
      · rw [if_pos hi] at ht
        exact nomatch ht
      · rw [if_neg hi] at ht
        exact nomatch ht
    | abandon id =>
      rw [task?_abandon, h] at ht
      simp at ht

/-- A run that begins no task leaves the free numbers free, by induction on its events. -/
theorem run_fresh {events : List Event} (he : ∀ e ∈ events, e.begins = false)
    (h : w.task? i = none) : (w.run events).task? i = none := by
  induction events generalizing w with
  | nil => exact h
  | cons e events ih =>
    exact ih (fun d hd => he d (List.mem_cons_of_mem _ hd))
      (apply_fresh (he e List.mem_cons_self) h)

end World

/-! ## Whatever is done -/

namespace Scene

/-- A relation between scenes that each thing brings about which is done to one: what the other side
and the background reader do, what a task does, and a move of the clock. -/
structure Course (b : Backend σ) (R : Scene σ → Scene σ → Prop) : Prop where
  /-- Nothing is done. -/
  refl : ∀ s, R s s
  /-- One thing is done after another. -/
  trans : ∀ {s s' s''}, R s s' → R s' s'' → R s s''
  /-- The other side or the background reader does something. -/
  sides : ∀ {s p}, actOnce b (s.world.wires, s.side) = some p → R s (s.withSides p)
  /-- A task does something. -/
  task : ∀ {s s' id}, s.pollTask b id = some s' → R s s'
  /-- The clock moves forward. -/
  clock : ∀ {s : Scene σ} {t}, s.world.wires.now ≤ t →
    R s (s.withSides (moveTo t s.world.wires, s.side))

variable {R : Scene σ → Scene σ → Prop} {s s' s'' : Scene σ}

/-- A task that does all it can without waiting does one thing after another: by induction on how
many things it may do. -/
theorem Course.advance (h : Course b R) (id fuel : Nat) (s : Scene σ) :
    R s (s.advance b id fuel) := by
  induction fuel generalizing s with
  | zero => exact h.refl s
  | succ fuel ih =>
    rw [Scene.advance]
    split
    · next s' hpoll => exact h.trans (h.task hpoll) (ih s')
    · exact h.refl s

/-- The first task that can do something is one of them, so its step is in the course. -/
theorem Course.pollFirst (h : Course b R) {ids : List Nat} (hp : s.pollFirst b ids = some s') :
    R s s' := by
  induction ids with
  | nil => exact nomatch hp
  | cons id ids ih =>
    rcases Option.or_eq_some_iff.mp hp with hfirst | ⟨-, hothers⟩
    · exact h.task hfirst
    · exact ih hothers

/-- One thing is done, by the other side, by the background reader or by a task. -/
theorem Course.once (h : Course b R) (ho : s.once b = some s') : R s s' := by
  unfold Scene.once at ho
  split at ho
  · next sides hact =>
    cases ho
    exact h.sides hact
  · exact h.pollFirst ho

/-- What is done at one instant is one thing after another, by induction on how many may be done. -/
theorem Course.settle (h : Course b R) (fuel : Nat) (s : Scene σ) : R s (s.settle b fuel) := by
  induction fuel generalizing s with
  | zero => exact h.refl s
  | succ fuel ih =>
    rw [Scene.settle]
    split
    · next s' honce => exact h.trans (h.once honce) (ih s')
    · exact h.refl s

/-- The next instant at which anything is due is later than now. -/
theorem lt_of_due {others : List Nat} {t : Nat} (h : s.due b others = some t) :
    s.world.wires.now < t := Plan.lt_of_nextDue h

/-- Playing on brings about what each thing does: by induction on how often the clock may still be
moved, where each round does what can be done at an instant and then moves the clock forward. -/
theorem Course.runUntil (h : Course b R) (others : List Nat) (isOver : Scene σ → Bool) (fuel : Nat)
    (s : Scene σ) : R s (s.runUntil b others isOver fuel) := by
  induction fuel generalizing s with
  | zero => exact h.refl s
  | succ fuel ih =>
    have hsettled := h.settle patience s
    rw [Scene.runUntil]
    generalize s.settle b patience = s' at hsettled
    split
    · exact hsettled
    · split
      · next t hdue =>
        exact h.trans (h.trans hsettled (h.clock (Nat.le_of_lt (lt_of_due hdue)))) (ih _)
      · exact hsettled

/-! ## Scenes as runs -/

/-- What is done between two scenes is a run of the link, in which no task begins. -/
def Plays (s s' : Scene σ) : Prop :=
  ∃ events : List Event, (∀ e ∈ events, e.begins = false) ∧ s'.world = s.world.run events

theorem Plays.refl (s : Scene σ) : s.Plays s := ⟨[], by simp, rfl⟩

theorem Plays.trans (h : s.Plays s') (h' : s'.Plays s'') : s.Plays s'' := by
  obtain ⟨events, hevents, hrun⟩ := h
  obtain ⟨more, hmore, hrun'⟩ := h'
  refine ⟨events ++ more, fun e he => ?_, ?_⟩
  · exact (List.mem_append.mp he).elim (hevents e) (hmore e)
  · rw [hrun', hrun, World.run_append]

/-- One event is enough to show that it is played. -/
theorem Plays.of_event {e : Event} (he : e.begins = false) (h : s'.world = s.world.apply e) :
    s.Plays s' :=
  ⟨[e], fun _ hd => List.mem_singleton.mp hd ▸ he, h⟩

/-- What happens to the wires happens to the link, by the same events. -/
theorem Plays.withSides {p : Wires × σ} (h : s.world.wires.Flows p.1) :
    s.Plays (s.withSides p) := by
  obtain ⟨events, hflows, hafter⟩ := h
  refine ⟨events, fun e he => ?_, ?_⟩
  · have hflow := hflows e he
    cases e <;> first | rfl | exact absurd hflow Bool.false_ne_true
  · rw [World.run_flows events hflows, hafter]
    rfl

/-- The manager is told to begin a command, looks at it, or has answered it; the answer is an event
of the link, and everything else happens to the wires. -/
theorem manage_plays (hb : b.Faithful) {id : Nat} {c : Control.Command}
    (h : s.manage b id c = some s') : s.Plays s' := by
  unfold manage at h
  dsimp only at h
  split at h
  · cases h
    obtain ⟨events, hevents, hrun⟩ :=
      Plays.withSides (s := s) (hb.start s.world.wires.now c s.world.wires s.side)
    exact ⟨events, hevents, hrun⟩
  · next since hbusy =>
    have hlooked := hb.look since s.world.wires.now c s.world.wires s.side
    split at h
    · next answer sides hlook =>
      rw [hlook] at hlooked
      obtain ⟨w, hw, rfl⟩ := Option.map_eq_some_iff.mp h
      refine (Plays.withSides hlooked).trans (.of_event (e := .answer id ⟨c, answer⟩) rfl ?_)
      show w = ((s.withSides sides).world.answer id ⟨c, answer⟩).getD _
      rw [hw]
      rfl
    · exact nomatch h

/-- One task does one thing: it gives up, it is polled, or the manager goes on for it. -/
theorem pollTask_plays (hb : b.Faithful) {id : Nat} (h : s.pollTask b id = some s') :
    s.Plays s' := by
  unfold pollTask at h
  split at h
  · exact manage_plays hb h
  · obtain ⟨w, hw, rfl⟩ := Option.map_eq_some_iff.mp h
    rcases Option.or_eq_some_iff.mp hw with hgives | ⟨-, hpolled⟩
    · refine .of_event (e := .giveUp id) rfl ?_
      show w = (s.world.giveUp id).getD _
      rw [hgives]
      rfl
    · exact .of_event (e := .poll id) rfl (World.apply_poll hpolled).symm

/-- Whatever is done to a scene with a faithful other side is a run of the link. -/
theorem course_plays (hb : b.Faithful) : Course b Plays where
  refl := .refl
  trans := .trans
  sides hact := .withSides (actOnce_flows hb hact)
  task hpoll := pollTask_plays hb hpoll
  clock hlater := .withSides (.moveTo hlater)

/-! ## What becomes of the other side -/

variable {K : σ → σ → Prop}

/-- What the other side does is what becomes of it: the link takes no part in that but by its
wires. -/
theorem course_side (hb : b.Leads K) : Course b fun s s' => K s.side s'.side where
  refl s := hb.refl s.side
  trans := hb.trans
  sides {s p} hact := by
    unfold actOnce at hact
    split at hact
    · next q hdone =>
      cases hact
      exact hb.act hdone
    · obtain ⟨v, -, rfl⟩ := Option.map_eq_some_iff.mp hact
      exact hb.refl s.side
  task {s s' id} hpoll := by
    unfold pollTask at hpoll
    split at hpoll
    · next c next htask =>
      unfold manage at hpoll
      dsimp only at hpoll
      split at hpoll
      · cases hpoll
        exact hb.start s.world.wires.now c s.world.wires s.side
      · next since hbusy =>
        have hlooked := hb.look since s.world.wires.now c s.world.wires s.side
        split at hpoll
        · next answer sides hlook =>
          rw [hlook] at hlooked
          obtain ⟨w, -, rfl⟩ := Option.map_eq_some_iff.mp hpoll
          exact hlooked
        · exact nomatch hpoll
    · obtain ⟨w, -, rfl⟩ := Option.map_eq_some_iff.mp hpoll
      exact hb.refl s.side
  clock _ := hb.refl _

end Scene
end KernelLink.Session
