import KernelLink.Proofs.Session.Captured
import KernelLink.Proofs.Session.Wakeups
/-!
# Error output is noticed

A call that waits notices error output in two parts: it uses up the stored wake-up, and then it
looks whether there is any. A poll does both at once. Here they come apart, and anything else may
happen between them: the reader may add bytes and store wake-ups, time may pass, the link may be
closed. Still no wake-up is lost, and error output that comes while no grace runs makes one begin.
Whatever else a poll does touches the buffer no more than once, so only these two come apart.

Main definitions:
* `World.rouse`, `World.look`: the two parts.
* `Parted`, `Parted.apply`, `Parted.run`: a link whose calls notice error output in two parts.
* `Parted.Sound`: the invariant.
* `Parted.Pending`: there is error output that a call has not noticed, and it will.
* `WakesUp`: what becomes of error output while no grace runs.

Main results:
* `World.apply_poll_rouses`, `Parted.run_whole`: the two parts together are a poll, and the runs of
  the link are runs of this kind.
* `Parted.Sound.run`: the invariant holds along every run.
* `Parted.no_wakeup_lost`: error output is noticed.
-/
namespace KernelLink.Session

open Stderr (Buffer)

/-! ## The two parts -/

namespace World

/-- Does the call, when it is polled now, use up a wake-up? -/
def rouses (w : World) (id : Nat) : Bool :=
  match w.task? id with
  | some (.call _ (.awaiting _ none)) =>
    !w.cancelled && w.wires.output.nextLine?.isNone && w.wires.output.fill?.isNone &&
      w.wires.buffer.permit
  | _ => false

/-- The stored wake-up is used up. -/
def rouse (w : World) : World :=
  { w with wires := { w.wires with buffer := w.wires.buffer.poll.2 } }

/-- The call looks whether there is error output, and its grace begins if there is. -/
def look (w : World) (id : Nat) : World :=
  match w.task? id with
  | some (.call line (.awaiting deadline none)) =>
    if w.wires.buffer.isEmpty then w
    else w.goOn id line (.awaiting deadline (some (w.wires.now + w.timing.stderrGrace)))
  | _ => w

variable {w w' : World} {id i : Nat} {line : List UInt8} {before after stage : Stage}
  {deeds : List Deed} {deadline : Nat}

/-- A call uses up the wake-up exactly if it waits without a grace, nothing stands ready on the
output, and a wake-up is stored. -/
theorem rouses_iff :
    w.rouses id = true ↔ ∃ line deadline, w.task? id = some (.call line (.awaiting deadline none)) ∧
      w.Quiet ∧ w.wires.buffer.permit = true := by
  unfold rouses
  constructor
  · intro h
    split at h
    · next line deadline ht =>
      simp only [Bool.and_eq_true, Bool.not_eq_true', Option.isNone_iff_eq_none] at h
      obtain ⟨⟨⟨hgoing, hline⟩, hfill⟩, hpermit⟩ := h
      exact ⟨line, deadline, ht, ⟨hgoing, hline, hfill⟩, hpermit⟩
    · exact absurd h Bool.false_ne_true
  · rintro ⟨line, deadline, ht, ⟨hgoing, hline, hfill⟩, hpermit⟩
    simp [ht, hgoing, hline, hfill, hpermit]

theorem look_empty (h : w.wires.buffer.bytes = []) : w.look id = w := by
  unfold look
  split
  · exact if_pos (List.isEmpty_iff.mpr h)
  · rfl

theorem look_filled (ht : w.task? id = some (.call line (.awaiting deadline none)))
    (h : w.wires.buffer.bytes ≠ []) :
    w.look id =
      w.goOn id line (.awaiting deadline (some (w.wires.now + w.timing.stderrGrace))) := by
  unfold look
  rw [ht]
  exact if_neg fun hempty => h (List.isEmpty_iff.mp hempty)

/-- A poll with a stored wake-up uses it up and looks, in this order. Whether something is found
makes the two cases. -/
theorem pollQuiet_permit (ht : w.task? id = some (.call line (.awaiting deadline none)))
    (hpermit : w.wires.buffer.permit = true) :
    w.pollQuiet id line deadline none = some (w.rouse.look id) := by
  unfold pollQuiet
  rw [if_pos (by rw [hpermit]; rfl)]
  by_cases hb : w.wires.buffer.bytes = []
  · have hempty : w.wires.buffer.poll.2.isEmpty = true := List.isEmpty_iff.mpr hb
    rw [look_empty (w := w.rouse) hb]
    exact if_pos hempty
  · have hfilled : ¬ w.wires.buffer.poll.2.isEmpty = true :=
      fun hempty => hb (List.isEmpty_iff.mp hempty)
    rw [look_filled (w := w.rouse) ht hb]
    exact if_neg hfilled

/-- Together the two parts are a poll, so the parted machine does nothing that the whole one could
not. -/
theorem apply_poll_rouses (h : w.rouses id = true) : w.apply (.poll id) = w.rouse.look id := by
  obtain ⟨line, deadline, ht, ⟨hgoing, hline, hfill⟩, hpermit⟩ := rouses_iff.mp h
  have hquiet : w.pollCall id line (.awaiting deadline none) =
      w.pollQuiet id line deadline none := by
    simp only [pollCall, pollAwaiting, hgoing, hline, hfill, Bool.false_eq_true, if_false]
  exact apply_poll ((poll_eq ht).trans (hquiet.trans (pollQuiet_permit ht hpermit)))

/-- A call that goes on is found in its new stage, and every other task where it was. -/
theorem task?_goOn (ht : w.task? id = some (.call line before)) (i : Nat) :
    (w.goOn id line after).task? i = if i = id then some (.call line after) else w.task? i := by
  have hset : (w.goOn id line after).task? i = _ := task?_setTask w id i _
  rw [hset]
  by_cases hi : i = id
  · rw [if_pos hi, if_pos hi, hi, ht]
    rfl
  · rw [if_neg hi, if_neg hi]

/-- A call that goes on has its new stage. -/
theorem task?_goOn_self (ht : w.task? id = some (.call line before)) :
    (w.goOn id line after).task? id = some (.call line after) :=
  (task?_goOn ht id).trans (if_pos rfl)

/-- A call that goes on in its turn keeps the order, as it is still the one that holds it. -/
theorem Orderly.goOn (hw : w.Orderly) (ht : w.task? id = some (.call line before))
    (hb : before.inTurn = true) (ha : after.inTurn = true) (hf : after.Fits w.phase) :
    (w.goOn id line after).Orderly := by
  have hheld := hw.turn ht hb
  refine ⟨fun {i l s} hti hs => ?_, fun {i} hi => ?_, fun {i l s} hti => ?_⟩
  · rw [task?_goOn ht] at hti
    by_cases hi : i = id
    · rw [hi]
      exact hheld
    · rw [if_neg hi] at hti
      exact hw.turn hti hs
  · obtain rfl : id = i := Option.some.inj (hheld.symm.trans hi)
    exact ⟨line, after, task?_goOn_self ht, ha⟩
  · rw [task?_goOn ht] at hti
    by_cases hi : i = id
    · rw [if_pos hi, Option.some.injEq, Task.call.injEq] at hti
      rw [← hti.2]
      exact hf
    · rw [if_neg hi] at hti
      exact hw.fits hti

/-- A call that has not noticed error output is over after a poll, its grace begins with it, or it
has still not noticed what is there. -/
theorem CallStep.unnoticed (h : CallStep w id line before after w' deeds)
    (hs : before.unarmed = true) (hb : w.wires.buffer.bytes ≠ []) :
    after.sends = false ∨
      (∃ deadline, after = .awaiting deadline (some (w'.wires.now + w'.timing.stderrGrace))) ∨
      after.unarmed = true ∧ w'.wires.buffer.bytes ≠ [] := by
  cases h with
  | written | put => exact Or.inr (Or.inr ⟨rfl, hb⟩)
  | skip | fill => exact Or.inr (Or.inr ⟨hs, hb⟩)
  | stale quiet permit empty => exact absurd (List.isEmpty_iff.mp empty) hb
  | arm quiet permit filled => exact Or.inr (Or.inl ⟨_, rfl⟩)
  | enterReady | enterLate | discard | disarm => exact absurd hs Bool.false_ne_true
  | _ => exact Or.inl rfl

/-- As long as the buffer keeps anything, what is in it makes way only for newer error output. -/
theorem WireStep.filled {v v' : Wires} (h : WireStep v v' deeds) (hl : 0 < v.buffer.limit)
    (hb : v.buffer.bytes ≠ []) : v'.buffer.bytes ≠ [] := by
  rcases h.buffer.2 with ⟨hsame, -⟩ | hnew
  · rw [hsame]
    exact hb
  · intro hempty
    rw [hempty] at hnew
    have hlength := congrArg List.length hnew
    have hpos := List.length_pos_iff.mpr hb
    rw [Buffer.length_newest, List.length_nil, List.length_append] at hlength
    omega

/-- What the reader takes over is in the buffer then, unless the buffer is to hold nothing at all.
-/
theorem captured_filled (hl : 0 < w.wires.buffer.limit) (hr : w.wires.capture = .reading)
    (he : w.wires.errors.bytes ≠ []) : (w.apply .capture).wires.buffer.bytes ≠ [] := by
  have hsome : ¬ w.wires.errors.bytes.isEmpty = true := fun h => he (List.isEmpty_iff.mp h)
  have hnew : (w.apply .capture).wires.buffer = w.wires.buffer.extend
      (w.wires.errors.bytes.take Buffer.readSize) := by
    show (w.wires.captureStep.getD w.wires).buffer = _
    unfold Wires.captureStep
    rw [hr]
    dsimp only
    rw [if_neg hsome]
    rfl
  intro hempty
  have hlength := congrArg List.length hempty
  have hpos := List.length_pos_iff.mpr he
  rw [hnew, Buffer.extend, Buffer.length_newest, List.length_append, List.length_take,
    List.length_nil] at hlength
  unfold Buffer.readSize at hlength
  omega

/-- With its next step the reader stores a wake-up that is due. -/
theorem WakeDue.stored (h : WakeDue w.wires) : (w.apply .capture).wires.buffer.permit = true := by
  show (w.wires.captureStep.getD w.wires).buffer.permit = true
  unfold Wires.captureStep
  cases hc : w.wires.capture with
  | owing => rfl
  | ended => exact h.resolve_right (by simp [hc])
  | reading =>
    have hpermit := h.resolve_right (by simp [hc])
    dsimp only
    split
    · split
      · exact hpermit
      · rfl
    · exact hpermit

/-- The reader leaves the kernel's output alone, so it stays quiet. -/
theorem Quiet.capture (h : w.Quiet) : (w.apply .capture).Quiet := by
  have houtput : (w.apply .capture).wires.output = w.wires.output :=
    (captureStep_leaves w.wires).2.2
  exact ⟨h.going, by rw [houtput]; exact h.line, by rw [houtput]; exact h.fill⟩

/-- The limit of the buffer stays, whatever is done with what it holds. -/
theorem EventStep.limit {e : Event} (h : EventStep w e w' deeds) (hw : w.Orderly) :
    w'.wires.buffer.limit = w.wires.buffer.limit := by
  rcases h.poll_or_calm hw with ⟨i, l, before, after, -, -, poll⟩ | calm
  · exact poll.buffer.1
  · exact calm.wires.buffer.1

end World

/-! ## A link whose calls notice error output in two parts -/

/-- What can happen when the two parts come apart. -/
inductive Part where
  /-- An event. A call that has used up a wake-up looks when it is polled. -/
  | whole (e : Event)
  /-- A call uses up a wake-up. -/
  | rouse (id : Nat)

/-- A link, and the call that has used up a wake-up and has yet to look. -/
structure Parted where
  /-- The link. -/
  world : World
  /-- The call. -/
  roused : Option Nat

namespace Parted

/-- At first no call has used up a wake-up. -/
def new (timing : Timing) (wires : Wires) : Parted := ⟨World.new timing wires, none⟩

/-- What happens. -/
def apply (s : Parted) : Part → Parted
  | .rouse id =>
    if s.roused = none ∧ s.world.rouses id = true then ⟨s.world.rouse, some id⟩ else s
  | .whole (.poll id) =>
    if s.roused = some id then ⟨s.world.look id, none⟩
    else ⟨s.world.apply (.poll id), s.roused⟩
  | .whole (.abandon id) =>
    ⟨s.world.abandon id, if s.roused = some id then none else s.roused⟩
  | .whole e => ⟨s.world.apply e, s.roused⟩

/-- A run. -/
def run (s : Parted) (parts : List Part) : Parted := parts.foldl apply s

/-- While the parts do not come apart, the link runs as ever. -/
theorem run_whole (w : World) (events : List Event) :
    (⟨w, none⟩ : Parted).run (events.map .whole) = ⟨w.run events, none⟩ := by
  induction events generalizing w with
  | nil => rfl
  | cons e events ih =>
    have hstep : (⟨w, none⟩ : Parted).apply (.whole e) = ⟨w.apply e, none⟩ := by
      cases e with
      | poll id =>
        rw [apply, if_neg (Option.some_ne_none id).symm]
      | _ => rfl
    show ((⟨w, none⟩ : Parted).apply (.whole e)).run (events.map .whole) = _
    rw [hstep, ih]
    rfl

/-- The rules: `Step s p s'` leads from `s` to `s'`. -/
inductive Step (s : Parted) : Part → Parted → Prop where
  /-- The call that has yet to look is neither polled nor left by its caller. -/
  | event (e : Event) (others : ∀ id, s.roused = some id → e ≠ .poll id ∧ e ≠ .abandon id) :
      Step s (.whole e) ⟨s.world.apply e, s.roused⟩
  /-- A call uses up a wake-up. -/
  | rouse {id : Nat} (free : s.roused = none) (can : s.world.rouses id = true) :
      Step s (.rouse id) ⟨s.world.rouse, some id⟩
  /-- It looks. -/
  | look {id : Nat} (roused : s.roused = some id) :
      Step s (.whole (.poll id)) ⟨s.world.look id, none⟩
  /-- Its caller goes away. -/
  | leave {id : Nat} (roused : s.roused = some id) :
      Step s (.whole (.abandon id)) ⟨s.world.abandon id, none⟩
  /-- There is nothing to use up. -/
  | idle (p : Part) : Step s p s

/-- Whatever happens follows one of the rules: somebody uses up the wake-up, somebody who has done
so looks, or an ordinary event of others comes in between. -/
theorem apply_cases (s : Parted) (p : Part) : s.Step p (s.apply p) := by
  cases p with
  | rouse id =>
    by_cases h : s.roused = none ∧ s.world.rouses id = true
    · rw [apply, if_pos h]
      exact .rouse h.1 h.2
    · rw [apply, if_neg h]
      exact .idle _
  | whole e =>
    cases e with
    | poll id =>
      -- a poll of the call that was woken is its look; every other poll is whole
      by_cases h : s.roused = some id
      · rw [apply, if_pos h]
        exact .look h
      · rw [apply, if_neg h]
        refine .event _ fun i hi => ⟨?_, Event.noConfusion⟩
        rintro ⟨⟩
        exact h hi
    | abandon id =>
      by_cases h : s.roused = some id
      · rw [apply, if_pos h]
        exact .leave h
      · rw [apply, if_neg h]
        refine .event (.abandon id) fun i hi => ⟨Event.noConfusion, ?_⟩
        rintro ⟨⟩
        exact h hi
    | _ => exact .event _ fun i _ => ⟨Event.noConfusion, Event.noConfusion⟩

/-! ## The invariant -/

/-- The link is orderly and keeps at least one byte of error output, the call that has yet to look
waits without a grace, and error output that is there while no grace runs has its wake-up or is
about to be looked for. -/
structure Sound (s : Parted) : Prop where
  /-- The link is orderly. -/
  orderly : s.world.Orderly
  /-- The buffer keeps something. -/
  keeps : 0 < s.world.wires.buffer.limit
  /-- The call that has yet to look waits, and no grace runs for it. -/
  waits : ∀ {id}, s.roused = some id →
    ∃ line deadline, s.world.task? id = some (.call line (.awaiting deadline none))
  /-- No wake-up is lost. -/
  wakeful : ∀ {id line stage}, s.world.task? id = some (.call line stage) →
    stage.unarmed = true → s.world.wires.buffer.bytes ≠ [] →
    World.WakeDue s.world.wires ∨ s.roused = some id

variable {s s' : Parted} {p : Part} {id i : Nat} {line l : List UInt8} {stage stage' : Stage}

theorem Sound.new (timing : Timing) {wires : Wires} (h : 0 < wires.buffer.limit) :
    (new timing wires).Sound :=
  ⟨World.Orderly.new timing wires, h, nofun, nofun⟩

/-- Only the call whose turn it is has yet to look, since there is one turn at a time. -/
theorem Sound.only (h : s.Sound) (hr : s.roused = some id)
    (ht : s.world.task? i = some (.call l stage)) (hs : stage.inTurn = true) : i = id := by
  obtain ⟨line, deadline, hid⟩ := h.waits hr
  have hheld := h.orderly.turn hid rfl
  rw [h.orderly.turn ht hs, Option.some.injEq] at hheld
  exact hheld

/-- Looking keeps the invariant: whoever looks begins its grace, or there is nothing to see. -/
theorem Sound.look (h : s.Sound) (hr : s.roused = some id) :
    (⟨s.world.look id, none⟩ : Parted).Sound := by
  obtain ⟨line, deadline, ht⟩ := h.waits hr
  by_cases hb : s.world.wires.buffer.bytes = []
  · rw [World.look_empty hb]
    exact ⟨h.orderly, h.keeps, nofun, fun _ _ hne => absurd hb hne⟩
  · rw [World.look_filled ht hb]
    have hphase : s.world.phase = .ready := h.orderly.fits ht
    have hafter : (s.world.goOn id line (.awaiting deadline
        (some (s.world.wires.now + s.world.timing.stderrGrace)))).Orderly :=
      h.orderly.goOn ht rfl rfl hphase
    refine ⟨hafter, h.keeps, nofun, fun {i l stage} hti hs _ => ?_⟩
    -- only the call that looked has its turn, and its grace runs now
    have hself : (s.world.goOn id line (.awaiting deadline
        (some (s.world.wires.now + s.world.timing.stderrGrace)))).task? id = _ :=
      World.task?_goOn_self ht
    have hheld := hafter.turn hself rfl
    rw [hafter.turn hti (Stage.inTurn_of_unarmed hs), Option.some.injEq] at hheld
    subst hheld
    obtain ⟨-, rfl⟩ := World.call_inj hself hti
    exact absurd hs Bool.false_ne_true

/-- An event keeps the invariant, as long as it does not poll or take away the call that is about to
look. -/
theorem Sound.event {e : Event} (h : s.Sound)
    (hothers : ∀ id, s.roused = some id → e ≠ .poll id ∧ e ≠ .abandon id) :
    (⟨s.world.apply e, s.roused⟩ : Parted).Sound := by
  have hstep := World.apply_cases s.world e
  have hafter := h.orderly.step hstep
  have hlimit : (s.world.apply e).wires.buffer.limit = s.world.wires.buffer.limit :=
    hstep.limit h.orderly
  -- the woken call has the turn, so what others do leaves it waiting
  have hstays : ∀ {id}, s.roused = some id → ∃ line deadline,
      (s.world.apply e).task? id = some (.call line (.awaiting deadline none)) := by
    intro id hr
    obtain ⟨line, deadline, ht⟩ := h.waits hr
    rcases hstep.poll_or_calm h.orderly with ⟨i, l, before, after, he, task, poll⟩ | calm
    · obtain rfl := poll.only h.orderly task ht rfl
      exact absurd he (hothers id hr).1
    · exact ⟨line, deadline, calm.stays h.orderly hafter ht rfl (hothers id hr).2⟩
  refine ⟨hafter, by rw [hlimit]; exact h.keeps, hstays, fun {i l stage} ht hs hb => ?_⟩
  cases hr : s.roused with
  | none =>
    have hwakes : s.world.Wakeful := fun ht hs hb =>
      (h.wakeful ht hs hb).resolve_right (by simp [hr])
    exact Or.inl (hwakes.step h.orderly hstep ht hs hb)
  | some id =>
    obtain ⟨line, deadline, hid⟩ := hstays hr
    have hheld := hafter.turn hid rfl
    rw [hafter.turn ht (Stage.inTurn_of_unarmed hs)] at hheld
    exact Or.inr hheld.symm

/-- Whatever happens keeps the invariant: between the two parts the wake-up is gone, and then it is
the call that is about to look. -/
theorem Sound.step (h : s.Sound) (hs : s.Step p s') : s'.Sound := by
  cases hs with
  | event e others => exact h.event others
  | @rouse id free can =>
    obtain ⟨line, deadline, ht, -, -⟩ := World.rouses_iff.mp can
    refine ⟨h.orderly.of_same rfl rfl rfl, h.keeps, ?_, fun {i l stage} hti hs _ => Or.inr ?_⟩
    · rintro _ ⟨⟩
      exact ⟨line, deadline, ht⟩
    · -- the call that used the wake-up up is the only one that could miss it
      have hheld := h.orderly.turn ht rfl
      rw [h.orderly.turn hti (Stage.inTurn_of_unarmed hs)] at hheld
      exact hheld.symm
  | look roused => exact h.look roused
  | @leave id roused =>
    refine ⟨h.orderly.abandon id, h.keeps, nofun, fun {i l stage} hti hs _ => ?_⟩
    rw [World.task?_abandon] at hti
    by_cases hi : i = id
    · rw [if_pos hi] at hti
      exact nomatch hti
    · rw [if_neg hi] at hti
      exact absurd (h.only roused hti (Stage.inTurn_of_unarmed hs)) hi
  | idle => exact h

/-- The invariant holds along every run, by induction on its parts from the end. -/
theorem Sound.run (h : s.Sound) (parts : List Part) : (s.run parts).Sound := by
  induction parts generalizing s with
  | nil => exact h
  | cons p parts ih => exact ih (h.step (s.apply_cases p))

/-! ## Error output that has not been noticed -/

/-- The call has error output that it has not noticed, and it will: a wake-up is stored or about to
be stored, or the call is about to look. -/
def Pending (s : Parted) (id : Nat) : Prop :=
  (∃ line stage, s.world.task? id = some (.call line stage) ∧ stage.unarmed = true) ∧
    s.world.wires.buffer.bytes ≠ [] ∧ (World.WakeDue s.world.wires ∨ s.roused = some id)

/-- The grace of the call begins now. -/
def GraceBegins (s : Parted) (id : Nat) : Prop :=
  ∃ line deadline, s.world.task? id = some (.call line
    (.awaiting deadline (some (s.world.wires.now + s.world.timing.stderrGrace))))

/-- The call neither writes nor waits for its reply any more. -/
def Over (s : Parted) (id : Nat) : Prop :=
  ∀ line stage, s.world.task? id = some (.call line stage) → stage.sends = false

/-- Along the run, the call is at last about to notice error output unless its grace has begun or it
was over some time. -/
def Heeds (s : Parted) (id : Nat) (parts : List Part) : Prop :=
  (s.run parts).Pending id ∨
    ∃ past more, parts = past ++ more ∧ ((s.run past).GraceBegins id ∨ (s.run past).Over id)

/-- A call that has not seen what the buffer holds is still going to be told. -/
theorem Sound.pending (h : s.Sound) (ht : s.world.task? id = some (.call line stage))
    (hs : stage.unarmed = true) (hb : s.world.wires.buffer.bytes ≠ []) : s.Pending id :=
  ⟨⟨line, stage, ht, hs⟩, hb, h.wakeful ht hs hb⟩

theorem over_of_finished (ht : s.world.task? id = some (.call line stage))
    (hs : stage.sends = false) : s.Over id := by
  intro l stage' ht'
  obtain ⟨-, rfl⟩ := World.call_inj ht ht'
  exact hs

theorem over_abandon (w : World) (id : Nat) (roused : Option Nat) :
    (⟨w.abandon id, roused⟩ : Parted).Over id := by
  intro l stage ht
  rw [World.task?_abandon, if_pos rfl] at ht
  exact nomatch ht

/-- A call that looks and sees error output begins its grace, and so needs no second waking. -/
theorem graceBegins_look {w : World} {deadline : Nat}
    (ht : w.task? id = some (.call line (.awaiting deadline none)))
    (hb : w.wires.buffer.bytes ≠ []) (roused : Option Nat) :
    (⟨w.look id, roused⟩ : Parted).GraceBegins id := by
  rw [World.look_filled ht hb]
  exact ⟨line, deadline, World.task?_goOn_self ht⟩

/-- With an event, the call stays about to notice error output, its grace begins, or it is over. -/
theorem Sound.heeds_event {e : Event} (h : s.Sound)
    (hafter : (⟨s.world.apply e, s.roused⟩ : Parted).Sound)
    (ht : s.world.task? id = some (.call line stage)) (hs : stage.unarmed = true)
    (hb : s.world.wires.buffer.bytes ≠ []) :
    (⟨s.world.apply e, s.roused⟩ : Parted).Pending id ∨
      (⟨s.world.apply e, s.roused⟩ : Parted).GraceBegins id ∨
      (⟨s.world.apply e, s.roused⟩ : Parted).Over id := by
  have hturn := Stage.inTurn_of_unarmed hs
  rcases (World.apply_cases s.world e).poll_or_calm h.orderly with
    ⟨i, l, before, after, -, task, poll⟩ | calm
  · obtain rfl := poll.only h.orderly task ht hturn
    obtain ⟨rfl, rfl⟩ := World.call_inj task ht
    have hself := poll.self task
    rcases poll.unnoticed hs hb with hover | ⟨deadline, rfl⟩ | ⟨hwaits, hfilled⟩
    · exact Or.inr (Or.inr (over_of_finished hself hover))
    · exact Or.inr (Or.inl ⟨l, deadline, hself⟩)
    · exact Or.inl (hafter.pending hself hwaits hfilled)
  · by_cases ha : e = .abandon id
    · rw [ha]
      exact Or.inr (Or.inr (over_abandon s.world id s.roused))
    · have hsame := calm.stays h.orderly hafter.orderly ht hturn ha
      exact Or.inl (hafter.pending hsame hs (calm.wires.filled h.keeps hb))

/-- Whatever happens, the call stays about to notice error output, its grace begins, or it is
over. -/
theorem Sound.heeds_step (h : s.Sound) (hp : s.Pending id) (hs : s.Step p s') :
    s'.Pending id ∨ s'.GraceBegins id ∨ s'.Over id := by
  obtain ⟨⟨line, stage, ht, hunarmed⟩, hb, hdue⟩ := hp
  have hafter := h.step hs
  have hturn := Stage.inTurn_of_unarmed hunarmed
  cases hs with
  | event e others => exact h.heeds_event hafter ht hunarmed hb
  | rouse free can => exact Or.inl (hafter.pending ht hunarmed hb)
  | look roused =>
    obtain rfl := h.only roused ht hturn
    obtain ⟨l, deadline, ht⟩ := h.waits roused
    exact Or.inr (Or.inl (graceBegins_look ht hb none))
  | leave roused =>
    obtain rfl := h.only roused ht hturn
    exact Or.inr (Or.inr (over_abandon s.world id none))
  | idle => exact Or.inl ⟨⟨line, stage, ht, hunarmed⟩, hb, hdue⟩

/-- Along every run the call stays about to notice error output until its grace begins or it is
over. -/
theorem Sound.heeds (h : s.Sound) (hp : s.Pending id) (parts : List Part) : s.Heeds id parts := by
  induction parts generalizing s with
  | nil => exact Or.inl hp
  | cons p parts ih =>
    have hstep := s.apply_cases p
    rcases h.heeds_step hp hstep with hpending | hends
    · rcases ih (h.step hstep) hpending with hstays | ⟨past, more, rfl, hends⟩
      · exact Or.inl hstays
      · exact Or.inr ⟨p :: past, more, rfl, hends⟩
    · exact Or.inr ⟨[p], parts, rfl, hends⟩

/-- What the reader takes over while no grace runs is about to be noticed. -/
theorem Sound.arrives (h : s.Sound) (ht : s.world.task? id = some (.call line stage))
    (hs : stage.unarmed = true) (hr : s.world.wires.capture = .reading)
    (he : s.world.wires.errors.bytes ≠ []) : (s.apply (.whole .capture)).Pending id :=
  (h.step (s.apply_cases (.whole .capture))).pending ht hs (World.captured_filled h.keeps hr he)

/-- When there is nothing to read, one more step of the reader and one poll of the call make its
grace begin. -/
theorem Sound.soon {deadline : Nat} (h : s.Sound)
    (ht : s.world.task? id = some (.call line (.awaiting deadline none)))
    (hb : s.world.wires.buffer.bytes ≠ []) (hq : s.world.Quiet) :
    (s.run [.whole .capture, .whole (.poll id)]).GraceBegins id := by
  have hfilled : (s.world.apply .capture).wires.buffer.bytes ≠ [] := by
    rcases (World.apply_cases s.world .capture).poll_or_calm h.orderly with
      ⟨i, l, before, after, he, -⟩ | calm
    · exact nomatch he
    · exact calm.wires.filled h.keeps hb
  have htask : (s.world.apply .capture).task? id =
      some (.call line (.awaiting deadline none)) := ht
  show ((⟨s.world.apply .capture, s.roused⟩ : Parted).apply (.whole (.poll id))).GraceBegins id
  by_cases hr : s.roused = some id
  · rw [apply, if_pos hr]
    exact graceBegins_look htask hfilled none
  · have hdue : World.WakeDue s.world.wires := (h.wakeful ht rfl hb).resolve_right hr
    have hrouses : (s.world.apply .capture).rouses id = true :=
      World.rouses_iff.mpr ⟨line, deadline, htask, hq.capture, hdue.stored⟩
    rw [apply, if_neg hr]
    show (⟨(s.world.apply .capture).apply (.poll id), s.roused⟩ : Parted).GraceBegins id
    rw [World.apply_poll_rouses hrouses]
    exact graceBegins_look (w := (s.world.apply .capture).rouse) htask hfilled s.roused

/-- What becomes of error output while a call writes or waits and no grace runs for it. -/
structure WakesUp (s : Parted) (id : Nat) : Prop where
  /-- Error output that is there has a wake-up that is stored, or the reader has added bytes and is
  about to store one, unless the call is about to look. -/
  due : s.world.wires.buffer.bytes ≠ [] → s.roused ≠ some id → World.WakeDue s.world.wires
  /-- Error output that comes is about to be noticed. -/
  arrives : s.world.wires.capture = .reading → s.world.wires.errors.bytes ≠ [] →
    (s.apply (.whole .capture)).Pending id
  /-- It stays so, whatever happens, until the grace begins or the call is over. -/
  heeds : s.world.wires.buffer.bytes ≠ [] → ∀ parts, s.Heeds id parts
  /-- And the grace begins as soon as the call waits with nothing to read, the reader has done its
  next step and the call is polled. -/
  soon : s.world.wires.buffer.bytes ≠ [] → s.world.Quiet →
    (∃ line deadline, s.world.task? id = some (.call line (.awaiting deadline none))) →
    (s.run [.whole .capture, .whole (.poll id)]).GraceBegins id

/-- In whatever run, with whatever calls, and whatever happens while a call is about to look, error
output that comes while no grace runs makes one begin, unless the call is over before. The buffer
keeps at least one byte, as every buffer does that is made by `Buffer.new`. -/
theorem no_wakeup_lost (timing : Timing) {wires : Wires} (hkeeps : 0 < wires.buffer.limit)
    (parts : List Part) {id : Nat} {line : List UInt8} {stage : Stage}
    (ht : ((new timing wires).run parts).world.task? id = some (.call line stage))
    (hs : stage.unarmed = true) : ((new timing wires).run parts).WakesUp id := by
  have hsound : ((new timing wires).run parts).Sound := (Sound.new timing hkeeps).run parts
  refine ⟨fun hb hr => ?_, fun hr he => hsound.arrives ht hs hr he, fun hb => ?_, ?_⟩
  · exact (hsound.wakeful ht hs hb).resolve_right hr
  · exact hsound.heeds (hsound.pending ht hs hb)
  · rintro hb hq ⟨l, deadline, hwaits⟩
    exact hsound.soon hwaits hb hq

/-- The reader adds bytes between the two parts. -/
def midway : List Part :=
  [.whole (.call 0 [10]), .whole (.poll 0), .whole (.poll 0), .whole (.poll 0),
    .whole (.kernelReports [97]), .whole .capture, .whole .capture, .rouse 0,
    .whole (.kernelReports [98]), .whole .capture]

/-- The call is about to look then, and no wake-up is stored. -/
theorem midway_wakes_up :
    ((new ⟨1, 2, 1, 1, 9⟩ (.new 0 9)).run midway).roused = some 0 ∧
      ((new ⟨1, 2, 1, 1, 9⟩ (.new 0 9)).run midway).world.wires.buffer = ⟨9, [97, 98], false⟩ ∧
      ((new ⟨1, 2, 1, 1, 9⟩ (.new 0 9)).run midway).WakesUp 0 :=
  ⟨rfl, rfl, @no_wakeup_lost ⟨1, 2, 1, 1, 9⟩ (.new 0 9) (by decide) midway 0 [10]
    (.awaiting 2 none) rfl rfl⟩

end Parted
end KernelLink.Session
