import KernelLink.Proofs.Session.Usable
import Mathlib.Data.Fintype.EquivFin
/-!
# Which errors are the end of a link

An error is classified by its kind alone, while what it leaves behind depends on how it came about.
An error that is classified as fatal always leaves a conversation in which no later call succeeds.
But so do output that is not UTF-8, a reply that did not come and a call cut short by a closing,
which are not classified so, and so do last words of a kernel that is gone, which are told apart
from error output of a living one by the phase only. Apart from these, and from what calls
are told after a closing has begun, the classification is right, as far as the kernel answers.

Main definitions:
* `World.Barren`: no later call succeeds.
* `World.Overlooked`: the errors that end a conversation and are not classified as fatal.
* `World.Classified`: what the classification of an error says.

Main result:
* `World.errors_classified`: the classification of every error of every run.
-/
namespace KernelLink.Session.World

open Host (Pipe)

variable {w w' : World} {id : Nat} {line : List UInt8} {before after : Stage} {deeds : List Deed}
  {e : Event} {err : LinkError}

/-- No call that begins from now on succeeds, whatever happens. -/
def Barren (w : World) : Prop :=
  ∀ more id payload, w.task? id = none → (w.run more).callResult? id ≠ some (.ok payload)

theorem Dead.barren (h : w.Dead) (hw : w.Orderly) (ht : w.Tidy) : w.Barren := by
  intro more id payload hn hr
  obtain ⟨e, he⟩ := (h.lifeless hw ht).fails more id _ hn hr
  exact nomatch he

/-- A conversation that has not ended is not barren, if the kernel answers. -/
theorem not_barren (hw : w.Orderly) (ht : w.Tidy) (hd : ¬ w.Dead) (ha : w.Attentive) :
    ¬ w.Barren := by
  intro hb
  -- a number that no task has had so far
  obtain ⟨id, hid⟩ := Infinite.exists_notMem_finset (w.tasks.map (·.1)).toFinset
  have hn : w.task? id = none := by
    refine List.lookup_eq_none_iff.mpr fun t hmem => ?_
    simp only [List.mem_toFinset, List.mem_map, not_exists, not_and] at hid
    simpa using Ne.symm (hid t hmem)
  have hsize : [(10 : UInt8)].length ≤ w.wires.input.capacity := w.wires.input.capacity_pos
  obtain ⟨past, -, more, payload, hr⟩ := usable hw ht hd ha (List.cons_ne_nil 10 []) hsize id
  have hrun : (w.run (past ++ .call id [10] :: more)).callResult? id = some (.ok payload) := by
    rw [run_append]
    exact hr
  exact hb _ id payload hn hrun

/-! ## What the error of a call leaves behind -/

/-- The error is not classified as fatal, and the call that gets it in this stage has found the
conversation at its end. -/
def TellsEnd (before : Stage) (err : LinkError) : Prop :=
  err = .noResponse ∨ err = .cancelled ∨ (∃ cause, err = .stream cause) ∨
    ∃ text endsAt, err = .kernelStderr text ∧ before = .leaving endsAt

theorem TellsEnd.not_fatal (h : TellsEnd before err) : err.isFatal = false := by
  rcases h with rfl | rfl | ⟨cause, rfl⟩ | ⟨text, endsAt, rfl, -⟩
  · rfl
  · rfl
  · rfl
  · rfl

/-- A poll that gives a call an error leaves a conversation that admits no calls exactly if the
error is fatal or tells of the end. -/
theorem CallStep.error_iff {result : Result}
    (h : CallStep w id line before (.finished result) w' deeds) (hfit : before.Fits w.phase)
    (hr : result = .error err) :
    (∃ e, w'.phase.refusal = some e) ↔ err.isFatal = true ∨ TellsEnd before err := by
  cases h with
  | skip waits | fill waits => exact absurd waits Bool.false_ne_true
  | enterRefused next refusal =>
    obtain rfl := Except.error.inj hr
    have hfatal : ∀ {e}, w.phase.refusal = some e → e.isFatal = true := by
      intro e he
      rcases Phase.refusal_eq_some.mp he with ⟨why, -, rfl⟩ | ⟨-, rfl⟩
      · rfl
      · rfl
    exact iff_of_true ⟨_, refusal⟩ (.inl (hfatal refusal))
  | cancel =>
    obtain rfl := Except.error.inj hr
    exact iff_of_true ⟨_, rfl⟩ (.inr (.inr (.inl rfl)))
  | fail =>
    obtain rfl := Except.error.inj hr
    exact iff_of_true ⟨_, rfl⟩ (.inr (.inr (.inr (.inl ⟨_, rfl⟩))))
  | missing | garbled =>
    obtain rfl := Except.error.inj hr
    exact iff_of_true ⟨_, rfl⟩ (.inl rfl)
  | @reply deadline graceEnd text output envelope =>
    -- the kernel's own error leaves the phase as it is
    have hready : w.phase = .ready := hfit
    obtain ⟨message, stack, rfl⟩ : ∃ message stack, err = .kernel message stack := by
      cases envelope with
      | ok payload | bare payload => exact nomatch hr
      | fault message stack => exact ⟨message, stack, (Except.error.inj hr).symm⟩
    refine iff_of_false ?_ (by simp [LinkError.isFatal, TellsEnd])
    rintro ⟨e, he⟩
    have hnone : w.phase.refusal = some e := he
    rw [hready] at hnone
    exact nomatch hnone
  | report =>
    obtain rfl := Except.error.inj hr
    refine iff_of_false ?_ (by simp [LinkError.isFatal, TellsEnd])
    rintro ⟨e, he⟩
    exact nomatch he
  | overdue =>
    obtain rfl := Except.error.inj hr
    exact iff_of_true ⟨_, rfl⟩ (.inr (.inl rfl))
  | leave =>
    have hexited : w.phase = .exited := hfit
    refine iff_of_true ⟨.closed, ?_⟩ ?_
    · show w.phase.refusal = _
      rw [hexited]
      rfl
    · unfold lastWords at hr
      obtain rfl := Except.error.inj hr
      split
      · exact .inr (.inl rfl)
      · exact .inr (.inr (.inr (.inr ⟨_, _, rfl, rfl⟩)))

/-- The error that the event `e` gives the call `id` leaves a conversation that has ended, and is
not classified as fatal: it tells of the end, or a closing has begun. -/
def Overlooked (w : World) (e : Event) (id : Nat) (err : LinkError) : Prop :=
  (∃ line before, w.task? id = some (.call line before) ∧ TellsEnd before err) ∨
    err.isFatal = false ∧ (w.apply e).closed = true

theorem Overlooked.not_fatal (h : w.Overlooked e id err) : err.isFatal = false := by
  rcases h with ⟨_, _, -, htells⟩ | ⟨hfatal, -⟩
  · exact htells.not_fatal
  · exact hfatal

/-- What the classification of an error says that the event `e` gives the call `id`. -/
structure Classified (w : World) (e : Event) (id : Nat) (err : LinkError) : Prop where
  /-- After a fatal error no later call succeeds. -/
  fatal : err.isFatal = true → (w.apply e).Barren
  /-- After one that is overlooked none does either. -/
  overlooked : w.Overlooked e id err → err.isFatal = false ∧ (w.apply e).Barren
  /-- As far as the kernel answers, the classification is right exactly if the error is not one of
  those. -/
  exact : (w.apply e).Attentive →
    ((err.isFatal = true ↔ (w.apply e).Barren) ↔ ¬ w.Overlooked e id err)

/-- An error leaves a conversation that has ended exactly if it is fatal or overlooked. -/
theorem dead_iff (hw : w.Orderly) (ht : w.Tidy) (hn : w.callResult? id = none)
    (hr : (w.apply e).callResult? id = some (.error err)) :
    (w.apply e).Dead ↔ err.isFatal = true ∨ w.Overlooked e id err := by
  have hstep := apply_cases w e
  obtain ⟨line, hi⟩ := callResult?_eq_some.mp hr
  rcases hstep.call_cases hi with
    hs | ⟨-, -, ⟨-, hs⟩ | ⟨hclosed, hs⟩⟩ | ⟨before, hs, poll⟩ | ⟨-, htold, hs⟩
  · rw [callResult?_eq_some.mpr ⟨line, hs⟩] at hn
    exact nomatch hn
  · exact nomatch hs
  · obtain rfl := Except.error.inj (Stage.finished.inj hs)
    exact iff_of_true (.inl (hstep.closed_mono hclosed)) (.inl rfl)
  · -- a new error is one of a call that is polled, unless it says that the link is closed
    have herror := poll.error_iff (hw.fits hs) rfl
    constructor
    · rintro (hclosed | hrefused)
      · by_cases hfatal : err.isFatal = true
        · exact .inl hfatal
        · exact .inr (.inr ⟨by simpa using hfatal, hclosed⟩)
      · exact (herror.mp hrefused).imp_right fun htells => .inl ⟨line, before, hs, htells⟩
    · rintro (hfatal | ⟨line', before', hs', htells⟩ | ⟨-, hclosed⟩)
      · exact .inr (herror.mpr (.inl hfatal))
      · obtain ⟨-, rfl⟩ := call_inj hs hs'
        exact .inr (herror.mpr (.inr htells))
      · exact .inl hclosed
  · obtain rfl := Except.error.inj (Stage.finished.inj hs)
    refine iff_of_true (.inl (hstep.closed_mono ?_)) (.inl rfl)
    by_contra hopen
    rw [Bool.not_eq_true] at hopen
    rw [ht.going hopen] at htold
    exact nomatch htold

/-- What the classification of errors is worth. Whatever happens to a link, and whichever error a
call gets at some moment: after a fatal error no later call succeeds, nor after one that is
overlooked, and these are the only ones of which the classification is wrong while the kernel
answers. -/
theorem errors_classified (timing : Timing) (wires : Wires) (hopen : wires.input.writing = true)
    (events : List Event) (e : Event) (id : Nat) (err : LinkError)
    (hn : ((World.new timing wires).run events).callResult? id = none)
    (hr : (((World.new timing wires).run events).apply e).callResult? id = some (.error err)) :
    ((World.new timing wires).run events).Classified e id err := by
  have hw : ((World.new timing wires).run events).Orderly := (Orderly.new timing wires).run events
  have ht : ((World.new timing wires).run events).Tidy :=
    (Tidy.new timing hopen).run (Orderly.new timing wires) events
  generalize (World.new timing wires).run events = w at *
  have hw' : (w.apply e).Orderly := hw.step (apply_cases w e)
  have ht' : (w.apply e).Tidy := ht.step hw e
  have hdead := dead_iff hw ht hn hr
  refine ⟨fun hfatal => ?_, fun hover => ?_, fun ha => ?_⟩
  · exact (hdead.mpr (.inl hfatal)).barren hw' ht'
  · exact ⟨hover.not_fatal, (hdead.mpr (.inr hover)).barren hw' ht'⟩
  · -- with a kernel that is willing, a link that is not dead lets a call succeed
    have hbarren : (w.apply e).Barren ↔ (w.apply e).Dead := by
      refine ⟨fun hb => ?_, fun hd => hd.barren hw' ht'⟩
      by_contra hd
      exact not_barren hw' ht' hd ha hb
    rw [hbarren, hdead]
    constructor
    · intro hright hover
      have hfatal := hright.mpr (.inr hover)
      rw [hover.not_fatal] at hfatal
      exact Bool.false_ne_true hfatal
    · intro hnot
      exact ⟨.inl, fun h => h.resolve_right hnot⟩

/-- The kernel answers a call with an error of its own. -/
def faultRun : List Event :=
  [.call 0 [10], .poll 0, .poll 0, .poll 0,
    .kernelWrites (Text.Utf8.bytes "\x7b\"error\":\"e\"\x7d\n"), .poll 0]

/-- The kernel's own error is not fatal, and a later call can succeed after it. -/
theorem classified_fault :
    ((World.new ⟨1, 1, 0, 1, 9⟩ (.new 0 9)).run faultRun).callResult? 0 = none ∧
      (((World.new ⟨1, 1, 0, 1, 9⟩ (.new 0 9)).run faultRun).apply (.poll 0)).callResult? 0 =
        some (.error (.kernel "e" none)) ∧
      ((World.new ⟨1, 1, 0, 1, 9⟩ (.new 0 9)).run faultRun).Classified (.poll 0) 0
        (.kernel "e" none) ∧
      ¬ (((World.new ⟨1, 1, 0, 1, 9⟩ (.new 0 9)).run faultRun).apply (.poll 0)).Barren := by
  have hn : ((World.new ⟨1, 1, 0, 1, 9⟩ (.new 0 9)).run faultRun).callResult? 0 = none := by
    decide +kernel
  have hr : (((World.new ⟨1, 1, 0, 1, 9⟩ (.new 0 9)).run faultRun).apply (.poll 0)).callResult? 0 =
      some (.error (.kernel "e" none)) := by decide +kernel
  have hclassified := errors_classified _ _ rfl faultRun (.poll 0) 0 _ hn hr
  have hattentive :
      (((World.new ⟨1, 1, 0, 1, 9⟩ (.new 0 9)).run faultRun).apply (.poll 0)).Attentive :=
    ⟨by decide +kernel, by decide +kernel, by decide +kernel, by decide +kernel⟩
  have hnot : ¬ ((World.new ⟨1, 1, 0, 1, 9⟩ (.new 0 9)).run faultRun).Overlooked (.poll 0) 0
      (.kernel "e" none) := by
    rintro (⟨_, _, -, htells⟩ | ⟨-, hclosed⟩)
    · simp [TellsEnd] at htells
    · exact absurd hclosed (by decide +kernel)
  refine ⟨hn, hr, hclassified, fun hb => ?_⟩
  exact Bool.false_ne_true (((hclassified.exact hattentive).mpr hnot).mpr hb)

/-- The kernel answers a call with a byte that no character begins with. -/
def strayRun : List Event :=
  [.call 0 [10], .poll 0, .poll 0, .poll 0, .kernelWrites [0xFF, 10], .poll 0]

/-- A line that cannot be read is not fatal, and yet no later call can succeed. -/
theorem stray_byte_overlooked :
    (((World.new ⟨1, 1, 0, 1, 9⟩ (.new 0 9)).run strayRun).apply (.poll 0)).callResult? 0 =
        some (.error (.stream (.unreadable (.invalid 1 0)))) ∧
      (LinkError.stream (.unreadable (.invalid 1 0))).isFatal = false ∧
      (((World.new ⟨1, 1, 0, 1, 9⟩ (.new 0 9)).run strayRun).apply (.poll 0)).Barren := by
  have hphase : (((World.new ⟨1, 1, 0, 1, 9⟩ (.new 0 9)).run strayRun).apply (.poll 0)).phase =
      .poisoned (.unreadable (.invalid 1 0)) := by decide +kernel
  have hdead : (((World.new ⟨1, 1, 0, 1, 9⟩ (.new 0 9)).run strayRun).apply (.poll 0)).Dead :=
    .inr ⟨_, by rw [hphase]; rfl⟩
  have hw : ((World.new ⟨1, 1, 0, 1, 9⟩ (.new 0 9)).run (strayRun ++ [.poll 0])).Orderly :=
    (Orderly.new _ _).run _
  have ht : ((World.new ⟨1, 1, 0, 1, 9⟩ (.new 0 9)).run (strayRun ++ [.poll 0])).Tidy :=
    (Tidy.new _ rfl).run (Orderly.new _ _) _
  rw [run_concat] at hw ht
  exact ⟨by decide +kernel, rfl, hdead.barren hw ht⟩

end KernelLink.Session.World
