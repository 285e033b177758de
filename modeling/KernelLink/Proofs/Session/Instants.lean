import KernelLink.Proofs.Session.Fallback
/-!
# When error output is captured

The grace of a call is counted from the poll that notices error output, and when that poll comes is
up to whoever polls. What an onlooker can rely on is counted from the error output itself: the
buffer holds something only if something was captured since the call began to write, and the grace
that runs ends no earlier than a grace after the first of it.

Main definitions:
* `World.captureTimes`, `World.firstCapture`: the instants at which error output was captured.
* `World.Dated`: what the buffer and the grace of a call owe to the first of them.

Main result:
* `World.Reaches.dated`: this is so from the poll with which a call begins to write.
-/
namespace KernelLink.Session.World

variable {w w' : World} {id : Nat} {line : List UInt8} {before after stage : Stage}
  {deeds : List Deed} {e : Event} {past : List Event}

/-! ## The clock -/

theorem CallStep.now (h : CallStep w id line before after w' deeds) :
    w'.wires.now = w.wires.now := by
  cases h <;> rfl

theorem WireStep.now {v v' : Wires} (h : WireStep v v' deeds) : v.now ≤ v'.now := by
  cases h with
  | pass ms => exact Nat.le_add_right v.now ms
  | _ => exact Nat.le_refl v.now

theorem EventStep.now (h : EventStep w e w' deeds) (hw : w.Orderly) :
    w.wires.now ≤ w'.wires.now := by
  rcases h.poll_or_calm hw with ⟨i, l, before, after, -, -, poll⟩ | calm
  · exact Nat.le_of_eq poll.now.symm
  · exact calm.wires.now

/-- The clock never goes back, by induction on the events from the end. -/
theorem Orderly.now_run (hw : w.Orderly) (events : List Event) :
    w.wires.now ≤ (w.run events).wires.now := by
  induction events using List.reverseRecOn with
  | nil => exact Nat.le_refl w.wires.now
  | append_singleton past e ih =>
    rw [run_concat]
    have hstep := (apply_cases (w.run past) e).now (hw.run past)
    exact Nat.le_trans ih hstep

/-! ## Captured error output -/

/-- The instants at which error output was captured, in order. -/
def captureTimes (w : World) : List Event → List Nat
  | [] => []
  | e :: events =>
    (if Log.captured (w.deeds e) = [] then [] else [w.wires.now]) ++
      (w.apply e).captureTimes events

/-- The instant at which the first error output was captured. -/
def firstCapture (w : World) (events : List Event) : Option Nat := (w.captureTimes events).head?

/-- When error output was captured in a run in two parts. Induction on the earlier events. -/
theorem captureTimes_append (w : World) (past events : List Event) :
    w.captureTimes (past ++ events) =
      w.captureTimes past ++ (w.run past).captureTimes events := by
  induction past generalizing w with
  | nil => rfl
  | cons e past ih =>
    rw [List.cons_append, captureTimes, captureTimes, ih, List.append_assoc]
    rfl

theorem captureTimes_concat (w : World) (past : List Event) (e : Event) :
    w.captureTimes (past ++ [e]) = w.captureTimes past ++
      if Log.captured ((w.run past).deeds e) = [] then [] else [(w.run past).wires.now] := by
  rw [captureTimes_append]
  congr 1
  exact List.append_nil _

/-- What was captured first stays what was captured first, whatever is captured after it. -/
theorem firstCapture_append {t : Nat} (h : w.firstCapture past = some t) (events : List Event) :
    w.firstCapture (past ++ events) = some t := by
  unfold firstCapture at *
  rw [captureTimes_append, List.head?_append, h]
  rfl

/-- An event that captures nothing does not change when the first capture was. -/
theorem firstCapture_concat (h : Log.captured ((w.run past).deeds e) = []) :
    w.firstCapture (past ++ [e]) = w.firstCapture past := by
  unfold firstCapture
  rw [captureTimes_concat, if_pos h, List.append_nil]

theorem firstCapture_isSome (h : Log.captured ((w.run past).deeds e) ≠ []) :
    ∃ t, w.firstCapture (past ++ [e]) = some t := by
  unfold firstCapture
  rw [captureTimes_concat, if_neg h]
  cases w.captureTimes past with
  | nil => exact ⟨_, rfl⟩
  | cons t times => exact ⟨t, rfl⟩

theorem Orderly.captureTimes_le (hw : w.Orderly) (events : List Event) {t : Nat}
    (ht : t ∈ w.captureTimes events) : t ≤ (w.run events).wires.now := by
  induction events using List.reverseRecOn with
  | nil => exact absurd ht List.not_mem_nil
  | append_singleton past e ih =>
    have hstep := (apply_cases (w.run past) e).now (hw.run past)
    rw [captureTimes_concat, List.mem_append] at ht
    rw [run_concat]
    rcases ht with hbefore | hnow
    · exact Nat.le_trans (ih hbefore) hstep
    · split at hnow
      · exact absurd hnow List.not_mem_nil
      · rw [List.mem_singleton.mp hnow]
        exact hstep

theorem Orderly.firstCapture_le (hw : w.Orderly) (events : List Event) {t : Nat}
    (ht : w.firstCapture events = some t) : t ≤ (w.run events).wires.now :=
  hw.captureTimes_le events (List.mem_of_head? ht)

/-! ## Since a call began to write -/

/-- What is in the buffer was captured during `events`, and the grace of the call ends no earlier
than a grace after the first of it. -/
structure Dated (w : World) (id : Nat) (events : List Event) : Prop where
  /-- The buffer holds nothing older. -/
  bytes : (w.run events).wires.buffer.bytes ≠ [] → ∃ t, w.firstCapture events = some t
  /-- The grace has not begun earlier. -/
  grace : ∀ {line stage graceAt}, (w.run events).task? id = some (.call line stage) →
    stage.graceEnd = some graceAt →
    ∃ t, w.firstCapture events = some t ∧ t + w.timing.stderrGrace ≤ graceAt

/-- A poll captures nothing, so the date of the first capture stays; a grace that it arms begins at
the moment of the poll, and nothing was captured later than that. -/
theorem Dated.poll (h : w.Dated id past) (hw : w.Orderly)
    (ht : (w.run past).task? id = some (.call line before))
    (hpoll : CallStep (w.run past) id line before after ((w.run past).apply e)
      ((w.run past).deeds e)) : w.Dated id (past ++ [e]) := by
  have hfirst : w.firstCapture (past ++ [e]) = w.firstCapture past :=
    firstCapture_concat hpoll.captured
  refine ⟨?_, ?_⟩
  · intro hbytes
    rw [run_concat] at hbytes
    rw [hfirst]
    obtain ⟨-, ⟨hsame, -⟩ | ⟨hempty, -⟩⟩ := hpoll.buffer
    · exact h.bytes (hsame ▸ hbytes)
    · exact absurd hempty hbytes
  · intro l s graceAt hs hg
    rw [run_concat] at hs
    obtain ⟨-, rfl⟩ := call_inj (hpoll.self ht) hs
    rw [hfirst]
    by_cases hbefore : before.graceEnd = some graceAt
    · exact h.grace ht hbefore
    · -- the grace begins with this poll, and so behind all that was captured
      obtain ⟨-, -, hbytes, hat⟩ := hpoll.noticed hbefore hg
      obtain ⟨t, hfirst⟩ := h.bytes hbytes
      have hle := hw.firstCapture_le past hfirst
      rw [hw.timing_run] at hat
      exact ⟨t, hfirst, by omega⟩

/-- What the others do does not touch the call, so its grace stays; a capture is dated by the moment
at which it happens. -/
theorem Dated.calm (h : w.Dated id past)
    (ht : (w.run past).task? id = some (.call line stage))
    (hcalm : Calm (w.run past) e ((w.run past).apply e) ((w.run past).deeds e))
    (hsame : ((w.run past).apply e).task? id = some (.call line stage)) :
    w.Dated id (past ++ [e]) := by
  refine ⟨?_, ?_⟩
  · intro hbytes
    rw [run_concat] at hbytes
    by_cases hcaptured : Log.captured ((w.run past).deeds e) = []
    · rw [firstCapture_concat hcaptured]
      refine h.bytes fun hempty => hbytes ?_
      obtain ⟨-, ⟨hkept, -⟩ | hnewest⟩ := hcalm.wires.buffer
      · rw [hkept, hempty]
      · rw [hnewest, hempty, hcaptured]
        exact List.suffix_nil.mp (Stderr.Buffer.newest_suffix _ [])
    · exact firstCapture_isSome hcaptured
  · intro l s graceAt hs hg
    rw [run_concat] at hs
    obtain ⟨-, rfl⟩ := call_inj hsame hs
    obtain ⟨t, hfirst, hle⟩ := h.grace ht hg
    exact ⟨t, firstCapture_append hfirst [e], hle⟩

/-- When a call begins to write, nothing is left in the buffer and no grace runs. -/
theorem CallStep.cleared (h : CallStep w id line before after w' deeds)
    (hb : before.sends = false) (ha : after.sends = true) :
    w'.wires.buffer.bytes = [] ∧ after.graceEnd = none := by
  cases h with
  | enterReady next phase => exact ⟨rfl, rfl⟩
  | discard going read inked => exact ⟨rfl, rfl⟩
  | skip | fill =>
    rw [hb] at ha
    exact absurd ha Bool.false_ne_true
  | written | put | stale | arm | disarm => exact absurd hb.symm Bool.false_ne_true
  | _ => exact absurd ha Bool.false_ne_true

/-- From the poll with which a call begins to write until it has a result, the buffer and the grace
are dated. -/
theorem Reaches.dated (h : w.Reaches Stage.sends id) (hw : w.Orderly) (events : List Event)
    (hkept : .abandon id ∉ events) (hn : (w.run (.poll id :: events)).callResult? id = none) :
    w.Dated id (.poll id :: events) := by
  obtain ⟨line, before, after, ht, hb, ha, hpoll⟩ := h.poll fun _ => Stage.inTurn_of_sends
  have hself := hpoll.self ht
  obtain ⟨hempty, hidle⟩ := hpoll.cleared hb ha
  have hnow : (w.apply (.poll id)).Orderly := hw.step (apply_cases w _)
  have hfirst : w.Dated id [.poll id] := by
    refine ⟨fun hbytes => absurd hempty hbytes, ?_⟩
    intro l s graceAt hs hg
    obtain ⟨-, rfl⟩ := call_inj hself hs
    rw [hidle] at hg
    exact absurd hg.symm (Option.some_ne_none graceAt)
  rcases hnow.along (P := fun past => w.Dated id (.poll id :: past)) hself
    (Stage.inTurn_of_sends ha) hfirst
    (fun hpast task _ poll _ => hpast.poll hw task poll)
    (fun hpast task _ calm hsame => hpast.calm task calm hsame) events hkept with
    ⟨result, hr⟩ | ⟨-, hdated⟩
  · rw [show (w.run (.poll id :: events)).callResult? id = some result from hr] at hn
    exact absurd hn (Option.some_ne_none result)
  · exact hdated

end KernelLink.Session.World
