import KernelLink.Proofs.Session.Tally
/-!
# Lines are sent one after the other

What calls put into the kernel's input are the lines of the calls that have begun, in the order in
which they began. While a call writes, its line lacks what it has left to write; when nobody writes
and the conversation can go on, all lines are whole.

Main definitions:
* `World.callLine`, `World.sent`: the line of a call, and the lines of all calls that have begun.
* `World.Spelled`: what was written, as those lines.

Main results:
* `World.EventStep.sent`: the lines of calls that have begun stay as they are.
* `World.Spelled.step`: every event keeps what was written spelled.
-/
namespace KernelLink.Session.World

variable {w w' : World} {id : Nat} {line : List UInt8} {before after : Stage} {deeds : List Deed}
  {log : Log}

/-! ## The lines of calls -/

/-- The line of a call. -/
def callLine (w : World) (id : Nat) : List UInt8 :=
  match w.task? id with
  | some (.call line _) => line
  | some (.close _) | none => []

/-- The lines of the calls that have begun, in order. -/
def sent (w : World) (log : Log) : List (List UInt8) := (Log.begun log).map w.callLine

theorem callLine_eq (h : w.task? id = some (.call line before)) : w.callLine id = line := by
  unfold callLine
  rw [h]

/-- A call keeps its line, unless its caller goes away; only the stage changes. -/
theorem EventStep.callLine {e : Event} (h : EventStep w e w' deeds) (ha : e ≠ .abandon id)
    (ht : w.task? id = some (.call line before)) : w'.callLine id = line := by
  rcases h.call_goes ht ha with hsame | ⟨after, hself, -⟩ | ⟨-, hself⟩
  · exact callLine_eq hsame
  · exact callLine_eq hself
  · exact callLine_eq hself

/-- An event adds the lines of the calls that begin at it. -/
theorem EventStep.sent {e : Event} (hc : w.Tally log) (h : EventStep w e w' deeds)
    (ha : ∀ i, e = .abandon i → ∀ l s, w.task? i ≠ some (.call l s)) :
    w'.sent (log ++ deeds) = w.sent log ++ (Log.begun deeds).map w'.callLine := by
  have hold : (Log.begun log).map w'.callLine = (Log.begun log).map w.callLine := by
    refine List.map_congr_left fun q hq => ?_
    obtain ⟨l, stage, ht, -⟩ := hc.calls hq
    rw [callLine_eq ht]
    refine h.callLine ?_ ht
    rintro rfl
    exact ha q rfl l stage ht
  unfold World.sent
  rw [Log.begun_append, List.map_append, hold]

/-! ## What was written -/

/-- What was written are the lines of the calls that have begun. -/
structure Spelled (w : World) (log : Log) : Prop where
  /-- The last of them lacks what the call that writes has left to write. -/
  rest : ∀ {id line rest}, w.task? id = some (.call line (.writing rest)) →
    Log.written log ++ rest = (w.sent log).flatten
  /-- If nobody writes and the conversation can go on, they are whole. -/
  whole : w.phase.refusal = none →
    (∀ id line rest, w.task? id ≠ some (.call line (.writing rest))) →
    Log.written log = (w.sent log).flatten

theorem Spelled.new (timing : Timing) (wires : Wires) : (World.new timing wires).Spelled [] where
  rest h := absurd h (by simp [World.new, task?])
  whole _ _ := rfl

/-- A poll of a call that writes: it writes on, or it has written all, or the kernel is gone. -/
theorem CallStep.writesOn {rest : List UInt8}
    (h : CallStep w id line (.writing rest) after w' deeds) :
    Log.begun deeds = [] ∧
      ((∃ more, after = .writing more ∧ Log.written deeds ++ more = rest) ∨
        rest = [] ∧ Log.written deeds = [] ∧ (∀ more, after ≠ .writing more) ∨
        w'.phase = .exited ∧ ∀ more, after ≠ .writing more) := by
  cases h with
  | written => exact ⟨rfl, Or.inr (Or.inl ⟨rfl, rfl, by simp⟩)⟩
  | broken more shut => exact ⟨rfl, Or.inr (Or.inr ⟨rfl, by simp⟩)⟩
  | put more writing reading room =>
    refine ⟨rfl, Or.inl ⟨_, rfl, ?_⟩⟩
    have hone : Log.written [.wrote id (rest.take w.wires.input.room)] =
        rest.take w.wires.input.room := by simp [Log.written]
    rw [hone, List.take_append_drop]
  | cancel waits | skip waits | fail waits | gone waits | fill waits =>
    exact absurd waits Bool.false_ne_true

/-- A poll of another call: it begins to write its line, or it does not come to write. -/
theorem CallStep.comesToWrite (h : CallStep w id line before after w' deeds)
    (hfit : before.Fits w.phase) (hb : ∀ rest, before ≠ .writing rest) :
    Log.written deeds = [] ∧
      (Log.begun deeds = [id] ∧ after = .writing line ∧ w.phase.refusal = none ∨
        Log.begun deeds = [] ∧ (∀ more, after ≠ .writing more) ∧
          (w'.phase.refusal = none → w.phase.refusal = none)) := by
  cases h with
  | enterReady next phase => exact ⟨rfl, Or.inl ⟨rfl, rfl, by rw [phase]; rfl⟩⟩
  | @discard deadline text output going read inked =>
    have hphase : w.phase = .replyOutstanding := hfit
    exact ⟨rfl, Or.inl ⟨rfl, rfl, by rw [hphase]; rfl⟩⟩
  | skip waits | fill waits => exact ⟨rfl, Or.inr ⟨rfl, ne_writing_of_waits waits, fun h => h⟩⟩
  | report quiet due inked =>
    have hphase : w.phase = .ready := hfit
    exact ⟨rfl, Or.inr ⟨rfl, by simp, fun _ => by rw [hphase]; rfl⟩⟩
  | written | broken | put => exact absurd rfl (hb _)
  | cancel | fail | missing | garbled | overdue | gone =>
    exact ⟨rfl, Or.inr ⟨rfl, by simp, fun h => absurd h (Option.some_ne_none _)⟩⟩
  | _ => exact ⟨rfl, Or.inr ⟨rfl, by simp, fun h => h⟩⟩

/-- A poll of a call keeps what was written spelled: a piece that is written is the front of what
was left of the line of the one call that writes. -/
theorem Spelled.poll (hs : w.Spelled log) (hw : w.Orderly) (hc : w.Tally log)
    (ht : w.task? id = some (.call line before)) (h : CallStep w id line before after w' deeds) :
    w'.Spelled (log ++ deeds) := by
  have hsent := EventStep.sent hc (.step ht h) (by simp)
  have hself := h.self ht
  by_cases hb : ∃ rest, before = .writing rest
  · obtain ⟨rest, rfl⟩ := hb
    obtain ⟨hbegun, hcase⟩ := h.writesOn
    have hwas := hs.rest ht
    rw [hbegun, List.map_nil, List.append_nil] at hsent
    refine ⟨fun {i l more} hti => ?_, fun hp hnone => ?_⟩
    · obtain rfl := h.only_after hw ht hti rfl
      obtain ⟨-, rfl⟩ := call_inj hself hti
      rcases hcase with ⟨more', he, hsplit⟩ | ⟨-, -, hne⟩ | ⟨-, hne⟩
      · obtain rfl := Stage.writing.inj he
        rw [Log.written_append, List.append_assoc, hsplit, hwas, hsent]
      · exact absurd rfl (hne more)
      · exact absurd rfl (hne more)
    · rcases hcase with ⟨more, rfl, -⟩ | ⟨rfl, hnothing, -⟩ | ⟨hexit, -⟩
      · exact absurd hself (hnone id line more)
      · rw [Log.written_append, hnothing, hwas, hsent]
      · rw [hexit] at hp
        exact absurd hp (Option.some_ne_none _)
  · have hb' : ∀ rest, before ≠ .writing rest := fun rest he => hb ⟨rest, he⟩
    -- nobody else writes while this call is polled
    have hnobody : ∀ i l rest, w.task? i ≠ some (.call l (.writing rest)) := by
      intro i l rest hti
      obtain rfl := h.only hw ht hti rfl
      exact hb' rest (call_inj ht hti).2
    obtain ⟨hnothing, hcase⟩ := h.comesToWrite (hw.fits ht) hb'
    have hwritten : Log.written (log ++ deeds) = Log.written log := by
      rw [Log.written_append, hnothing, List.append_nil]
    refine ⟨fun {i l more} hti => ?_, fun hp hnone => ?_⟩
    · obtain rfl := h.only_after hw ht hti rfl
      obtain ⟨-, rfl⟩ := call_inj hself hti
      rcases hcase with ⟨hbegun, he, hphase⟩ | ⟨-, hne, -⟩
      · obtain rfl := Stage.writing.inj he
        rw [hsent, hbegun, List.map_singleton, callLine_eq hself, List.flatten_append,
          List.flatten_singleton, hwritten, hs.whole hphase hnobody]
      · exact absurd rfl (hne more)
    · rcases hcase with ⟨-, rfl, -⟩ | ⟨hbegun, -, hphase⟩
      · exact absurd hself (hnone id line line)
      · rw [hsent, hbegun, List.map_nil, List.append_nil, hwritten, hs.whole (hphase hp) hnobody]

/-- Every event keeps what was written spelled, unless a caller goes away. -/
theorem Spelled.step {e : Event} (hs : w.Spelled log) (hw : w.Orderly) (hc : w.Tally log)
    (h : EventStep w e w' deeds) (ha : ∀ i, e = .abandon i → ∀ l s, w.task? i ≠ some (.call l s)) :
    w'.Spelled (log ++ deeds) := by
  rcases h.poll_or_calm hw with ⟨id, line, before, after, rfl, task, poll⟩ | calm
  · exact hs.poll hw hc task poll
  · have hsent := h.sent hc ha
    rw [Log.begun_of_calm calm.log, List.map_nil, List.append_nil] at hsent
    have hwritten : Log.written (log ++ deeds) = Log.written log := by
      rw [Log.written_append, Log.written_of_calm calm.log, List.append_nil]
    refine ⟨fun {i l rest} hti => ?_, fun hp hnone => ?_⟩
    · rw [hwritten, hsent]
      exact hs.rest (calm.inTurn hti rfl)
    · rcases calm.phase with hphase | ⟨hexit, -⟩
      · rw [hwritten, hsent]
        refine hs.whole (hphase ▸ hp) fun i l rest hti => hnone i l rest ?_
        -- who writes has the turn, and keeps it
        have hheld : w'.holder = some i := by
          rcases calm.holder with hsame | ⟨j, rfl, hj, -⟩
          · rw [hsame]
            exact hw.turn hti rfl
          · obtain ⟨l', s, htj, -⟩ := hw.held hj
            exact absurd htj (ha j rfl l' s)
        obtain ⟨l', stage, hti', hturn⟩ := (hw.step h).held hheld
        obtain ⟨rfl, rfl⟩ := call_inj hti (calm.inTurn hti' hturn)
        exact hti'
      · rw [hexit] at hp
        exact absurd hp (Option.some_ne_none _)

/-- A call that waits for a reply finds all lines whole, since nobody can be in the middle of one.
-/
theorem Spelled.waiting (hs : w.Spelled log) (hw : w.Orderly)
    (ht : w.task? id = some (.call line before)) (hb : before.waits = true) :
    Log.written log = (w.sent log).flatten := by
  have hfit : before.Fits w.phase := hw.fits ht
  refine hs.whole ?_ fun i l rest hti => ?_
  · cases before with
    | discarding deadline => rw [show w.phase = .replyOutstanding from hfit]; rfl
    | awaiting deadline graceEnd => rw [show w.phase = .ready from hfit]; rfl
    | queued | writing | leaving | finished => exact absurd hb Bool.false_ne_true
  · have hheld := hw.turn hti rfl
    rw [hw.turn ht (Stage.inTurn_of_waits hb), Option.some.injEq] at hheld
    subst hheld
    exact ne_writing_of_waits hb rest (call_inj ht hti).2

end KernelLink.Session.World
