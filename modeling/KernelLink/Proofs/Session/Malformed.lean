import KernelLink.Proofs.Session.Over
/-!
# Lines that are no document

A line that is no document says that requests and replies can no longer be matched. A call that
takes such a line for its own reply ends the conversation for good, and so does any call that takes
a line that is not UTF-8. A call that throws a late reply away does not look at what it throws away:
it goes on with any line that is UTF-8, and then the late reply itself becomes the result of that
call.

Main definition:
* `isDocument`: the lines that can be a reply.

Main results:
* `World.malformed_seals_iff`: when a line that is no document ends the conversation.
* `World.garbage_for_late_reply`: a run in which it does not.
-/
namespace KernelLink.Session

open Host (Delivery)

/-- Is the line a document? -/
def isDocument : Delivery → Bool
  | .line text =>
    match Envelope.decodeLine text with
    | .ok _ => true
    | .error _ => false
  | .unreadable _ | .ended => false

theorem isDocument_of_ok {text : String} {envelope : Envelope}
    (h : Envelope.decodeLine text = .ok envelope) : isDocument (.line text) = true := by
  simp only [isDocument, h]

namespace World

variable {w w' : World} {id : Nat} {line : List UInt8} {before after : Stage} {deeds : List Deed}

/-- A call that takes a line that is no document either ends the conversation, or it takes that line
for a late reply and begins. -/
theorem CallStep.malformed {i : Nat} {d : Delivery} (h : CallStep w id line before after w' deeds)
    (ht : .took i d ∈ deeds) (hd : isDocument d = false) :
    ((∃ why, w'.phase = .poisoned why) ∧ (∃ result, after = .finished result) ∧
      ((∃ deadline graceEnd, before = .awaiting deadline graceEnd) ∨
        ∃ fault, d = .unreadable fault)) ∨
    w'.phase = .ready ∧ (∃ deadline, before = .discarding deadline) ∧ ∃ text, d = .line text := by
  cases h with
  | @fail before fault output waits going read =>
    rw [List.mem_singleton, Deed.took.injEq] at ht
    exact Or.inl ⟨⟨_, rfl⟩, ⟨_, rfl⟩, Or.inr ⟨fault, ht.2⟩⟩
  | @discard deadline text output going read inked =>
    rw [List.mem_cons, Deed.took.injEq, List.mem_singleton] at ht
    rcases ht with ht | ht
    · exact Or.inr ⟨rfl, ⟨deadline, rfl⟩, text, ht.2⟩
    · exact Deed.noConfusion ht
  | reply going read inked decoded =>
    rw [List.mem_singleton, Deed.took.injEq] at ht
    rw [ht.2, isDocument_of_ok decoded] at hd
    exact absurd hd.symm Bool.false_ne_true
  | @garbled deadline graceEnd text output cause going read inked undecoded =>
    exact Or.inl ⟨⟨_, rfl⟩, ⟨_, rfl⟩, Or.inl ⟨deadline, graceEnd, rfl⟩⟩
  | _ => exact absurd ht (by simp)

/-- In whatever state a link can be: when a call takes a line that is no document, the conversation
is over for good, unless the call takes a line of UTF-8 for a late reply. -/
theorem malformed_seals_iff (timing : Timing) (wires : Wires) (events : List Event) (id : Nat)
    (d : Delivery) (ht : .took id d ∈ ((World.new timing wires).run events).deeds (.poll id))
    (hd : isDocument d = false) :
    ((∃ why, (((World.new timing wires).run events).apply (.poll id)).phase = .poisoned why) ∧
      (((World.new timing wires).run events).apply (.poll id)).Sealed) ↔
    ((∃ line deadline graceEnd, ((World.new timing wires).run events).task? id =
        some (.call line (.awaiting deadline graceEnd))) ∨
      ∃ fault, d = .unreadable fault) := by
  have hw : ((World.new timing wires).run events).Orderly := (Orderly.new timing wires).run events
  generalize (World.new timing wires).run events = w at ht hw ⊢
  have hstep := apply_cases w (.poll id)
  rcases hstep.poll_or_calm hw with ⟨i, line, before, after, he, task, poll⟩ | calm
  · obtain rfl := Event.poll.inj he
    rcases poll.malformed ht hd with ⟨⟨why, hphase⟩, ⟨result, rfl⟩, hcase⟩ |
      ⟨hphase, ⟨deadline, rfl⟩, text, rfl⟩
    · -- the call that took the line lets go of its turn, so nobody is left who could go on
      have hover : (w.apply (.poll id)).Over :=
        Over.of_free (hw.call task poll) (poll.turn hw task) (by rw [hphase]; rfl)
      refine ⟨fun _ => ?_, fun _ => ⟨⟨why, hphase⟩, hover.sealed (hw.step hstep)⟩⟩
      rcases hcase with ⟨deadline, graceEnd, rfl⟩ | hfault
      · exact Or.inl ⟨line, deadline, graceEnd, task⟩
      · exact Or.inr hfault
    · refine ⟨fun ⟨⟨why, hp⟩, _⟩ => ?_, fun hcase => ?_⟩
      · rw [hphase] at hp
        exact Phase.noConfusion hp
      · rcases hcase with ⟨l, deadline', graceEnd, hs⟩ | ⟨fault, hf⟩
        · rw [task] at hs
          exact absurd hs (by simp)
        · exact Delivery.noConfusion hf
  · exact absurd (calm.log _ ht).symm Bool.false_ne_true

/-- Garbage in the place of a call's own reply ends the conversation. -/
theorem garbage_seals :
    (.took 0 (.line "garbage")) ∈
      ((World.new ⟨1, 1, 0, 1, 9⟩ (.new 0 9)).run
        [.call 0 [10], .poll 0, .poll 0, .poll 0, .kernelWrites (Text.Utf8.bytes "garbage\n"),
          .poll 0]).deeds (.poll 0) ∧
    isDocument (.line "garbage") = false ∧
    (((World.new ⟨1, 1, 0, 1, 9⟩ (.new 0 9)).run
        [.call 0 [10], .poll 0, .poll 0, .poll 0, .kernelWrites (Text.Utf8.bytes "garbage\n"),
          .poll 0]).apply (.poll 0)).Sealed := by
  have ht : .took 0 (.line "garbage") ∈
      ((World.new ⟨1, 1, 0, 1, 9⟩ (.new 0 9)).run
        [.call 0 [10], .poll 0, .poll 0, .poll 0, .kernelWrites (Text.Utf8.bytes "garbage\n"),
          .poll 0]).deeds (.poll 0) := by decide +kernel
  have hd : isDocument (.line "garbage") = false := by decide +kernel
  refine ⟨ht, hd, ((malformed_seals_iff _ _ _ 0 _ ht hd).mpr (Or.inl ⟨[10], 1, none, ?_⟩)).2⟩
  rfl

/-! ## Garbage in the place of a late reply -/

/-- The first call fails with error output. The second waits for the late reply, and the kernel
writes a line of garbage, which is about to be taken. -/
def garbageRun : List Event :=
  let line := Text.Utf8.bytes (Request.del ⟨"a"⟩).line
  [.call 0 line, .call 1 line, .poll 0, .poll 0, .poll 0, .kernelTakes 43, .kernelReports [98],
    .capture, .capture, .poll 0, .poll 0, .poll 1, .kernelWrites (Text.Utf8.bytes "garbage\n"),
    .poll 1]

/-- The second call sends its request, and the kernel at last replies to the first. -/
def garbageRest : List Event :=
  [.poll 1, .poll 1, .kernelWrites (Text.Utf8.bytes "\"late\"\n"), .poll 1, .poll 1]

/-- The conversation goes on after the garbage, and the late reply to the first call becomes the
result of the second. -/
theorem garbage_for_late_reply :
    (.took 1 (.line "garbage")) ∈
      ((World.new ⟨1, 1, 0, 1, 9⟩ (.new 0 9)).run garbageRun).deeds (.poll 1) ∧
    isDocument (.line "garbage") = false ∧
    ¬ ((∃ why, (((World.new ⟨1, 1, 0, 1, 9⟩ (.new 0 9)).run garbageRun).apply (.poll 1)).phase =
          .poisoned why) ∧
        (((World.new ⟨1, 1, 0, 1, 9⟩ (.new 0 9)).run garbageRun).apply (.poll 1)).Sealed) ∧
    ((World.new ⟨1, 1, 0, 1, 9⟩ (.new 0 9)).run
      (garbageRun ++ .poll 1 :: garbageRest)).callResult? 1 = some (.ok (.str "late")) := by
  refine ⟨by decide +kernel, by decide +kernel, fun ⟨⟨why, hp⟩, _⟩ => ?_, by decide +kernel⟩
  have hready : (((World.new ⟨1, 1, 0, 1, 9⟩ (.new 0 9)).run garbageRun).apply (.poll 1)).phase =
      .ready := by decide +kernel
  rw [hready] at hp
  exact Phase.noConfusion hp

end World
end KernelLink.Session
