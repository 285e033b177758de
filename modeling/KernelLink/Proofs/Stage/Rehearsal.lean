import KernelLink.Proofs.Session.Launched
import KernelLink.Stage.Play
/-!
# What a rehearsal shows

A rehearsed kernel has nothing but its ends of the pipes, so a rehearsal is a launch followed by a
run of the link that the launch handed over, and what is proved of all such runs is seen in it. What
the kernel has read is what the link has written, in order and without gaps. What its manager was
asked is noted once, and the notes of the steps, one after the other, are all of them.

Main definitions:
* `Rehearsal.intake`: the bytes that the kernel has read.
* `Rehearsal.Acts`: the things that a rehearsed kernel does.

Main results:
* `Rehearsal.faithful`: a rehearsed kernel has only its ends of the pipes.
* `Rehearsal.act_intake`: nothing that was written is read twice or passed over.
* `Play.follows_steps`, `perform_follows`: a rehearsal is a run of the link.
* `Play.notes_steps`: the notes of the steps are all the notes there are.
-/
namespace KernelLink.Stage

open Session (Backend Client Scene Wires)

namespace Rehearsal

variable {w w' : Wires} {r r' : Rehearsal}

/-! ## The kernel's ends of the pipes -/

/-- Taking bytes from the front of the input is an event of the link. -/
theorem flows_take {rest : List UInt8} (n : Nat) (h : w.input.bytes.drop n = rest) :
    w.Flows { w with input := { w.input with bytes := rest } } :=
  .of_event (e := .kernelTakes n) rfl (by rw [← h]; rfl)

/-- The end of the process closes its ends of the three pipes, one after the other. -/
theorem flows_hangUp (w : Wires) : w.Flows w.hangUp :=
  ((Wires.Flows.of_event (e := .kernelClosesInput) rfl rfl).trans
    (.of_event (e := .kernelClosesOutput) rfl rfl)).trans
    (.of_event (e := .kernelClosesErrors) rfl rfl)

/-- The bytes that the kernel has read, in order. -/
def intake (r : Rehearsal) : List UInt8 := r.received.reverse.flatten ++ r.lineStart

/-- The kernel has read something off the front of its input, perhaps nothing, and done no more. -/
inductive Reads (w : Wires) (r : Rehearsal) : Wires → Rehearsal → Prop where
  /-- So many bytes were taken. -/
  | front (n : Nat) {rest : List UInt8} {r' : Rehearsal} (left : w.input.bytes.drop n = rest)
      (intake : r'.intake = r.intake ++ w.input.bytes.take n) (notes : r'.notes = r.notes) :
      Reads w r { w with input := { w.input with bytes := rest } } r'
  /-- None were. -/
  | none {r' : Rehearsal} (intake : r'.intake = r.intake) (notes : r'.notes = r.notes) :
      Reads w r w r'

/-- What reading gives, if it gives anything, was read off the front of the input. -/
def Taken.Fits (w : Wires) (r : Rehearsal) : Taken → Prop
  | .line w' r' | .part w' r' => Reads w r w' r'
  | .nothing | .ended => True

/-- A line feed ends the line that had begun, a part of a line is put behind the part that was
there, and the end of the input makes a line of what was there. -/
theorem takeLine_fits (w : Wires) (r : Rehearsal) : (takeLine w r).Fits w r := by
  unfold takeLine
  split
  · trivial
  · -- the bytes up to the first line feed and the rest of them are all of the input
    have hspan := List.takeWhile_append_dropWhile (p := (· != 10)) (l := w.input.bytes)
    rw [List.span_eq_takeWhile_dropWhile]
    generalize w.input.bytes.takeWhile (· != 10) = line at hspan
    generalize w.input.bytes.dropWhile (· != 10) = behind at hspan
    split
    · next line' nl rest heq =>
      cases heq
      refine .front (line.length + 1) ?_ ?_ rfl
      · rw [← hspan]
        simp
      · rw [← hspan]
        simp [intake, List.take_append]
    · split
      · trivial
      · split
        · trivial
        · exact .none (by simp [intake]) rfl
    · next part _ heq =>
      cases heq
      rw [List.append_nil] at hspan
      refine .front w.input.bytes.length (by simp) ?_ rfl
      rw [hspan]
      simp [intake]

/-- What a rehearsed kernel reads it takes from the front of its input, as any kernel might. -/
theorem Reads.flows (h : Reads w r w' r') : w.Flows w' := by
  cases h with
  | front n left => exact flows_take n left
  | none => exact .refl w

/-- What was read and what is left of the input are what they were together before. -/
theorem Reads.conserves (h : Reads w r w' r') :
    r'.intake ++ w'.input.bytes = r.intake ++ w.input.bytes := by
  cases h with
  | front n left intake =>
    show r'.intake ++ _ = _
    rw [intake, ← left, List.append_assoc, List.take_append_drop]
  | none intake =>
    rw [intake]

/-! ## What the kernel does -/

/-- One thing that the kernel does. -/
inductive Acts (w : Wires) (r : Rehearsal) : Wires → Rehearsal → Prop where
  /-- It reads, or does nothing that reaches the link. -/
  | reads {w' : Wires} {r' : Rehearsal} (reads : Reads w r w' r') : Acts w r w' r'
  /-- It writes to its output. -/
  | writes (bytes : List UInt8) {r' : Rehearsal} (writing : w.output.writing = true)
      (intake : r'.intake = r.intake) (notes : r'.notes = r.notes) :
      Acts w r { w with output := w.output.put bytes } r'
  /-- It writes to its error output. -/
  | reports (bytes : List UInt8) {r' : Rehearsal} (writing : w.errors.writing = true)
      (intake : r'.intake = r.intake) (notes : r'.notes = r.notes) :
      Acts w r { w with errors := w.errors.put bytes } r'
  /-- It closes its output. -/
  | closesOutput {r' : Rehearsal} (intake : r'.intake = r.intake) (notes : r'.notes = r.notes) :
      Acts w r { w with output := w.output.closeWriting } r'
  /-- It closes its error output. -/
  | closesErrors {r' : Rehearsal} (intake : r'.intake = r.intake) (notes : r'.notes = r.notes) :
      Acts w r { w with errors := w.errors.closeWriting } r'
  /-- It closes its input. -/
  | closesInput {r' : Rehearsal} (intake : r'.intake = r.intake) (notes : r'.notes = r.notes) :
      Acts w r { w with input := w.input.closeReading } r'
  /-- It ends. -/
  | ends {r' : Rehearsal} (intake : r'.intake = r.intake) (notes : r'.notes = r.notes) :
      Acts w r w.hangUp r'

/-- What reading gives is something the kernel does, whatever becomes of the script. -/
theorem acts_of_reads (h : Reads w r w' r') (script : List Action) :
    Acts w r w' { r' with script := script } := by
  refine .reads ?_
  cases h with
  | front n left intake notes => exact .front n left intake notes
  | none intake notes => exact .none intake notes

/-- Writing puts bytes into a pipe that is open at both ends and has room, or gives up. -/
theorem emit_acts {toErrors : Bool} {bytes : List UInt8} {p : Wires × Rehearsal}
    (h : emit w r toErrors bytes = some p) : Acts w r p.1 p.2 := by
  cases toErrors with
  | true =>
    simp only [emit, if_true] at h
    split at h
    · cases h
      exact .reads (.none rfl rfl)
    · next hopen =>
      split at h
      · exact nomatch h
      · cases h
        exact .reports _ (by simp_all) rfl rfl
  | false =>
    simp only [emit, Bool.false_eq_true, if_false] at h
    split at h
    · cases h
      exact .reads (.none rfl rfl)
    · next hopen =>
      split at h
      · exact nomatch h
      · cases h
        exact .writes _ (by simp_all) rfl rfl

/-- After its script the kernel reads on, and ends when its input does. -/
theorem epilogue_acts {p : Wires × Rehearsal} (h : epilogue w r = some p) :
    Acts w r p.1 p.2 := by
  have hfits := takeLine_fits w r
  unfold epilogue at h
  split at h
  · exact nomatch h
  · split at h
    · next heq =>
      cases h
      rw [heq] at hfits
      exact .reads hfits
    · next heq =>
      cases h
      rw [heq] at hfits
      exact .reads hfits
    · exact nomatch h
    · split at h
      · exact nomatch h
      · cases h
        exact .ends rfl rfl

/-- Each action of a script is one of the things that a kernel does. -/
theorem perform_acts {script : List Action} {p : Wires × Rehearsal}
    (h : perform w r script = some p) : Acts w r p.1 p.2 := by
  cases script with
  | nil => exact epilogue_acts h
  | cons action rest =>
    cases action with
    | out | err | sleep =>
      cases h
      exact .reads (.none rfl rfl)
    | read =>
      -- what is read is what the script was waiting for, or it stops with a note about it
      have hfits := takeLine_fits w r
      simp only [perform] at h
      split at h
      · next heq =>
        cases h
        rw [heq] at hfits
        exact acts_of_reads hfits rest
      · next heq =>
        cases h
        rw [heq] at hfits
        exact .reads hfits
      · exact nomatch h
      · cases h
        exact .reads (.none rfl rfl)
    | closeIn =>
      cases h
      exact .closesInput rfl rfl
    | closeOut =>
      cases h
      exact .closesOutput rfl rfl
    | closeErr =>
      cases h
      exact .closesErrors rfl rfl
    | exit =>
      cases h
      exact .ends rfl rfl

/-- Whatever the kernel does is one of these things: it ends, goes on with what it writes, wakes up,
or goes on with its script. -/
theorem act_cases {p : Wires × Rehearsal} (h : act w r = some p) : Acts w r p.1 p.2 := by
  unfold act at h
  split at h
  · exact nomatch h
  · split at h
    · cases h
      exact .ends rfl rfl
    · split at h
      · exact emit_acts h
      · split at h
        · cases h
          exact .reads (.none rfl rfl)
        · exact nomatch h
      · exact perform_acts h

/-- Each of them is something that happens to the wires alone. -/
theorem Acts.flows (h : Acts w r w' r') : w.Flows w' := by
  cases h with
  | reads reads => exact reads.flows
  | writes bytes writing =>
    refine .of_event (e := .kernelWrites bytes) rfl ?_
    show (if w.output.writing then _ else _) = _
    rw [if_pos writing]
    rfl
  | reports bytes writing =>
    refine .of_event (e := .kernelReports bytes) rfl ?_
    show (if w.errors.writing then _ else _) = _
    rw [if_pos writing]
    rfl
  | closesOutput => exact .of_event (e := .kernelClosesOutput) rfl rfl
  | closesErrors => exact .of_event (e := .kernelClosesErrors) rfl rfl
  | closesInput => exact .of_event (e := .kernelClosesInput) rfl rfl
  | ends => exact flows_hangUp w

/-- A kernel that acts on its own makes no notes; only its manager does. -/
theorem Acts.notes (h : Acts w r w' r') : r'.notes = r.notes := by
  cases h with
  | reads reads => cases reads <;> assumption
  | _ => assumption

/-- As long as its input is open, nothing that was written to the kernel is read twice or passed
over: what it has read, and what it has yet to read, is what it was. -/
theorem act_intake {p : Wires × Rehearsal} (h : act w r = some p)
    (hopen : p.1.input.reading = true) :
    p.2.intake ++ p.1.input.bytes = r.intake ++ w.input.bytes := by
  obtain ⟨w', r'⟩ := p
  cases act_cases h with
  | reads reads => exact reads.conserves
  | writes bytes writing intake | reports bytes writing intake | closesOutput intake
  | closesErrors intake => rw [intake]
  | closesInput | ends => exact absurd hopen Bool.false_ne_true

/-- A rehearsed kernel has only its ends of the pipes. Of what its manager is asked, nothing but
killing it reaches the link. -/
theorem faithful : backend.Faithful where
  act h := (act_cases h).flows
  start now c v r := by
    cases c with
    | forceKill => exact flows_hangUp v
    | _ => exact .refl v
  look since now c v r := by
    cases c with
    | wait limit =>
      show v.Flows (look since now (.wait limit) (v, r)).2.1
      unfold look
      dsimp only
      split
      · exact .refl v
      · split
        · exact .refl v
        · split <;> exact .refl v
    | cleanup =>
      show v.Flows (look since now .cleanup (v, r)).2.1
      unfold look
      dsimp only
      split <;> exact .refl v
    | _ => exact .refl v

/-- Notes are only ever added, the latest in front: the kernel adds none, and its manager adds one
or two when it is told to begin something. -/
theorem leads_notes : backend.Leads fun r r' => r.notes <:+ r'.notes where
  refl _ := List.suffix_refl _
  trans := List.IsSuffix.trans
  act h := by
    rw [(act_cases h).notes]
  start now c v r := by
    cases c with
    | currentPid => exact List.suffix_refl _
    | forceKill => exact (List.suffix_cons _ _).trans (List.suffix_cons _ _)
    | _ => exact List.suffix_cons _ _
  look since now c v r := by
    cases c with
    | wait limit =>
      show r.notes <:+ (look since now (.wait limit) (v, r)).2.2.notes
      unfold look
      dsimp only
      split
      · exact List.suffix_refl _
      · split
        · exact List.suffix_refl _
        · split <;> exact List.suffix_refl _
    | cleanup =>
      show r.notes <:+ (look since now .cleanup (v, r)).2.2.notes
      unfold look
      dsimp only
      split <;> exact List.suffix_refl _
    | _ => exact List.suffix_refl _

end Rehearsal

/-! ## Steps -/

namespace Play

open Rehearsal (backend faithful leads_notes)

variable {w : Session.World} {c : Client Rehearsal} {p : Play}

/-- What a step asks for begins as an event of the link, or is answered at once. -/
theorem follows_begin (h : c.Follows w) (ask : Ask) : (begin c ask).1.Follows w := by
  cases ask with
  | call r | request r => exact h.beginCall r
  | close => exact h.beginClose
  | malformed | sleep | isRunning | received | info => exact h

/-- A rehearsal that waits for something is still a launched link and a run of it. -/
theorem follows_await (h : c.Follows w) (job : Job) : (await c job).2.Follows w := by
  cases job with
  | call id | request id | close id => exact h.await faithful id
  | timer endsAt => exact h.sleep faithful _
  | answered answer => exact h

theorem follows_pause (h : p.client.Follows w) : p.pause.client.Follows w := by
  have hsettled := h.settle faithful
  unfold pause
  dsimp only
  split
  · exact hsettled
  · exact hsettled.skip faithful 1

/-- A step is a run of the link: what it asks for begins, and whatever is done until it is answered,
or until the pause after it is over, is done to the link. -/
theorem follows_step (h : p.client.Follows w) (s : Step Ask) : (p.step s).1.client.Follows w := by
  have hrest : ∀ (q : Play) (began : Nat), q.client.Follows w →
      (if began < q.client.now then { q with pauses := 0 } else q).client.Follows w := by
    intro q began hq
    split <;> exact hq
  cases s with
  | wait ask => exact hrest _ _ (follows_await (follows_begin h ask) _)
  | start name ask => exact hrest _ _ (follows_pause (follows_begin h ask))
  | join name =>
    unfold step
    dsimp only
    refine hrest _ _ ?_
    split
    · exact h
    · exact follows_await h _

/-- So is one step after another, by induction on the steps. -/
theorem follows_steps (h : p.client.Follows w) (ss : List (Step Ask)) :
    (p.steps ss).1.client.Follows w := by
  induction ss generalizing p with
  | nil => exact h
  | cons s rest ih => exact ih (follows_step h s)

/-! ## Notes -/

/-- The notes of the kernel behind a client. -/
def notesOf (c : Client Rehearsal) : List Note := c.scene.side.notes

theorem notes_begin (c : Client Rehearsal) (ask : Ask) : notesOf (begin c ask).1 = notesOf c := by
  cases ask <;> rfl

theorem notes_await (c : Client Rehearsal) (job : Job) : notesOf c <:+ notesOf (await c job).2 := by
  have hcourse := Scene.course_side leads_notes
  cases job with
  | call id | request id | close id => exact Client.course_await hcourse c id
  | timer endsAt => exact Client.course_sleep hcourse c _
  | answered answer => exact List.suffix_refl _

theorem notes_pause (p : Play) : notesOf p.client <:+ notesOf p.pause.client := by
  have hsettled := (Scene.course_side leads_notes).settle Plan.patience p.client.scene
  unfold pause
  dsimp only
  split <;> exact hsettled

/-- A step tells exactly the notes that were added while it was taken, the oldest first. -/
theorem notes_step (p : Play) (s : Step Ask) :
    notesOf (p.step s).1.client = (p.step s).2.notes.reverse ++ notesOf p.client := by
  -- whatever was added stands in front of what was there
  have htold : ∀ (q : Play) (began : Nat), notesOf p.client <:+ notesOf q.client →
      notesOf (if began < q.client.now then { q with pauses := 0 } else q).client =
        ((notesOf (if began < q.client.now then { q with pauses := 0 } else q).client).take
          ((notesOf (if began < q.client.now then { q with pauses := 0 } else q).client).length -
            (notesOf p.client).length)).reverse.reverse ++ notesOf p.client := by
    intro q began hq
    have hsame : notesOf (if began < q.client.now then { q with pauses := 0 } else q).client =
        notesOf q.client := by
      split <;> rfl
    obtain ⟨added, hadded⟩ := hq
    rw [hsame, ← hadded, List.reverse_reverse, List.length_append, Nat.add_sub_cancel,
      List.take_left]
  cases s with
  | wait ask =>
    refine htold _ _ ?_
    rw [← notes_begin p.client ask]
    exact notes_await _ _
  | start name ask =>
    refine htold _ _ ?_
    rw [← notes_begin p.client ask]
    exact notes_pause ⟨(begin p.client ask).1, _, p.pauses⟩
  | join name =>
    unfold step
    dsimp only
    refine htold _ _ ?_
    split
    · exact List.suffix_refl _
    · exact notes_await _ _

/-- The notes of the steps, one after the other, are all that were added: by induction on the steps,
none of which tells a note of another one. -/
theorem notes_steps (p : Play) (ss : List (Step Ask)) :
    (notesOf (p.steps ss).1.client).reverse =
      (notesOf p.client).reverse ++ (p.steps ss).2.flatMap (·.notes) := by
  induction ss generalizing p with
  | nil =>
    show _ = _ ++ []
    rw [List.append_nil]
    rfl
  | cons s rest ih =>
    show (notesOf ((p.step s).1.steps rest).1.client).reverse =
      _ ++ ((p.step s).2.notes ++ ((p.step s).1.steps rest).2.flatMap (·.notes))
    rw [ih, notes_step, List.reverse_append, List.reverse_reverse, List.append_assoc]

end Play

/-- A rehearsal whose launch succeeds is a run of the link that the launch hands over, and that link
begins where a run of the waiting for the greeting has ended. -/
theorem perform_follows {config : LaunchConfig} {r : Rehearsal} {client : Client Rehearsal}
    {s : Wires × Rehearsal}
    (h : Client.launch? Rehearsal.backend config 0 r = (.ok client, s)) (pauses : Nat)
    (ss : List (Step Ask)) :
    (∃ v events, Session.Handshake.after config.timing v events =
        (.finished (.ok client.hello), s.1)) ∧
      (Play.steps ⟨client, [], pauses⟩ ss).1.client.Follows
        (Session.World.new config.timing s.1) := by
  obtain ⟨v, events, hgreeted, -⟩ := Client.greeted Rehearsal.faithful h
  exact ⟨⟨v, events, hgreeted⟩, Play.follows_steps (Client.follows_launch? h) ss⟩

end KernelLink.Stage
