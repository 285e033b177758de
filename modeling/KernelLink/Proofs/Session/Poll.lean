import KernelLink.Proofs.Session.Deeds
/-!
# What one poll of a call can do

The polls of a call, one rule for each of their exits. A rule names the stage before and the stage
after, says when it applies, and gives the state that it leads to and what it shows; later proofs go
through these rules and never open the functions behind them.

Main definitions:
* `Stage.inTurn`: the stages in which a call holds the conversation.
* `World.CallStep`: the rules.

Main result:
* `World.pollCall_cases`: whatever a poll does follows one of the rules.
-/
namespace KernelLink.Session

open Host (Pipe)

/-! ## Stages -/

/-- Does a call in this stage hold the conversation? -/
def Stage.inTurn : Stage → Bool
  | .discarding _ | .writing _ | .awaiting _ _ | .leaving _ => true
  | .queued | .finished _ => false

/-- The result of a call whose kernel is gone, from its last words. -/
def lastWords (text : String) : Result :=
  .error (if text.isEmpty then .noResponse else .kernelStderr text)

/-- Calls are refused by a conversation that is poisoned or whose kernel is gone. -/
theorem Phase.refusal_eq_some {p : Phase} {e : LinkError} :
    p.refusal = some e ↔
      (∃ why, p = .poisoned why ∧ e = .poisoned why.reason) ∨ p = .exited ∧ e = .closed := by
  cases p <;> simp [refusal, eq_comm]

namespace World

/-- There is nothing to read for a call that waits, and nobody has told it to stop. -/
structure Quiet (w : World) : Prop where
  /-- Nobody has told it to stop. -/
  going : w.cancelled = false
  /-- No line is complete. -/
  line : w.wires.output.nextLine? = none
  /-- Nothing is on its way. -/
  fill : w.wires.output.fill? = none

/-! ## The rules -/

/-- One poll of a call: `CallStep w id line before after w' deeds` leads from `w` to `w'`. -/
inductive CallStep (w : World) (id : Nat) (line : List UInt8) :
    Stage → Stage → World → List Deed → Prop where
  /-- Its turn comes while no reply is due. -/
  | enterReady (next : w.isNext id = true) (phase : w.phase = .ready) :
      CallStep w id line .queued (.writing line) ((w.acquire id).beginWriting id line)
        [.entered id, .began id]
  /-- Its turn comes while a reply is outstanding. -/
  | enterLate (next : w.isNext id = true) (phase : w.phase = .replyOutstanding) :
      CallStep w id line .queued (.discarding (w.wires.now + w.timing.responseTimeout))
        ((w.acquire id).goOn id line (.discarding (w.wires.now + w.timing.responseTimeout)))
        [.entered id]
  /-- Its turn comes too late. -/
  | enterRefused {e : LinkError} (next : w.isNext id = true) (refusal : w.phase.refusal = some e) :
      CallStep w id line .queued (.finished (.error e)) ((w.acquire id).finish id line (.error e))
        [.entered id]
  /-- It is told to stop. -/
  | cancel {before : Stage} (waits : before.waits = true) (told : w.cancelled = true) :
      CallStep w id line before (.finished (.error .cancelled)) (w.cancel id line) []
  /-- It passes over a blank line. -/
  | skip {before : Stage} {text : String} {output : Pipe} (waits : before.waits = true)
      (going : w.cancelled = false) (read : w.wires.output.nextLine? = some (.line text, output))
      (blank : Text.isBlankText text = true) :
      CallStep w id line before before (w.withOutput output) []
  /-- It meets a line that is not UTF-8. -/
  | fail {before : Stage} {fault : Text.Utf8.Fault} {output : Pipe} (waits : before.waits = true)
      (going : w.cancelled = false)
      (read : w.wires.output.nextLine? = some (.unreadable fault, output)) :
      CallStep w id line before (.finished (.error (.stream (.unreadable fault))))
        ((w.withOutput output).streamFailed id line fault) [.took id (.unreadable fault)]
  /-- It meets the end of the output. -/
  | gone {before : Stage} {output : Pipe} (waits : before.waits = true)
      (going : w.cancelled = false) (read : w.wires.output.nextLine? = some (.ended, output)) :
      CallStep w id line before (.leaving (w.wires.now + w.timing.stderrGrace))
        (w.kernelGone id line) []
  /-- It takes bytes over. -/
  | fill {before : Stage} {output : Pipe} (waits : before.waits = true)
      (going : w.cancelled = false) (none : w.wires.output.nextLine? = none)
      (some : w.wires.output.fill? = some output) :
      CallStep w id line before before (w.withOutput output) []
  /-- It takes a line for the late reply. -/
  | discard {deadline : Nat} {text : String} {output : Pipe} (going : w.cancelled = false)
      (read : w.wires.output.nextLine? = some (.line text, output))
      (inked : Text.isBlankText text = false) :
      CallStep w id line (.discarding deadline) (.writing line)
        ({ w.withOutput output with phase := .ready }.beginWriting id line)
        [.took id (.line text), .began id]
  /-- The late reply did not come. -/
  | missing {deadline : Nat} (quiet : w.Quiet) (due : deadline ≤ w.wires.now) :
      CallStep w id line (.discarding deadline)
        (.finished (.error (.poisoned Desync.lateReplyMissing.reason)))
        ((w.poison .lateReplyMissing).finish id line
          (.error (.poisoned Desync.lateReplyMissing.reason))) []
  /-- Its line is written. -/
  | written :
      CallStep w id line (.writing []) (.awaiting (w.wires.now + w.timing.responseTimeout) none)
        (w.goOn id line (.awaiting (w.wires.now + w.timing.responseTimeout) none)) [.waited id]
  /-- Nobody takes its line. -/
  | broken {rest : List UInt8} (more : rest ≠ [])
      (shut : ¬ (w.wires.input.writing && w.wires.input.reading) = true) :
      CallStep w id line (.writing rest) (.leaving (w.wires.now + w.timing.stderrGrace))
        (w.kernelGone id line) []
  /-- It writes what fits. -/
  | put {rest : List UInt8} (more : rest ≠ [])
      (writing : w.wires.input.writing = true) (reading : w.wires.input.reading = true)
      (room : w.wires.input.room ≠ 0) :
      CallStep w id line (.writing rest) (.writing (rest.drop w.wires.input.room))
        ({ w with wires := { w.wires with
            input := w.wires.input.put (rest.take w.wires.input.room) } }.goOn id line
          (.writing (rest.drop w.wires.input.room))) [.wrote id (rest.take w.wires.input.room)]
  /-- It takes a line for its reply, and the line is a document. -/
  | reply {deadline : Nat} {graceEnd : Option Nat} {text : String} {output : Pipe}
      {envelope : Envelope} (going : w.cancelled = false)
      (read : w.wires.output.nextLine? = some (.line text, output))
      (inked : Text.isBlankText text = false) (decoded : Envelope.decodeLine text = .ok envelope) :
      CallStep w id line (.awaiting deadline graceEnd) (.finished envelope.payload)
        ((w.withOutput output).finish id line envelope.payload) [.took id (.line text)]
  /-- It takes a line for its reply, and the line is no document. -/
  | garbled {deadline : Nat} {graceEnd : Option Nat} {text : String} {output : Pipe}
      {cause : Json.ReadError} (going : w.cancelled = false)
      (read : w.wires.output.nextLine? = some (.line text, output))
      (inked : Text.isBlankText text = false)
      (undecoded : Envelope.decodeLine text = .error cause) :
      CallStep w id line (.awaiting deadline graceEnd)
        (.finished (.error (.poisoned (Desync.unparseable text).reason)))
        (((w.withOutput output).poison (.unparseable text)).finish id line
          (.error (.poisoned (Desync.unparseable text).reason))) [.took id (.line text)]
  /-- It is woken for error output that is there no more. -/
  | stale {deadline : Nat} (quiet : w.Quiet) (permit : w.wires.buffer.permit = true)
      (empty : w.wires.buffer.isEmpty = true) :
      CallStep w id line (.awaiting deadline none) (.awaiting deadline none)
        { w with wires := { w.wires with buffer := w.wires.buffer.poll.2 } } []
  /-- It is woken for error output, and the grace begins. -/
  | arm {deadline : Nat} (quiet : w.Quiet) (permit : w.wires.buffer.permit = true)
      (filled : w.wires.buffer.isEmpty = false) :
      CallStep w id line (.awaiting deadline none)
        (.awaiting deadline (some (w.wires.now + w.timing.stderrGrace)))
        ({ w with wires := { w.wires with buffer := w.wires.buffer.poll.2 } }.goOn id line
          (.awaiting deadline (some (w.wires.now + w.timing.stderrGrace)))) []
  /-- The grace ends, and the error output was blank. -/
  | disarm {deadline graceAt : Nat} (quiet : w.Quiet) (due : graceAt ≤ w.wires.now)
      (blank : w.wires.buffer.text.isEmpty = true) :
      CallStep w id line (.awaiting deadline (some graceAt)) (.awaiting deadline none)
        ({ w with wires := w.wires.clearErrors }.goOn id line (.awaiting deadline none)) []
  /-- The grace ends, and the error output is the result. -/
  | report {deadline graceAt : Nat} (quiet : w.Quiet) (due : graceAt ≤ w.wires.now)
      (inked : w.wires.buffer.text.isEmpty = false) :
      CallStep w id line (.awaiting deadline (some graceAt))
        (.finished (.error (.kernelStderr w.wires.buffer.text)))
        ({ w with wires := w.wires.clearErrors, phase := .replyOutstanding }.finish id line
          (.error (.kernelStderr w.wires.buffer.text))) []
  /-- The reply did not come. -/
  | overdue {deadline : Nat} {graceEnd : Option Nat} (quiet : w.Quiet)
      (due : deadline ≤ w.wires.now)
      (running : ∀ graceAt, graceEnd = some graceAt → w.wires.now < graceAt)
      (unwoken : graceEnd = none → w.wires.buffer.permit = false) :
      CallStep w id line (.awaiting deadline graceEnd) (.finished (.error .noResponse))
        ((w.poison (.noResponse w.timing.responseTimeout)).finish id line (.error .noResponse)) []
  /-- The last words of the kernel are waited for no longer. -/
  | leave {endsAt : Nat} (due : endsAt ≤ w.wires.now) :
      CallStep w id line (.leaving endsAt) (.finished (lastWords w.wires.buffer.text))
        ({ w with wires := w.wires.clearErrors }.finish id line (lastWords w.wires.buffer.text)) []

/-! ## Every poll follows a rule -/

variable {w w' : World} {id : Nat} {line : List UInt8}

/-- A call that waits for a late reply follows one of the rules: it is cancelled, reads, or its time
has passed. -/
theorem pollDiscarding_cases {deadline : Nat}
    (h : w.pollDiscarding id line deadline = some w') :
    ∃ after deeds, CallStep w id line (.discarding deadline) after w' deeds := by
  unfold pollDiscarding at h
  by_cases hc : w.cancelled = true
  · rw [if_pos hc, Option.some.injEq] at h
    subst h
    exact ⟨_, _, .cancel rfl hc⟩
  rw [if_neg hc] at h
  rw [Bool.not_eq_true] at hc
  -- the order of the poll: told to stop, then a line, then bytes for one, then the deadline
  split at h
  case h_1 text output hr =>
    by_cases hb : Text.isBlankText text = true
    · simp only [hb, if_true, Option.some.injEq] at h
      subst h
      exact ⟨_, _, .skip rfl hc hr hb⟩
    · simp only [hb, Bool.false_eq_true, if_false, Option.some.injEq] at h
      subst h
      exact ⟨_, _, .discard hc hr (by simpa using hb)⟩
  case h_2 fault output hr =>
    rw [Option.some.injEq] at h
    subst h
    exact ⟨_, _, .fail rfl hc hr⟩
  case h_3 output hr =>
    rw [Option.some.injEq] at h
    subst h
    exact ⟨_, _, .gone rfl hc hr⟩
  case h_4 hr =>
    split at h
    case h_1 output hf =>
      rw [Option.some.injEq] at h
      subst h
      exact ⟨_, _, .fill rfl hc hr hf⟩
    case h_2 hf =>
      by_cases hd : deadline ≤ w.wires.now
      · rw [if_pos hd, Option.some.injEq] at h
        subst h
        exact ⟨_, _, .missing ⟨hc, hr, hf⟩ hd⟩
      · rw [if_neg hd] at h
        exact absurd h (by simp)

/-- A call that writes follows one of the rules: it is done, the pipe is broken, or some bytes fit.
-/
theorem pollWriting_cases {rest : List UInt8} (h : w.pollWriting id line rest = some w') :
    ∃ after deeds, CallStep w id line (.writing rest) after w' deeds := by
  unfold pollWriting at h
  by_cases hr : rest = []
  · subst hr
    simp only [List.isEmpty_nil, if_true, Option.some.injEq] at h
    subst h
    exact ⟨_, _, .written⟩
  have hempty : rest.isEmpty = false := by simpa using hr
  simp only [hempty, Bool.false_eq_true, if_false] at h
  by_cases ho : (w.wires.input.writing && w.wires.input.reading) = true
  · rw [if_neg (not_not_intro ho)] at h
    by_cases hroom : w.wires.input.room = 0
    · rw [if_pos hroom] at h
      exact absurd h (by simp)
    · rw [if_neg hroom, Option.some.injEq] at h
      subst h
      rw [Bool.and_eq_true] at ho
      exact ⟨_, _, .put hr ho.1 ho.2 hroom⟩
  · rw [if_pos ho, Option.some.injEq] at h
    subst h
    exact ⟨_, _, .broken hr ho⟩

/-- Where nothing was said, a call that waits follows one of the rules if its grace or its deadline
has passed. -/
theorem pollTimers_cases {deadline : Nat} {graceEnd : Option Nat} (hq : w.Quiet)
    (hp : graceEnd = none → w.wires.buffer.permit = false)
    (h : w.pollTimers id line deadline graceEnd = some w') :
    ∃ after deeds, CallStep w id line (.awaiting deadline graceEnd) after w' deeds := by
  unfold pollTimers at h
  cases graceEnd with
  | none =>
    by_cases hd : deadline ≤ w.wires.now
    · simp only [hd, if_true, Option.some.injEq] at h
      subst h
      exact ⟨_, _, .overdue hq hd (by simp) hp⟩
    · simp [hd] at h
  | some graceAt =>
    by_cases hg : graceAt ≤ w.wires.now
    · simp only [hg, if_true] at h
      by_cases hb : w.wires.buffer.text.isEmpty = true
      · simp only [Wires.takeErrors, Stderr.Buffer.take, hb, if_true, Option.some.injEq] at h
        subst h
        exact ⟨_, _, .disarm hq hg hb⟩
      · simp only [Wires.takeErrors, Stderr.Buffer.take, hb, Bool.false_eq_true, if_false,
          Option.some.injEq] at h
        subst h
        exact ⟨_, _, .report hq hg (by simpa using hb)⟩
    · simp only [hg, if_false] at h
      by_cases hd : deadline ≤ w.wires.now
      · simp only [hd, if_true, Option.some.injEq] at h
        subst h
        -- the deadline wins over a grace that is still running, and only then
        refine ⟨_, _, .overdue hq hd (fun g e => ?_) hp⟩
        rw [Option.some.injEq] at e
        omega
      · simp [hd] at h

theorem pollQuiet_cases {deadline : Nat} {graceEnd : Option Nat} (hq : w.Quiet)
    (h : w.pollQuiet id line deadline graceEnd = some w') :
    ∃ after deeds, CallStep w id line (.awaiting deadline graceEnd) after w' deeds := by
  unfold pollQuiet at h
  by_cases hp : (graceEnd.isNone && w.wires.buffer.permit) = true
  · rw [if_pos hp] at h
    rw [Bool.and_eq_true, Option.isNone_iff_eq_none] at hp
    obtain ⟨rfl, hp⟩ := hp
    by_cases he : w.wires.buffer.isEmpty = true
    · have he' : w.wires.buffer.poll.2.isEmpty = true := he
      simp only [he', if_true, Option.some.injEq] at h
      subst h
      exact ⟨_, _, .stale hq hp he⟩
    · have he' : ¬ w.wires.buffer.poll.2.isEmpty = true := he
      simp only [he', Bool.false_eq_true, if_false, Option.some.injEq] at h
      subst h
      exact ⟨_, _, .arm hq hp (by simpa using he)⟩
  · rw [if_neg hp] at h
    refine pollTimers_cases hq (fun e => ?_) h
    rw [e] at hp
    simpa using hp

/-- A call that waits for its reply follows one of the rules: being cancelled comes first, then the
output, then what is quiet. -/
theorem pollAwaiting_cases {deadline : Nat} {graceEnd : Option Nat}
    (h : w.pollAwaiting id line deadline graceEnd = some w') :
    ∃ after deeds, CallStep w id line (.awaiting deadline graceEnd) after w' deeds := by
  unfold pollAwaiting at h
  by_cases hc : w.cancelled = true
  · rw [if_pos hc, Option.some.injEq] at h
    subst h
    exact ⟨_, _, .cancel rfl hc⟩
  rw [if_neg hc] at h
  rw [Bool.not_eq_true] at hc
  -- the same order, but the error output and its grace stand between the line and the deadline
  split at h
  case h_1 text output hr =>
    by_cases hb : Text.isBlankText text = true
    · simp only [hb, if_true, Option.some.injEq] at h
      subst h
      exact ⟨_, _, .skip rfl hc hr hb⟩
    · simp only [hb, Bool.false_eq_true, if_false, Option.some.injEq] at h
      rw [Bool.not_eq_true] at hb
      unfold accept at h
      split at h
      · next envelope he =>
        subst h
        exact ⟨_, _, .reply hc hr hb he⟩
      · next cause he =>
        subst h
        exact ⟨_, _, .garbled hc hr hb he⟩
  case h_2 fault output hr =>
    rw [Option.some.injEq] at h
    subst h
    exact ⟨_, _, .fail rfl hc hr⟩
  case h_3 output hr =>
    rw [Option.some.injEq] at h
    subst h
    exact ⟨_, _, .gone rfl hc hr⟩
  case h_4 hr =>
    split at h
    case h_1 output hf =>
      rw [Option.some.injEq] at h
      subst h
      exact ⟨_, _, .fill rfl hc hr hf⟩
    case h_2 hf => exact pollQuiet_cases ⟨hc, hr, hf⟩ h

/-- Whatever one poll of a call does follows one of the rules. -/
theorem pollCall_cases {before : Stage} (h : w.pollCall id line before = some w') :
    ∃ after deeds, CallStep w id line before after w' deeds := by
  cases before with
  | queued =>
    unfold pollCall at h
    by_cases hn : w.isNext id = true
    · rw [if_pos hn, Option.some.injEq] at h
      subst h
      -- what a turn begins with depends on the phase alone
      unfold enter
      dsimp only
      split
      case h_1 hp => exact ⟨_, _, .enterReady hn hp⟩
      case h_2 hp => exact ⟨_, _, .enterLate hn hp⟩
      case h_3 why hp => exact ⟨_, _, .enterRefused hn (by rw [show w.phase = _ from hp]; rfl)⟩
      case h_4 hp => exact ⟨_, _, .enterRefused hn (by rw [show w.phase = _ from hp]; rfl)⟩
    · rw [if_neg hn] at h
      exact absurd h (by simp)
  | discarding deadline => exact pollDiscarding_cases h
  | writing rest => exact pollWriting_cases h
  | awaiting deadline graceEnd => exact pollAwaiting_cases h
  | leaving endsAt =>
    simp only [pollCall, pollLeaving] at h
    by_cases he : endsAt ≤ w.wires.now
    · rw [if_pos he, Option.some.injEq] at h
      subst h
      exact ⟨_, _, .leave he⟩
    · rw [if_neg he] at h
      exact absurd h (by simp)
  | finished result => exact absurd h (by simp [pollCall])

end World
end KernelLink.Session
