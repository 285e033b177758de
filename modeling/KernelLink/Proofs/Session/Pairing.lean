import KernelLink.Proofs.Session.Tally
import KernelLink.Proofs.Wire.SingleLine
import Mathlib.Data.List.Infix
import Mathlib.Order.WellFounded
/-!
# Requests and replies belong together

If the kernel answers each request at most once, in order and not before it has received it, then
the count of due replies pairs them: the `i`-th line is the answer to the `i`-th request, and
whatever is made of a line is the result of that request's call. The reply to a call that had failed
with error output is thrown away.

Main definitions:
* `replyTo`: what a call makes of the line that it takes.
* `World.Answering`: what is asked of the kernel and of the callers.
* `World.Paired`: requests and replies belong together.

Main results:
* `World.Matched.step`: every event keeps lines and results matched.
* `World.paired`: every run with such a kernel is paired.
-/
namespace KernelLink.Session

open Host (Pipe Delivery)

/-! ## What is made of a line -/

/-- The result of a call that takes a line for its reply. The end of the output is no line. -/
def replyTo : Delivery → Result
  | .line text =>
    match Envelope.decodeLine text with
    | .ok envelope => envelope.payload
    | .error _ => .error (.poisoned (Desync.unparseable text).reason)
  | .unreadable fault => .error (.stream (.unreadable fault))
  | .ended => .error .noResponse

/-- Is the result a payload, or the kernel's own error? -/
def isReply : Result → Bool
  | .ok _ | .error (.kernel _ _) => true
  | .error _ => false

theorem isReply_payload (envelope : Envelope) : isReply envelope.payload = true := by
  cases envelope <;> rfl

namespace World

variable {w w' : World} {id : Nat} {line : List UInt8} {before after : Stage} {deeds : List Deed}
  {log : Log}

/-- The result of a call was made of the line that answers its own request. -/
def Answered (w : World) (log : Log) (id : Nat) : Prop :=
  ∃ (i : Nat) (d : Delivery), (Log.begun log)[i]? = some id ∧ (Log.taken log)[i]? = some (id, d) ∧
    w.callResult? id = some (replyTo d)

/-- Line `i`, taken by a call, answers the request of that call and made its result; or it answers
the request of a call that had failed with error output, and whoever took it threw it away and wrote
the next request, or failed since the line was not UTF-8. -/
def Served (w : World) (log : Log) (i id : Nat) (d : Delivery) : Prop :=
  (Log.begun log)[i]? = some id ∧ w.callResult? id = some (replyTo d) ∨
  ∃ q text, (Log.begun log)[i]? = some q ∧ q ≠ id ∧
    w.callResult? q = some (.error (.kernelStderr text)) ∧
    ((Log.begun log)[i + 1]? = some id ∨
      ∃ fault, d = .unreadable fault ∧ w.callResult? id = some (replyTo d))

/-- Lines and results match. A reason is told once the phase has shown it. -/
structure Matched (w : World) (log : Log) (told : Desync → Prop) : Prop where
  /-- Every line went where it belongs. -/
  lines : ∀ {i id : Nat} {d : Delivery}, (Log.taken log)[i]? = some (id, d) →
    w.Served log i id d
  /-- Every reply was made of the line that answers the request. -/
  replies : ∀ {id result}, w.callResult? id = some result → isReply result = true →
    w.Answered log id
  /-- So was every refusal of a line that is no document; without a request of its own a call only
  repeats a reason. -/
  poisoned : ∀ {id reason}, w.callResult? id = some (.error (.poisoned reason)) →
    w.Answered log id ∨ id ∉ Log.begun log ∧ ∃ why, told why ∧ reason = why.reason
  /-- A line that is told of as no document answers the request of whoever took it. -/
  garbled : ∀ {text}, told (.unparseable text) →
    ∃ i id : Nat, (Log.begun log)[i]? = some id ∧ (Log.taken log)[i]? = some (id, .line text)

/-- At the beginning nothing was taken and no call has a result, so there is nothing to match. -/
theorem Matched.new (timing : Timing) (wires : Wires) :
    (World.new timing wires).Matched []
      fun why => (World.new timing wires).phase = .poisoned why where
  lines h := absurd h (by simp [Log.taken])
  replies h := absurd h (by simp [World.new, callResult?, task?])
  poisoned h := absurd h (by simp [World.new, callResult?, task?])
  garbled h := Phase.noConfusion h

/-! ## Logs only grow -/

/-- The requests that have begun keep their numbers when more is noted behind them. -/
theorem getElem?_begun (more : Log) {i q : Nat} (h : (Log.begun log)[i]? = some q) :
    (Log.begun (log ++ more))[i]? = some q := by
  obtain ⟨hlt, -⟩ := List.getElem?_eq_some_iff.mp h
  rw [Log.begun_append, List.getElem?_append_left hlt]
  exact h

theorem getElem?_taken (more : Log) {i : Nat} {x : Nat × Delivery}
    (h : (Log.taken log)[i]? = some x) : (Log.taken (log ++ more))[i]? = some x := by
  obtain ⟨hlt, -⟩ := List.getElem?_eq_some_iff.mp h
  rw [Log.taken_append, List.getElem?_append_left hlt]
  exact h

/-- A line that was taken last comes behind all that were taken before. -/
theorem getElem?_taken_new {more : Log} {x : Nat × Delivery} (h : Log.taken more = [x]) :
    (Log.taken (log ++ more))[(Log.taken log).length]? = some x := by
  rw [Log.taken_append, h, List.getElem?_append_right (Nat.le_refl _), Nat.sub_self]
  rfl

/-- A line that was taken was taken before or is new, and then its number tells which one of the new
ones it is. -/
theorem getElem?_taken_cases {more : Log} {i : Nat} {x : Nat × Delivery}
    (h : (Log.taken (log ++ more))[i]? = some x) :
    (Log.taken log)[i]? = some x ∨ (Log.taken more)[i - (Log.taken log).length]? = some x ∧
      (Log.taken log).length ≤ i := by
  rw [Log.taken_append] at h
  rcases Nat.lt_or_ge i (Log.taken log).length with hlt | hge
  · rw [List.getElem?_append_left hlt] at h
    exact Or.inl h
  · rw [List.getElem?_append_right hge] at h
    exact Or.inr ⟨h, hge⟩

/-- What was answered stays answered: the log only grows, and results that are there stay. -/
theorem Answered.append (more : Log) (h : w.Answered log id)
    (hr : ∀ {q result}, w.callResult? q = some result → w'.callResult? q = some result) :
    w'.Answered (log ++ more) id := by
  obtain ⟨i, d, hb, ht, he⟩ := h
  exact ⟨i, d, getElem?_begun more hb, getElem?_taken more ht, hr he⟩

/-- What was served stays served, for the same two reasons. -/
theorem Served.append (more : Log) {i : Nat} {d : Delivery} (h : w.Served log i id d)
    (hr : ∀ {q result}, w.callResult? q = some result → w'.callResult? q = some result) :
    w'.Served (log ++ more) i id d := by
  rcases h with ⟨hb, he⟩ | ⟨q, text, hb, hq, hf, hnext⟩
  · exact Or.inl ⟨getElem?_begun more hb, hr he⟩
  · refine Or.inr ⟨q, text, getElem?_begun more hb, hq, hr hf, ?_⟩
    rcases hnext with hnext | ⟨fault, hfault, he⟩
    · exact Or.inl (getElem?_begun more hnext)
    · exact Or.inr ⟨fault, hfault, hr he⟩

/-! ## The polls of a call -/

/-- A line that can be decoded is a reply, namely what its envelope holds. -/
theorem replyTo_of_ok {text : String} {envelope : Envelope}
    (h : Envelope.decodeLine text = .ok envelope) : replyTo (.line text) = envelope.payload := by
  simp only [replyTo, h]

theorem replyTo_of_error {text : String} {cause : Json.ReadError}
    (h : Envelope.decodeLine text = .error cause) :
    replyTo (.line text) = .error (.poisoned (Desync.unparseable text).reason) := by
  simp only [replyTo, h]

/-- The results that are no reply, and what they say about the phase. -/
structure Failed (w' : World) (before : Stage) (result : Result) : Prop where
  /-- It is no reply. -/
  reply : isReply result = false
  /-- It is not about the payload of one either. -/
  decode : ∀ cause, result ≠ .error (.decode cause)
  /-- A call without a request only repeats why the conversation is over. -/
  poisoned : ∀ reason, result = .error (.poisoned reason) →
    before.past = false ∧ ∃ why, w'.phase = .poisoned why ∧ reason = why.reason

/-- How a poll ends a call: with what it makes of a line, or without a reply. -/
theorem CallStep.result {result : Result}
    (h : CallStep w id line before (.finished result) w' deeds) :
    (before.sends = true ∧ ∃ d, Log.begun deeds = [] ∧ Log.taken deeds = [(id, d)] ∧
      result = replyTo d ∧ (isReply result = true → w'.phase = w.phase)) ∨
    Failed w' before result := by
  cases h with
  | @enterRefused e next refusal =>
    refine Or.inr ?_
    rcases Phase.refusal_eq_some.mp refusal with ⟨why, hp, rfl⟩ | ⟨-, rfl⟩
    · refine ⟨rfl, by simp, fun reason he => ⟨rfl, why, hp, ?_⟩⟩
      exact (LinkError.poisoned.inj (Except.error.inj he)).symm
    · exact ⟨rfl, by simp, by simp⟩
  | cancel waits told => exact Or.inr ⟨rfl, by simp, by simp⟩
  | skip waits | fill waits => exact absurd waits Bool.false_ne_true
  | fail waits going read => exact Or.inr ⟨rfl, by simp, by simp⟩
  | missing quiet due =>
    refine Or.inr ⟨rfl, by simp, fun reason he => ⟨rfl, .lateReplyMissing, rfl, ?_⟩⟩
    exact (LinkError.poisoned.inj (Except.error.inj he)).symm
  -- the two rules by which a line is taken as the reply; all others fail
  | @reply _ _ text _ envelope going read inked decoded =>
    exact Or.inl ⟨rfl, .line text, rfl, rfl, (replyTo_of_ok decoded).symm, fun _ => rfl⟩
  | @garbled _ _ text _ _ going read inked undecoded =>
    exact Or.inl ⟨rfl, .line text, rfl, rfl, (replyTo_of_error undecoded).symm,
      fun hr => absurd hr Bool.false_ne_true⟩
  | report quiet due inked => exact Or.inr ⟨rfl, by simp, by simp⟩
  | overdue quiet due running unwoken => exact Or.inr ⟨rfl, by simp, by simp⟩
  | leave due =>
    refine Or.inr ?_
    unfold lastWords
    split
    · exact ⟨rfl, by simp, by simp⟩
    · exact ⟨rfl, by simp, by simp⟩

/-- What a poll does with a line: it makes a result of its own reply, and it throws a late reply
away and begins, or fails on it. -/
theorem CallStep.takes (h : CallStep w id line before after w' deeds) :
    Log.taken deeds = [] ∨ ∃ d, Log.taken deeds = [(id, d)] ∧
      (before.sends = true ∧ Log.begun deeds = [] ∧ after = .finished (replyTo d) ∨
        (∃ deadline, before = .discarding deadline) ∧
          (Log.begun deeds = [id] ∨
            ∃ fault, d = .unreadable fault ∧ after = .finished (replyTo d))) := by
  cases h with
  | @fail before fault _ waits going read =>
    refine Or.inr ⟨.unreadable fault, rfl, ?_⟩
    cases before with
    | discarding deadline => exact Or.inr ⟨⟨deadline, rfl⟩, Or.inr ⟨fault, rfl, rfl⟩⟩
    | awaiting deadline graceEnd => exact Or.inl ⟨rfl, rfl, rfl⟩
    | queued => exact absurd waits Bool.false_ne_true
    | writing rest => exact absurd waits Bool.false_ne_true
    | leaving endsAt => exact absurd waits Bool.false_ne_true
    | finished result => exact absurd waits Bool.false_ne_true
  | @discard deadline text _ going read inked =>
    exact Or.inr ⟨.line text, rfl, Or.inr ⟨⟨deadline, rfl⟩, Or.inl rfl⟩⟩
  | @reply _ _ text _ envelope going read inked decoded =>
    exact Or.inr ⟨.line text, rfl, Or.inl ⟨rfl, rfl, by rw [replyTo_of_ok decoded]⟩⟩
  | @garbled _ _ text _ _ going read inked undecoded =>
    exact Or.inr ⟨.line text, rfl, Or.inl ⟨rfl, rfl, by rw [replyTo_of_error undecoded]⟩⟩
  | _ => exact Or.inl rfl

/-- A line that is seen to be taken is all that a poll takes. -/
theorem CallStep.took {i : Nat} {d : Delivery} (h : CallStep w id line before after w' deeds)
    (hm : .took i d ∈ deeds) : i = id ∧ Log.taken deeds = [(id, d)] := by
  cases h with
  | fail | discard | reply | garbled =>
    simp only [List.mem_cons, Deed.took.injEq, List.not_mem_nil, or_false, reduceCtorEq] at hm
    obtain ⟨rfl, rfl⟩ := hm
    exact ⟨rfl, rfl⟩
  | _ => exact absurd hm (by simp)

/-- A call that waits and takes a line makes its result of it. -/
theorem Orderly.takes_reply {deadline : Nat} {graceEnd : Option Nat} {d : Delivery}
    (hw : w.Orderly) (ht : w.task? id = some (.call line (.awaiting deadline graceEnd)))
    (hm : .took id d ∈ w.deeds (.poll id)) :
    (w.apply (.poll id)).callResult? id = some (replyTo d) := by
  obtain ⟨l, before, after, task, poll⟩ := hw.poll_of_deed hm rfl
  obtain ⟨rfl, rfl⟩ := call_inj ht task
  have htook := (poll.took hm).2
  rcases poll.takes with hnone | ⟨x, hx, ⟨-, -, rfl⟩ | ⟨⟨late, hlate⟩, -⟩⟩
  · rw [htook] at hnone
    exact absurd hnone (List.cons_ne_nil _ _)
  · rw [htook] at hx
    obtain rfl : d = x := (Prod.mk.inj (List.cons.inj hx).1).2
    exact callResult?_eq_some.mpr ⟨line, poll.self task⟩
  · exact Stage.noConfusion hlate

/-- A poll leaves the reason of a line that is no document only by taking that line. -/
theorem CallStep.unparseable {text : String} (h : CallStep w id line before after w' deeds)
    (hp : w'.phase = .poisoned (.unparseable text)) :
    w.phase = .poisoned (.unparseable text) ∨
      before.sends = true ∧ Log.taken deeds = [(id, .line text)] := by
  cases h with
  | garbled going read inked undecoded =>
    obtain rfl := Desync.unparseable.inj (Phase.poisoned.inj hp)
    exact Or.inr ⟨rfl, rfl⟩
  | cancel | fail | missing | overdue => exact Desync.noConfusion (Phase.poisoned.inj hp)
  | gone | broken | discard | report => exact Phase.noConfusion hp
  | _ => exact Or.inl hp

/-- A call does not begin its request in the step in which it finishes. -/
theorem CallStep.begun_finished {result : Result}
    (h : CallStep w id line before (.finished result) w' deeds) : Log.begun deeds = [] := by
  cases h <;> rfl

/-- Whoever begins had not begun before, so no call begins twice: the rules by which a call begins
are those that leave the queue. -/
theorem EventStep.begun_past {e : Event} {i : Nat} (hw : w.Orderly) (h : EventStep w e w' deeds)
    (hi : i ∈ Log.begun deeds) :
    ∃ line before, w.task? i = some (.call line before) ∧ before.past = false := by
  rcases h.poll_or_calm hw with ⟨id, line, before, after, -, task, poll⟩ | calm
  · rcases poll.begins with ⟨hb, -⟩ | ⟨hb, hpast, -⟩
    · rw [hb] at hi
      exact absurd hi (by simp)
    · rw [hb, List.mem_singleton] at hi
      rw [hi]
      exact ⟨line, before, task, hpast⟩
  · rw [Log.begun_of_calm calm.log] at hi
    exact absurd hi (by simp)

/-! ## Every event -/

section Step

variable {e : Event} {told told' : Desync → Prop}

/-- Every line that was taken was served to the call whose request has its number. For a new line
the count decides it: as many lines were taken before as requests had begun before this one. -/
theorem Matched.step_lines (hm : w.Matched log told) (hc : w.Tally log) (hw : w.Orderly)
    (h : EventStep w e w' deeds)
    (hkeep : ∀ {q result}, w.callResult? q = some result → w'.callResult? q = some result)
    {i j : Nat} {d : Delivery} (hj : (Log.taken (log ++ deeds))[i]? = some (j, d)) :
    w'.Served (log ++ deeds) i j d := by
  -- an old line stays served; a new one was taken in this step
  rcases getElem?_taken_cases hj with hold | ⟨hnew, hge⟩
  · exact (hm.lines hold).append deeds hkeep
  rcases h.poll_or_calm hw with ⟨id, line, before, after, -, task, poll⟩ | calm
  · rcases poll.takes with hnone | ⟨d', htk, hcase⟩
    · rw [hnone] at hnew
      exact absurd hnew (by simp)
    rw [htk, List.getElem?_singleton] at hnew
    obtain ⟨hidx, hpair⟩ := Option.ite_none_right_eq_some.mp hnew
    have hi : i = (Log.taken log).length := by omega
    rw [Option.some.injEq, Prod.mk.injEq] at hpair
    obtain ⟨rfl, rfl⟩ := hpair
    subst hi
    rcases hcase with ⟨hs, -, rfl⟩ | ⟨⟨deadline, rfl⟩, hnext⟩
    · -- its own reply
      obtain ⟨-, hdue⟩ := hc.own task hs
      exact Or.inl ⟨getElem?_begun deeds hdue, callResult?_eq_some.mpr ⟨line, poll.self task⟩⟩
    · -- a late reply
      obtain ⟨q, text, ⟨hlen, hdue⟩, hfail⟩ := hc.late (hw.fits task)
      have hq : q ≠ id := by
        rintro rfl
        obtain ⟨l, hfin⟩ := callResult?_eq_some.mp hfail
        rw [task] at hfin
        exact absurd hfin (by simp)
      refine Or.inr ⟨q, text, getElem?_begun deeds hdue, hq, hkeep hfail, ?_⟩
      rcases hnext with hb | ⟨fault, hfault, rfl⟩
      · refine Or.inl ?_
        rw [Log.begun_append, hb, ← hlen, List.getElem?_append_right (Nat.le_refl _), Nat.sub_self]
        rfl
      · exact Or.inr ⟨fault, hfault, callResult?_eq_some.mpr ⟨line, poll.self task⟩⟩
  · rw [Log.taken_of_calm calm.log] at hnew
    exact absurd hnew (by simp)

/-- A result that is made of a line at this event is made of the reply to the call. -/
theorem Tally.answered (hc : w.Tally log) {result : Result} {d : Delivery}
    (ht : w.task? id = some (.call line before)) (hs : before.sends = true)
    (htk : Log.taken deeds = [(id, d)]) (he : result = replyTo d)
    (hr : w'.callResult? id = some result) : w'.Answered (log ++ deeds) id := by
  obtain ⟨-, hdue⟩ := hc.own ht hs
  exact ⟨_, d, getElem?_begun deeds hdue, getElem?_taken_new htk, he ▸ hr⟩

/-- Every reply is that of the line with the call's own number. A result that was there before stays
answered; a new one comes with the line that was taken in this very step. -/
theorem Matched.step_replies (hm : w.Matched log told) (hc : w.Tally log)
    (h : EventStep w e w' deeds)
    (hkeep : ∀ {q result}, w.callResult? q = some result → w'.callResult? q = some result)
    {i : Nat} {result : Result} (hr : w'.callResult? i = some result)
    (hreply : isReply result = true) : w'.Answered (log ++ deeds) i := by
  -- was the result there before, or is it new?
  cases hn : w.callResult? i with
  | some r =>
    have hsame := hkeep hn
    rw [hr, Option.some.injEq] at hsame
    subst hsame
    exact (hm.replies hn hreply).append deeds hkeep
  | none =>
    rcases h.callResult?_new hn hr with rfl | ⟨line, before, ht, hp⟩
    · exact absurd hreply Bool.false_ne_true
    rcases hp.result with ⟨hs, d, -, htk, he, -⟩ | hf
    · exact hc.answered ht hs htk he hr
    · rw [hf.reply] at hreply
      exact absurd hreply Bool.false_ne_true

/-- A call that fails because the link is poisoned was answered by a line that cannot be read, or
never began its request and was told why the link is. -/
theorem Matched.step_poisoned (hm : w.Matched log told) (hc : w.Tally log) (hw : w.Orderly)
    (h : EventStep w e w' deeds)
    (hkeep : ∀ {q result}, w.callResult? q = some result → w'.callResult? q = some result)
    (hold : ∀ why, told why → told' why) (hnew : ∀ why, w'.phase = .poisoned why → told' why)
    {i : Nat} {reason : String} (hr : w'.callResult? i = some (.error (.poisoned reason))) :
    w'.Answered (log ++ deeds) i ∨
      i ∉ Log.begun (log ++ deeds) ∧ ∃ why, told' why ∧ reason = why.reason := by
  cases hn : w.callResult? i with
  | some r =>
    have hsame := hkeep hn
    rw [hr, Option.some.injEq] at hsame
    subst hsame
    rcases hm.poisoned hn with ha | ⟨hnot, why, htold, hwhy⟩
    · exact Or.inl (ha.append deeds hkeep)
    · -- a call with a result does not begin any more
      refine Or.inr ⟨fun hmem => ?_, why, hold why htold, hwhy⟩
      rw [Log.begun_append, List.mem_append] at hmem
      rcases hmem with hmem | hmem
      · exact hnot hmem
      · obtain ⟨l, before, ht, hpast⟩ := h.begun_past hw hmem
        obtain ⟨l', hfin⟩ := callResult?_eq_some.mp hn
        replace hfin := call_inj ht hfin
        rw [hfin.2] at hpast
        exact Bool.false_ne_true hpast.symm
  | none =>
    rcases h.callResult?_new hn hr with hclosed | ⟨line, before, ht, hp⟩
    · exact absurd hclosed (by simp)
    rcases hp.result with ⟨hs, d, -, htk, he, -⟩ | hf
    · exact Or.inl (hc.answered ht hs htk he hr)
    · -- it repeats the reason that the phase shows now, and it has not begun
      obtain ⟨hpast, why, hphase, hwhy⟩ := hf.poisoned reason rfl
      refine Or.inr ⟨fun hmem => ?_, why, hnew why hphase, hwhy⟩
      rw [Log.begun_append, hp.begun_finished, List.append_nil] at hmem
      obtain ⟨l, s, hti, hs⟩ := hc.calls hmem
      replace hti := call_inj ht hti
      rw [← hti.2, hpast] at hs
      exact Bool.false_ne_true hs

/-- If the link is poisoned because of a line that cannot be read, that line was taken for a request
that had begun, and both have the same number. -/
theorem Matched.step_garbled (hm : w.Matched log told) (hc : w.Tally log) (hw : w.Orderly)
    (h : EventStep w e w' deeds) (hnow : ∀ why, w.phase = .poisoned why → told why)
    (hback : ∀ why, told' why → told why ∨ w'.phase = .poisoned why) {text : String}
    (ht : told' (.unparseable text)) :
    ∃ i id : Nat, (Log.begun (log ++ deeds))[i]? = some id ∧
      (Log.taken (log ++ deeds))[i]? = some (id, .line text) := by
  have hold : told (.unparseable text) → ∃ i id : Nat,
      (Log.begun (log ++ deeds))[i]? = some id ∧
        (Log.taken (log ++ deeds))[i]? = some (id, .line text) := by
    intro htold
    obtain ⟨i, id, hb, htk⟩ := hm.garbled htold
    exact ⟨i, id, getElem?_begun deeds hb, getElem?_taken deeds htk⟩
  rcases hback _ ht with htold | hp
  · exact hold htold
  rcases h.poll_or_calm hw with ⟨id, line, before, after, -, task, poll⟩ | calm
  · rcases poll.unparseable hp with hsame | ⟨hs, htk⟩
    · exact hold (hnow _ hsame)
    · obtain ⟨-, hdue⟩ := hc.own task hs
      exact ⟨_, id, getElem?_begun deeds hdue, getElem?_taken_new htk⟩
  · rcases calm.phase with hsame | ⟨hexit, -⟩
    · exact hold (hnow _ (hsame ▸ hp))
    · rw [hexit] at hp
      exact Phase.noConfusion hp

/-- Every event keeps lines and results matched, unless a caller goes away. -/
theorem Matched.step (hm : w.Matched log told) (hc : w.Tally log) (hw : w.Orderly)
    (h : EventStep w e w' deeds)
    (ha : ∀ i, e = .abandon i → ∀ l s, w.task? i ≠ some (.call l s))
    (hnow : ∀ why, w.phase = .poisoned why → told why) (hold : ∀ why, told why → told' why)
    (hnew : ∀ why, w'.phase = .poisoned why → told' why)
    (hback : ∀ why, told' why → told why ∨ w'.phase = .poisoned why) :
    w'.Matched (log ++ deeds) told' := by
  have hkeep : ∀ {q result}, w.callResult? q = some result → w'.callResult? q = some result := by
    intro q result hr
    obtain ⟨l, ht⟩ := callResult?_eq_some.mp hr
    refine h.callResult?_of hr ?_
    rintro rfl
    exact ha q rfl l _ ht
  exact ⟨hm.step_lines hc hw h hkeep, hm.step_replies hc h hkeep,
    hm.step_poisoned hc hw h hkeep hold hnew, hm.step_garbled hc hw h hnow hback⟩

end Step

/-! ## Kernels that answer in order -/

/-- The lines that the kernel has written, without blank ones. -/
def kernelLines (w : World) (events : List Event) : List Delivery :=
  Host.textLines (!(w.run events).wires.output.writing)
    (w.wires.output.held ++ w.wires.output.bytes ++ Log.spoken (w.log events))

/-- The lines that can still be read, but for blank ones. -/
def unread (w : World) : List Delivery :=
  Host.textLines (!w.wires.output.writing) (w.wires.output.held ++ w.wires.output.bytes)

/-- Where no bytes are held and none are on their way, there is no line that was not read. -/
theorem unread_of_empty (hheld : w.wires.output.held = []) (hbytes : w.wires.output.bytes = []) :
    w.unread = [] := by
  unfold unread
  rw [hheld, hbytes]
  cases w.wires.output.writing <;> rfl

/-- How many request lines the kernel has received. -/
def received (w : World) (events : List Event) : Nat := (Log.heard (w.log events)).count 10

/-- Calls send requests and nobody abandons them; the kernel answers each request at most once, in
order, and only after it has received it. Its line `i` answers request `answers i`; it may be late,
write blank lines, write to its error output and hang up as it likes. -/
structure Answering (w : World) (events : List Event) (answers : Nat → Nat) : Prop where
  /-- Calls send requests. -/
  requests : ∀ id line, .call id line ∈ events → ∃ r : Request, line = Text.Utf8.bytes r.line
  /-- Calls run to completion. -/
  kept : ∀ past id, past ++ [.abandon id] <+: events →
    ∀ line stage, (w.run past).task? id ≠ some (.call line stage)
  /-- Requests are answered in order, each at most once. -/
  inOrder : StrictMono answers
  /-- A request is answered after it was received. -/
  timely : ∀ past, past <+: events → ∀ i < (w.kernelLines past).length,
    answers i < w.received past

/-- A kernel that answers in order throughout some events has done so throughout the first of them.
-/
theorem Answering.of_prefix {past events : List Event} {answers : Nat → Nat}
    (h : w.Answering events answers) (hp : past <+: events) : w.Answering past answers where
  requests id line hm := h.requests id line (hp.subset hm)
  kept more id hm := h.kept more id (hm.trans hp)
  inOrder := h.inOrder
  timely more hm := h.timely more (hm.trans hp)

/-- The reasons that the phase has shown along a run. -/
def Told (w : World) (events : List Event) (why : Desync) : Prop :=
  ∃ past, past <+: events ∧ (w.run past).phase = .poisoned why

/-- What holds along a run with such a kernel. -/
structure Conversing (w : World) (events : List Event) (answers : Nat → Nat) : Prop where
  /-- One call at a time. -/
  orderly : (w.run events).Orderly
  /-- The account of the pipes. -/
  ledger : (w.run events).Ledger (w.wires.output.held ++ w.wires.output.bytes) (w.log events)
  /-- The count of due replies. -/
  tally : (w.run events).Tally (w.log events)
  /-- Lines and results match. -/
  matched : (w.run events).Matched (w.log events) (w.Told events)
  /-- Every line answers the request of its number. -/
  numbered : ∀ i < (Log.taken (w.log events)).length, answers i = i

/-- A line that is taken is the next line that the kernel wrote. -/
theorem CallStep.reads {i : Nat} {d : Delivery} (h : CallStep w id line before after w' deeds)
    (ht : Log.taken deeds = [(i, d)]) :
    ∃ output, w.wires.output.nextLine? = some (d, output) ∧ d.isBlank = false := by
  have hd : ∀ {d' : Delivery}, [(id, d')] = [(i, d)] → d' = d := by
    intro d' he
    exact (Prod.mk.inj (List.cons.inj he).1).2
  cases h with
  | fail waits going read => exact hd ht ▸ ⟨_, read, rfl⟩
  | discard going read inked => exact hd ht ▸ ⟨_, read, inked⟩
  | reply going read inked decoded => exact hd ht ▸ ⟨_, read, inked⟩
  | garbled going read inked undecoded => exact hd ht ▸ ⟨_, read, inked⟩
  | _ => exact absurd ht (List.cons_ne_nil _ _).symm

/-- Whether a line is taken for a reply or for a late one, exactly one reply is due. -/
theorem CallStep.due {i : Nat} {d : Delivery} (h : CallStep w id line before after w' deeds)
    (hw : w.Orderly) (hc : w.Tally log) (ht : w.task? id = some (.call line before))
    (htk : Log.taken deeds = [(i, d)]) : ∃ q, Log.Due log q := by
  rcases h.takes with hnone | ⟨d', -, ⟨hs, -⟩ | ⟨⟨deadline, rfl⟩, -⟩⟩
  · rw [htk] at hnone
    exact absurd hnone (List.cons_ne_nil _ _)
  · exact ⟨id, hc.own ht hs⟩
  · obtain ⟨q, text, hdue, -⟩ := hc.late (hw.fits ht)
    exact ⟨q, hdue⟩

/-- A line that is taken is the next of the lines that the kernel wrote. -/
theorem Ledger.reads {events : List Event}
    (hl : (w.run events).Ledger (w.wires.output.held ++ w.wires.output.bytes) (w.log events))
    (h : CallStep (w.run events) id line before after w' deeds) {i : Nat} {d : Delivery}
    (htk : Log.taken deeds = [(i, d)]) :
    (w.kernelLines events)[(Log.taken (w.log events)).length]? = some d := by
  obtain ⟨output, hread, hd⟩ := h.reads htk
  have hnext := hl.output.next_eq hread hd
  rw [List.length_map] at hnext
  exact hnext

/-- A line that is taken answers the last request that was begun. -/
theorem Conversing.next {events : List Event} {answers : Nat → Nat}
    (hc : w.Conversing events answers) (ha : w.Answering events answers)
    (ht : (w.run events).task? id = some (.call line before))
    (h : CallStep (w.run events) id line before after w' deeds) {i : Nat} {d : Delivery}
    (htk : Log.taken deeds = [(i, d)]) :
    answers (Log.taken (w.log events)).length = (Log.taken (w.log events)).length := by
  obtain ⟨q, hlen, -⟩ := h.due hc.orderly hc.tally ht htk
  obtain ⟨hline, -⟩ := List.getElem?_eq_some_iff.mp (hc.ledger.reads h htk)
  have htimely := ha.timely events List.prefix_rfl _ hline
  have hreceived : w.received events ≤ (Log.begun (w.log events)).length := hc.ledger.received
  -- the kernel answers no later request, since it has received none, and no earlier one, since each
  -- line answers a later request than the line before
  have hmono := ha.inOrder.le_apply (x := (Log.taken (w.log events)).length)
  omega

/-- One more event keeps all this, as the count of requests and lines does. -/
theorem Conversing.concat {past : List Event} {e : Event} {answers : Nat → Nat}
    (hc : w.Conversing past answers) (h : w.Answering (past ++ [e]) answers) :
    w.Conversing (past ++ [e]) answers := by
  have hstep := apply_cases (w.run past) e
  have hkept : ∀ i, e = .abandon i → ∀ l s, (w.run past).task? i ≠ some (.call l s) := by
    intro i he
    exact h.kept past i (he ▸ List.prefix_rfl)
  have hline : ∀ id line, e = .call id line → line.count 10 = 1 := by
    intro id line he
    obtain ⟨r, hr⟩ := h.requests id line (by simp [he])
    rw [hr]
    exact r.count_bytes_line
  constructor
  · rw [run_concat]
    exact hc.orderly.step hstep
  · rw [run_concat, log_concat]
    exact hc.ledger.step hc.orderly hstep hline
  · rw [run_concat, log_concat]
    exact hc.tally.step hc.orderly hstep hkept
  · rw [run_concat, log_concat]
    refine hc.matched.step hc.tally hc.orderly hstep hkept
      (fun why he => ⟨past, List.prefix_rfl, he⟩)
      (fun why ⟨more, hm, he⟩ => ⟨more, hm.trans (List.prefix_append past [e]), he⟩)
      (fun why he => ⟨past ++ [e], List.prefix_rfl, by rw [run_concat]; exact he⟩) ?_
    rintro why ⟨more, hm, he⟩
    rcases List.prefix_concat_iff.mp hm with rfl | hm
    · rw [run_concat] at he
      exact Or.inr he
    · exact Or.inl ⟨more, hm, he⟩
  · -- at most one line is taken at a time, so only the newest number is in question
    intro i hi
    rw [log_concat, Log.taken_append, List.length_append] at hi
    rcases Nat.lt_or_ge i (Log.taken (w.log past)).length with hlt | hge
    · exact hc.numbered i hlt
    rcases hstep.poll_or_calm hc.orderly with ⟨id, line, before, after, -, task, poll⟩ | calm
    · rcases poll.takes with hnone | ⟨d, htk, -⟩
      · rw [hnone] at hi
        simp only [List.length_nil] at hi
        omega
      · rw [htk] at hi
        simp only [List.length_singleton] at hi
        have he : i = (Log.taken (w.log past)).length := by omega
        rw [he]
        exact hc.next (h.of_prefix (List.prefix_append past [e])) task poll htk
    · rw [Log.taken_of_calm calm.log] at hi
      simp only [List.length_nil] at hi
      omega

/-- Along every run with such a kernel all this holds, by induction from the last event; what one
event needs of the others is what the induction carries. -/
theorem Answering.conversing {timing : Timing} {wires : Wires} (hin : wires.input.bytes = [])
    {events : List Event} {answers : Nat → Nat}
    (h : (World.new timing wires).Answering events answers) :
    (World.new timing wires).Conversing events answers := by
  induction events using List.reverseRecOn with
  | nil =>
    refine ⟨Orderly.new timing wires, Ledger.new timing wires hin, Tally.new timing wires, ?_,
      fun i hi => absurd hi (Nat.not_lt_zero i)⟩
    have htold : (World.new timing wires).Told [] =
        fun why => (World.new timing wires).phase = .poisoned why := by
      funext why
      refine propext ⟨fun ⟨past, hp, he⟩ => ?_, fun he => ⟨[], List.prefix_rfl, he⟩⟩
      rw [List.prefix_nil.mp hp] at he
      exact he
    rw [htold]
    exact Matched.new timing wires
  | append_singleton past e ih =>
    exact (ih (h.of_prefix (List.prefix_append past [e]))).concat h

/-! ## Requests and replies belong together -/

/-- Did the call return a payload or the kernel's own error? So it did, too, when a typed call finds
that the payload is not what the operation promises. -/
def Replied (result : Result) : Prop :=
  isReply result = true ∨ ∃ api cause, Reply.ofResult api result = .error (.decode cause)

/-- Requests and replies belong together along a run. -/
structure Paired (w : World) (events : List Event) (answers : Nat → Nat) : Prop where
  /-- No call begins twice, so a request is known by its number and by its call. -/
  distinct : (Log.begun (w.log events)).Nodup
  /-- Request `r` reaches the kernel's input only when every line of the whole run that answers an
  earlier request has been taken. -/
  writes : ∀ past e id bytes, past ++ [e] <+: events → .wrote id bytes ∈ (w.run past).deeds e →
    ∃ r, (Log.begun (w.log past))[r]? = some id ∧ (Log.begun (w.log past)).length = r + 1 ∧
      ∀ i < (w.kernelLines events).length, answers i < r → i < (Log.taken (w.log past)).length
  /-- Lines are taken in the order in which the kernel wrote them. -/
  order : (Log.taken (w.log events)).map Prod.snd <+: w.kernelLines events
  /-- Line `i` answers request `i`. -/
  numbers : ∀ i < (Log.taken (w.log events)).length, answers i = i
  /-- A line makes the result of the call whose request it answers, or it is late. -/
  served : ∀ i id d, (Log.taken (w.log events))[i]? = some (id, d) →
    (w.run events).Served (w.log events) i id d
  /-- The late reply to a call that failed with error output is taken by another call, which throws
  it away and then sends request `i + 1`, or fails since the line was not UTF-8. -/
  late : ∀ i q text id d, (Log.begun (w.log events))[i]? = some q →
    (w.run events).callResult? q = some (.error (.kernelStderr text)) →
    (Log.taken (w.log events))[i]? = some (id, d) →
    id ≠ q ∧ ((Log.begun (w.log events))[i + 1]? = some id ∨
      ∃ fault, d = .unreadable fault ∧ (w.run events).callResult? id = some (replyTo d))
  /-- Every payload and every error of the kernel that a call returns was made of the line that
  answers its own request. -/
  replies : ∀ id result, (w.run events).callResult? id = some result → isReply result = true →
    (w.run events).Answered (w.log events) id
  /-- So was every refusal of a line that is no document. A call that sent no request may repeat why
  the conversation is over. -/
  refusals : ∀ id reason, (w.run events).callResult? id = some (.error (.poisoned reason)) →
    (w.run events).Answered (w.log events) id ∨
      id ∉ Log.begun (w.log events) ∧ ∃ why, w.Told events why ∧ reason = why.reason
  /-- The conversation is over for a line that is no document only if that line was taken for its
  own reply by the call whose request it answers. -/
  garbled : ∀ text, w.Told events (.unparseable text) →
    ∃ i id : Nat, (Log.begun (w.log events))[i]? = some id ∧
      (Log.taken (w.log events))[i]? = some (id, .line text)
  /-- While the conversation is ready and nobody has a turn, no reply is due. -/
  even : ∀ past, past <+: events → (w.run past).holder = none → (w.run past).phase = .ready →
    Log.Even (w.log past)
  /-- Whenever a call returns a reply, the conversation is ready and no reply is due. -/
  ready : ∀ past e id result, past ++ [e] <+: events → (w.run past).callResult? id = none →
    (w.run (past ++ [e])).callResult? id = some result → Replied result →
    (w.run (past ++ [e])).phase = .ready ∧ (w.run (past ++ [e])).holder = none ∧
      Log.Even (w.log (past ++ [e]))

/-- Only the call whose poll it is writes, and only while it sends its request. -/
theorem CallStep.writes {i : Nat} {bytes : List UInt8}
    (h : CallStep w id line before after w' deeds) (hm : .wrote i bytes ∈ deeds) :
    i = id ∧ before.sends = true := by
  cases h with
  | put more writing reading room =>
    rw [List.mem_singleton, Deed.wrote.injEq] at hm
    exact ⟨hm.1, rfl⟩
  | _ => exact absurd hm (by simp)

theorem not_replied {result : Result} (h : Failed w' before result) : ¬ Replied result := by
  rintro (hr | ⟨api, cause, hd⟩)
  · rw [h.reply] at hr
    exact Bool.false_ne_true hr
  · cases result with
    | ok payload => exact Bool.false_ne_true h.reply.symm
    | error e =>
      rw [Reply.ofResult, Except.error.injEq] at hd
      exact h.decode cause (by rw [hd])

/-- What was replied by a line counts as a reply, also if the payload does not fit the operation. -/
theorem isReply_of_replied {d : Delivery} (h : Replied (replyTo d)) :
    isReply (replyTo d) = true := by
  rcases h with hr | ⟨api, cause, hd⟩
  · exact hr
  cases d with
  | line text =>
    cases hdec : Envelope.decodeLine text with
    | ok envelope =>
      rw [replyTo_of_ok hdec]
      exact isReply_payload envelope
    | error e =>
      rw [replyTo_of_error hdec, Reply.ofResult] at hd
      exact LinkError.noConfusion (Except.error.inj hd)
  | unreadable fault => exact LinkError.noConfusion (Except.error.inj hd)
  | ended => exact LinkError.noConfusion (Except.error.inj hd)

/-- No line is answered by captured error output; that is how a call fails that got no line. -/
theorem replyTo_ne_kernelStderr (d : Delivery) (text : String) :
    replyTo d ≠ .error (.kernelStderr text) := by
  cases d with
  | line t =>
    cases hdec : Envelope.decodeLine t with
    | ok envelope =>
      rw [replyTo_of_ok hdec]
      cases envelope <;> simp [Envelope.payload]
    | error e =>
      rw [replyTo_of_error hdec]
      simp
  | unreadable fault => simp [replyTo]
  | ended => simp [replyTo]

/-- Who takes the reply to a call that failed with error output. -/
theorem Served.late {i q : Nat} {text : String} {d : Delivery} (h : w.Served log i id d)
    (hq : (Log.begun log)[i]? = some q)
    (hf : w.callResult? q = some (.error (.kernelStderr text))) :
    id ≠ q ∧ ((Log.begun log)[i + 1]? = some id ∨
      ∃ fault, d = .unreadable fault ∧ w.callResult? id = some (replyTo d)) := by
  rcases h with ⟨hb, hr⟩ | ⟨q', text', hb, hne, -, hnext⟩
  · rw [hq, Option.some.injEq] at hb
    subst hb
    rw [hf, Option.some.injEq] at hr
    exact absurd hr.symm (replyTo_ne_kernelStderr d text)
  · rw [hq, Option.some.injEq] at hb
    subst hb
    exact ⟨hne.symm, hnext⟩

/-- Whenever a call returns a reply, the conversation is ready and no reply is due. -/
theorem Tally.ready {e : Event} {result : Result} (hc : w.Tally log) (hw : w.Orderly)
    (h : EventStep w e w' deeds) (hn : w.callResult? id = none)
    (hr : w'.callResult? id = some result) (hreplied : Replied result) :
    w'.phase = .ready ∧ w'.holder = none ∧ Log.Even (log ++ deeds) := by
  rcases h.callResult?_new hn hr with rfl | ⟨line, before, ht, hp⟩
  · rcases hreplied with hr | ⟨api, cause, hd⟩
    · exact absurd hr Bool.false_ne_true
    · exact LinkError.noConfusion (Except.error.inj hd)
  rcases hp.result with ⟨hs, d, hb, htk, rfl, hphase⟩ | hf
  · have hready : w.phase = .ready := by
      have hfit := hw.fits ht
      cases before with
      | writing rest => exact hfit
      | awaiting deadline graceEnd => exact hfit
      | queued => exact absurd hs Bool.false_ne_true
      | discarding deadline => exact absurd hs Bool.false_ne_true
      | leaving endsAt => exact absurd hs Bool.false_ne_true
      | finished r => exact absurd hs Bool.false_ne_true
    exact ⟨(hphase (isReply_of_replied hreplied)).trans hready, hp.turn hw ht,
      (hc.own ht hs).take hb htk⟩
  · exact absurd hreplied (not_replied hf)

/-- With a kernel that answers each request at most once, in order and after it has received it,
requests and replies belong together, whatever the schedule. -/
theorem paired (timing : Timing) (wires : Wires) (hin : wires.input.bytes = [])
    (events : List Event) (answers : Nat → Nat)
    (h : (World.new timing wires).Answering events answers) :
    (World.new timing wires).Paired events answers := by
  generalize hw : World.new timing wires = w at h ⊢
  have hall : ∀ {past}, past <+: events → w.Conversing past answers := by
    intro past hp
    rw [← hw] at h ⊢
    exact Answering.conversing hin (h.of_prefix hp)
  have hc := hall List.prefix_rfl
  refine ⟨hc.tally.distinct, fun past e id bytes hp hm => ?_, ?_, hc.numbered,
    fun i id d => hc.matched.lines,
    fun i q text id d hq hf ht => (hc.matched.lines ht).late hq hf,
    fun id result => hc.matched.replies, fun id reason => hc.matched.poisoned,
    fun text => hc.matched.garbled, fun past hp => (hall hp).tally.even,
    fun past e id result hp hn hr hreplied => ?_⟩
  · -- only a call whose reply is due writes, and then all earlier lines were taken
    have hpast := hall ((List.prefix_append past [e]).trans hp)
    rcases (apply_cases (w.run past) e).poll_or_calm hpast.orderly with
      ⟨i, line, before, after, -, task, poll⟩ | calm
    · obtain ⟨rfl, hs⟩ := poll.writes hm
      obtain ⟨hlen, hdue⟩ := hpast.tally.own task hs
      refine ⟨_, hdue, hlen, fun j _ hj => ?_⟩
      have hmono := h.inOrder.le_apply (x := j)
      omega
    · exact absurd (calm.log _ hm).symm Bool.false_ne_true
  · have hlines := hc.ledger.output.textLines_eq
    exact ⟨_, hlines.symm⟩
  · have hpast := hall ((List.prefix_append past [e]).trans hp)
    have hstep := apply_cases (w.run past) e
    rw [run_concat] at hr ⊢
    rw [log_concat]
    exact hpast.tally.ready hpast.orderly hstep hn hr hreplied

/-! ## A late reply -/

/-- Two calls. The first fails with error output; the second throws its late reply away, sends its
own request and gets its own reply. -/
def lateReplyRun : List Event :=
  let line := Text.Utf8.bytes (Request.del ⟨"a"⟩).line
  [.call 0 line, .call 1 line, .poll 0, .poll 0, .poll 0, .kernelTakes 43, .kernelReports [98],
    .capture, .capture, .poll 0, .poll 0, .poll 1, .kernelWrites [49, 10], .poll 1, .poll 1,
    .poll 1, .poll 1, .kernelTakes 43, .kernelWrites [50, 10], .poll 1, .poll 1]

/-- The kernel of this run answers both requests in order, each after it was made. -/
theorem answering_lateReplyRun :
    (World.new ⟨1, 1, 0, 1, 1⟩ (.new 0 1)).Answering lateReplyRun (fun i => i) where
  requests id line hm := by
    simp only [lateReplyRun, List.mem_cons, List.not_mem_nil, Event.call.injEq, or_false,
      reduceCtorEq] at hm
    rcases hm with ⟨-, hl⟩ | ⟨-, hl⟩
    · exact ⟨_, hl⟩
    · exact ⟨_, hl⟩
  kept past id hp := by
    have hm : .abandon id ∈ lateReplyRun := hp.subset (by simp)
    simp [lateReplyRun] at hm
  inOrder _ _ h := h
  timely past hp := by
    have hall : ∀ past ∈ lateReplyRun.inits,
        ∀ i < ((World.new ⟨1, 1, 0, 1, 1⟩ (.new 0 1)).kernelLines past).length,
          i < (World.new ⟨1, 1, 0, 1, 1⟩ (.new 0 1)).received past := by decide +kernel
    exact hall past ((List.mem_inits past lateReplyRun).mpr hp)

/-- The second call gets its own reply, although the first has failed before its reply came: that
one is read late and dropped. -/
theorem paired_lateReplyRun :
    (World.new ⟨1, 1, 0, 1, 1⟩ (.new 0 1)).Answering lateReplyRun (fun i => i) ∧
    (World.new ⟨1, 1, 0, 1, 1⟩ (.new 0 1)).Paired lateReplyRun (fun i => i) ∧
    ((World.new ⟨1, 1, 0, 1, 1⟩ (.new 0 1)).run lateReplyRun).callResult? 0 =
      some (.error (.kernelStderr "b")) ∧
    ((World.new ⟨1, 1, 0, 1, 1⟩ (.new 0 1)).run lateReplyRun).callResult? 1 =
      some (.ok (.num (.int 2))) :=
  ⟨answering_lateReplyRun, paired _ _ rfl _ _ answering_lateReplyRun, by decide +kernel,
    by decide +kernel⟩

end World
end KernelLink.Session
