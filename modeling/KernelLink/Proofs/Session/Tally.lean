import KernelLink.Proofs.Session.Ledger
import Mathlib.Data.List.Nodup
/-!
# How many replies are due

A reply does not tell which request it answers. What pairs them is a count: while the conversation
is ready and nobody has a turn, as many lines were taken as requests were begun; while a call writes
or waits, or its late reply is outstanding, there is one line less.

Main definitions:
* `Log.Even`, `Log.Due`: no reply is due, or that to one call.
* `Stage.past`: the stages of a call that has begun, or never will.
* `World.Tally`: the count.

Main result:
* `World.Tally.step`: every event keeps the count, unless the caller of a call goes away.
-/
namespace KernelLink.Session

open Host (Delivery)

/-! ## The count -/

namespace Log

/-- As many lines were taken as requests were begun. -/
def Even (log : Log) : Prop := (taken log).length = (begun log).length

/-- One more request was begun than lines were taken, and the last one is that of a call. -/
def Due (log : Log) (id : Nat) : Prop :=
  (begun log).length = (taken log).length + 1 ∧ (begun log)[(taken log).length]? = some id

/-- Where no reply is due and a request begins, its reply is due. -/
theorem Even.begin {log more : Log} {id : Nat} (h : Even log) (hb : begun more = [id])
    (ht : taken more = []) : Due (log ++ more) id := by
  unfold Even at h
  unfold Due
  rw [begun_append, taken_append, hb, ht, List.append_nil, h]
  simp

theorem Due.take {log more : Log} {id i : Nat} {line : Delivery} (h : Due log id)
    (hb : begun more = []) (ht : taken more = [(i, line)]) : Even (log ++ more) := by
  obtain ⟨hlen, -⟩ := h
  unfold Even
  rw [begun_append, taken_append, hb, ht, List.append_nil, hlen]
  simp

/-- If a late reply is taken and the next request begins in the same step, that one's reply is due.
-/
theorem Due.takeBegin {log more : Log} {id i : Nat} {line : Delivery} (h : Due log id)
    (hb : begun more = [i]) (ht : taken more = [(i, line)]) : Due (log ++ more) i := by
  obtain ⟨hlen, -⟩ := h
  unfold Due
  rw [begun_append, taken_append, hb, ht]
  simp [hlen]

theorem Due.append {log more : Log} {id : Nat} (h : Due log id) (hb : begun more = [])
    (ht : taken more = []) : Due (log ++ more) id := by
  unfold Due
  rw [begun_append, taken_append, hb, ht, List.append_nil, List.append_nil]
  exact h

theorem Even.append {log more : Log} (h : Even log) (hb : begun more = [])
    (ht : taken more = []) : Even (log ++ more) := by
  unfold Even
  rw [begun_append, taken_append, hb, ht, List.append_nil, List.append_nil]
  exact h

end Log

/-- Has a call in this stage begun to write, or will it never? -/
def Stage.past : Stage → Bool
  | .queued | .discarding _ => false
  | .writing _ | .awaiting _ _ | .leaving _ | .finished _ => true

namespace World

variable {w w' : World} {id : Nat} {line : List UInt8} {before after : Stage} {deeds : List Deed}
  {log : Log}

/-- What the phase and the stages of calls say about the lines that are due. -/
structure Tally (w : World) (log : Log) : Prop where
  /-- No reply is due while the conversation is ready and nobody has a turn. -/
  even : w.holder = none → w.phase = .ready → Log.Even log
  /-- The outstanding reply is that to a call that failed with error output. -/
  late : w.phase = .replyOutstanding →
    ∃ q text, Log.Due log q ∧ w.callResult? q = some (.error (.kernelStderr text))
  /-- The reply to the call that writes or waits is due. -/
  own : ∀ {id line stage}, w.task? id = some (.call line stage) → stage.sends = true →
    Log.Due log id
  /-- Calls that have begun are calls. -/
  calls : ∀ {q}, q ∈ Log.begun log → ∃ line stage, w.task? q = some (.call line stage) ∧
    stage.past = true
  /-- No call begins twice. -/
  distinct : (Log.begun log).Nodup

theorem Tally.new (timing : Timing) (wires : Wires) : (World.new timing wires).Tally [] where
  even _ _ := rfl
  late h := Phase.noConfusion h
  own h := absurd h (by simp [World.new, task?])
  calls h := absurd h (by simp [Log.begun])
  distinct := List.nodup_nil

/-! ## The polls of a call -/

/-- Where a poll leaves the link ready and nobody in turn, no reply is due. Only taking a reply and
being refused lead there. -/
theorem CallStep.even (h : CallStep w id line before after w' deeds) (hw : w.Orderly)
    (hc : w.Tally log) (ht : w.task? id = some (.call line before)) (hh : w'.holder = none)
    (hp : w'.phase = .ready) : Log.Even (log ++ deeds) := by
  have hturn := h.turn hw ht
  -- the other rules leave somebody in turn or the link not ready
  cases h with
  | reply going read inked decoded => exact (hc.own ht rfl).take rfl rfl
  | enterRefused next refusal =>
    rw [show w.phase = .ready from hp] at refusal
    exact absurd refusal (by simp [Phase.refusal])
  | leave due =>
    have hexit : w.phase = .exited := hw.fits ht
    rw [show w.phase = .ready from hp] at hexit
    exact Phase.noConfusion hexit
  | cancel | fail | missing | garbled | report | overdue => exact Phase.noConfusion hp
  | skip waits | fill waits =>
    rw [hturn, Stage.inTurn_of_waits waits] at hh
    exact absurd hh (Option.some_ne_none id)
  | _ =>
    rw [hturn] at hh
    exact absurd hh (Option.some_ne_none id)

/-- Where a poll leaves a reply outstanding, it is that of a call which has failed with captured
error output, be it this one or an earlier one. -/
theorem CallStep.late (h : CallStep w id line before after w' deeds) (hw : w.Orderly)
    (hc : w.Tally log) (ht : w.task? id = some (.call line before))
    (hp : w'.phase = .replyOutstanding) :
    ∃ q text, Log.Due (log ++ deeds) q ∧ w'.callResult? q = some (.error (.kernelStderr text)) := by
  have hkeep : ∀ {q result}, w.callResult? q = some result → w'.callResult? q = some result :=
    fun hr => (EventStep.step ht h).callResult?_of hr (by simp)
  have hsame : Log.begun deeds = [] → Log.taken deeds = [] → w.phase = .replyOutstanding →
      ∃ q text, Log.Due (log ++ deeds) q ∧
        w'.callResult? q = some (.error (.kernelStderr text)) := by
    intro hb htk hphase
    obtain ⟨q, text, hdue, hr⟩ := hc.late hphase
    exact ⟨q, text, hdue.append hb htk, hkeep hr⟩
  have hfit : before.Fits w.phase := hw.fits ht
  have hself := h.self ht
  -- only the end of a grace makes a reply late; the stages of all other polls that go on from here
  -- show that it was late before
  cases h with
  | report quiet due inked =>
    exact ⟨id, _, (hc.own ht rfl).append rfl rfl, callResult?_eq_some.mpr ⟨line, hself⟩⟩
  | enterLate next phase => exact hsame rfl rfl hp
  | enterRefused next refusal => exact hsame rfl rfl hp
  | skip waits going read blank => exact hsame rfl rfl hp
  | fill waits going none some => exact hsame rfl rfl hp
  | enterReady next phase =>
    rw [show w.phase = .replyOutstanding from hp] at phase
    exact Phase.noConfusion phase
  | written | put | reply | stale | arm | disarm | leave =>
    rw [show w.phase = .replyOutstanding from hp] at hfit
    exact Phase.noConfusion hfit
  | _ => exact Phase.noConfusion hp

theorem CallStep.own (h : CallStep w id line before after w' deeds) (hw : w.Orderly)
    (hc : w.Tally log) (ht : w.task? id = some (.call line before)) {i : Nat} {l : List UInt8}
    {stage : Stage} (hi : w'.task? i = some (.call l stage)) (hs : stage.sends = true) :
    Log.Due (log ++ deeds) i := by
  -- nobody else sends, so the question is whether this call begins or has begun
  obtain rfl := h.only_after hw ht hi (Stage.inTurn_of_sends hs)
  replace hi := call_inj (h.self ht) hi
  rw [← hi.2] at hs
  cases h with
  | enterReady next phase => exact (hc.even (holder_of_isNext next) phase).begin rfl rfl
  | discard going read inked =>
    obtain ⟨q, text, hdue, -⟩ := hc.late (hw.fits ht)
    exact hdue.takeBegin rfl rfl
  | skip waits going read blank => exact (hc.own ht hs).append rfl rfl
  | fill waits going none some => exact (hc.own ht hs).append rfl rfl
  | written | put | stale | arm | disarm => exact (hc.own ht rfl).append rfl rfl
  | _ => exact absurd hs Bool.false_ne_true

/-- A call begins once: when its stage says that it has, which no later stage takes back. -/
theorem CallStep.begins (h : CallStep w id line before after w' deeds) :
    Log.begun deeds = [] ∧ (before.past = true → after.past = true) ∨
    Log.begun deeds = [id] ∧ before.past = false ∧ after.past = true := by
  cases h with
  | enterReady next phase => exact Or.inr ⟨rfl, rfl, rfl⟩
  | discard going read inked => exact Or.inr ⟨rfl, rfl, rfl⟩
  | enterLate next phase => exact Or.inl ⟨rfl, fun h => h⟩
  | skip waits going read blank => exact Or.inl ⟨rfl, fun h => h⟩
  | fill waits going none some => exact Or.inl ⟨rfl, fun h => h⟩
  | _ => exact Or.inl ⟨rfl, fun _ => rfl⟩

/-- A call that an event does not abandon and that has begun, or never will, stays so. -/
theorem EventStep.past {e : Event} {i : Nat} {stage : Stage} (h : EventStep w e w' deeds)
    (ha : e ≠ .abandon i) (ht : w.task? i = some (.call line stage)) (hs : stage.past = true) :
    ∃ line stage, w'.task? i = some (.call line stage) ∧ stage.past = true := by
  rcases h.call_goes ht ha with hsame | ⟨after, hself, hp⟩ | ⟨hq, hself⟩
  · exact ⟨line, stage, hsame, hs⟩
  · rcases hp.begins with ⟨-, hkeep⟩ | ⟨-, -, hnow⟩
    · exact ⟨line, after, hself, hkeep hs⟩
    · exact ⟨line, after, hself, hnow⟩
  · exact ⟨line, _, hself, rfl⟩

/-- A poll keeps the count, part by part; the parts about other calls hold as no poll changes their
stages. -/
theorem Tally.poll (hc : w.Tally log) (hw : w.Orderly)
    (ht : w.task? id = some (.call line before))
    (h : CallStep w id line before after w' deeds) : w'.Tally (log ++ deeds) where
  even := h.even hw hc ht
  late := h.late hw hc ht
  own := h.own hw hc ht
  calls {q} hq := by
    have hstep : EventStep w (.poll id) w' deeds := .step ht h
    -- a call that had begun is still past its beginning, whoever was polled
    have hold : q ∈ Log.begun log → ∃ line stage, w'.task? q = some (.call line stage) ∧
        stage.past = true := by
      intro hm
      obtain ⟨l, stage, hti, hs⟩ := hc.calls hm
      exact hstep.past (by simp) hti hs
    rw [Log.begun_append, List.mem_append] at hq
    rcases h.begins with ⟨hb, -⟩ | ⟨hb, -, hnow⟩
    · rw [hb] at hq
      exact hold (hq.resolve_right (by simp))
    · rcases hq with hq | hq
      · exact hold hq
      · rw [hb, List.mem_singleton] at hq
        rw [hq]
        exact ⟨line, after, h.self ht, hnow⟩
  distinct := by
    rw [Log.begun_append]
    rcases h.begins with ⟨hb, -⟩ | ⟨hb, hnot, -⟩
    · rw [hb, List.append_nil]
      exact hc.distinct
    · rw [hb, ← List.concat_eq_append]
      refine List.Nodup.concat (fun hm => ?_) hc.distinct
      obtain ⟨l, stage, hti, hs⟩ := hc.calls hm
      replace hti := call_inj ht hti
      rw [← hti.2, hnot] at hs
      exact Bool.false_ne_true hs

/-- An event that is no poll of a call keeps the count, unless a caller goes away. -/
theorem Tally.calm {e : Event} (hc : w.Tally log) (h : EventStep w e w' deeds)
    (calm : Calm w e w' deeds) (ha : ∀ i, e = .abandon i → ∀ l s, w.task? i ≠ some (.call l s))
    (hw : w.Orderly) : w'.Tally (log ++ deeds) := by
  have hb := Log.begun_of_calm calm.log
  have htk := Log.taken_of_calm calm.log
  have hkept : ∀ {i l s}, w.task? i = some (.call l s) → e ≠ .abandon i := by
    rintro i l s hti rfl
    exact ha i rfl l s hti
  -- the turn can only end with its caller, and no caller goes away
  have hholder : w'.holder = w.holder := by
    rcases calm.holder with hs | ⟨i, rfl, hheld, -⟩
    · exact hs
    · obtain ⟨l, s, hti, -⟩ := hw.held hheld
      exact absurd hti (ha i rfl l s)
  refine ⟨fun hh hp => ?_, fun hp => ?_, fun {i l s} ht hs => ?_, fun {q} hq => ?_, ?_⟩
  · rcases calm.phase with hs | ⟨hs, -⟩
    · exact (hc.even (hholder ▸ hh) (hs ▸ hp)).append hb htk
    · rw [hs] at hp
      exact Phase.noConfusion hp
  · rcases calm.phase with hs | ⟨hs, -⟩
    · obtain ⟨q, text, hdue, hr⟩ := hc.late (hs ▸ hp)
      obtain ⟨l, ht⟩ := callResult?_eq_some.mp hr
      exact ⟨q, text, hdue.append hb htk, h.callResult?_of hr (hkept ht)⟩
    · rw [hs] at hp
      exact Phase.noConfusion hp
  · exact (hc.own (calm.inTurn ht (Stage.inTurn_of_sends hs)) hs).append hb htk
  · rw [Log.begun_append, hb, List.append_nil] at hq
    obtain ⟨l, s, ht, hs⟩ := hc.calls hq
    exact h.past (hkept ht) ht hs
  · rw [Log.begun_append, hb, List.append_nil]
    exact hc.distinct

/-- Every event keeps the count, unless a caller goes away: only a poll of a call changes what is
counted. -/
theorem Tally.step {e : Event} (hc : w.Tally log) (hw : w.Orderly)
    (h : EventStep w e w' deeds)
    (ha : ∀ i, e = .abandon i → ∀ l s, w.task? i ≠ some (.call l s)) :
    w'.Tally (log ++ deeds) := by
  rcases h.poll_or_calm hw with ⟨id, line, before, after, rfl, task, poll⟩ | calm
  · exact hc.poll hw task poll
  · exact hc.calm h calm ha hw

end World
end KernelLink.Session
