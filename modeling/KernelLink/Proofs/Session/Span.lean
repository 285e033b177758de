import KernelLink.Proofs.Session.Turns
/-!
# From the beginning of a turn on

A call has its turn from the poll that finds it at the head of the queue until it has a result or
its caller goes away. During that time no other call is polled to any effect. So what holds when the
turn begins and is kept by the polls of that call, and by all that is no poll of a call, holds as
long as the turn lasts.

Main definitions:
* `World.Enters`: the turn of a call begins.
* `World.Ends`: a call gets its result, some time after a poll of it.
* `World.Reaches`: a call comes into stages of a kind.

Main results:
* `World.Orderly.along`, `World.Orderly.span`: induction over a turn.
* `World.Orderly.ends`: where a call came from that has a result.
-/
namespace KernelLink.Session.World

variable {w w' : World} {id : Nat} {line : List UInt8} {before after : Stage} {deeds : List Deed}

/-- A poll of the call, now, is the beginning of its turn. -/
def Enters (w : World) (id : Nat) : Prop := .entered id ∈ w.deeds (.poll id)

/-- A call gets its result at the event `e`, and its caller has stayed since its poll behind
`past`. -/
structure Ends (w : World) (past mid : List Event) (e : Event) (id : Nat) (result : Result) :
    Prop where
  /-- Its caller stays. -/
  kept : .abandon id ∉ mid
  /-- It has no result before the event. -/
  waits : (w.run (past ++ .poll id :: mid)).callResult? id = none
  /-- It has one at the event. -/
  ends : (w.run (past ++ .poll id :: mid ++ [e])).callResult? id = some result

/-- A call that gets its result was polled, or it was told that the link is closed. -/
theorem Ends.poll {past mid : List Event} {e : Event} {result : Result}
    (h : Ends w past mid e id result) :
    result = .error .closed ∨ ∃ line before w' deeds,
      (w.run (past ++ .poll id :: mid)).task? id = some (.call line before) ∧
      CallStep (w.run (past ++ .poll id :: mid)) id line before (.finished result) w' deeds := by
  have hends := h.ends
  rw [run_concat] at hends
  rcases (apply_cases _ e).callResult?_new h.waits hends with hc | ⟨line, before, ht, hs⟩
  · exact Or.inl hc
  · exact Or.inr ⟨line, before, _, _, ht, hs⟩

theorem CallStep.entered {i : Nat} (h : CallStep w id line before after w' deeds)
    (hm : .entered i ∈ deeds) : i = id ∧ before = .queued := by
  cases h with
  | enterReady next phase =>
    rw [List.mem_cons, List.mem_singleton] at hm
    rcases hm with hm | hm
    · exact ⟨Deed.entered.inj hm, rfl⟩
    · exact Deed.noConfusion hm
  | enterLate next phase => exact ⟨Deed.entered.inj (List.mem_singleton.mp hm), rfl⟩
  | enterRefused next refusal => exact ⟨Deed.entered.inj (List.mem_singleton.mp hm), rfl⟩
  | _ => exact absurd hm (by simp)

/-- A poll of a queued call begins its turn, whatever it finds there. -/
theorem CallStep.entered_of_queued (h : CallStep w id line .queued after w' deeds) :
    .entered id ∈ deeds := by
  cases h with
  | enterReady next phase => exact List.mem_cons_self
  | enterLate next phase => exact List.mem_cons_self
  | enterRefused next refusal => exact List.mem_cons_self
  | cancel waits | skip waits | fail waits | gone waits | fill waits =>
    exact absurd waits Bool.false_ne_true

/-- A poll leaves the call in its turn or gives it a result. -/
theorem CallStep.goes (h : CallStep w id line before after w' deeds) :
    after.inTurn = true ∨ ∃ result, after = .finished result := by
  cases h with
  | skip waits | fill waits => exact Or.inl (Stage.inTurn_of_waits waits)
  | cancel | enterRefused | fail | missing | reply | garbled | report | overdue | leave =>
    exact Or.inr ⟨_, rfl⟩
  | _ => exact Or.inl rfl

/-- The poll at the beginning of a turn is one of a queued call, whose next stage depends on the
phase alone. -/
theorem Enters.poll (h : w.Enters id) (hw : w.Orderly) :
    ∃ line after, w.task? id = some (.call line .queued) ∧
      CallStep w id line .queued after (w.apply (.poll id)) (w.deeds (.poll id)) := by
  obtain ⟨line, before, after, task, poll⟩ := hw.poll_of_deed h rfl
  obtain ⟨-, rfl⟩ := poll.entered h
  exact ⟨line, after, task, poll⟩

/-- Induction over a turn: until the call has a result, it is in its turn, and what holds at first
and is kept by every event holds. -/
theorem Orderly.along {P : List Event → Prop} {stage : Stage} (hw : w.Orderly)
    (ht : w.task? id = some (.call line stage)) (hs : stage.inTurn = true) (hP : P [])
    (hpoll : ∀ {past e line before after}, P past →
      (w.run past).task? id = some (.call line before) → before.inTurn = true →
      CallStep (w.run past) id line before after ((w.run past).apply e) ((w.run past).deeds e) →
      after.inTurn = true → P (past ++ [e]))
    (hcalm : ∀ {past e line stage}, P past → (w.run past).task? id = some (.call line stage) →
      stage.inTurn = true →
      Calm (w.run past) e ((w.run past).apply e) ((w.run past).deeds e) →
      ((w.run past).apply e).task? id = some (.call line stage) → P (past ++ [e]))
    (mid : List Event) (hkept : .abandon id ∉ mid) :
    (∃ result, (w.run mid).callResult? id = some result) ∨
    (∃ line stage, (w.run mid).task? id = some (.call line stage) ∧ stage.inTurn = true) ∧
      P mid := by
  induction mid using List.reverseRecOn with
  | nil => exact Or.inr ⟨⟨line, stage, ht, hs⟩, hP⟩
  | append_singleton past e ih =>
    rw [List.mem_append, not_or, List.mem_singleton] at hkept
    rw [run_concat]
    have hv : (w.run past).Orderly := hw.run _
    have hstep := apply_cases (w.run past) e
    rcases ih hkept.1 with ⟨result, hr⟩ | ⟨⟨l, now, hnow, hturn⟩, hnowP⟩
    · exact Or.inl ⟨result, hstep.callResult?_of hr (Ne.symm hkept.2)⟩
    have hself : ∀ {after}, CallStep (w.run past) id l now after ((w.run past).apply e)
        ((w.run past).deeds e) →
        (∃ result, ((w.run past).apply e).callResult? id = some result) ∨
        (∃ line stage, ((w.run past).apply e).task? id = some (.call line stage) ∧
          stage.inTurn = true) ∧ P (past ++ [e]) := by
      intro after hstepped
      rcases hstepped.goes with hafter | ⟨result, rfl⟩
      · exact Or.inr ⟨⟨l, after, hstepped.self hnow, hafter⟩,
          hpoll hnowP hnow hturn hstepped hafter⟩
      · exact Or.inl ⟨result, callResult?_eq_some.mpr ⟨l, hstepped.self hnow⟩⟩
    rcases hstep.poll_or_calm hv with ⟨i, l', before, after, -, task, poll⟩ | calm
    · -- whoever is polled to any effect is the call whose turn it is
      obtain rfl := poll.only hv task hnow hturn
      obtain ⟨rfl, rfl⟩ := call_inj hnow task
      exact hself poll
    · rcases hstep.call_goes hnow (Ne.symm hkept.2) with hsame | ⟨after, -, hgoes⟩ | ⟨hq, -⟩
      · exact Or.inr ⟨⟨l, now, hsame, hturn⟩, hcalm hnowP hnow hturn calm hsame⟩
      · exact hself hgoes
      · rw [hq] at hturn
        exact absurd hturn Bool.false_ne_true

/-- The same for what is said about the states of the turn and what they have shown. -/
theorem Orderly.span {P : World → Log → Prop} {stage : Stage} {log : Log} (hw : w.Orderly)
    (ht : w.task? id = some (.call line stage)) (hs : stage.inTurn = true) (hP : P w log)
    (hpoll : ∀ {v log line before after v' deeds}, v.Orderly → P v log →
      v.task? id = some (.call line before) → before.inTurn = true →
      CallStep v id line before after v' deeds → v'.task? id = some (.call line after) →
      after.inTurn = true → P v' (log ++ deeds))
    (hcalm : ∀ {v log e v' deeds line stage}, v.Orderly → P v log →
      v.task? id = some (.call line stage) → stage.inTurn = true → Calm v e v' deeds →
      v'.task? id = some (.call line stage) → P v' (log ++ deeds))
    (mid : List Event) (hkept : .abandon id ∉ mid) :
    (∃ result, (w.run mid).callResult? id = some result) ∨
    (∃ line stage, (w.run mid).task? id = some (.call line stage) ∧ stage.inTurn = true) ∧
      P (w.run mid) (log ++ w.log mid) := by
  refine hw.along (P := fun past => P (w.run past) (log ++ w.log past)) ht hs ?_ ?_ ?_ mid hkept
  · show P w (log ++ [])
    rw [List.append_nil]
    exact hP
  · intro past e l before after hpast task hturn poll hafter
    rw [run_concat, log_concat, ← List.append_assoc]
    exact hpoll (hw.run past) hpast task hturn poll (poll.self task) hafter
  · intro past e l now hpast task hturn calm hsame
    rw [run_concat, log_concat, ← List.append_assoc]
    exact hcalm (hw.run past) hpast task hturn calm hsame

/-! ## Coming into stages of a kind -/

/-- With its next poll the call comes into stages of a kind. -/
def Reaches (P : Stage → Bool) (w : World) (id : Nat) : Prop :=
  ∃ line before after, w.task? id = some (.call line before) ∧ P before = false ∧
    (w.apply (.poll id)).task? id = some (.call line after) ∧ P after = true

variable {P : Stage → Bool}

/-- The poll with which a call comes into stages of its turn. -/
theorem Reaches.poll (h : w.Reaches P id) (hP : ∀ stage, P stage = true → stage.inTurn = true) :
    ∃ line before after, w.task? id = some (.call line before) ∧ P before = false ∧
      P after = true ∧
      CallStep w id line before after (w.apply (.poll id)) (w.deeds (.poll id)) := by
  obtain ⟨line, before, after, ht, hb, ht', ha⟩ := h
  have hafter : ∀ {s}, (w.apply (.poll id)).task? id = some (.call line s) → s = after :=
    fun hs => (call_inj hs ht').2
  rcases (apply_cases w (.poll id)).call_goes ht (ne_abandon ht') with
    hsame | ⟨s, hs, hpoll⟩ | ⟨-, hgave⟩
  · rw [hafter hsame, ha] at hb
    exact absurd hb.symm Bool.false_ne_true
  · obtain rfl := hafter hs
    exact ⟨line, before, s, ht, hb, ha, hpoll⟩
  · have hturn := hP after ha
    rw [← hafter hgave] at hturn
    exact absurd hturn Bool.false_ne_true

/-- A call that comes into stages of a turn begins its turn. -/
theorem Reaches.enters (h : w.Reaches Stage.inTurn id) : w.Enters id := by
  obtain ⟨line, before, after, -, hb, -, hpoll⟩ := h.poll fun _ hs => hs
  cases before with
  | queued => exact hpoll.entered_of_queued
  | finished result => exact absurd hpoll.not_finished not_false
  | _ => exact absurd hb.symm Bool.false_ne_true

/-- Every call that is in stages of its turn came into them at some poll, and its caller has stayed
since. -/
theorem Orderly.reaches (hw : w.Orderly)
    (hstart : ∀ {line stage}, w.task? id = some (.call line stage) → P stage = false)
    (hP : ∀ stage, P stage = true → stage.inTurn = true) (events : List Event)
    {line : List UInt8} {stage : Stage}
    (ht : (w.run events).task? id = some (.call line stage)) (hs : P stage = true) :
    ∃ past mid, events = past ++ .poll id :: mid ∧ (w.run past).Reaches P id ∧
      .abandon id ∉ mid := by
  induction events using List.reverseRecOn generalizing line stage with
  | nil =>
    rw [hstart ht] at hs
    exact absurd hs Bool.false_ne_true
  | append_singleton earlier e ih =>
    rw [run_concat] at ht
    have hkept := ne_abandon ht
    -- either the call was in such stages already, or this event is the poll that is sought
    have hback : ∀ {l s}, (w.run earlier).task? id = some (.call l s) → P s = true →
        ∃ past mid, earlier ++ [e] = past ++ .poll id :: mid ∧ (w.run past).Reaches P id ∧
          .abandon id ∉ mid := by
      intro l s ht' hs'
      obtain ⟨past, mid, rfl, hin, hmid⟩ := ih ht' hs'
      refine ⟨past, mid ++ [e], by simp, hin, ?_⟩
      rw [List.mem_append, not_or, List.mem_singleton]
      exact ⟨hmid, Ne.symm hkept⟩
    rcases (apply_cases (w.run earlier) e).poll_or_calm (hw.run earlier) with
      ⟨i, l, before, after, rfl, task, poll⟩ | calm
    · by_cases hi : i = id
      · subst hi
        by_cases hb : P before = true
        · exact hback task hb
        · have hnow := poll.self task
          replace hnow := call_inj ht hnow
          rw [hnow.2] at hs
          rw [Bool.not_eq_true] at hb
          exact ⟨earlier, [], rfl, ⟨l, before, after, task, hb, poll.self task, hs⟩, by simp⟩
      · rw [poll.others (Ne.symm hi)] at ht
        exact hback ht hs
    · exact hback (calm.inTurn ht (hP stage hs)) hs

/-- Every call with a result that only stages of a kind lead to came into them at some poll, and got
its result at some later event. -/
theorem Orderly.ends (hw : w.Orderly) (hnew : w.task? id = none)
    (hP : ∀ stage, P stage = true → stage.inTurn = true) {result : Result}
    (hclosed : result ≠ .error .closed)
    (hbefore : ∀ {v line before v' deeds},
      CallStep v id line before (.finished result) v' deeds → P before = true)
    (events : List Event) (hr : (w.run events).callResult? id = some result) :
    ∃ past mid e later, events = past ++ .poll id :: mid ++ e :: later ∧
      (w.run past).Reaches P id ∧ Ends w past mid e id result := by
  have hstart : ∀ {line stage}, w.task? id = some (.call line stage) → P stage = false := by
    intro l s ht
    rw [hnew] at ht
    exact absurd ht.symm (Option.some_ne_none _)
  induction events using List.reverseRecOn with
  | nil =>
    obtain ⟨l, ht⟩ := callResult?_eq_some.mp hr
    rw [show (w.run []).task? id = none from hnew] at ht
    exact absurd ht.symm (Option.some_ne_none _)
  | append_singleton earlier e ih =>
    have hstep := apply_cases (w.run earlier) e
    have hnow := hr
    rw [run_concat] at hnow
    cases hp : (w.run earlier).callResult? id with
    | none =>
      -- the result is new at this event, so the turn that led to it began before
      rcases hstep.callResult?_new hp hnow with hc | ⟨line, before, ht, hs⟩
      · exact absurd hc hclosed
      obtain ⟨past, mid, rfl, hin, hkept⟩ := hw.reaches hstart hP earlier ht (hbefore hs)
      exact ⟨past, mid, e, [], rfl, hin, ⟨hkept, hp, hr⟩⟩
    | some r =>
      obtain ⟨l, ht⟩ := callResult?_eq_some.mp hnow
      rw [hstep.callResult?_of hp (ne_abandon ht), ← hp] at hnow
      obtain ⟨past, mid, e', later, rfl, hb⟩ := ih hnow
      exact ⟨past, mid, e', later ++ [e], by simp, hb⟩

end KernelLink.Session.World
