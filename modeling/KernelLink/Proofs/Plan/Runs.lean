import KernelLink.Plan
/-!
# The runs of a plan

A plan that is carried out leaves a list of exchanges, and what is left of the plan at each moment
follows from it. Whoever answers the commands, with whatever memory, the plan has a run with these
answers, and carrying it out in time is a run. If each command is carried out by a plan of its own,
the exchanges of these plans stand one behind the other.

Main definitions:
* `Plan.Leads`: what is left of a plan after some exchanges.
* `Plan.asked`: what was asked.
* `Plan.Behaviour`, `Plan.Follows`: someone who answers, and exchanges with these answers.
* `Plan.Given`: answers that were given while a plan was carried out.
* `Plan.Agent.Keeps`, `Plan.Clockwork.Keeps`: what carrying out leaves true.
* `Plan.Carried`: what is asked when each command is carried out by a plan.

Main results:
* `Plan.runs_bind`: the exchanges of a plan followed by another one.
* `Plan.runs_follows`: every behaviour has a run.
* `Plan.runIn_runs`: carrying a plan out in time is a run.
* `Plan.Clockwork.Keeps.runIn`: what each command keeps is kept when a plan is carried out.
* `Plan.runs_refine`: the exchanges of a plan whose commands are carried out by plans.
-/
namespace KernelLink

namespace Plan

variable {C : Type} {Answer : C → Type} {α β : Type} {p q : Plan Answer α} {a : α} {b : β}
  {es more : List (Exchange Answer)}

/-! ## One plan after another -/

/-- The exchanges of a plan that asks something begin with that, and go on as the answer says. -/
theorem runs_ask {c : C} {next : Answer c → Plan Answer α} :
    (Plan.ask c next).Runs es a ↔
      ∃ answer rest, es = ⟨c, answer⟩ :: rest ∧ (next answer).Runs rest a := by
  constructor
  · intro h
    cases h with
    | ask rest => exact ⟨_, _, rfl, rest⟩
  · rintro ⟨answer, rest, rfl, hr⟩
    exact .ask hr

theorem runs_done {r : α} : (Plan.done r : Plan Answer α).Runs es a ↔ es = [] ∧ a = r := by
  constructor
  · intro h
    cases h
    exact ⟨rfl, rfl⟩
  · rintro ⟨rfl, rfl⟩
    exact .done _

/-- The exchanges of a plan followed by another one are those of the one, then those of the
other. -/
theorem runs_bind {f : α → Plan Answer β} :
    (p.bind f).Runs es b ↔
      ∃ first a rest, es = first ++ rest ∧ p.Runs first a ∧ (f a).Runs rest b := by
  induction p generalizing es with
  | done r =>
    constructor
    · intro h
      exact ⟨[], r, es, rfl, .done r, h⟩
    · rintro ⟨first, a, rest, rfl, hp, hf⟩
      obtain ⟨rfl, rfl⟩ := runs_done.mp hp
      exact hf
  | ask c next ih =>
    show (Plan.ask c fun answer => (next answer).bind f).Runs es b ↔ _
    constructor
    · intro h
      obtain ⟨answer, tail, rfl, ht⟩ := runs_ask.mp h
      obtain ⟨first, a, rest, rfl, hp, hf⟩ := (ih answer).mp ht
      exact ⟨⟨c, answer⟩ :: first, a, rest, rfl, .ask hp, hf⟩
    · rintro ⟨first, a, rest, rfl, hp, hf⟩
      obtain ⟨answer, tail, rfl, ht⟩ := runs_ask.mp hp
      exact .ask ((ih answer).mpr ⟨tail, a, rest, rfl, ht, hf⟩)

/-! ## A plan that is being carried out -/

/-- The relation `Leads p es q`: when the commands of `p` have got the answers in `es`, what is left
of it is `q`. -/
inductive Leads : Plan Answer α → List (Exchange Answer) → Plan Answer α → Prop where
  /-- Nothing was asked so far. -/
  | refl (p : Plan Answer α) : Leads p [] p
  /-- A plan that asks goes on with the answer. -/
  | ask {c : C} {next : Answer c → Plan Answer α} {answer : Answer c}
      {es : List (Exchange Answer)} {q : Plan Answer α} (rest : Leads (next answer) es q) :
      Leads (.ask c next) (⟨c, answer⟩ :: es) q

/-- The next answer: a way into a plan that ends where something is asked goes on with any answer to
it. -/
theorem Leads.answered {c : C} {next : Answer c → Plan Answer α} (h : p.Leads es (.ask c next))
    (answer : Answer c) : p.Leads (es ++ [⟨c, answer⟩]) (next answer) := by
  generalize hq : Plan.ask c next = q at h
  induction h with
  | refl p =>
    subst hq
    exact .ask (.refl _)
  | ask _ ih => exact .ask (ih hq)

/-- What is left of a plan ends as the plan does, with the exchanges so far in front. -/
theorem Leads.runs (h : p.Leads es q) (hq : q.Runs more a) : p.Runs (es ++ more) a := by
  induction h with
  | refl p => exact hq
  | ask _ ih => exact .ask (ih hq)

/-- A plan of which nothing is left has run, and gives what is there. -/
theorem Leads.done (h : p.Leads es (.done a)) : p.Runs es a := by
  have hr := h.runs (.done a)
  rwa [List.append_nil] at hr

/-- Nothing is left of a plan that has run, by induction on the run. -/
theorem Runs.leads (h : p.Runs es a) : p.Leads es (.done a) := by
  induction h with
  | done a => exact .refl _
  | ask _ ih => exact .ask ih

/-- Every plan ends, if every command can be answered: induction on the plan, with some answer to
what is asked first. -/
theorem ends (h : ∀ c, Nonempty (Answer c)) (p : Plan Answer α) : ∃ es a, p.Runs es a := by
  induction p with
  | done a => exact ⟨[], a, .done a⟩
  | ask c next ih =>
    obtain ⟨answer⟩ := h c
    obtain ⟨es, a, hr⟩ := ih answer
    exact ⟨⟨c, answer⟩ :: es, a, .ask hr⟩

/-! ## What was asked -/

/-- What was asked, in order. -/
def asked (es : List (Exchange Answer)) : List C := es.map (·.command)

@[simp] theorem asked_nil : asked ([] : List (Exchange Answer)) = [] := rfl

@[simp] theorem asked_cons {x : Exchange Answer} : asked (x :: es) = x.command :: asked es := rfl

/-- What was asked first and what was asked later, one behind the other. -/
theorem asked_append : asked (es ++ more) = asked es ++ asked more := List.map_append

/-- Something was asked if there was an exchange about it, whatever the answer. -/
theorem mem_asked {c : C} : c ∈ asked es ↔ ∃ answer, ⟨c, answer⟩ ∈ es := by
  constructor
  · intro h
    obtain ⟨⟨c, answer⟩, hmem, rfl⟩ := List.mem_map.mp h
    exact ⟨answer, hmem⟩
  · rintro ⟨answer, hmem⟩
    exact List.mem_map_of_mem hmem

theorem asked_eq_nil : asked es = [] ↔ es = [] := List.map_eq_nil_iff

/-- If what was asked begins with a command, the exchanges begin with an answer to it. -/
theorem asked_eq_cons {c : C} {cs : List C} :
    asked es = c :: cs ↔ ∃ answer rest, es = ⟨c, answer⟩ :: rest ∧ asked rest = cs := by
  constructor
  · intro h
    obtain ⟨⟨c, answer⟩, rest, rfl, rfl, hrest⟩ := List.map_eq_cons_iff.mp h
    exact ⟨answer, rest, rfl, hrest⟩
  · rintro ⟨answer, rest, rfl, rfl⟩
    rfl

/-! ## Someone who answers -/

/-- Someone who answers commands. The answer may depend on all that was asked and answered
before. -/
abbrev Behaviour (Answer : C → Type) : Type := List (Exchange Answer) → (c : C) → Answer c

/-- The relation `Follows b past es`: behind the exchanges `past`, those in `es` have the answers of
`b`. -/
inductive Follows (b : Behaviour Answer) :
    List (Exchange Answer) → List (Exchange Answer) → Prop where
  /-- Nothing was asked. -/
  | nil (past : List (Exchange Answer)) : Follows b past []
  /-- The first answer is that of `b`, and it is remembered. -/
  | cons {past es : List (Exchange Answer)} (c : C)
      (rest : Follows b (past ++ [⟨c, b past c⟩]) es) : Follows b past (⟨c, b past c⟩ :: es)

/-- A plan has a run with the answers of whoever answers, who may look at all exchanges so far.
Induction on the plan. -/
theorem runs_follows (b : Behaviour Answer) (p : Plan Answer α) (past : List (Exchange Answer)) :
    ∃ es a, p.Runs es a ∧ Follows b past es := by
  induction p generalizing past with
  | done a => exact ⟨[], a, .done a, .nil past⟩
  | ask c next ih =>
    obtain ⟨es, a, hr, hf⟩ := ih (b past c) (past ++ [⟨c, b past c⟩])
    exact ⟨⟨c, b past c⟩ :: es, a, .ask hr, .cons c hf⟩

/-! ## Carrying a plan out in time -/

section InTime

variable {σ : Type} {agent : Agent Answer σ} {k : Clockwork Answer σ}

/-- Every answer was given by `agent` at some moment. -/
def Given (agent : Agent Answer σ) (es : List (Exchange Answer)) : Prop :=
  ∀ x ∈ es, ∃ since now s, (agent.look since now x.command s).1 = some x.answer

/-- The answers were given by the agent if those of both parts were. -/
theorem Given.append (h : Given agent es) (hmore : Given agent more) :
    Given agent (es ++ more) := by
  intro x hx
  rcases List.mem_append.mp hx with hin | hin
  · exact h x hin
  · exact hmore x hin

/-- What is left of a plan that is being carried out. -/
def Progress.left : Progress Answer α → Plan Answer α
  | .finished a => .done a
  | .under _ c next => .ask c next

/-- As far as the agent answers at once, the plan is carried on by its answers. Induction on the
plan, since every answer leads to a smaller one. -/
theorem carry_leads (agent : Agent Answer σ) (now : Nat) (p : Plan Answer α) (s : σ) :
    ∃ es, p.Leads es (p.carry agent now s).1.left ∧ Given agent es := by
  induction p generalizing s with
  | done a => exact ⟨[], .refl _, fun x hx => nomatch hx⟩
  | ask c next ih =>
    rw [carry]
    -- either the agent answers at once, or the plan waits here
    split
    · next answer s' hlook =>
      obtain ⟨es, hleads, hgiven⟩ := ih answer s'
      refine ⟨⟨c, answer⟩ :: es, .ask hleads, ?_⟩
      intro x hx
      rcases List.mem_cons.mp hx with rfl | hin
      · exact ⟨now, now, _, congrArg Prod.fst hlook⟩
      · exact hgiven x hin
    · exact ⟨[], .refl _, fun x hx => nomatch hx⟩

/-- A poll goes on from what is being waited for, if the agent has an answer by now. -/
theorem poll_leads (agent : Agent Answer σ) (now : Nat) (progress : Progress Answer α) (s : σ) :
    ∃ es, progress.left.Leads es (progress.poll agent now s).1.left ∧ Given agent es := by
  cases progress with
  | finished a => exact ⟨[], .refl _, fun x hx => nomatch hx⟩
  | under since c next =>
    rw [Progress.poll]
    split
    · next answer s' hlook =>
      obtain ⟨es, hleads, hgiven⟩ := carry_leads agent now (next answer) s'
      refine ⟨⟨c, answer⟩ :: es, .ask hleads, ?_⟩
      intro x hx
      rcases List.mem_cons.mp hx with rfl | hin
      · exact ⟨since, now, _, congrArg Prod.fst hlook⟩
      · exact hgiven x hin
    · exact ⟨[], .refl _, fun x hx => nomatch hx⟩

/-- A plan that is carried out to its end was run with the agent's answers. Induction on how often
the agent may still be polled, with the clock moved in between. -/
theorem continueIn_runs {fuel : Nat} {progress : Progress Answer α} {s : σ}
    (h : (continueIn k fuel progress s).1 = some a) :
    ∃ es, progress.left.Runs es a ∧ Given k.agent es := by
  induction fuel generalizing progress s with
  | zero => exact nomatch h
  | succ fuel ih =>
    obtain ⟨es, hleads, hgiven⟩ :=
      poll_leads k.agent (k.now (k.settle s)) progress (k.settle s)
    rw [continueIn] at h
    -- what is left after the poll goes on and on
    have hon : ∀ progress' s', progress.left.Leads es progress'.left →
        (continueIn k fuel progress' s').1 = some a →
        ∃ es, progress.left.Runs es a ∧ Given k.agent es := by
      intro progress' s' hled hgoes
      obtain ⟨more, hruns, hmore⟩ := ih hgoes
      exact ⟨es ++ more, hled.runs hruns, hgiven.append hmore⟩
    generalize hpoll : progress.poll k.agent (k.now (k.settle s)) (k.settle s) = polled at h hleads
    obtain ⟨progress', s', moved⟩ := polled
    cases progress' with
    | finished result =>
      obtain rfl : result = a := Option.some.inj h
      exact ⟨es, hleads.done, hgiven⟩
    | under since c next =>
      cases moved with
      | true => exact hon _ s' hleads h
      | false =>
        cases hdue : nextDue (k.now s') (k.dues since c s') with
        | none =>
          simp only [hdue] at h
          exact nomatch h
        | some t =>
          simp only [hdue] at h
          exact hon _ _ hleads h

/-- What carrying a plan out in time gives is the result of a run with answers that were given. -/
theorem runIn_runs {s : σ} (h : (p.runIn k s).1 = some a) :
    ∃ es, p.Runs es a ∧ Given k.agent es := by
  obtain ⟨es, hleads, hgiven⟩ := carry_leads k.agent (k.now s) p s
  rw [runIn] at h
  generalize p.carry k.agent (k.now s) s = carried at h hleads
  obtain ⟨progress, s'⟩ := carried
  cases progress with
  | finished result =>
    obtain rfl : result = a := Option.some.inj h
    exact ⟨es, hleads.done, hgiven⟩
  | under since c next =>
    obtain ⟨more, hruns, hmore⟩ := continueIn_runs h
    exact ⟨es ++ more, hleads.runs hruns, hgiven.append hmore⟩

/-! ## What carrying a plan out keeps -/

/-- Beginning a command and looking at it keep something. -/
structure Agent.Keeps (agent : Agent Answer σ) (P : σ → Prop) : Prop where
  /-- A command is begun. -/
  start : ∀ now c s, P s → P (agent.start now c s)
  /-- A command is looked at. -/
  look : ∀ since now c s, P s → P (agent.look since now c s).2

/-- So do settling and moving the clock, which only ever goes forward. -/
structure Clockwork.Keeps (k : Clockwork Answer σ) (P : σ → Prop) : Prop
    extends Agent.Keeps k.agent P where
  /-- Everything happens that can happen. -/
  settle : ∀ s, P s → P (k.settle s)
  /-- The clock moves. -/
  moveTo : ∀ t s, k.now s < t → P s → P (k.moveTo t s)

/-- The next instant at which something is due is a later one, so a clock that is moved there never
goes back. -/
theorem lt_of_nextDue {now t : Nat} {dues : List Nat} (h : nextDue now dues = some t) :
    now < t := by
  have hmem : t ∈ dues.filter (now < ·) := List.min?_mem h
  simpa using (List.mem_filter.mp hmem).2

variable {P : σ → Prop}

/-- Carrying a plan out as far as it goes without waiting keeps what each command keeps: by
induction on the plan, of which every command is begun and then looked at. -/
theorem Agent.Keeps.carry (h : agent.Keeps P) (now : Nat)
    (p : Plan Answer α) {s : σ} (hs : P s) : P (p.carry agent now s).2 := by
  induction p generalizing s with
  | done a => exact hs
  | ask c next ih =>
    have hlooked := h.look now now c _ (h.start now c s hs)
    rw [Plan.carry]
    split
    · next answer s' hlook =>
      rw [hlook] at hlooked
      exact ih answer hlooked
    · next s' hlook =>
      rw [hlook] at hlooked
      exact hlooked

/-- One more look at the command under way, and whatever it leads on to, keeps it too. -/
theorem Agent.Keeps.poll (h : agent.Keeps P) (now : Nat)
    (progress : Progress Answer α) {s : σ} (hs : P s) : P (progress.poll agent now s).2.1 := by
  cases progress with
  | finished a => exact hs
  | under since c next =>
    have hlooked := h.look since now c s hs
    rw [Progress.poll]
    split
    · next answer s' hlook =>
      rw [hlook] at hlooked
      exact h.carry now (next answer) hlooked
    · next s' hlook =>
      rw [hlook] at hlooked
      exact hlooked

/-- So does carrying it on until it is finished: by induction on how often the clock may still be
moved, where each round settles, polls, and moves the clock forward if the poll led nowhere. -/
theorem Clockwork.Keeps.continueIn (h : k.Keeps P) (fuel : Nat) (progress : Progress Answer α)
    {s : σ} (hs : P s) : P (Plan.continueIn k fuel progress s).2 := by
  induction fuel generalizing progress s with
  | zero => exact hs
  | succ fuel ih =>
    have hpolled := h.toKeeps.poll (k.now (k.settle s)) progress (h.settle s hs)
    rw [Plan.continueIn]
    generalize progress.poll k.agent (k.now (k.settle s)) (k.settle s) = polled at hpolled ⊢
    obtain ⟨progress', s', moved⟩ := polled
    cases progress' with
    | finished result => exact hpolled
    | under since c next =>
      cases moved with
      | true => exact ih _ hpolled
      | false =>
        -- nothing moves at this instant, so the clock does, if something is due at all
        cases hdue : nextDue (k.now s') (k.dues since c s') with
        | none =>
          simp only [hdue]
          exact hpolled
        | some t =>
          simp only [hdue]
          exact ih _ (h.moveTo t s' (lt_of_nextDue hdue) hpolled)

/-- Whatever each command, settling and the clock keep is there when a plan has been carried out in
time. -/
theorem Clockwork.Keeps.runIn (h : k.Keeps P) (p : Plan Answer α) {s : σ} (hs : P s) :
    P (p.runIn k s).2 := by
  have hcarried := h.toKeeps.carry (k.now s) p hs
  rw [Plan.runIn]
  generalize p.carry k.agent (k.now s) s = carried at hcarried ⊢
  obtain ⟨progress, s'⟩ := carried
  cases progress with
  | finished result => exact hcarried
  | under since c next => exact h.continueIn patience _ hcarried

end InTime

/-! ## Commands that are carried out by plans -/

section Refine

variable {C' : Type} {Answer' : C' → Type} {f : (c : C) → Plan Answer' (Answer c)}
  {es' : List (Exchange Answer')}

/-- The relation `Carried f xs es`: the exchanges in `xs` come about when their commands are carried
out by `f`, with the exchanges in `es`. -/
inductive Carried (f : (c : C) → Plan Answer' (Answer c)) :
    List (Exchange Answer) → List (Exchange Answer') → Prop where
  /-- Nothing was asked. -/
  | nil : Carried f [] []
  /-- A command was carried out, and then the others. -/
  | cons {c : C} {answer : Answer c} {xs : List (Exchange Answer)}
      {one more : List (Exchange Answer')} (first : (f c).Runs one answer)
      (rest : Carried f xs more) : Carried f (⟨c, answer⟩ :: xs) (one ++ more)

/-- Carrying out what was asked is carrying out the first command and then the others. -/
theorem carried_cons {c : C} {answer : Answer c} {xs : List (Exchange Answer)} :
    Carried f (⟨c, answer⟩ :: xs) es' ↔
      ∃ one more, es' = one ++ more ∧ (f c).Runs one answer ∧ Carried f xs more := by
  constructor
  · intro h
    cases h with
    | cons first rest => exact ⟨_, _, rfl, first, rest⟩
  · rintro ⟨one, more, rfl, first, rest⟩
    exact .cons first rest

theorem carried_append {xs ys : List (Exchange Answer)} :
    Carried f (xs ++ ys) es' ↔
      ∃ one more, es' = one ++ more ∧ Carried f xs one ∧ Carried f ys more := by
  induction xs generalizing es' with
  | nil =>
    constructor
    · intro h
      exact ⟨[], es', rfl, .nil, h⟩
    · rintro ⟨one, more, rfl, hone, hmore⟩
      cases hone
      exact hmore
  | cons x xs ih =>
    obtain ⟨c, answer⟩ := x
    rw [List.cons_append]
    constructor
    · intro h
      obtain ⟨first, rest, rfl, hfirst, hrest⟩ := carried_cons.mp h
      obtain ⟨one, more, rfl, hone, hmore⟩ := ih.mp hrest
      exact ⟨first ++ one, more, (List.append_assoc ..).symm, .cons hfirst hone, hmore⟩
    · rintro ⟨one, more, rfl, hone, hmore⟩
      obtain ⟨first, rest, rfl, hfirst, hrest⟩ := carried_cons.mp hone
      rw [List.append_assoc]
      exact .cons hfirst (ih.mpr ⟨rest, more, rfl, hrest, hmore⟩)

/-- When each command is carried out by a plan, the exchanges of these plans stand one behind the
other. -/
theorem runs_refine :
    (p.refine f).Runs es' a ↔ ∃ xs, p.Runs xs a ∧ Carried f xs es' := by
  induction p generalizing es' with
  | done r =>
    constructor
    · intro h
      obtain ⟨rfl, rfl⟩ := runs_done.mp h
      exact ⟨[], .done _, .nil⟩
    · rintro ⟨xs, hp, hc⟩
      obtain ⟨rfl, rfl⟩ := runs_done.mp hp
      cases hc
      exact .done _
  | ask c next ih =>
    show ((f c).bind fun answer => (next answer).refine f).Runs es' a ↔ _
    -- a command is refined first and its answer goes on, so a run falls into two parts
    rw [runs_bind]
    constructor
    · rintro ⟨one, answer, more, rfl, first, hmore⟩
      obtain ⟨xs, hp, hc⟩ := (ih answer).mp hmore
      exact ⟨⟨c, answer⟩ :: xs, .ask hp, .cons first hc⟩
    · rintro ⟨xs, hp, hc⟩
      obtain ⟨answer, rest, rfl, hrest⟩ := runs_ask.mp hp
      obtain ⟨one, more, rfl, first, hc⟩ := carried_cons.mp hc
      exact ⟨one, answer, more, rfl, first, (ih answer).mpr ⟨rest, hrest, hc⟩⟩

end Refine

end Plan
end KernelLink
