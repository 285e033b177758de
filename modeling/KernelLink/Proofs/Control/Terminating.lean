import KernelLink.Control.Routine
import KernelLink.Proofs.Plan.Runs
/-!
# What terminating a process for good asks

Terminating a process for good asks for its number and its descendants, deals with the process
itself, and then stops every descendant, whatever was answered. What it gives is what the process
itself gave.

Success is meant to say that the process is gone. It also comes about if waiting for the process
fails, and then the process may be there as before: nobody kills it.

Main definitions:
* `StopsRoot`, `Terminates`: the exchanges with the process itself, and all of them.
* `Spared`: the process itself needs no force.
* `Sweeps`: what is asked about a process that has a number, and what comes of it.
* `KnownGone`, `WaitFailed`: what the answers tell of the process.
* `Successful`: what success tells.

Main results:
* `runs_sweep`, `runs_stopRoot`, `runs_terminateCompletely`: the exchanges of the plans.
* `terminates_with_descendants`: every descendant is stopped, whoever answers.
* `success_tells`, `survivor_counts_as_success`: success, and the process that nobody killed.
-/
namespace KernelLink.Control

open Plan (asked)

/-- A command of a manager with its answer. -/
abbrev Exchange := Plan.Exchange Command.Answer

variable {grace : Nat} {pid : Pid} {pids : List Pid} {es root swept : List Exchange}
  {outcome : Outcome}

/-! ## The descendants -/

/-- The descendants that were found. A failed enumeration counts as none. -/
def enumerated : Except Chain (List Pid) → List Pid
  | .ok pids => pids
  | .error _ => []

/-- A sweep stops every process once, in order, whatever the answers are. -/
theorem runs_sweep {u : Unit} : (sweep pids).Runs es u ↔ asked es = pids.map .stopPid := by
  induction pids generalizing es with
  | nil =>
    rw [List.map_nil, Plan.asked_eq_nil]
    exact Plan.runs_done.trans (and_iff_left rfl)
  | cons pid pids ih =>
    rw [List.map_cons, Plan.asked_eq_cons]
    show (Plan.ask (Command.stopPid pid) fun _ => sweep pids).Runs es u ↔ _
    rw [Plan.runs_ask]
    simp only [ih]

/-! ## The process itself -/

/-- The exchanges with the process itself, and what comes of it. -/
inductive StopsRoot (grace : Nat) : List Exchange → Outcome → Prop where
  /-- It is not there. -/
  | absent : StopsRoot grace [⟨.requestStop, Outcome.notFound⟩] .notFound
  /-- It was told to leave, and waiting for it ended within the grace. -/
  | waited {waited : Waited} (ended : waited ≠ .timedOut) :
      StopsRoot grace [⟨.requestStop, Outcome.success⟩, ⟨.wait (some grace), waited⟩] .success
  /-- It was told to leave and was still there after the grace. -/
  | ignored (given : Outcome) :
      StopsRoot grace [⟨.requestStop, Outcome.success⟩, ⟨.wait (some grace), Waited.timedOut⟩,
        ⟨.forceKill, given⟩] given
  /-- It could not be told to leave. -/
  | refused {answer : Outcome} (unheard : answer ≠ .success) (there : answer ≠ .notFound)
      (given : Outcome) : StopsRoot grace [⟨.requestStop, answer⟩, ⟨.forceKill, given⟩] given

/-- A plan that does nothing but force has one exchange, and gives what was answered to it. -/
theorem runs_forceKill :
    (Plan.ask Command.forceKill .done : Routine Outcome).Runs es outcome ↔
      es = [⟨.forceKill, outcome⟩] := by
  rw [Plan.runs_ask]
  constructor
  · rintro ⟨given, rest, rfl, hr⟩
    obtain ⟨rfl, rfl⟩ := Plan.runs_done.mp hr
    rfl
  · rintro rfl
    exact ⟨outcome, [], rfl, .done _⟩

/-- The exchanges with the process itself are those of the four cases, and no others. Each of the
two directions goes along the plan, one answer after the other. -/
theorem runs_stopRoot : (stopRoot grace).Runs es outcome ↔ StopsRoot grace es outcome := by
  unfold stopRoot
  constructor
  · intro h
    obtain ⟨answer, rest, rfl, hr⟩ := Plan.runs_ask.mp h
    -- what was answered to the request decides whether there is a wait, and that whether there is
    -- force
    cases answer with
    | notFound =>
      obtain ⟨rfl, rfl⟩ := Plan.runs_done.mp hr
      exact .absent
    | success =>
      obtain ⟨waited, last, rfl, hl⟩ := Plan.runs_ask.mp hr
      cases waited with
      | timedOut =>
        rw [runs_forceKill.mp hl]
        exact .ignored outcome
      | left status =>
        obtain ⟨rfl, rfl⟩ := Plan.runs_done.mp hl
        exact .waited Waited.noConfusion
      | failed cause =>
        obtain ⟨rfl, rfl⟩ := Plan.runs_done.mp hl
        exact .waited Waited.noConfusion
    | denied | timedOut | failed =>
      rw [runs_forceKill.mp hr]
      exact .refused Outcome.noConfusion Outcome.noConfusion outcome
  · intro h
    cases h with
    | absent => exact .ask (.done _)
    | @waited waited ended =>
      cases waited with
      | timedOut => exact absurd rfl ended
      | left status => exact .ask (.ask (.done _))
      | failed cause => exact .ask (.ask (.done _))
    | ignored => exact .ask (.ask (.ask (.done _)))
    | @refused answer unheard there =>
      cases answer with
      | success => exact absurd rfl unheard
      | notFound => exact absurd rfl there
      | denied | timedOut | failed => exact .ask (.ask (.done _))

/-! ## The whole -/

/-- All exchanges of a termination for good, and what comes of it. -/
inductive Terminates (grace : Nat) : List Exchange → Outcome → Prop where
  /-- There is no process. -/
  | nobody : Terminates grace [⟨.currentPid, (none : Option Pid)⟩] .notFound
  /-- The descendants are enumerated, the process is dealt with, and the descendants are stopped. -/
  | somebody {pid : Pid} {found : Except Chain (List Pid)} {root swept : List Exchange}
      {outcome : Outcome} (itself : StopsRoot grace root outcome)
      (below : asked swept = (enumerated found).map .stopPid) :
      Terminates grace
        (⟨.currentPid, some pid⟩ :: ⟨.findDescendants pid, found⟩ :: (root ++ swept)) outcome

/-- What is left of the plan once the descendants were enumerated. -/
def dealWith (grace : Nat) (pids : List Pid) : Routine Outcome :=
  (stopRoot grace).bind fun outcome => (sweep pids).bind fun _ => .done outcome

/-- Dealing with the process and its descendants is dealing with the process and then stopping each
of them, whatever was answered; only the former decides what is given. -/
theorem runs_dealWith :
    (dealWith grace pids).Runs es outcome ↔
      ∃ root swept, es = root ++ swept ∧ StopsRoot grace root outcome ∧
        asked swept = pids.map .stopPid := by
  unfold dealWith
  rw [Plan.runs_bind]
  constructor
  · rintro ⟨root, given, rest, rfl, hroot, hr⟩
    obtain ⟨swept, _, rest, rfl, hswept, hr⟩ := Plan.runs_bind.mp hr
    obtain ⟨rfl, rfl⟩ := Plan.runs_done.mp hr
    refine ⟨root, swept, ?_, runs_stopRoot.mp hroot, runs_sweep.mp hswept⟩
    rw [List.append_nil]
  · rintro ⟨root, swept, rfl, itself, below⟩
    refine ⟨root, outcome, swept, rfl, runs_stopRoot.mpr itself, Plan.runs_bind.mpr ?_⟩
    exact ⟨swept, (), [], (List.append_nil _).symm, runs_sweep.mpr below, .done _⟩

/-- The plan, with its three parts by name: the number, the descendants, and dealing with both. -/
theorem terminateCompletely_eq :
    terminateCompletely grace = .ask .currentPid fun
      | none => .done .notFound
      | some pid => .ask (.findDescendants pid) fun found => dealWith grace (enumerated found) := by
  unfold terminateCompletely
  congr 1
  funext answer
  cases answer with
  | none => rfl
  | some pid =>
    refine congrArg (Plan.ask (Command.findDescendants pid)) (funext fun found => ?_)
    cases found with
    | ok pids => rfl
    | error cause => rfl

/-- The exchanges of terminating a process for good. Without a number nothing more is asked; a
search that failed counts as no descendants. -/
theorem runs_terminateCompletely :
    (terminateCompletely grace).Runs es outcome ↔ Terminates grace es outcome := by
  rw [terminateCompletely_eq, Plan.runs_ask]
  constructor
  · rintro ⟨answer, rest, rfl, hr⟩
    cases answer with
    | none =>
      obtain ⟨rfl, rfl⟩ := Plan.runs_done.mp hr
      exact .nobody
    | some pid =>
      obtain ⟨found, rest, rfl, hrest⟩ := Plan.runs_ask.mp hr
      obtain ⟨root, swept, rfl, itself, below⟩ := runs_dealWith.mp hrest
      exact .somebody itself below
  · intro h
    cases h with
    | nobody => exact ⟨none, [], rfl, .done _⟩
    | @somebody pid found root swept _ itself below =>
      exact ⟨some pid, _, rfl, .ask (runs_dealWith.mpr ⟨root, swept, rfl, itself, below⟩)⟩

/-! ## What concerns the process itself -/

/-- Is the process itself meant, and no descendant? -/
def Command.meansRoot : Command → Bool
  | .requestStop | .wait _ | .forceKill => true
  | .currentPid | .findDescendants _ | .stopPid _ | .cleanup => false

/-- All that concerns the process itself is asked where it is dealt with. -/
theorem mem_whole_iff {found : Except Chain (List Pid)} {x : Exchange}
    (below : asked swept = pids.map .stopPid) (hx : x.command.meansRoot = true) :
    x ∈ (⟨.currentPid, some pid⟩ :: ⟨.findDescendants pid, found⟩ :: (root ++ swept) :
      List Exchange) ↔ x ∈ root := by
  have hswept : x ∉ swept := by
    intro hmem
    have hasked : x.command ∈ asked swept := Plan.mem_asked.mpr ⟨x.answer, hmem⟩
    rw [below] at hasked
    obtain ⟨other, -, hother⟩ := List.mem_map.mp hasked
    rw [← hother] at hx
    exact Bool.false_ne_true hx
  simp only [List.mem_cons, List.mem_append, hswept, or_false]
  constructor
  · rintro (rfl | rfl | hmem)
    · exact absurd hx Bool.false_ne_true
    · exact absurd hx Bool.false_ne_true
    · exact hmem
  · exact fun hmem => Or.inr (Or.inr hmem)

/-- The process itself needs no force: it is not there, or it was told to leave and waiting for it
ended within the grace. -/
def Spared (grace : Nat) (es : List Exchange) : Prop :=
  ⟨.requestStop, Outcome.notFound⟩ ∈ es ∨
    ⟨.requestStop, Outcome.success⟩ ∈ es ∧
      ∃ waited : Waited, waited ≠ .timedOut ∧ ⟨.wait (some grace), waited⟩ ∈ es

/-- The process itself is asked to stop first, then perhaps waited for, and then perhaps killed. -/
theorem StopsRoot.dealt (h : StopsRoot grace root outcome) :
    ∃ dealt, asked root = .requestStop :: dealt ∧
      dealt.Sublist [.wait (some grace), .forceKill] := by
  cases h with
  | absent => exact ⟨[], rfl, by simp⟩
  | waited => exact ⟨[.wait (some grace)], rfl, by simp⟩
  | ignored => exact ⟨[.wait (some grace), .forceKill], rfl, List.Sublist.refl _⟩
  | refused => exact ⟨[.forceKill], rfl, by simp⟩

/-- It is waited for exactly if it was asked to stop with success. -/
theorem StopsRoot.waits_iff (h : StopsRoot grace root outcome) :
    .wait (some grace) ∈ asked root ↔ ⟨.requestStop, Outcome.success⟩ ∈ root := by
  cases h with
  | absent => simp
  | waited => simp
  | ignored => simp
  | refused unheard => simp [unheard.symm]

/-- It is killed exactly if nothing has spared it, be it that the request failed or that it outlived
the grace. -/
theorem StopsRoot.forced (h : StopsRoot grace root outcome) :
    .forceKill ∈ asked root ↔ ¬ Spared grace root := by
  cases h with
  | absent => simp [Spared]
  | waited ended => simp [Spared, ended]
  | ignored => simp [Spared]
  | refused unheard there => simp [Spared, unheard.symm, there.symm]

/-- What is given is what was answered to force, or to the request if no force was needed. -/
theorem StopsRoot.gives (h : StopsRoot grace root outcome) :
    ⟨.forceKill, outcome⟩ ∈ root ∨ .forceKill ∉ asked root ∧ ⟨.requestStop, outcome⟩ ∈ root := by
  cases h with
  | absent => simp
  | waited => simp
  | ignored => simp
  | refused => simp

/-! ## Every descendant is stopped -/

/-- What is asked about the process `pid`, and what comes of it. -/
structure Sweeps (grace : Nat) (pid : Pid) (es : List Exchange) (outcome : Outcome) : Prop where
  /-- The descendants are enumerated once, before anything else; the process is told to leave once,
  and at most waited for and killed; then each descendant is stopped once, in the order in which
  they were enumerated. -/
  order : ∃ (found : Except Chain (List Pid)) (dealt : List Command),
    ⟨.findDescendants pid, found⟩ ∈ es ∧ dealt.Sublist [.wait (some grace), .forceKill] ∧
      asked es = [.currentPid, .findDescendants pid, .requestStop] ++ dealt ++
        (enumerated found).map .stopPid
  /-- It is waited for exactly if it was told to leave. -/
  waits_iff : .wait (some grace) ∈ asked es ↔ ⟨.requestStop, Outcome.success⟩ ∈ es
  /-- It is killed exactly if it needs force. -/
  forced : .forceKill ∈ asked es ↔ ¬ Spared grace es
  /-- What killing it gave is returned, or else what telling it to leave gave. -/
  gives : ⟨.forceKill, outcome⟩ ∈ es ∨
    .forceKill ∉ asked es ∧ ⟨.requestStop, outcome⟩ ∈ es

section Whole

variable {found : Except Chain (List Pid)}

/-- Whether the process was spared is seen in the exchanges with it alone; finding and stopping its
descendants is not about it. -/
theorem spared_whole_iff (below : asked swept = pids.map .stopPid) :
    Spared grace (⟨.currentPid, some pid⟩ :: ⟨.findDescendants pid, found⟩ :: (root ++ swept)) ↔
      Spared grace root := by
  unfold Spared
  simp only [mem_whole_iff below (x := ⟨.requestStop, _⟩) rfl,
    mem_whole_iff below (x := ⟨.wait _, _⟩) rfl]

theorem asked_whole_iff {c : Command} (below : asked swept = pids.map .stopPid)
    (hc : c.meansRoot = true) :
    c ∈ asked (⟨.currentPid, some pid⟩ :: ⟨.findDescendants pid, found⟩ :: (root ++ swept)) ↔
      c ∈ asked root := by
  simp only [Plan.mem_asked, mem_whole_iff below (x := ⟨c, _⟩) hc]

/-- The exchanges with the process and those with its descendants, put together, are a sweep; each
part of what that says is about one of the two. -/
theorem StopsRoot.sweeps (itself : StopsRoot grace root outcome)
    (below : asked swept = (enumerated found).map .stopPid) :
    Sweeps grace pid
      (⟨.currentPid, some pid⟩ :: ⟨.findDescendants pid, found⟩ :: (root ++ swept)) outcome where
  order := by
    obtain ⟨dealt, hasked, hsub⟩ := itself.dealt
    refine ⟨found, dealt, List.mem_cons_of_mem _ List.mem_cons_self, hsub, ?_⟩
    rw [Plan.asked_cons, Plan.asked_cons, Plan.asked_append, hasked, below]
    rfl
  waits_iff := by
    rw [asked_whole_iff below rfl, mem_whole_iff below rfl]
    exact itself.waits_iff
  forced := by
    rw [asked_whole_iff below rfl, spared_whole_iff below]
    exact itself.forced
  gives := by
    rw [asked_whole_iff below rfl, mem_whole_iff below rfl, mem_whole_iff below rfl]
    exact itself.gives

end Whole

/-- Whoever answers, terminating for good comes to an end; carried out in time, it gives what such a
run gives. It asks nothing of a manager if there is no process, and otherwise it sweeps all
descendants. -/
theorem terminates_with_descendants (grace : Nat) :
    (∀ b : Plan.Behaviour Command.Answer, ∃ es outcome,
      (terminateCompletely grace).Runs es outcome ∧ Plan.Follows b [] es) ∧
    (∀ (σ : Type) (k : Plan.Clockwork Command.Answer σ) (s : σ) (outcome : Outcome),
      ((terminateCompletely grace).runIn k s).1 = some outcome →
        ∃ es, (terminateCompletely grace).Runs es outcome ∧ Plan.Given k.agent es) ∧
    ∀ es outcome, (terminateCompletely grace).Runs es outcome →
      (es = [⟨.currentPid, (none : Option Pid)⟩] ∧ outcome = .notFound) ∨
        ∃ pid, ⟨.currentPid, some pid⟩ ∈ es ∧ Sweeps grace pid es outcome := by
  refine ⟨fun b => Plan.runs_follows b _ [], fun σ k s outcome => Plan.runIn_runs, ?_⟩
  intro es outcome h
  cases runs_terminateCompletely.mp h with
  | nobody => exact Or.inl ⟨rfl, rfl⟩
  | somebody itself below => exact Or.inr ⟨_, List.mem_cons_self, itself.sweeps below⟩

/-- A process that cannot be told to leave, with two descendants, of which one resists. -/
def deafRun : List Exchange :=
  [⟨.currentPid, some 42⟩, ⟨.findDescendants 42, .ok [6, 5]⟩, ⟨.requestStop, Outcome.denied⟩,
    ⟨.forceKill, Outcome.timedOut⟩, ⟨.stopPid 6, Outcome.denied⟩, ⟨.stopPid 5, Outcome.success⟩]

/-- Both descendants are stopped, and it is told that killing the process took too long. -/
theorem sweeps_deafRun :
    (terminateCompletely 50).Runs deafRun .timedOut ∧ Sweeps 50 42 deafRun .timedOut := by
  have hrun : (terminateCompletely 50).Runs deafRun .timedOut :=
    .ask (.ask (.ask (.ask (.ask (.ask (.done _))))))
  refine ⟨hrun, ?_⟩
  rcases (terminates_with_descendants 50).2.2 _ _ hrun with ⟨hnobody, -⟩ | ⟨pid, hpid, hsweeps⟩
  · exact nomatch hnobody
  · obtain rfl : pid = 42 := by simpa [deafRun] using hpid
    exact hsweeps

/-! ## What success tells -/

/-- The process is known to be gone: its exit status came within the grace, or killing it
succeeded. -/
def KnownGone (grace : Nat) (es : List Exchange) : Prop :=
  (∃ status : Status, ⟨.wait (some grace), Waited.left status⟩ ∈ es) ∨
    ⟨.forceKill, Outcome.success⟩ ∈ es

/-- Waiting for the process failed within the grace. -/
def WaitFailed (grace : Nat) (es : List Exchange) : Prop :=
  ∃ cause : Chain, ⟨.wait (some grace), Waited.failed cause⟩ ∈ es

/-- What the success of a termination for good tells. -/
structure Successful (grace : Nat) (es : List Exchange) (outcome : Outcome) : Prop where
  /-- It comes about exactly if the process is known to be gone or waiting for it failed. -/
  success_iff : outcome = .success ↔ KnownGone grace es ∨ WaitFailed grace es
  /-- It says that the process is gone exactly unless waiting failed. -/
  tells : outcome = .success → (KnownGone grace es ↔ ¬ WaitFailed grace es)
  /-- If waiting failed, nobody killed the process. -/
  unforced : WaitFailed grace es → .forceKill ∉ asked es

/-- What success tells, case by case: the process is known to be gone, or waiting for it has failed.
-/
theorem StopsRoot.successful (h : StopsRoot grace root outcome) :
    Successful grace root outcome := by
  cases h with
  | absent => exact ⟨by simp [KnownGone, WaitFailed], by simp, by simp⟩
  | @waited waited ended =>
    cases waited with
    | timedOut => exact absurd rfl ended
    | left status =>
      exact ⟨by simp [KnownGone], by simp [KnownGone, WaitFailed], by simp⟩
    | failed cause =>
      exact ⟨by simp [WaitFailed], by simp [KnownGone, WaitFailed], by simp⟩
  | ignored given =>
    exact ⟨by simp [KnownGone, WaitFailed, eq_comm], by simp [KnownGone, WaitFailed, eq_comm],
      by simp [WaitFailed]⟩
  | refused unheard there given =>
    exact ⟨by simp [KnownGone, WaitFailed, eq_comm], by simp [KnownGone, WaitFailed, eq_comm],
      by simp [WaitFailed]⟩

section Whole

variable {found : Except Chain (List Pid)}

/-- Whether the process is known to be gone is seen in the exchanges with it alone. -/
theorem knownGone_whole_iff (below : asked swept = pids.map .stopPid) :
    KnownGone grace (⟨.currentPid, some pid⟩ :: ⟨.findDescendants pid, found⟩ :: (root ++ swept)) ↔
      KnownGone grace root := by
  unfold KnownGone
  simp only [mem_whole_iff below (x := ⟨.forceKill, _⟩) rfl,
    mem_whole_iff below (x := ⟨.wait _, _⟩) rfl]

theorem waitFailed_whole_iff (below : asked swept = pids.map .stopPid) :
    WaitFailed grace
        (⟨.currentPid, some pid⟩ :: ⟨.findDescendants pid, found⟩ :: (root ++ swept)) ↔
      WaitFailed grace root := by
  unfold WaitFailed
  simp only [mem_whole_iff below (x := ⟨.wait _, _⟩) rfl]

end Whole

/-- Success of a termination for good tells that the process is gone, unless waiting for it
failed. -/
theorem success_tells (h : (terminateCompletely grace).Runs es outcome) :
    Successful grace es outcome := by
  cases runs_terminateCompletely.mp h with
  | nobody => exact ⟨by simp [KnownGone, WaitFailed], by simp, by simp⟩
  | somebody itself below =>
    obtain ⟨success_iff, tells, unforced⟩ := itself.successful
    refine ⟨?_, ?_, ?_⟩
    · rwa [knownGone_whole_iff below, waitFailed_whole_iff below]
    · rwa [knownGone_whole_iff below, waitFailed_whole_iff below]
    · rwa [waitFailed_whole_iff below, asked_whole_iff below rfl]

/-- A process that does not leave within the grace and is killed. -/
def stubbornRun : List Exchange :=
  [⟨.currentPid, some 42⟩, ⟨.findDescendants 42, .ok [5]⟩, ⟨.requestStop, Outcome.success⟩,
    ⟨.wait (some 50), Waited.timedOut⟩, ⟨.forceKill, Outcome.success⟩,
    ⟨.stopPid 5, Outcome.notFound⟩]

/-- Its termination succeeds, and it is gone: it outlived the grace and was killed. -/
theorem stubborn_known_gone :
    (terminateCompletely 50).Runs stubbornRun .success ∧ KnownGone 50 stubbornRun := by
  have hrun : (terminateCompletely 50).Runs stubbornRun .success :=
    .ask (.ask (.ask (.ask (.ask (.ask (.done _))))))
  exact ⟨hrun, ((success_tells hrun).tells rfl).mpr (by simp [WaitFailed, stubbornRun])⟩

/-- A process for which waiting fails. -/
def survivorRun : List Exchange :=
  [⟨.currentPid, some 42⟩, ⟨.findDescendants 42, .ok []⟩, ⟨.requestStop, Outcome.success⟩,
    ⟨.wait (some 50), Waited.failed (Chain.single "no child processes")⟩]

/-- Its termination succeeds though no exit status came and nobody killed it. -/
theorem survivor_counts_as_success :
    (terminateCompletely 50).Runs survivorRun .success ∧
      (∀ status : Status, ⟨.wait (some 50), Waited.left status⟩ ∉ survivorRun) ∧
      .forceKill ∉ asked survivorRun := by
  refine ⟨.ask (.ask (.ask (.ask (.done _)))), ?_, ?_⟩
  · simp [survivorRun]
  · simp [survivorRun]

end KernelLink.Control
