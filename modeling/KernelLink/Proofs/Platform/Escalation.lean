import KernelLink.Proofs.Platform.WholeTree
/-!
# From asking to force

Terminating a process for good asks it to leave, gives it a grace, and kills it if it is still
there. Where a program of the system ends processes, its exit code is all that is known of an
attempt, and every code but zero counts as a process that is not there. So a program that will not
ask the process without force ends the escalation: nobody kills the process, and it is reported as
not found while it runs on.

Main definitions:
* `Course`: whether the process runs, before and after some calls.
* `Attempt`: the calls of an attempt on the process.
* `Refused`, `WaitFailed`: what may go wrong with a process that is there.
* `Stages`: a termination for good up to the end of the grace, with force, and after it.
* `Decides`: when there is force, and when the process is reported as not found.

Main results:
* `Attempt.notFound_iff`: an attempt finds no process that runs exactly if the program refuses.
* `force_unless_refused`, `refused_runs_on`: the escalation, and where it ends too early.
-/
namespace KernelLink

namespace Platform.Windows

open Control (Pid Outcome Waited Status terminateCompletely)
open Plan (asked)

/-- A call with its answer. -/
abbrev Exchange := Plan.Exchange Call.Answer

variable {grace : Nat} {pid : Pid} {es before forced after : List Exchange} {outcome : Outcome}
  {running between left : Bool}

/-! ## The process -/

/-- What an answer tells of the process `pid`, which runs or not before and after it. The handle
has its number until it is reaped, which it is only after its end, and its exit status comes only
after its end. -/
def Tells (pid : Pid) : Exchange → Bool → Bool → Prop
  | ⟨.handle, some number⟩, _, _ => number = pid
  | ⟨.handle, none⟩, running, _ => running = false
  | ⟨.wait _, Waited.left _⟩, _, left => left = false
  | _, _, _ => True

/-- The relation `Course pid running es left`: whether the process `pid` runs before and after the
calls in `es`. A process that has ended does not run again. -/
inductive Course (pid : Pid) : Bool → List Exchange → Bool → Prop where
  /-- Nothing was called. -/
  | nil (running : Bool) : Course pid running [] running
  /-- The process runs on or ends, as the answer tells. -/
  | cons {running between left : Bool} {x : Exchange} {es : List Exchange}
      (on : between = true → running = true) (tells : Tells pid x running between)
      (rest : Course pid between es left) : Course pid running (x :: es) left

theorem course_nil : Course pid running [] left ↔ left = running := by
  constructor
  · intro h
    cases h
    rfl
  · rintro rfl
    exact .nil _

/-- A course begins with one exchange, which tells whether the process runs after it; and a process
that has ended does not run again. -/
theorem course_cons {x : Exchange} :
    Course pid running (x :: es) left ↔
      ∃ between, (between = true → running = true) ∧ Tells pid x running between ∧
        Course pid between es left := by
  constructor
  · intro h
    cases h with
    | cons on tells rest => exact ⟨_, on, tells, rest⟩
  · rintro ⟨between, on, tells, rest⟩
    exact .cons on tells rest

/-- A course may be cut anywhere, and the process runs at the cut or does not. Induction on the
first part. -/
theorem course_append {more : List Exchange} :
    Course pid running (es ++ more) left ↔
      ∃ between, Course pid running es between ∧ Course pid between more left := by
  induction es generalizing running with
  | nil => simp [course_nil]
  | cons x es ih =>
    rw [List.cons_append, course_cons]
    simp only [ih, course_cons]
    constructor
    · rintro ⟨first, on, tells, second, hes, hmore⟩
      exact ⟨second, ⟨first, on, tells, hes⟩, hmore⟩
    · rintro ⟨second, ⟨first, on, tells, hes⟩, hmore⟩
      exact ⟨first, on, tells, second, hes, hmore⟩

/-- A process that runs at the end ran all the time, since none that has ended begins again. -/
theorem Course.started (h : Course pid running es left) (hleft : left = true) : running = true := by
  induction h with
  | nil => exact hleft
  | cons on _ _ ih => exact on (ih hleft)

/-! ## What goes wrong -/

/-- The program that ends processes would not end the process `pid`, without force or with it. -/
def Refused (pid : Pid) (force : Bool) (es : List Exchange) : Prop :=
  ∃ code, code ≠ 0 ∧ ⟨.runKiller (killerArgs pid force true), Except.ok code⟩ ∈ es

/-- Waiting for the process failed within the grace. -/
def WaitFailed (grace : Nat) (es : List Exchange) : Prop :=
  ∃ cause, ⟨.wait (some grace), Waited.failed cause⟩ ∈ es

/-! ## Attempts -/

/-- The calls of an attempt on the process, without force or with it, and what comes of it. -/
inductive Attempt (force : Bool) : List Exchange → Outcome → Prop where
  /-- The process has been reaped. -/
  | gone : Attempt force [⟨.handle, (none : Option Pid)⟩] .notFound
  /-- The program is run, and what it gives is told. The process may be reaped then. -/
  | made (pid : Pid) (what : String) (ended : Except StreamFault Nat) {reaped : List Exchange}
      (hreaped : ∀ x ∈ reaped, x.command = .slay) :
      Attempt force
        (⟨.handle, some pid⟩ :: ⟨.runKiller (killerArgs pid force true), ended⟩ :: reaped)
        (outcomeOf what ended)

/-- The calls of a request to stop are those of an attempt without force. -/
theorem attempt_of_requestStop (h : requestStop.Runs es outcome) : Attempt false es outcome := by
  obtain ⟨number, rest, rfl, hr⟩ := Plan.runs_ask.mp h
  cases number with
  | none =>
    obtain ⟨rfl, rfl⟩ := Plan.runs_done.mp hr
    exact .gone
  | some pid =>
    obtain ⟨ended, rest, rfl, hended⟩ := Plan.runs_ask.mp hr
    obtain ⟨rfl, rfl⟩ := Plan.runs_done.mp hended
    exact .made pid _ ended (fun _ h => nomatch h)

theorem attempt_of_forceKill (h : forceKill.Runs es outcome) : Attempt true es outcome := by
  obtain ⟨number, rest, rfl, hr⟩ := Plan.runs_ask.mp h
  cases number with
  | none =>
    obtain ⟨rfl, rfl⟩ := Plan.runs_done.mp hr
    exact .gone
  | some pid =>
    obtain ⟨ended, rest, rfl, hended⟩ := Plan.runs_ask.mp hr
    obtain ⟨slain, rest, rfl, hslain⟩ := Plan.runs_ask.mp hended
    obtain ⟨rfl, rfl⟩ := Plan.runs_done.mp hslain
    exact .made pid _ ended (fun _ h => List.mem_singleton.mp h ▸ rfl)

/-- An attempt is taken to have found no process exactly if the system's program has ended with some
code other than zero. -/
theorem outcomeOf_eq_notFound_iff {what : String} {ended : Except StreamFault Nat} :
    outcomeOf what ended = .notFound ↔ ∃ code, code ≠ 0 ∧ ended = .ok code := by
  cases ended with
  | error fault => simp [outcomeOf]
  | ok code =>
    by_cases hcode : code = 0
    · simp [outcomeOf, hcode]
    · simp [outcomeOf, hcode]

/-- An attempt finds no process, though it runs, exactly if the program refuses. -/
theorem Attempt.notFound_iff {force : Bool} (h : Attempt force es outcome)
    (hcourse : Course pid running es left) (hleft : left = true) :
    outcome = .notFound ↔ Refused pid force es := by
  cases h with
  | gone =>
    have hrunning := hcourse.started hleft
    obtain ⟨between, -, hnone, -⟩ := course_cons.mp hcourse
    exact absurd (hnone.symm.trans hrunning) Bool.false_ne_true
  | made number what ended hreaped =>
    obtain ⟨between, -, hnumber, -⟩ := course_cons.mp hcourse
    obtain rfl : number = pid := hnumber
    rw [outcomeOf_eq_notFound_iff]
    refine exists_congr fun code => and_congr_right fun _ => ?_
    constructor
    · rintro rfl
      exact List.mem_cons_of_mem _ List.mem_cons_self
    · intro hmem
      rcases List.mem_cons.mp hmem with heq | hmem
      · simp at heq
      rcases List.mem_cons.mp hmem with heq | hmem
      · simpa using heq.symm
      · exact nomatch hreaped _ hmem

/-! ## The stages -/

/-- A termination for good in three stages: all that is asked until the grace is over, force, and
the descendants. -/
def Stages (grace : Nat) (pid : Pid) (before forced after : List Exchange) (outcome : Outcome) :
    Prop :=
  ∃ xs ys zs : List Control.Exchange, (terminateCompletely grace).Runs (xs ++ ys ++ zs) outcome ∧
    Plan.Carried carryOut xs before ∧ Plan.Carried carryOut ys forced ∧
    Plan.Carried carryOut zs after ∧
    (∃ waits, asked xs = [.currentPid, .findDescendants pid, .requestStop] ++ waits ∧
      waits.Sublist [.wait (some grace)]) ∧
    (asked ys).Sublist [.forceKill] ∧ ∃ pids : List Pid, asked zs = pids.map .stopPid

/-- When there is force, and when the process is reported as not found. -/
structure Decides (grace : Nat) (pid : Pid) (before forced : List Exchange) (outcome : Outcome)
    (running left : Bool) : Prop where
  /-- A process that runs when the grace is over is killed exactly unless the program refused to ask
  it, or waiting for it failed. -/
  forced_iff : running = true →
    (forced ≠ [] ↔ ¬ Refused pid false before ∧ ¬ WaitFailed grace before)
  /-- A process that runs at the end is reported as not found exactly if the program refused to end
  it. -/
  notFound_iff : left = true →
    (outcome = .notFound ↔ Refused pid false before ∨ Refused pid true forced)

/-- The number of the process and a look at the process table, with which every termination for
good begins. -/
def search (pid : Pid) (table : Option Table) : List Exchange :=
  [⟨.handle, some pid⟩, ⟨.table, table⟩]

section Before

variable {table : Option Table} {told waits : List Exchange} {answer : Outcome} {started : Bool}

/-- What the attempt to ask a process that runs gives, told from all that was asked until the grace
is over. -/
theorem asked_notFound_iff (htold : Attempt false told answer)
    (hwaits : ∀ x ∈ waits, ∃ limit, x.command = .wait limit)
    (hcourse : Course pid started (search pid table ++ told ++ waits) running)
    (hrunning : running = true) :
    answer = .notFound ↔ Refused pid false (search pid table ++ told ++ waits) := by
  obtain ⟨second, hfirst, hlast⟩ := course_append.mp hcourse
  obtain ⟨first, -, hattempt⟩ := course_append.mp hfirst
  rw [htold.notFound_iff hattempt (hlast.started hrunning)]
  refine exists_congr fun code => and_congr_right fun _ => ?_
  constructor
  · intro hmem
    exact List.mem_append_left _ (List.mem_append_right _ hmem)
  · intro hmem
    rcases List.mem_append.mp hmem with hmem | hmem
    · rcases List.mem_append.mp hmem with hmem | hmem
      · simp [search] at hmem
      · exact hmem
    · obtain ⟨limit, hlimit⟩ := hwaits _ hmem
      exact nomatch hlimit

/-- Whether waiting has failed is seen in the waiting alone: neither the search nor the request is a
wait. -/
theorem waitFailed_before_iff (htold : Attempt false told answer) :
    WaitFailed grace (search pid table ++ told ++ waits) ↔ WaitFailed grace waits := by
  refine exists_congr fun cause => ?_
  constructor
  · intro hmem
    rcases List.mem_append.mp hmem with hmem | hmem
    · rcases List.mem_append.mp hmem with hmem | hmem
      · simp [search] at hmem
      · cases htold with
        | gone => simp at hmem
        | made pid what ended hreaped =>
          simp only [List.mem_cons] at hmem
          rcases hmem with heq | heq | hmem
          · simp at heq
          · simp at heq
          · exact nomatch hreaped _ hmem
    · exact hmem
  · intro hmem
    exact List.mem_append_right _ hmem

theorem not_refused_nil {force : Bool} : ¬ Refused pid force [] := by
  rintro ⟨code, -, hmem⟩
  exact absurd hmem List.not_mem_nil

/-- The attempt to ask the process finds none; then it was refused, or the process had ended by
itself. -/
theorem decides_absent (htold : Attempt false told .notFound)
    (hcourse : Course pid started (search pid table ++ told ++ []) running)
    (hafter : Course pid running ([] ++ after) left) :
    Decides grace pid (search pid table ++ told ++ []) [] .notFound running left := by
  have hrefused : running = true → Refused pid false (search pid table ++ told ++ []) :=
    fun hrunning =>
      (asked_notFound_iff htold (List.forall_mem_nil _) hcourse hrunning).mp rfl
  constructor
  · intro hrunning
    exact iff_of_false (fun h => h rfl) fun h => h.1 (hrefused hrunning)
  · intro hleft
    exact iff_of_true rfl (Or.inl (hrefused (hafter.started hleft)))

/-- Waiting for the process ends within the grace, so no force is used and nothing was refused while
it ran. -/
theorem decides_waited {waited : Waited} (htold : Attempt false told .success)
    (hended : waited ≠ .timedOut)
    (hcourse : Course pid started (search pid table ++ told ++ [⟨.wait (some grace), waited⟩])
      running)
    (hafter : Course pid running ([] ++ after) left) :
    Decides grace pid (search pid table ++ told ++ [⟨.wait (some grace), waited⟩]) [] .success
      running left := by
  have hheard : running = true →
      ¬ Refused pid false (search pid table ++ told ++ [⟨.wait (some grace), waited⟩]) := by
    intro hrunning h
    have hwaits : ∀ x ∈ ([⟨.wait (some grace), waited⟩] : List Exchange),
        ∃ limit, x.command = .wait limit := fun x hx =>
          ⟨_, congrArg Plan.Exchange.command (List.mem_singleton.mp hx)⟩
    exact nomatch (asked_notFound_iff htold hwaits hcourse hrunning).mpr h
  constructor
  · intro hrunning
    have hfailed : WaitFailed grace
        (search pid table ++ told ++ [⟨.wait (some grace), waited⟩]) := by
      rw [waitFailed_before_iff htold]
      cases waited with
      | timedOut => exact absurd rfl hended
      | failed cause => exact ⟨cause, List.mem_singleton_self _⟩
      | left status =>
        -- a process whose exit status came does not run
        obtain ⟨second, -, hlast⟩ := course_append.mp hcourse
        obtain ⟨third, -, hgone, hnil⟩ := course_cons.mp hlast
        obtain rfl := course_nil.mp hnil
        exact absurd (hgone.symm.trans hrunning) Bool.false_ne_true
    exact iff_of_false (fun h => h rfl) fun h => h.2 hfailed
  · intro hleft
    exact iff_of_false Outcome.noConfusion
      (not_or.mpr ⟨hheard (hafter.started hleft), not_refused_nil⟩)

/-- The process is killed, since it could not be told to leave, or it did not. -/
theorem decides_forced (htold : Attempt false told answer) (hthere : answer ≠ .notFound)
    (hwaits : ∀ x ∈ waits, x = ⟨.wait (some grace), Waited.timedOut⟩)
    (hforced : Attempt true forced outcome)
    (hcourse : Course pid started (search pid table ++ told ++ waits) running)
    (hafter : Course pid running (forced ++ after) left) :
    Decides grace pid (search pid table ++ told ++ waits) forced outcome running left := by
  have hheard : running = true → ¬ Refused pid false (search pid table ++ told ++ waits) := by
    intro hrunning h
    exact hthere ((asked_notFound_iff htold
      (fun x hx => ⟨_, congrArg Plan.Exchange.command (hwaits x hx)⟩) hcourse hrunning).mpr h)
  have hwaited : ¬ WaitFailed grace (search pid table ++ told ++ waits) := by
    rw [waitFailed_before_iff htold]
    rintro ⟨cause, hmem⟩
    simpa using hwaits _ hmem
  have hsome : forced ≠ [] := by
    cases hforced with
    | gone => exact List.cons_ne_nil _ _
    | made => exact List.cons_ne_nil _ _
  constructor
  · intro hrunning
    exact iff_of_true hsome ⟨hheard hrunning, hwaited⟩
  · intro hleft
    obtain ⟨between, hattempt, hlast⟩ := course_append.mp hafter
    rw [hforced.notFound_iff hattempt (hlast.started hleft)]
    exact (or_iff_right (hheard (hafter.started hleft))).symm

end Before

/-! ## The whole -/

theorem carried_single {c : Control.Command} {answer : c.Answer} :
    Plan.Carried carryOut [⟨c, answer⟩] es ↔ (carryOut c).Runs es answer := by
  rw [Plan.carried_cons]
  constructor
  · rintro ⟨one, more, rfl, hone, hmore⟩
    cases hmore
    rwa [List.append_nil]
  · intro h
    exact ⟨es, [], (List.append_nil es).symm, h, .nil⟩

theorem runs_call {c : Call} {answer : c.Answer} :
    (call c).Runs es answer ↔ es = [⟨c, answer⟩] := by
  unfold call
  rw [Plan.runs_ask]
  constructor
  · rintro ⟨given, rest, rfl, hr⟩
    obtain ⟨rfl, rfl⟩ := Plan.runs_done.mp hr
    rfl
  · rintro rfl
    exact ⟨answer, [], rfl, .done _⟩

/-- Whatever was found, the search has asked for the process and then for the table, and for nothing
else if there was no table. -/
theorem carried_search {found : Except Chain (List Pid)}
    (h : Plan.Carried carryOut [⟨.currentPid, some pid⟩, ⟨.findDescendants pid, found⟩] es) :
    ∃ table, es = search pid table := by
  obtain ⟨one, more, rfl, hone, hmore⟩ := Plan.carried_cons.mp h
  obtain rfl := runs_call.mp hone
  rcases runs_findDescendants.mp (carried_single.mp hmore) with ⟨rfl, -⟩ | ⟨t, _, _, rfl, -⟩
  · exact ⟨none, rfl⟩
  · exact ⟨some t, rfl⟩

section Whole

variable {found : Except Chain (List Pid)} {table : Option Table} {answer : Outcome}
  {swept : List Control.Exchange} {told waited : List Exchange} {pids : List Pid}

/-- The stages of a termination whose parts were carried out, put together from the plan and the
course of the process. -/
theorem stages_of_carried (waits ys : List Control.Exchange)
    (hruns : (terminateCompletely grace).Runs (⟨.currentPid, some pid⟩ ::
      ⟨.findDescendants pid, found⟩ :: (⟨.requestStop, answer⟩ :: (waits ++ ys) ++ swept)) outcome)
    (hsearch : Plan.Carried carryOut [⟨.currentPid, some pid⟩, ⟨.findDescendants pid, found⟩]
      (search pid table))
    (htold : Plan.Carried carryOut [⟨.requestStop, answer⟩] told)
    (hwaited : Plan.Carried carryOut waits waited) (hforced : Plan.Carried carryOut ys forced)
    (hafter : Plan.Carried carryOut swept after)
    (hwaits : (asked waits).Sublist [.wait (some grace)])
    (hys : (asked ys).Sublist [.forceKill]) (hswept : asked swept = pids.map .stopPid) :
    Stages grace pid (search pid table ++ told ++ waited) forced after outcome := by
  refine ⟨[⟨.currentPid, some pid⟩, ⟨.findDescendants pid, found⟩] ++ [⟨.requestStop, answer⟩] ++
    waits, ys, swept, ?_, ?_, hforced, hafter, ⟨asked waits, ?_, hwaits⟩, hys, pids, hswept⟩
  · simpa using hruns
  · exact Plan.carried_append.mpr
      ⟨_, _, rfl, Plan.carried_append.mpr ⟨_, _, rfl, hsearch, htold⟩, hwaited⟩
  · rw [Plan.asked_append, Plan.asked_append]
    rfl

end Whole

/-- Terminating a process for good asks nothing of a process that has been reaped. Otherwise it goes
in three stages, and if the process runs on through the first, it is killed exactly unless the
program refused to ask it to leave or waiting for it failed. If it runs on to the end, it is
reported as not found exactly if the program refused. -/
theorem force_unless_refused
    (h : (manager.onPlatform (terminateCompletely grace)).Runs es outcome) :
    (es = [⟨.handle, (none : Option Pid)⟩] ∧ outcome = .notFound) ∨
      ∃ pid before forced after, es = before ++ forced ++ after ∧
        Stages grace pid before forced after outcome ∧
        ∀ started running left, Course pid started before running →
          Course pid running (forced ++ after) left →
          Decides grace pid before forced outcome running left := by
  obtain ⟨xs, hxs, hcarried⟩ := Plan.runs_refine.mp h
  cases Control.runs_terminateCompletely.mp hxs with
  | nobody => exact Or.inl ⟨runs_call.mp (carried_single.mp hcarried), rfl⟩
  | @somebody pid found root swept _ itself below =>
    right
    have hparts : Plan.Carried carryOut ([⟨.currentPid, some pid⟩, ⟨.findDescendants pid, found⟩] ++
      (root ++ swept)) es := hcarried
    obtain ⟨begun, rest, rfl, hsearch, hrest⟩ := Plan.carried_append.mp hparts
    obtain ⟨table, rfl⟩ := carried_search hsearch
    obtain ⟨calls, after, rfl, hcalls, hafter⟩ := Plan.carried_append.mp hrest
    -- one case for each way to deal with the process itself
    cases itself with
    | absent =>
      refine ⟨pid, search pid table ++ calls ++ [], [], after, by simp,
        stages_of_carried [] [] hxs hsearch hcalls .nil .nil hafter (by simp) (by simp) below,
        fun started running left hcourse hleft => ?_⟩
      exact decides_absent (attempt_of_requestStop (carried_single.mp hcalls)) hcourse hleft
    | @waited waited hended =>
      obtain ⟨told, waits, rfl, htold, hwaits⟩ := Plan.carried_cons.mp hcalls
      obtain rfl := runs_call.mp (carried_single.mp hwaits)
      refine ⟨pid, search pid table ++ told ++ [⟨.wait (some grace), waited⟩], [], after, by simp,
        stages_of_carried [⟨.wait (some grace), waited⟩] [] hxs hsearch (carried_single.mpr htold)
          hwaits .nil hafter (by simp) (by simp) below,
        fun started running left hcourse hleft => ?_⟩
      exact decides_waited (attempt_of_requestStop htold) hended hcourse hleft
    | ignored =>
      obtain ⟨told, rest, rfl, htold, hrest⟩ := Plan.carried_cons.mp hcalls
      obtain ⟨waits, forced, rfl, hwaits, hforced⟩ := Plan.carried_cons.mp hrest
      obtain rfl := runs_call.mp hwaits
      refine ⟨pid, search pid table ++ told ++ [⟨.wait (some grace), Waited.timedOut⟩], forced,
        after, by simp,
        stages_of_carried [⟨.wait (some grace), Waited.timedOut⟩] [⟨.forceKill, outcome⟩] hxs
          hsearch (carried_single.mpr htold) (carried_single.mpr hwaits) hforced hafter (by simp)
          (by simp) below,
        fun started running left hcourse hleft => ?_⟩
      exact decides_forced (attempt_of_requestStop htold) Outcome.noConfusion
        (fun x hx => List.mem_singleton.mp hx) (attempt_of_forceKill (carried_single.mp hforced))
        hcourse hleft
    | @refused answer unheard there =>
      obtain ⟨told, forced, rfl, htold, hforced⟩ := Plan.carried_cons.mp hcalls
      refine ⟨pid, search pid table ++ told ++ [], forced, after, by simp,
        stages_of_carried [] [⟨.forceKill, outcome⟩] hxs hsearch (carried_single.mpr htold) .nil
          hforced hafter (by simp) (by simp) below,
        fun started running left hcourse hleft => ?_⟩
      exact decides_forced (attempt_of_requestStop htold) there (List.forall_mem_nil _)
        (attempt_of_forceKill (carried_single.mp hforced)) hcourse hleft

/-- A process that is asked to leave, stays, and is killed. -/
def stubbornCalls : List Exchange :=
  [⟨.handle, some 42⟩, ⟨.table, some [(42, some 1)]⟩, ⟨.handle, some 42⟩,
    ⟨.runKiller (killerArgs 42 false true), Except.ok 0⟩, ⟨.wait (some 50), Waited.timedOut⟩,
    ⟨.handle, some 42⟩, ⟨.runKiller (killerArgs 42 true true), Except.ok 0⟩, ⟨.slay, ()⟩]

/-- Its termination goes in stages, what was answered in them decides whether force is used, and it
tells that it succeeded. -/
theorem stubborn_forced :
    (manager.onPlatform (terminateCompletely 50)).Runs stubbornCalls .success ∧
      ∃ pid before forced after, stubbornCalls = before ++ forced ++ after ∧
        Stages 50 pid before forced after .success ∧
        ∀ started running left, Course pid started before running →
          Course pid running (forced ++ after) left →
          Decides 50 pid before forced .success running left := by
  have hrun : (manager.onPlatform (terminateCompletely 50)).Runs stubbornCalls .success :=
    .ask (.ask (.ask (.ask (.ask (.ask (.ask (.ask (.done _))))))))
  refine ⟨hrun, ?_⟩
  rcases force_unless_refused hrun with ⟨hreaped, -⟩ | hstages
  · exact nomatch hreaped
  · exact hstages

/-- A process that the program does not ask to leave. -/
def refusedCalls : List Exchange :=
  [⟨.handle, some 42⟩, ⟨.table, some [(42, some 1)]⟩, ⟨.handle, some 42⟩,
    ⟨.runKiller (killerArgs 42 false true), Except.ok 128⟩]

/-- It is reported as not found though it runs all the time, and nobody tries to kill it. -/
theorem refused_runs_on :
    (manager.onPlatform (terminateCompletely 50)).Runs refusedCalls .notFound ∧
      Course 42 true refusedCalls true ∧
      (∀ pid tree, .runKiller (killerArgs pid true tree) ∉ asked refusedCalls) ∧
      .slay ∉ asked refusedCalls := by
  refine ⟨.ask (.ask (.ask (.ask (.done _)))), ?_, ?_, ?_⟩
  · exact .cons id rfl (.cons id trivial (.cons id rfl (.cons id trivial (.nil true))))
  · intro pid tree
    cases tree <;> simp [refusedCalls, killerArgs]
  · simp [refusedCalls]

end Platform.Windows
end KernelLink
