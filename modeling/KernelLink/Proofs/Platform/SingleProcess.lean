import KernelLink.Platform.Unix
import KernelLink.Proofs.Plan.Runs
/-!
# The grace of a single process

A single process is asked to leave, looked at until it has gone or its grace is over, and killed
then. It may go between any two calls, so what a look finds is said by the calls before it, and only
sleeping takes time.

Main definitions:
* `elapsed`: how long some calls take.
* `Timeline`, `Timeline.Shows`: a process and a clock, and the answers that they give.
* `Timeline.looks`: when the process was looked at, and whether it was found.
* `Watched`: the calls while it is watched.
* `StopsInTime`: how a process that is told to leave is stopped.

Main results:
* `watched_of_runs`, `watch_returns`: the looks come to an end at the deadline, not before.
* `stops_in_time`: every process, whenever it goes.
-/
namespace KernelLink

namespace Platform.Unix

open Control (Pid Outcome)
open Machine (Signal)
open Plan (asked)

/-- A call with its answer. -/
abbrev Exchange := Plan.Exchange Call.Answer

/-! ## A process in time -/

/-- How long a call takes, in milliseconds, if sleeping takes exactly its time. -/
def duration : Call → Nat
  | .sleep ms => ms
  | _ => 0

/-- How long some calls take. -/
def elapsed : List Exchange → Nat
  | [] => 0
  | x :: es => duration x.command + elapsed es

@[simp] theorem elapsed_nil : elapsed [] = 0 := rfl

@[simp] theorem elapsed_cons {x : Exchange} {es : List Exchange} :
    elapsed (x :: es) = duration x.command + elapsed es := rfl

theorem elapsed_append {es more : List Exchange} :
    elapsed (es ++ more) = elapsed es + elapsed more := by
  induction es with
  | nil => rw [List.nil_append, elapsed_nil, Nat.zero_add]
  | cons x es ih => rw [List.cons_append, elapsed_cons, elapsed_cons, ih, Nat.add_assoc]

/-- How it stands with a process. -/
inductive Standing where
  /-- It runs. -/
  | running
  /-- It has ended and not been reaped; signals still reach it. -/
  | zombie
  /-- There is no such process. -/
  | gone
  deriving Repr, DecidableEq

/-- A process, and the clock by which it is stopped. -/
structure Timeline where
  /-- The number of the process. -/
  pid : Pid
  /-- What the clock shows at first. -/
  start : Nat
  /-- How it stands with the process after some calls. So it may heed a signal or ignore it, and
  end at any instant and between any two calls. -/
  standing : List Exchange → Standing
  /-- A process that has ended does not run again. -/
  zombie_stays : ∀ past x, standing past = .zombie → standing (past ++ [x]) ≠ .running
  /-- A process that has gone does not come back. -/
  gone_stays : ∀ past x, standing past = .gone → standing (past ++ [x]) = .gone

namespace Timeline

variable {t : Timeline} {past es : List Exchange} {x : Exchange}

/-- What an answer behind the calls in `past` tells of the process and the clock. Signals are not
refused. -/
def Tells (t : Timeline) (past : List Exchange) : Exchange → Prop
  | ⟨.signal pid _, delivered⟩ =>
    pid = t.pid → delivered = if t.standing past = .gone then .nobody else .sent
  | ⟨.isThere pid, found⟩ => pid = t.pid → found = decide (t.standing past ≠ .gone)
  | ⟨.now, instant⟩ => instant = t.start + elapsed past
  | _ => True

/-- The relation `Shows t past es`: behind the calls in `past`, those in `es` have true answers. -/
inductive Shows (t : Timeline) : List Exchange → List Exchange → Prop where
  /-- Nothing was called. -/
  | nil (past : List Exchange) : Shows t past []
  /-- The first answer is true, and so are the others. -/
  | cons {past es : List Exchange} {x : Exchange} (tells : t.Tells past x)
      (rest : Shows t (past ++ [x]) es) : Shows t past (x :: es)

/-- A timeline shows some exchanges if it tells the first and then, with that one behind it, shows
the others. -/
theorem shows_cons : t.Shows past (x :: es) ↔ t.Tells past x ∧ t.Shows (past ++ [x]) es := by
  constructor
  · intro h
    cases h with
    | cons tells rest => exact ⟨tells, rest⟩
  · rintro ⟨tells, rest⟩
    exact .cons tells rest

/-- The last answer is true of the process as it stands after all exchanges before. -/
theorem Shows.last (h : t.Shows past (es ++ [x])) : t.Tells (past ++ es) x := by
  induction es generalizing past with
  | nil =>
    rw [List.append_nil]
    exact (shows_cons.mp h).1
  | cons y es ih =>
    have hrest := ih (shows_cons.mp h).2
    rwa [List.append_assoc] at hrest

/-- The looks at a process, from an instant on: when each was made, and whether it found the
process. -/
def looksFrom (pid : Pid) : (now : Nat) → List Exchange → List (Nat × Bool)
  | _, [] => []
  | now, ⟨.isThere p, found⟩ :: es =>
    if p = pid then (now, found) :: looksFrom pid now es else looksFrom pid now es
  | now, x :: es => looksFrom pid (now + duration x.command) es

/-- The looks at the process. -/
def looks (t : Timeline) (es : List Exchange) : List (Nat × Bool) := looksFrom t.pid t.start es

end Timeline

open Timeline (looksFrom)

/-! ## While a process is watched -/

/-- The calls while a process is watched from an instant on. -/
inductive Watched (pid : Pid) (deadline : Nat) : (now : Nat) → List Exchange → Prop where
  /-- It is not found. -/
  | gone {now : Nat} (early : now < deadline) :
      Watched pid deadline now [⟨.now, now⟩, ⟨.isThere pid, false⟩]
  /-- It is found, and looked at again after an interval. -/
  | there {now : Nat} {es : List Exchange} (early : now < deadline)
      (rest : Watched pid deadline (now + pollInterval) es) :
      Watched pid deadline now
        (⟨.now, now⟩ :: ⟨.isThere pid, true⟩ :: ⟨.sleep pollInterval, ()⟩ :: es)
  /-- The deadline has come, and it is killed unless it has gone just now. -/
  | due {now : Nat} {delivered : Delivered} (late : deadline ≤ now)
      (answer : delivered = .sent ∨ delivered = .nobody) :
      Watched pid deadline now [⟨.now, now⟩, ⟨.signal pid Signal.kill, delivered⟩]

variable {t : Timeline} {past es : List Exchange} {outcome : Outcome} {pid : Pid}
  {deadline now looks : Nat}

/-- Killing a process that may have gone just now succeeds, whether or not the signal finds it. -/
theorem killed_of_runs (h : (killNow t.pid).Runs es outcome) (hs : t.Shows past es) :
    outcome = .success ∧ ∃ delivered : Delivered,
      es = [⟨.signal t.pid Signal.kill, delivered⟩] ∧
        (delivered = .sent ∨ delivered = .nobody) := by
  obtain ⟨delivered, rest, rfl, hr⟩ := Plan.runs_ask.mp h
  have htells : delivered = if t.standing past = .gone then .nobody else .sent :=
    (Timeline.shows_cons.mp hs).1 rfl
  by_cases hgone : t.standing past = .gone
  · rw [if_pos hgone] at htells
    subst htells
    obtain ⟨rfl, rfl⟩ := Plan.runs_done.mp hr
    exact ⟨rfl, _, rfl, Or.inr rfl⟩
  · rw [if_neg hgone] at htells
    subst htells
    obtain ⟨rfl, rfl⟩ := Plan.runs_done.mp hr
    exact ⟨rfl, _, rfl, Or.inl rfl⟩

/-- Killing at once comes to an end, whether or not there still is a process. -/
theorem killNow_returns (t : Timeline) (past : List Exchange) :
    ∃ es outcome, (killNow t.pid).Runs es outcome ∧ t.Shows past es := by
  by_cases hgone : t.standing past = .gone
  · exact ⟨[⟨.signal t.pid Signal.kill, Delivered.nobody⟩], .success, .ask (.done _),
      .cons (fun _ => by rw [if_pos hgone]) (.nil _)⟩
  · exact ⟨[⟨.signal t.pid Signal.kill, Delivered.sent⟩], .success, .ask (.done _),
      .cons (fun _ => by rw [if_neg hgone]) (.nil _)⟩

/-- A process that is watched is looked at until it has gone or the deadline has come, and the looks
do not run out before. -/
theorem watched_of_runs (h : (watch t.pid deadline looks).Runs es outcome) (hs : t.Shows past es)
    (hnow : now = t.start + elapsed past) (hsome : 0 < looks)
    (hlooks : deadline + pollInterval ≤ now + looks * pollInterval) :
    outcome = .success ∧ Watched t.pid deadline now es := by
  -- one look and one pause for each of the intervals that are left
  induction looks generalizing past es now with
  | zero => exact absurd hsome (Nat.lt_irrefl 0)
  | succ looks ih =>
    obtain ⟨instant, rest, rfl, hclock⟩ := Plan.runs_ask.mp h
    obtain ⟨htells, hlook⟩ := Timeline.shows_cons.mp hs
    obtain rfl : now = instant := hnow.trans htells.symm
    by_cases hearly : now < deadline
    · rw [if_pos hearly] at hclock
      obtain ⟨found, rest, rfl, hfound⟩ := Plan.runs_ask.mp hclock
      cases found with
      | false =>
        obtain ⟨rfl, rfl⟩ := Plan.runs_done.mp hfound
        exact ⟨rfl, .gone hearly⟩
      | true =>
        obtain ⟨slept, rest, rfl, hslept⟩ := Plan.runs_ask.mp hfound
        have hrest := (Timeline.shows_cons.mp (Timeline.shows_cons.mp hlook).2).2
        have hlater : now + pollInterval = t.start + elapsed (past ++
            [⟨.now, now⟩] ++ [⟨.isThere t.pid, true⟩] ++ [⟨.sleep pollInterval, slept⟩]) := by
          simp only [elapsed_append, elapsed_cons, elapsed_nil, duration]
          omega
        unfold pollInterval at hlooks
        obtain ⟨rfl, hwatched⟩ :=
          ih hslept hrest hlater (by omega) (by unfold pollInterval; omega)
        exact ⟨rfl, .there hearly hwatched⟩
    · rw [if_neg hearly] at hclock
      obtain ⟨rfl, delivered, rfl, hanswer⟩ := killed_of_runs hclock hlook
      exact ⟨rfl, .due (Nat.le_of_not_lt hearly) hanswer⟩

/-- Watching comes to an end, whenever the process goes. Induction on the looks that are left;
behind the last one the process is killed. -/
theorem watch_returns (t : Timeline) (past : List Exchange) (deadline looks : Nat) :
    ∃ es outcome, (watch t.pid deadline looks).Runs es outcome ∧ t.Shows past es := by
  induction looks generalizing past with
  | zero => exact killNow_returns t past
  | succ looks ih =>
    have htells : t.Tells past ⟨.now, t.start + elapsed past⟩ := rfl
    by_cases hearly : t.start + elapsed past < deadline
    · -- the timeline answers each question, and with its answers the plan goes on
      by_cases hgone : t.standing (past ++ [⟨.now, t.start + elapsed past⟩]) = .gone
      · refine ⟨[⟨.now, t.start + elapsed past⟩, ⟨.isThere t.pid, false⟩], .success, .ask ?_,
          .cons htells (.cons (fun _ => by simp [hgone]) (.nil _))⟩
        rw [if_pos hearly]
        exact .ask (.done _)
      · obtain ⟨es, outcome, hruns, hshows⟩ := ih (past ++ [⟨.now, t.start + elapsed past⟩] ++
          [⟨.isThere t.pid, true⟩] ++ [⟨.sleep pollInterval, ()⟩])
        refine ⟨⟨.now, t.start + elapsed past⟩ :: ⟨.isThere t.pid, true⟩ ::
          ⟨.sleep pollInterval, ()⟩ :: es, outcome, .ask ?_,
          .cons htells (.cons (fun _ => by simp [hgone]) (.cons trivial hshows))⟩
        rw [if_pos hearly]
        exact .ask (.ask hruns)
    · obtain ⟨es, outcome, hruns, hshows⟩ :=
        killNow_returns t (past ++ [⟨.now, t.start + elapsed past⟩])
      refine ⟨⟨.now, t.start + elapsed past⟩ :: es, outcome, .ask ?_, .cons htells hshows⟩
      rw [if_neg hearly]
      exact hruns

/-! ## The looks -/

theorem looksFrom_there {n : Nat} :
    looksFrom pid now
        (⟨.now, n⟩ :: ⟨.isThere pid, true⟩ :: ⟨.sleep pollInterval, ()⟩ :: es) =
      (now, true) :: looksFrom pid (now + pollInterval) es := by
  simp [looksFrom, duration]

theorem looksFrom_gone {n : Nat} :
    looksFrom pid now [⟨.now, n⟩, ⟨.isThere pid, false⟩] = [(now, false)] := by
  simp [looksFrom, duration]

theorem looksFrom_due {n : Nat} {s : Signal} {delivered : Delivered} :
    looksFrom pid now [⟨.now, n⟩, ⟨.signal pid s, delivered⟩] = [] := rfl

/-- There is an interval between the looks, and all of them come before the deadline. -/
theorem Watched.paced (h : Watched pid deadline now es) {k : Nat} {look : Nat × Bool}
    (hk : (looksFrom pid now es)[k]? = some look) :
    look.1 = now + k * pollInterval ∧ look.1 < deadline := by
  induction h generalizing k with
  | gone early =>
    rw [looksFrom_gone] at hk
    cases k with
    | zero =>
      obtain rfl := Option.some.inj hk
      exact ⟨by simp, early⟩
    | succ k => exact nomatch hk
  | there early rest ih =>
    rw [looksFrom_there] at hk
    cases k with
    | zero =>
      obtain rfl := Option.some.inj hk
      exact ⟨by simp, early⟩
    | succ k =>
      obtain ⟨hat, hbefore⟩ := ih hk
      exact ⟨by rw [hat, Nat.succ_mul]; omega, hbefore⟩
  | due late answer => exact nomatch hk

/-- A look that does not find the process is the last thing that is done. -/
theorem Watched.gone_last (h : Watched pid deadline now es) {k instant : Nat}
    (hk : (looksFrom pid now es)[k]? = some (instant, false)) :
    (looksFrom pid now es).length = k + 1 ∧ es.getLast? = some ⟨.isThere pid, false⟩ ∧
      .signal pid Signal.kill ∉ asked es := by
  induction h generalizing k with
  | gone early =>
    rw [looksFrom_gone] at hk ⊢
    cases k with
    | zero => exact ⟨rfl, rfl, by simp⟩
    | succ k => exact nomatch hk
  | @there now es early rest ih =>
    rw [looksFrom_there] at hk ⊢
    cases k with
    | zero => simp at hk
    | succ k =>
      obtain ⟨hlength, hlast, hspared⟩ := ih hk
      exact ⟨by rw [List.length_cons, hlength], by simp [List.getLast?_cons, hlast],
        by simpa using hspared⟩
  | due late answer => exact nomatch hk

/-- Before the deadline there is one more interval, and one fewer behind it. -/
theorem intervals_left {n : Nat} (early : now < deadline) (hn : deadline = now + n * pollInterval) :
    ∃ m, n = m + 1 ∧ deadline = now + pollInterval + m * pollInterval := by
  cases n with
  | zero => omega
  | succ m => exact ⟨m, rfl, by rw [hn, Nat.succ_mul]; omega⟩

/-- A process that every look finds is killed when the deadline has come. -/
theorem Watched.killed (h : Watched pid deadline now es) {n : Nat}
    (hn : deadline = now + n * pollInterval)
    (hfound : ∀ look ∈ looksFrom pid now es, look.2 = true) :
    (looksFrom pid now es).length = n ∧ elapsed es = n * pollInterval ∧
      (asked es).count (.signal pid Signal.kill) = 1 ∧
      ∃ delivered : Delivered, es.getLast? = some ⟨.signal pid Signal.kill, delivered⟩ := by
  induction h generalizing n with
  | gone early =>
    rw [looksFrom_gone] at hfound
    exact absurd (hfound _ (List.mem_singleton_self _)) Bool.false_ne_true
  | @there now es early rest ih =>
    rw [looksFrom_there] at hfound ⊢
    -- each look uses up one of the intervals, so the last of them is the deadline
    obtain ⟨m, rfl, hm⟩ := intervals_left early hn
    obtain ⟨hlength, helapsed, hcount, delivered, hlast⟩ :=
      ih hm fun look hmem => hfound look (List.mem_cons_of_mem _ hmem)
    refine ⟨by rw [List.length_cons, hlength], ?_, ?_, delivered, ?_⟩
    · simp only [elapsed_cons, duration, helapsed, Nat.succ_mul]
      omega
    · simpa using hcount
    · simp [List.getLast?_cons, hlast]
  | due late answer =>
    rw [looksFrom_due]
    obtain rfl : n = 0 := by
      cases n with
      | zero => rfl
      | succ m =>
        unfold pollInterval at hn
        omega
    exact ⟨rfl, by simp [duration], by simp, _, rfl⟩

/-- Watching ends with the deadline at the latest, as only pauses take time and each is one
interval. -/
theorem Watched.inTime (h : Watched pid deadline now es) {n : Nat}
    (hn : deadline = now + n * pollInterval) : elapsed es ≤ n * pollInterval := by
  induction h generalizing n with
  | gone early => exact Nat.zero_le _
  | @there now es early rest ih =>
    obtain ⟨m, rfl, hm⟩ := intervals_left early hn
    have hrest := ih hm
    simp only [elapsed_cons, duration, Nat.succ_mul]
    omega
  | due late answer => exact Nat.zero_le _

/-- The process is not found, or it is killed at last; there is no third way to end. -/
theorem Watched.last (h : Watched pid deadline now es) :
    es.getLast? = some ⟨.isThere pid, false⟩ ∨
      ∃ delivered : Delivered, es.getLast? = some ⟨.signal pid Signal.kill, delivered⟩ := by
  induction h with
  | gone early => exact Or.inl rfl
  | there early rest ih =>
    rcases ih with hlast | ⟨delivered, hlast⟩
    · exact Or.inl (by simp [List.getLast?_cons, hlast])
    · exact Or.inr ⟨delivered, by simp [List.getLast?_cons, hlast]⟩
  | @due _ delivered late answer => exact Or.inr ⟨delivered, rfl⟩

/-- No signal is sent but the one that kills the process, and none to a group. Induction on the
rounds. -/
theorem Watched.signals (h : Watched pid deadline now es) :
    (∀ p s, .signal p s ∈ asked es → p = pid ∧ s = Signal.kill) ∧
      ∀ group s, .signalGroup group s ∉ asked es := by
  induction h with
  | gone early => simp
  | there early rest ih => simpa using ih
  | due late answer => simp

/-! ## The whole -/

/-- How a process that was told to leave is stopped. -/
structure StopsInTime (t : Timeline) (es : List Exchange) (outcome : Outcome) : Prop where
  /-- It is told to leave first, and once. -/
  told : ∃ rest, es = ⟨.signal t.pid Signal.terminate, Delivered.sent⟩ :: rest ∧
    .signal t.pid Signal.terminate ∉ asked rest
  /-- It is looked at from the beginning on, with an interval between the looks, until its grace is
  over. -/
  paced : ∀ k look, (t.looks es)[k]? = some look →
    look.1 = t.start + k * pollInterval ∧ look.1 < t.start + singleGrace
  /-- The first look that does not find it is the last thing that is done, and it is not killed. -/
  gone : ∀ k instant, (t.looks es)[k]? = some (instant, false) →
    (t.looks es).length = k + 1 ∧ es.getLast? = some ⟨.isThere t.pid, false⟩ ∧
      .signal t.pid Signal.kill ∉ asked es
  /-- If every look of its grace finds it, it is killed once, when the grace is over, and nothing
  else is done. -/
  stayed : (∀ look ∈ t.looks es, look.2 = true) →
    (t.looks es).length = singleGrace / pollInterval ∧ elapsed es = singleGrace ∧
      (asked es).count (.signal t.pid Signal.kill) = 1 ∧
      ∃ delivered : Delivered, es.getLast? = some ⟨.signal t.pid Signal.kill, delivered⟩
  /-- It takes no longer than the grace. -/
  inTime : elapsed es ≤ singleGrace
  /-- Nobody else is signalled. -/
  alone : (∀ pid s, .signal pid s ∈ asked es → pid = t.pid) ∧
    ∀ group s, .signalGroup group s ∉ asked es
  /-- Stopping it succeeds, also if it has gone just before it is killed. -/
  success : outcome = .success
  /-- And it has gone then, or it has got the signal that kills it. -/
  ended : t.standing es = .gone ∨ ⟨.signal t.pid Signal.kill, Delivered.sent⟩ ∈ es

/-- A process that was not found, or was told to end when it had gone, has gone. -/
theorem ended_of_last (hs : t.Shows [] es)
    (h : es.getLast? = some ⟨.isThere t.pid, false⟩ ∨
      ∃ delivered : Delivered, es.getLast? = some ⟨.signal t.pid Signal.kill, delivered⟩) :
    t.standing es = .gone ∨ ⟨.signal t.pid Signal.kill, Delivered.sent⟩ ∈ es := by
  rcases h with hlast | ⟨delivered, hlast⟩
  · obtain ⟨before, rfl⟩ := List.getLast?_eq_some_iff.mp hlast
    have hgone : false = decide (t.standing ([] ++ before) ≠ .gone) := hs.last rfl
    exact Or.inl (t.gone_stays _ _ (by simpa using hgone))
  · obtain ⟨before, rfl⟩ := List.getLast?_eq_some_iff.mp hlast
    have hgiven : delivered = if t.standing ([] ++ before) = .gone then .nobody else .sent :=
      hs.last rfl
    by_cases hgone : t.standing before = .gone
    · exact Or.inl (t.gone_stays _ _ hgone)
    · rw [List.nil_append, if_neg hgone] at hgiven
      exact Or.inr (by simp [hgiven])

/-- A process that gets the signal to leave is stopped in time. -/
theorem stopsInTime_of_watched
    (h : Watched t.pid (t.start + singleGrace) t.start es)
    (hs : t.Shows [] (⟨.signal t.pid Signal.terminate, Delivered.sent⟩ :: ⟨.now, t.start⟩ :: es)) :
    StopsInTime t (⟨.signal t.pid Signal.terminate, Delivered.sent⟩ :: ⟨.now, t.start⟩ :: es)
      .success := by
  have hwhole : singleGrace / pollInterval * pollInterval = singleGrace := by decide
  have hgrace : t.start + singleGrace = t.start + singleGrace / pollInterval * pollInterval := by
    rw [hwhole]
  -- what was asked before the watching took no time
  have helapsed : elapsed (⟨.signal t.pid Signal.terminate, Delivered.sent⟩ :: ⟨.now, t.start⟩ ::
      es) = elapsed es := by
    simp [duration]
  obtain ⟨hsignals, hgroups⟩ := h.signals
  refine ⟨⟨_, rfl, ?_⟩, fun k look hk => h.paced hk, fun k instant hk => ?_, fun hfound => ?_, ?_,
    ⟨fun pid s hmem => ?_, ?_⟩, rfl, ended_of_last hs ?_⟩
  · intro hmem
    rcases List.mem_cons.mp hmem with heq | hmem
    · exact nomatch heq
    · exact absurd (hsignals _ _ hmem).2 (by decide)
  · obtain ⟨hlength, hlast, hspared⟩ := h.gone_last hk
    refine ⟨hlength, by simp [List.getLast?_cons, hlast], ?_⟩
    simpa [Signal.terminate, Signal.kill] using hspared
  · obtain ⟨hlength, htime, hcount, delivered, hlast⟩ := h.killed hgrace hfound
    refine ⟨hlength, helapsed.trans (htime.trans hwhole), ?_, delivered,
      by simp [List.getLast?_cons, hlast]⟩
    simpa [Signal.terminate, Signal.kill] using hcount
  · rw [helapsed]
    exact Nat.le_trans (h.inTime hgrace) (Nat.le_of_eq hwhole)
  · rcases List.mem_cons.mp hmem with heq | hmem
    · exact (Call.signal.inj heq).1
    rcases List.mem_cons.mp hmem with heq | hmem
    · exact nomatch heq
    · exact (hsignals _ _ hmem).1
  · simpa using hgroups
  · rcases h.last with hlast | ⟨delivered, hlast⟩
    · exact Or.inl (by simp [List.getLast?_cons, hlast])
    · exact Or.inr ⟨delivered, by simp [List.getLast?_cons, hlast]⟩

/-- Stopping a process by its number comes to an end, whatever the process does: at once if there is
none, and otherwise when the watch ends. -/
theorem stopPid_returns (t : Timeline) :
    ∃ es outcome, (stopPid t.pid).Runs es outcome ∧ t.Shows [] es := by
  by_cases hgone : t.standing [] = .gone
  · exact ⟨[⟨.signal t.pid Signal.terminate, Delivered.nobody⟩], .notFound, .ask (.done _),
      .cons (fun _ => by rw [if_pos hgone]) (.nil _)⟩
  · obtain ⟨es, outcome, hruns, hshows⟩ := watch_returns t
      [⟨.signal t.pid Signal.terminate, Delivered.sent⟩, ⟨.now, t.start⟩] (t.start + singleGrace)
      (singleGrace / pollInterval + 1)
    exact ⟨⟨.signal t.pid Signal.terminate, Delivered.sent⟩ :: ⟨.now, t.start⟩ :: es, outcome,
      .ask (.ask hruns), .cons (fun _ => by rw [if_neg hgone]) (.cons rfl hshows)⟩

/-- Stopping a single process comes to an end, whenever the process goes. One that is not there gets
no signal and is reported as not found. One that got the signal to leave is stopped in time. -/
theorem stops_in_time (t : Timeline) :
    (∃ es outcome, (stopPid t.pid).Runs es outcome ∧ t.Shows [] es) ∧
    ∀ es outcome, (stopPid t.pid).Runs es outcome → t.Shows [] es →
      (t.standing [] = .gone →
        es = [⟨.signal t.pid Signal.terminate, Delivered.nobody⟩] ∧ outcome = .notFound) ∧
      (t.standing [] ≠ .gone → StopsInTime t es outcome) := by
  refine ⟨stopPid_returns t, fun es outcome hruns hshows => ?_⟩
  obtain ⟨delivered, rest, rfl, htold⟩ := Plan.runs_ask.mp hruns
  have hgiven : delivered = if t.standing [] = .gone then .nobody else .sent :=
    (Timeline.shows_cons.mp hshows).1 rfl
  constructor
  · intro hgone
    obtain rfl : delivered = .nobody := by rw [hgiven, if_pos hgone]
    obtain ⟨rfl, rfl⟩ := Plan.runs_done.mp htold
    exact ⟨rfl, rfl⟩
  · intro hthere
    obtain rfl : delivered = .sent := by rw [hgiven, if_neg hthere]
    obtain ⟨instant, rest, rfl, hwatch⟩ := Plan.runs_ask.mp htold
    obtain ⟨hclock, hrest⟩ := Timeline.shows_cons.mp (Timeline.shows_cons.mp hshows).2
    obtain rfl : t.start = instant := hclock.symm
    have hnow : t.start = t.start + elapsed
      [⟨.signal t.pid Signal.terminate, Delivered.sent⟩, ⟨.now, t.start⟩] := rfl
    obtain ⟨rfl, hwatched⟩ := watched_of_runs hwatch hrest hnow (by decide)
      (by unfold singleGrace pollInterval; omega)
    exact stopsInTime_of_watched hwatched hshows

/-- So the manager stops a process. -/
example (pid : Pid) : manager.carryOut (.stopPid pid) = stopPid pid := rfl

/-- A process that ignores the signal to leave and ends by itself after forty milliseconds. -/
def leaver : Timeline where
  pid := 42
  start := 7
  standing past := if elapsed past < 40 then .running else .gone
  zombie_stays past x h := by split at h <;> exact nomatch h
  gone_stays past x h := by
    rw [elapsed_append]
    split at h
    · exact nomatch h
    · exact if_neg (by omega)

/-- The third look does not find it, so it stopped within its grace and no force was needed. -/
theorem leaver_stops_in_time :
    leaver.standing [] ≠ .gone ∧ StopsInTime leaver
      [⟨.signal 42 Signal.terminate, Delivered.sent⟩, ⟨.now, (7 : Nat)⟩, ⟨.now, (7 : Nat)⟩,
        ⟨.isThere 42, true⟩, ⟨.sleep 25, ()⟩, ⟨.now, (32 : Nat)⟩, ⟨.isThere 42, true⟩,
        ⟨.sleep 25, ()⟩, ⟨.now, (57 : Nat)⟩, ⟨.isThere 42, false⟩] .success := by
  have hthere : leaver.standing [] ≠ .gone := by decide
  refine ⟨hthere, ((stops_in_time leaver).2 _ _ ?_ ?_).2 hthere⟩
  · exact .ask (.ask (.ask (.ask (.ask (.ask (.ask (.ask (.ask (.ask (.done _))))))))))
  · exact .cons (fun _ => rfl) (.cons rfl (.cons rfl (.cons (fun _ => rfl) (.cons trivial
      (.cons rfl (.cons (fun _ => rfl) (.cons trivial (.cons rfl (.cons (fun _ => rfl)
        (.nil _))))))))))

end Platform.Unix
end KernelLink
