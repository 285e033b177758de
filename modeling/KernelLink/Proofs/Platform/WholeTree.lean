import KernelLink.Platform.Unix
import KernelLink.Platform.Windows
import KernelLink.Proofs.Control.Terminating
import KernelLink.Proofs.Platform.Lineage
/-!
# A process is stopped after all below it

A process is terminated with its descendants by looking at the process table once, stopping the
descendants, each after its own descendants, and stopping the process itself last. If the table
cannot be looked at, nobody is stopped. On both platforms the search is the same; it comes to an end
exactly if it meets no process that is its own ancestor.

Main definition:
* `StopsTree`: how a process is stopped with its descendants.

Main results:
* `Control.runs_terminateTree`: the exchanges of the plan.
* `runs_findDescendants`, `search_returns_iff`: the search in the process table.
* `leaves_stopped_first`: a process table without cycles on either platform.
-/
namespace KernelLink

open Plan (asked)

namespace Control

variable {root : Pid} {es : List Exchange} {outcome : Outcome}

/-- What stopping a list of processes and one more asks, and what comes of it. -/
theorem runs_sweep_root {pids : List Pid} :
    ((sweep pids).bind fun _ => .ask (.stopPid root) .done : Routine Outcome).Runs es outcome ↔
      asked es = (pids ++ [root]).map .stopPid ∧ es.getLast? = some ⟨.stopPid root, outcome⟩ := by
  rw [Plan.runs_bind, List.map_append]
  constructor
  · rintro ⟨swept, _, rest, rfl, hswept, hr⟩
    obtain ⟨given, last, rfl, hl⟩ := Plan.runs_ask.mp hr
    obtain ⟨rfl, rfl⟩ := Plan.runs_done.mp hl
    rw [Plan.asked_append, runs_sweep.mp hswept, List.getLast?_concat]
    exact ⟨rfl, rfl⟩
  · rintro ⟨hasked, hlast⟩
    obtain ⟨swept, last, rfl, hswept, hl⟩ := List.map_eq_append_iff.mp hasked
    obtain ⟨given, rest, rfl, hrest⟩ := Plan.asked_eq_cons.mp hl
    obtain rfl := Plan.asked_eq_nil.mp hrest
    rw [List.getLast?_concat] at hlast
    obtain rfl : given = outcome := by simpa using hlast
    exact ⟨swept, (), _, rfl, runs_sweep.mpr hswept, .ask (.done _)⟩

/-- If the descendants cannot be enumerated, nobody is stopped. Otherwise they are stopped in the
order in which they were found, and the process itself last. -/
theorem runs_terminateTree :
    (terminateTree root).Runs es outcome ↔
      (∃ cause : Chain, es = [⟨.findDescendants root, .error cause⟩] ∧
        outcome = .failed ("Failed to enumerate children: " ++ cause.outer)) ∨
      ∃ (pids : List Pid) (stops : List Exchange),
        es = ⟨.findDescendants root, .ok pids⟩ :: stops ∧
        asked stops = (pids ++ [root]).map .stopPid ∧
        stops.getLast? = some ⟨.stopPid root, outcome⟩ := by
  unfold terminateTree
  rw [Plan.runs_ask]
  constructor
  · rintro ⟨found, rest, rfl, hr⟩
    cases found with
    | error cause =>
      obtain ⟨rfl, rfl⟩ := Plan.runs_done.mp hr
      exact Or.inl ⟨cause, rfl, rfl⟩
    | ok pids => exact Or.inr ⟨pids, rest, rfl, runs_sweep_root.mp hr⟩
  · rintro (⟨cause, rfl, rfl⟩ | ⟨pids, stops, rfl, hstops⟩)
    · exact ⟨.error cause, [], rfl, .done _⟩
    · exact ⟨.ok pids, stops, rfl, runs_sweep_root.mpr hstops⟩

end Control

namespace Platform

open Control (Pid Outcome)

variable {t : Table} {root : Pid} {pids : List Pid} {es : List (Plan.Exchange Call.Answer)}
  {found : Except Chain (List Pid)} {outcome : Outcome} {m : Manager} {depth : Nat}

/-! ## The search in the process table -/

/-- The table is looked at once, and the search returns if it ends. -/
theorem runs_findDescendants :
    (findDescendants root).Runs es found ↔
      (es = [⟨.table, (none : Option Table)⟩] ∧ found = .error poisoned) ∨
      ∃ t depth pids, es = [⟨.table, some t⟩] ∧ t.descendants depth root = some pids ∧
        found = .ok pids := by
  unfold findDescendants
  rw [Plan.runs_ask]
  constructor
  · rintro ⟨table, rest, rfl, hr⟩
    cases table with
    | none =>
      obtain ⟨rfl, rfl⟩ := Plan.runs_done.mp hr
      exact Or.inl ⟨rfl, rfl⟩
    | some t =>
      cases h : t.descendants (t.length + 1) root with
      | some pids =>
        simp only [h] at hr
        obtain ⟨rfl, rfl⟩ := Plan.runs_done.mp hr
        exact Or.inr ⟨t, _, pids, rfl, h, rfl⟩
      | none =>
        simp only [h] at hr
        -- the search that goes round in circles asks what has no answer
        obtain ⟨answer, -⟩ := Plan.runs_ask.mp hr
        exact nomatch answer
  · rintro (⟨rfl, rfl⟩ | ⟨t, depth, pids, rfl, h, rfl⟩)
    · exact ⟨none, [], rfl, .done _⟩
    · refine ⟨some t, [], rfl, ?_⟩
      simp only [Table.descendants_eq_some_iff.mpr ⟨depth, h⟩]
      exact .done _

/-- The search in a table returns exactly if it meets no process that is its own ancestor. -/
theorem search_returns_iff :
    (∃ es found, (findDescendants root).Runs (⟨.table, some t⟩ :: es) found) ↔
      ∀ p, p = root ∨ t.Above root p → ¬ t.Above p p := by
  rw [← Table.ends_iff]
  constructor
  · rintro ⟨es, found, h⟩
    rcases runs_findDescendants.mp h with ⟨heq, -⟩ | ⟨t', depth, pids, heq, hsearch, -⟩
    · simp at heq
    · obtain ⟨rfl, -⟩ : t = t' ∧ es = [] := by simpa using heq
      exact ⟨depth, pids, hsearch⟩
  · rintro ⟨depth, pids, hsearch⟩
    exact ⟨[], .ok pids, runs_findDescendants.mpr (Or.inr ⟨t, depth, pids, rfl, hsearch, rfl⟩)⟩

/-- A search asks for the table and for nothing else, unless the search in it does not end. -/
theorem runs_search_table {table : Option Table} :
    (findDescendants root).Runs (⟨.table, table⟩ :: es) found ↔
      es = [] ∧ (findDescendants root).Runs [⟨.table, table⟩] found := by
  constructor
  · intro h
    have hone : es = [] := by
      rcases runs_findDescendants.mp h with ⟨heq, -⟩ | ⟨t, depth, pids, heq, -⟩
      · exact (List.cons.inj heq).2
      · exact (List.cons.inj heq).2
    rw [hone] at h
    exact ⟨hone, h⟩
  · rintro ⟨rfl, h⟩
    exact h

/-- A search that gets no table fails, as the lock of the table is poisoned. -/
theorem runs_search_unseen :
    (findDescendants root).Runs [⟨.table, (none : Option Table)⟩] found ↔
      found = .error poisoned := by
  rw [runs_findDescendants]
  simp

/-- In a table without cycles the search finds the descendants, all of them and in the order of the
table. -/
theorem runs_search_seen (hsearch : t.descendants depth root = some pids) :
    (findDescendants root).Runs [⟨.table, some t⟩] found ↔ found = .ok pids := by
  rw [runs_findDescendants]
  constructor
  · rintro (⟨heq, -⟩ | ⟨t', depth', pids', heq, hsearch', rfl⟩)
    · simp at heq
    · obtain rfl : t = t' := by simpa using heq
      have hends := Table.descendants_eq_some_iff.mpr ⟨depth, hsearch⟩
      rw [Table.descendants_eq_some_iff.mpr ⟨depth', hsearch'⟩] at hends
      rw [Option.some.inj hends]
  · rintro rfl
    exact Or.inr ⟨t, depth, pids, rfl, hsearch, rfl⟩

/-- Both platforms search in the same way, so what is proved of the search holds of both. -/
theorem carryOut_findDescendants (hm : m = Unix.manager ∨ m = Windows.manager) :
    m.carryOut (.findDescendants root) = findDescendants root := by
  rcases hm with rfl | rfl <;> rfl

/-! ## The whole tree -/

/-- The answer to the look at the table decides what is stopped. -/
theorem runs_tree {table : Option Table}
    (hm : m.carryOut (.findDescendants root) = findDescendants root) :
    (m.onPlatform (Control.terminateTree root)).Runs (⟨.table, table⟩ :: es) outcome ↔
      ∃ found stops, (findDescendants root).Runs [⟨.table, table⟩] found ∧
        (Control.terminateTree root).Runs (⟨.findDescendants root, found⟩ :: stops) outcome ∧
        Plan.Carried m.carryOut stops es := by
  unfold Manager.onPlatform
  rw [Plan.runs_refine]
  constructor
  · rintro ⟨xs, hxs, hcarried⟩
    obtain ⟨found, stops, rfl⟩ : ∃ found stops, xs = ⟨.findDescendants root, found⟩ :: stops := by
      obtain ⟨found, rest, rfl, -⟩ := Plan.runs_ask.mp hxs
      exact ⟨found, rest, rfl⟩
    obtain ⟨one, more, heq, hone, hmore⟩ := Plan.carried_cons.mp hcarried
    rw [hm] at hone
    rcases List.cons_eq_append_iff.mp heq with ⟨rfl, -⟩ | ⟨rest, rfl, rfl⟩
    · rcases runs_findDescendants.mp hone with ⟨hnil, -⟩ | ⟨_, _, _, hnil, -⟩
      · exact nomatch hnil
      · exact nomatch hnil
    · obtain ⟨rfl, hone⟩ := runs_search_table.mp hone
      exact ⟨found, stops, hone, hxs, hmore⟩
  · rintro ⟨found, stops, hone, hxs, hmore⟩
    rw [← hm] at hone
    exact ⟨_, hxs, .cons hone hmore⟩

/-- How the process `root` is stopped with its descendants `pids`, as the process table `t` shows
them. -/
structure StopsTree (m : Manager) (t : Table) (root : Pid) (pids : List Pid) : Prop where
  /-- These are its descendants, each once and after its own. -/
  leavesFirst : t.LeavesFirst root pids
  /-- The search looks at the table once and returns them. -/
  found : ∀ es found, (m.carryOut (.findDescendants root)).Runs (⟨.table, some t⟩ :: es) found ↔
    es = [] ∧ found = .ok pids
  /-- With the process itself at the end, nobody is listed twice. -/
  nodup : (pids ++ [root]).Nodup
  /-- Each is listed behind all that are below it. -/
  order : ∀ p ∈ pids ++ [root], ∀ q, t.Above p q → [q, p].Sublist (pids ++ [root])
  /-- All are stopped in this order, whatever the answers are, and what stopping the process itself
  gave is returned. -/
  stopped : ∀ es outcome,
    (m.onPlatform (Control.terminateTree root)).Runs (⟨.table, some t⟩ :: es) outcome ↔
      ∃ stops, asked stops = (pids ++ [root]).map .stopPid ∧
        stops.getLast? = some ⟨.stopPid root, outcome⟩ ∧ Plan.Carried m.carryOut stops es
  /-- If the table cannot be looked at, nothing more is done. -/
  unseen : ∀ es outcome,
    (m.onPlatform (Control.terminateTree root)).Runs (⟨.table, (none : Option Table)⟩ :: es)
        outcome ↔
      es = [] ∧ outcome = .failed "Failed to enumerate children: process table lock poisoned"
  /-- Whoever searches, after a search that failed nobody is stopped. -/
  unfound : ∀ cause stops outcome,
    (Control.terminateTree root).Runs (⟨.findDescendants root, .error cause⟩ :: stops) outcome ↔
      stops = [] ∧ outcome = .failed ("Failed to enumerate children: " ++ cause.outer)

/-- If the search has failed, nobody is stopped and the failure is told. -/
theorem runs_unfound {cause : Chain} {stops : List Control.Exchange} :
    (Control.terminateTree root).Runs (⟨.findDescendants root, .error cause⟩ :: stops) outcome ↔
      stops = [] ∧ outcome = .failed ("Failed to enumerate children: " ++ cause.outer) := by
  rw [Control.runs_terminateTree]
  simp

/-- If it has found the descendants, each of them is stopped and then the root, and what stopping
the root gave is what is given. -/
theorem runs_found {stops : List Control.Exchange} :
    (Control.terminateTree root).Runs (⟨.findDescendants root, .ok pids⟩ :: stops) outcome ↔
      asked stops = (pids ++ [root]).map .stopPid ∧
        stops.getLast? = some ⟨.stopPid root, outcome⟩ := by
  rw [Control.runs_terminateTree]
  simp

/-- The same for the calls of a platform, where the search has seen a table and has come to an end
in it. -/
theorem runs_tree_seen (hm : m.carryOut (.findDescendants root) = findDescendants root)
    (hsearch : t.descendants depth root = some pids) :
    (m.onPlatform (Control.terminateTree root)).Runs (⟨.table, some t⟩ :: es) outcome ↔
      ∃ stops, asked stops = (pids ++ [root]).map .stopPid ∧
        stops.getLast? = some ⟨.stopPid root, outcome⟩ ∧ Plan.Carried m.carryOut stops es := by
  rw [runs_tree hm]
  constructor
  · rintro ⟨found, stops, hone, hruns, hcarried⟩
    obtain rfl := (runs_search_seen hsearch).mp hone
    obtain ⟨hasked, hlast⟩ := runs_found.mp hruns
    exact ⟨stops, hasked, hlast, hcarried⟩
  · rintro ⟨stops, hasked, hlast, hcarried⟩
    exact ⟨.ok pids, stops, (runs_search_seen hsearch).mpr rfl, runs_found.mpr ⟨hasked, hlast⟩,
      hcarried⟩

theorem runs_tree_unseen (hm : m.carryOut (.findDescendants root) = findDescendants root) :
    (m.onPlatform (Control.terminateTree root)).Runs (⟨.table, (none : Option Table)⟩ :: es)
        outcome ↔
      es = [] ∧ outcome = .failed "Failed to enumerate children: process table lock poisoned" := by
  rw [runs_tree hm]
  constructor
  · rintro ⟨found, stops, hone, hruns, hcarried⟩
    obtain rfl := runs_search_unseen.mp hone
    obtain ⟨rfl, rfl⟩ := runs_unfound.mp hruns
    cases hcarried
    exact ⟨rfl, rfl⟩
  · rintro ⟨rfl, rfl⟩
    exact ⟨.error poisoned, [], runs_search_unseen.mpr rfl, runs_unfound.mpr ⟨rfl, rfl⟩, .nil⟩

/-- In a process table without cycles, a process is stopped with all its descendants, each once and
after all that are below it. -/
theorem leaves_stopped_first (distinct : t.Distinct) (acyclic : t.Acyclic) (root : Pid)
    (hm : m = Unix.manager ∨ m = Windows.manager) : ∃ pids, StopsTree m t root pids := by
  have hsame : m.carryOut (.findDescendants root) = findDescendants root :=
    carryOut_findDescendants hm
  obtain ⟨pids, hsearch⟩ := Table.descendants_isSome fun p (_ : t.Above root p) => acyclic p
  have hleaves : t.LeavesFirst root pids := Table.leavesFirst distinct hsearch
  obtain ⟨hnodup, horder⟩ := hleaves.concat (acyclic root)
  refine ⟨pids, hleaves, fun es found => ?_, hnodup, horder, fun es outcome => ?_,
    fun es outcome => ?_, fun cause stops outcome => runs_unfound⟩
  · rw [hsame, runs_search_table, runs_search_seen hsearch]
  · exact runs_tree_seen hsame hsearch
  · exact runs_tree_unseen hsame

/-- Where processes lead groups, the manager itself terminates a tree in this way. -/
example : Unix.manager.terminateTree root = Unix.manager.onPlatform (Control.terminateTree root) :=
  rfl

/-- Two shells, one below the other, in a table that is in no order. -/
def shells : Table :=
  [(43, some 42), (7, some 1), (45, some 43), (44, some 42), (1, none), (42, some 7)]

/-- What is below them is stopped first: the shell in the middle after its own child, and both
children before the root. -/
theorem shells_stopped_first :
    shells.Distinct ∧ shells.Acyclic ∧ StopsTree Unix.manager shells 42 [45, 43, 44] := by
  have distinct : shells.Distinct := by
    unfold Table.Distinct
    decide
  have acyclic : shells.Acyclic := by
    refine Table.acyclic_of_lt ?_
    intro p c hc
    have hlater : ∀ entry ∈ shells, entry.2.all (· < entry.1) = true := by decide
    simpa using hlater _ hc
  obtain ⟨pids, h⟩ := leaves_stopped_first distinct acyclic 42 (Or.inl rfl)
  have hsearch : shells.descendants 3 42 = some [45, 43, 44] := by decide
  obtain ⟨-, hpids⟩ := (h.found [] (.ok [45, 43, 44])).mp ((runs_search_seen hsearch).mpr rfl)
  rw [← Except.ok.inj hpids] at h
  exact ⟨distinct, acyclic, h⟩

end Platform
end KernelLink
