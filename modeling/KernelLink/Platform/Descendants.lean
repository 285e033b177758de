import KernelLink.Control.Routine
/-!
# The descendants of a process

A process table says which processes there are and who their parents are. The search goes down from
a process, so it ends only if no process is among its own ancestors; how deep it may go is part of
the question.

Main definitions:
* `Table`: a process table.
* `Table.descendants`: the processes below one, each after all that are below it.
-/
namespace KernelLink.Platform

open Control (Pid)

/-- A process table: the processes with their parents, if they have one, in any order. -/
abbrev Table := List (Pid × Option Pid)

namespace Table

/-- The children of a process, in the order of the table. -/
def children (t : Table) (parent : Pid) : List Pid :=
  (t.filter fun entry => entry.2 == some parent).map (·.1)

/-- What lies below each of some processes, each process after what lies below it; `none` if the
search does not end for one of them. -/
def below (search : Pid → Option (List Pid)) : List Pid → Option (List Pid)
  | [] => some []
  | child :: rest =>
    match search child, below search rest with
    | some under, some others => some (under ++ child :: others)
    | _, _ => none

/-- The processes below `parent`, each after all that are below it; `none` if the search would go
deeper than `depth`. -/
def descendants (t : Table) : (depth : Nat) → (parent : Pid) → Option (List Pid)
  | 0, _ => none
  | depth + 1, parent => below (t.descendants depth) (t.children parent)

end Table
end KernelLink.Platform
