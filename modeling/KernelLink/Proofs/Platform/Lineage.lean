import KernelLink.Platform.Descendants
import Mathlib.Data.List.Chain
import Mathlib.Data.List.Nodup
import Mathlib.Data.List.Perm.Subperm
import Mathlib.Logic.Relation
/-!
# The lines of a process table

A process table gives each process at most one parent, so the ancestors of a process stand in a
line. The search for descendants follows all lines downwards. It ends exactly if no line comes back
to a process, and then each descendant is found once, after all that are below it.

Main definitions:
* `Table.IsParent`, `Table.Above`: parents and ancestors.
* `Table.Distinct`, `Table.Acyclic`: each process is listed once, and none is its own ancestor.
* `Table.LeavesFirst`: the descendants of a process, each once and after its own.

Main results:
* `Table.ends_iff`: when the search ends.
* `Table.descendants_deeper`, `Table.descendants_eq_some_iff`: how deep it may go makes no
  difference then.
* `Table.leavesFirst`: what it finds.
-/
namespace KernelLink.Platform.Table

open Control (Pid)
open Relation (ReflTransGen TransGen)

variable {t : Table} {p q c d root : Pid} {cs pids : List Pid} {depth : Nat}
  {search : Pid → Option (List Pid)}

/-! ## Parents and ancestors -/

/-- `p` is the parent of `q`. -/
def IsParent (t : Table) (p q : Pid) : Prop := (q, some p) ∈ t

/-- `p` is among the ancestors of `q`. -/
def Above (t : Table) : Pid → Pid → Prop := TransGen t.IsParent

instance : IsTrans Pid t.Above := inferInstanceAs (IsTrans Pid (TransGen t.IsParent))

/-- Each process is listed once. -/
def Distinct (t : Table) : Prop := (t.map (·.1)).Nodup

/-- No process is among its own ancestors. -/
def Acyclic (t : Table) : Prop := ∀ p, ¬ t.Above p p

/-- The children of a process are those that have it for a parent. -/
theorem mem_children : c ∈ t.children p ↔ t.IsParent p c := by
  unfold children IsParent
  simp

/-- The descendants of a process are its children and their descendants; this is the way in which
the search goes. -/
theorem above_iff : t.Above p q ↔ ∃ c ∈ t.children p, q = c ∨ t.Above c q := by
  unfold Above
  rw [TransGen.head'_iff]
  simp only [mem_children, Relation.reflTransGen_iff_eq_or_transGen]

/-- Whoever is below somebody is listed, as the last step of the way down is an entry. -/
theorem Above.listed (h : t.Above p q) : q ∈ t.map (·.1) := by
  obtain ⟨parent, -, hparent⟩ := TransGen.tail'_iff.mp h
  exact List.mem_map_of_mem (f := Prod.fst) hparent

/-- If every process has a higher number than its parent, none is its own ancestor. -/
theorem acyclic_of_lt (h : ∀ p c, t.IsParent p c → p < c) : t.Acyclic := by
  intro p hcycle
  have hlt : ∀ q, t.Above p q → p < q := by
    intro q hq
    induction hq with
    | single hc => exact h _ _ hc
    | tail _ hc ih => exact Nat.lt_trans ih (h _ _ hc)
  exact Nat.lt_irrefl p (hlt p hcycle)

theorem Distinct.nodup_children (h : t.Distinct) : (t.children p).Nodup :=
  (List.filter_sublist.map Prod.fst).nodup h

theorem Distinct.parent_unique (h : t.Distinct) (hp : t.IsParent p c) (hq : t.IsParent q c) :
    p = q := by
  have hentry := List.inj_on_of_nodup_map h hp hq rfl
  exact Option.some.inj (Prod.mk.inj hentry).2

/-- The ancestors of a process stand in a line, as each process has one parent. -/
theorem Distinct.line (h : t.Distinct) (hp : ReflTransGen t.IsParent p c)
    (hq : ReflTransGen t.IsParent q c) :
    ReflTransGen t.IsParent p q ∨ ReflTransGen t.IsParent q p := by
  have hunique : Relator.RightUnique (Function.swap t.IsParent) :=
    fun _ _ _ hb hd => h.parent_unique hb hd
  have hline := ReflTransGen.total_of_right_unique hunique
    (Relation.reflTransGen_swap.mpr hp) (Relation.reflTransGen_swap.mpr hq)
  exact hline.symm.imp Relation.reflTransGen_swap.mp Relation.reflTransGen_swap.mp

/-- A process is not below another child of its parent, or that parent would be below itself. -/
theorem Distinct.not_below_sibling (h : t.Distinct) (hroot : ¬ t.Above root root)
    (hc : t.IsParent root c) (hd : t.IsParent root d) (hne : c ≠ d) :
    ¬ ReflTransGen t.IsParent c d := by
  intro hbelow
  rcases Relation.reflTransGen_iff_eq_or_transGen.mp hbelow with heq | habove
  · exact hne heq.symm
  · -- the parent of `d` is below `c`, and it is the root
    obtain ⟨parent, hparent, hpd⟩ := TransGen.tail'_iff.mp habove
    rw [h.parent_unique hpd hd] at hparent
    exact hroot (TransGen.head' hc hparent)

/-- Nothing is below two children of one process: its ancestors stand in a line, so one child would
be below the other. -/
theorem Distinct.siblings_apart (h : t.Distinct) (hroot : ¬ t.Above root root)
    (hc : t.IsParent root c) (hd : t.IsParent root d) (hne : c ≠ d)
    (hcp : ReflTransGen t.IsParent c p) : ¬ ReflTransGen t.IsParent d p := by
  intro hdp
  rcases h.line hcp hdp with hcd | hdc
  · exact h.not_below_sibling hroot hc hd hne hcd
  · exact h.not_below_sibling hroot hd hc hne.symm hdc

/-! ## The search goes down -/

/-- The search below several processes gives what is below the first, the first itself, and then the
same for the others. -/
theorem below_cons_eq_some :
    below search (c :: cs) = some pids ↔ ∃ under others, search c = some under ∧
      below search cs = some others ∧ pids = under ++ c :: others := by
  rw [below]
  cases search c with
  | none => simp
  | some under =>
    cases below search cs with
    | none => simp
    | some others => simp [eq_comm]

/-- If such a search finds no end, it finds none below one of the processes. -/
theorem below_eq_none (h : below search cs = none) : ∃ c ∈ cs, search c = none := by
  induction cs with
  | nil => exact nomatch h
  | cons c cs ih =>
    cases hc : search c with
    | none => exact ⟨c, List.mem_cons_self, hc⟩
    | some under =>
      cases hcs : below search cs with
      | none =>
        obtain ⟨other, hmem, hother⟩ := ih hcs
        exact ⟨other, List.mem_cons_of_mem c hmem, hother⟩
      | some others =>
        have hsome := below_cons_eq_some.mpr ⟨under, others, hc, hcs, rfl⟩
        exact nomatch h.symm.trans hsome

theorem search_of_below (h : below search cs = some pids) (hc : c ∈ cs) :
    ∃ under, search c = some under := by
  induction cs generalizing pids with
  | nil => exact nomatch hc
  | cons first cs ih =>
    obtain ⟨under, others, hfirst, hothers, -⟩ := below_cons_eq_some.mp h
    rcases List.mem_cons.mp hc with rfl | hmem
    · exact ⟨under, hfirst⟩
    · exact ih hothers hmem

theorem below_mono {search' : Pid → Option (List Pid)}
    (hs : ∀ c under, search c = some under → search' c = some under)
    (h : below search cs = some pids) : below search' cs = some pids := by
  induction cs generalizing pids with
  | nil => exact h
  | cons c cs ih =>
    obtain ⟨under, others, hc, hothers, rfl⟩ := below_cons_eq_some.mp h
    exact below_cons_eq_some.mpr ⟨under, others, hs c under hc, ih hothers, rfl⟩

/-- What was found is found as well by a search that may go deeper. -/
theorem descendants_deeper {deeper : Nat} (h : t.descendants depth p = some pids)
    (hle : depth ≤ deeper) : t.descendants deeper p = some pids := by
  induction depth generalizing p pids deeper with
  | zero => exact nomatch h
  | succ depth ih =>
    cases deeper with
    | zero => exact absurd hle (Nat.not_succ_le_zero depth)
    | succ deeper =>
      have hle' : depth ≤ deeper := Nat.le_of_succ_le_succ hle
      exact below_mono (fun c under hc => ih hc hle') h

/-! ## The search ends -/

/-- Where the search ended, it ended earlier at a child, with one step of depth less. -/
theorem descendants_child (h : t.descendants depth p = some pids) (hc : t.IsParent p c) :
    ∃ depth' < depth, ∃ under, t.descendants depth' c = some under := by
  cases depth with
  | zero => exact nomatch h
  | succ depth =>
    exact ⟨depth, Nat.lt_succ_self depth, search_of_below h (mem_children.mpr hc)⟩

/-- Where the search below a process ends it ends below all its descendants, with less depth to
spare for each step down. Induction on the way down. -/
theorem descendants_above (h : t.descendants depth p = some pids) (hq : t.Above p q) :
    ∃ depth' < depth, ∃ under, t.descendants depth' q = some under := by
  induction hq with
  | single hc => exact descendants_child h hc
  | tail _ hc ih =>
    obtain ⟨between, hless, under, hunder⟩ := ih
    obtain ⟨depth', hless', under', hunder'⟩ := descendants_child hunder hc
    exact ⟨depth', Nat.lt_trans hless' hless, under', hunder'⟩

/-- The search does not end at a process that is its own ancestor: it comes back to it with less
depth left. -/
theorem not_above_self (h : t.descendants depth p = some pids) : ¬ t.Above p p := by
  intro hcycle
  induction depth using Nat.strong_induction_on generalizing pids with
  | h depth ih =>
    obtain ⟨depth', hless, under, hunder⟩ := descendants_above h hcycle
    exact ih depth' hless hunder

/-- A search that is not allowed to go deeper met a line of so many generations. -/
theorem exists_line (h : t.descendants depth root = none) :
    ∃ line : List Pid, line.length = depth ∧ (root :: line).IsChain t.IsParent := by
  induction depth generalizing root with
  | zero => exact ⟨[], rfl, .singleton root⟩
  | succ depth ih =>
    obtain ⟨c, hc, hnone⟩ := below_eq_none h
    obtain ⟨line, rfl, hline⟩ := ih hnone
    exact ⟨c :: line, rfl, .cons_cons (mem_children.mp hc) hline⟩

/-- A line that does not come back to a process is no longer than the table. -/
theorem length_line_le {line : List Pid} (hline : (root :: line).IsChain t.IsParent)
    (hnone : ∀ p, t.Above root p → ¬ t.Above p p) : line.length ≤ t.length := by
  have habove : (root :: line).Pairwise t.Above := by
    have hsingle : (root :: line).IsChain t.Above := hline.imp fun _ _ => TransGen.single
    exact List.isChain_iff_pairwise.mp hsingle
  obtain ⟨hroot, hrest⟩ := List.pairwise_cons.mp habove
  have hnodup : line.Nodup := by
    refine hrest.imp_of_mem ?_
    rintro p q hp - hpq rfl
    exact hnone p (hroot p hp) hpq
  have hlisted : line ⊆ t.map (·.1) := fun p hp => (hroot p hp).listed
  have hle := (hnodup.subperm hlisted).length_le
  rwa [List.length_map] at hle

/-- A search that meets no process that is its own ancestor goes no deeper than the table is
long. -/
theorem descendants_isSome (hnone : ∀ p, t.Above root p → ¬ t.Above p p) :
    ∃ pids, t.descendants (t.length + 1) root = some pids := by
  cases h : t.descendants (t.length + 1) root with
  | some pids => exact ⟨pids, rfl⟩
  | none =>
    obtain ⟨line, hlength, hline⟩ := exists_line h
    have hle := length_line_le hline hnone
    omega

/-- The search ends exactly if it meets no process that is its own ancestor. -/
theorem ends_iff :
    (∃ depth pids, t.descendants depth root = some pids) ↔
      ∀ p, p = root ∨ t.Above root p → ¬ t.Above p p := by
  constructor
  · rintro ⟨depth, pids, h⟩ p (rfl | hp)
    · exact not_above_self h
    · obtain ⟨depth', -, under, hunder⟩ := descendants_above h hp
      exact not_above_self hunder
  · intro hnone
    exact ⟨_, descendants_isSome fun p hp => hnone p (Or.inr hp)⟩

/-- If the search ends, it does so without going deeper than the table is long. -/
theorem descendants_eq_some_iff :
    t.descendants (t.length + 1) root = some pids ↔
      ∃ depth, t.descendants depth root = some pids := by
  constructor
  · exact fun h => ⟨_, h⟩
  · rintro ⟨depth, h⟩
    obtain ⟨others, hothers⟩ := descendants_isSome fun p hp =>
      ends_iff.mp ⟨depth, pids, h⟩ p (Or.inr hp)
    have hdeep := descendants_deeper h (Nat.le_max_left depth (t.length + 1))
    have hdeep' := descendants_deeper hothers (Nat.le_max_right depth (t.length + 1))
    rw [hothers, ← hdeep, hdeep']

/-- A process that is its own parent. -/
example : ¬ ∃ depth pids, descendants [(7, some 7)] depth 7 = some pids := by
  intro h
  exact ends_iff.mp h 7 (Or.inl rfl) (.single List.mem_cons_self)

/-! ## What is found -/

/-- If a search finds the descendants of each process, that below several finds these processes and
their descendants. -/
theorem mem_below (hs : ∀ c under, search c = some under → ∀ p, p ∈ under ↔ t.Above c p)
    (h : below search cs = some pids) : p ∈ pids ↔ ∃ c ∈ cs, p = c ∨ t.Above c p := by
  induction cs generalizing pids with
  | nil =>
    obtain rfl : [] = pids := Option.some.inj h
    simp
  | cons c cs ih =>
    obtain ⟨under, others, hc, hothers, rfl⟩ := below_cons_eq_some.mp h
    rw [List.mem_append, List.mem_cons, hs c under hc, ih hothers, List.exists_mem_cons_iff]
    exact or_left_comm.trans or_assoc.symm

/-- Exactly the descendants are found. Induction on the depth, since a process one step down is
searched with one less. -/
theorem mem_descendants (h : t.descendants depth root = some pids) :
    p ∈ pids ↔ t.Above root p := by
  induction depth generalizing root pids p with
  | zero => exact nomatch h
  | succ depth ih => exact (mem_below (fun c under hc p => ih hc) h).trans above_iff.symm

/-- If each search puts descendants before their ancestors, so does that below several processes:
what is below one of them has all its descendants there. -/
theorem below_order
    (hs : ∀ c under, search c = some under → (∀ p, p ∈ under ↔ t.Above c p) ∧
      ∀ p ∈ under, ∀ q, t.Above p q → [q, p].Sublist under)
    (h : below search cs = some pids) : ∀ p ∈ pids, ∀ q, t.Above p q → [q, p].Sublist pids := by
  induction cs generalizing pids with
  | nil =>
    obtain rfl : [] = pids := Option.some.inj h
    exact fun p hp => nomatch hp
  | cons c cs ih =>
    obtain ⟨under, others, hc, hothers, rfl⟩ := below_cons_eq_some.mp h
    intro p hp q hpq
    rcases List.mem_append.mp hp with hunder | hrest
    · exact ((hs c under hc).2 p hunder q hpq).trans (List.sublist_append_left _ _)
    · rcases List.mem_cons.mp hrest with rfl | hmem
      · -- all that is below a child stands before it
        have hq : q ∈ under := ((hs p under hc).1 q).mpr hpq
        exact (List.singleton_sublist.mpr hq).append (List.singleton_sublist.mpr List.mem_cons_self)
      · have hother := (ih hothers p hmem q hpq).trans (List.sublist_cons_self c others)
        exact hother.trans (List.sublist_append_right _ _)

/-- Every process comes after its own descendants. Induction on the depth, as before. -/
theorem descendants_order (h : t.descendants depth root = some pids) :
    ∀ p ∈ pids, ∀ q, t.Above p q → [q, p].Sublist pids := by
  induction depth generalizing root pids with
  | zero => exact nomatch h
  | succ depth ih =>
    exact below_order (fun c under hc => ⟨fun p => mem_descendants hc, ih hc⟩) h

/-- If each search finds nobody twice, neither does that below several processes, as long as none of
them is below itself and nobody is below two. -/
theorem nodup_below
    (hs : ∀ c under, search c = some under → (∀ p, p ∈ under ↔ t.Above c p) ∧ under.Nodup)
    (hself : ∀ c ∈ cs, ¬ t.Above c c)
    (hapart : cs.Pairwise fun c d => ∀ p,
      ReflTransGen t.IsParent c p → ¬ ReflTransGen t.IsParent d p)
    (h : below search cs = some pids) : pids.Nodup := by
  induction cs generalizing pids with
  | nil =>
    obtain rfl : [] = pids := Option.some.inj h
    exact List.nodup_nil
  | cons c cs ih =>
    obtain ⟨under, others, hc, hothers, rfl⟩ := below_cons_eq_some.mp h
    obtain ⟨hhere, hthere⟩ := List.pairwise_cons.mp hapart
    obtain ⟨hmem, hunder⟩ := hs c under hc
    have hrest : others.Nodup := ih (fun d hd => hself d (List.mem_cons_of_mem c hd)) hthere hothers
    -- what is at or below the first child is not among the rest
    have hfirst : ∀ p, ReflTransGen t.IsParent c p → p ∉ others := by
      intro p hp hother
      obtain ⟨d, hd, hdp⟩ := (mem_below (fun c under hc => (hs c under hc).1) hothers).mp hother
      exact hhere d hd p hp (Relation.reflTransGen_iff_eq_or_transGen.mpr hdp)
    have hchild : c ∉ under := fun hin => hself c List.mem_cons_self ((hmem c).mp hin)
    refine hunder.append (List.nodup_cons.mpr ⟨hfirst c .refl, hrest⟩) ?_
    intro p hp hrest
    rcases List.mem_cons.mp hrest with rfl | hother
    · exact hchild hp
    · exact hfirst p ((hmem p).mp hp).to_reflTransGen hother

/-- No process is found twice, since whoever is below two children of a process would have two
parents on the way up. -/
theorem nodup_descendants (distinct : t.Distinct) (h : t.descendants depth root = some pids) :
    pids.Nodup := by
  induction depth generalizing root pids with
  | zero => exact nomatch h
  | succ depth ih =>
    have hroot := not_above_self h
    refine nodup_below (fun c under hc => ⟨fun p => mem_descendants hc, ih hc⟩) ?_ ?_ h
    · intro c hc
      obtain ⟨under, hunder⟩ := search_of_below h hc
      exact not_above_self hunder
    · refine distinct.nodup_children.imp_of_mem ?_
      intro c d hc hd hne p hp
      exact distinct.siblings_apart hroot (mem_children.mp hc) (mem_children.mp hd) hne hp

/-- The list has the descendants of `root`, each once and after its own descendants. -/
structure LeavesFirst (t : Table) (root : Pid) (pids : List Pid) : Prop where
  /-- Exactly the descendants are in the list. -/
  mem_iff : ∀ p, p ∈ pids ↔ t.Above root p
  /-- None is in it twice. -/
  nodup : pids.Nodup
  /-- All that is below a process stands before it. -/
  order : ∀ p ∈ pids, ∀ q, t.Above p q → [q, p].Sublist pids

theorem leavesFirst (distinct : t.Distinct) (h : t.descendants depth root = some pids) :
    t.LeavesFirst root pids :=
  ⟨fun _ => mem_descendants h, nodup_descendants distinct h, descendants_order h⟩

/-- With the root at the end the list is still so: the root is no descendant of its own, and
everybody else comes before it. -/
theorem LeavesFirst.concat (h : t.LeavesFirst root pids) (hroot : ¬ t.Above root root) :
    (pids ++ [root]).Nodup ∧
      ∀ p ∈ pids ++ [root], ∀ q, t.Above p q → [q, p].Sublist (pids ++ [root]) := by
  constructor
  · refine h.nodup.append (List.nodup_singleton root) ?_
    intro p hp heq
    rw [List.mem_singleton.mp heq] at hp
    exact hroot ((h.mem_iff root).mp hp)
  · intro p hp q hpq
    rcases List.mem_append.mp hp with hin | heq
    · exact (h.order p hin q hpq).trans (List.sublist_append_left _ _)
    · obtain rfl := List.mem_singleton.mp heq
      have hq : q ∈ pids := (h.mem_iff q).mpr hpq
      exact (List.singleton_sublist.mpr hq).append (List.Sublist.refl [p])

end KernelLink.Platform.Table
