import KernelLink.Machine.Creator
import KernelLink.Proofs.Platform.Lineage
/-!
# The family of the processes of a machine

Of all that a machine holds, the search for descendants and the signals see four things of each
process: its number, its parent, its group, and whether it has ended. Six things can happen to
these, and everything that a machine does comes down to some of them, one after the other. So what
each of the six leaves true holds of every machine, whatever its programs do.

Main definitions:
* `Kin`, `Family`, `World.family`: what is seen of the processes.
* `Family.Step`, `Family.Becomes`: what can happen to them, once and any number of times.
* `Family.Orderly`: every process is younger than its parent, and no number is given out twice.
* `World.Leads`: what is done to a machine.

Main results:
* `Family.Becomes.orderly`: a family stays orderly.
* `Family.Becomes.member`: what becomes of a process; in particular no number is used again.
* `World.acyclic_table`, `World.search_ends`: so the search for descendants always ends.
-/
namespace KernelLink.Machine

open Control (Pid)
open Relation (ReflTransGen)

/-! ## What is seen of processes -/

/-- What others see of a process. -/
structure Kin where
  /-- Its number. -/
  pid : Pid
  /-- Its parent. -/
  parent : Pid
  /-- Its group. -/
  group : Pid
  /-- Has it ended? -/
  isOver : Bool

/-- What is seen of all processes, and of who is responsible for them. -/
structure Family where
  /-- The processes. -/
  members : List Kin
  /-- The number of the next one. -/
  next : Pid
  /-- The one that was created for a link, until its creator has asked how it ended. -/
  handle : Option Pid

/-- What is seen of a process. -/
def Proc.kin (p : Proc) : Kin := ⟨p.pid, p.parent, p.group, p.status.isSome⟩

/-- What is seen of the processes of a machine. -/
def World.family (m : World) : Family := ⟨m.procs.map Proc.kin, m.nextPid, m.handlePid?⟩

/-- What may become of a process while it is there: it keeps its number and its group, its parent
may have been replaced by the first process, and once it has ended it does not run again. -/
structure Kin.Becomes (k k' : Kin) : Prop where
  /-- Its number. -/
  pid : k'.pid = k.pid
  /-- Its group. -/
  group : k'.group = k.group
  /-- Its parent. -/
  parent : k'.parent = k.parent ∨ k'.parent = World.firstPid
  /-- It does not run again. -/
  isOver : k.isOver = true → k'.isOver = true

theorem Kin.Becomes.refl (k : Kin) : k.Becomes k := ⟨rfl, rfl, Or.inl rfl, id⟩

/-- What becomes of a process in two steps: its parent stays or, in one of them, is replaced by the
first process, and then for good. -/
theorem Kin.Becomes.trans {k k' k'' : Kin} (h : k.Becomes k') (h' : k'.Becomes k'') :
    k.Becomes k'' where
  pid := h'.pid.trans h.pid
  group := h'.group.trans h.group
  parent := by
    rcases h'.parent with hsame | hfirst
    · rw [hsame]
      exact h.parent
    · exact Or.inr hfirst
  isOver hk := h'.isOver (h.isOver hk)

namespace Family

open World (creatorPid firstPid)

/-! ## What can happen -/

/-- A process has ended. -/
def mark (f : Family) (pid : Pid) : Family :=
  { f with members := f.members.map fun k => if k.pid == pid then { k with isOver := true } else k }

/-- The children of a process go to the first process, which asks at once for those that have
ended. -/
def orphan (f : Family) (parent : Pid) : Family :=
  { f with
    members := (f.members.filter fun k => !(k.parent == parent && k.isOver)).map fun k =>
      if k.parent == parent then { k with parent := firstPid } else k }

/-- A process is not there any more. -/
def without (f : Family) (pid : Pid) : Family :=
  { f with members := f.members.filter fun k => !(k.pid == pid) }

/-- There is one more process. -/
def bear (f : Family) (parent : Pid) (group handle : Option Pid) : Family :=
  ⟨f.members ++ [⟨f.next, parent, group.getD f.next, false⟩], f.next + 1, handle⟩

/-- What can happen to the processes of a machine. -/
inductive Step : Family → Family → Prop where
  /-- One ends. -/
  | ends {f : Family} (pid : Pid) : Step f (f.mark pid)
  /-- The first process takes over the children of one. -/
  | orphans {f : Family} {pid : Pid} (other : pid ≠ creatorPid) : Step f (f.orphan pid)
  /-- The parent of one, which is not the creator for links, has asked how it ended. -/
  | forgets {f : Family} {k : Kin} (member : k ∈ f.members) (other : k.parent ≠ creatorPid) :
      Step f (f.without k.pid)
  /-- The creator for links has asked how its process ended. -/
  | claims {f : Family} {pid : Pid} (handle : f.handle = some pid) :
      Step f { f.without pid with handle := none }
  /-- A process creates another one. -/
  | forks {f : Family} {parent : Pid} (group : Option Pid) (other : creatorPid < parent)
      (known : parent < f.next) : Step f (f.bear parent group f.handle)
  /-- A process is created for a link. -/
  | creates {f : Family} : Step f (f.bear creatorPid none (some f.next))

/-- Any number of things have happened. -/
def Becomes : Family → Family → Prop := ReflTransGen Step

variable {f f' f'' : Family}

theorem Becomes.refl (f : Family) : f.Becomes f := ReflTransGen.refl

theorem Becomes.trans (h : f.Becomes f') (h' : f'.Becomes f'') : f.Becomes f'' :=
  ReflTransGen.trans h h'

theorem Step.becomes (h : f.Step f') : f.Becomes f' := .single h

/-! ## Orderly families -/

/-- The numbers of the processes are distinct, above the creator's and below the next one, no
process is older than its parent, and the one that was created for a link waits for its creator. -/
structure Orderly (f : Family) : Prop where
  /-- No two processes have one number. -/
  distinct : (f.members.map (·.pid)).Nodup
  /-- All numbers have been given out. -/
  numbered : ∀ k ∈ f.members, creatorPid < k.pid ∧ k.pid < f.next
  /-- A process is younger than its parent. -/
  younger : ∀ k ∈ f.members, k.parent < k.pid
  /-- The creator's own number was given out before all others. -/
  begun : creatorPid < f.next
  /-- The process that was created for a link is there. -/
  handled : ∀ pid, f.handle = some pid → ∃ k ∈ f.members, k.pid = pid ∧ k.parent = creatorPid

theorem map_pid_mark (f : Family) (pid : Pid) :
    (f.mark pid).members.map (·.pid) = f.members.map (·.pid) := by
  unfold mark
  rw [List.map_map]
  refine List.map_congr_left fun k _ => ?_
  show (if k.pid == pid then _ else k).pid = k.pid
  split <;> rfl

/-- A member of a family in which one has ended was a member, and nothing else has changed. -/
theorem mem_mark {k' : Kin} {pid : Pid} (h : k' ∈ (f.mark pid).members) :
    ∃ k ∈ f.members, k.Becomes k' ∧ k'.parent = k.parent := by
  obtain ⟨k, hk, rfl⟩ := List.mem_map.mp h
  refine ⟨k, hk, ?_⟩
  split
  · exact ⟨⟨rfl, rfl, Or.inl rfl, fun _ => rfl⟩, rfl⟩
  · exact ⟨.refl k, rfl⟩

/-- So was a member of a family whose orphans were handed over, perhaps with another parent. -/
theorem mem_orphan {k' : Kin} {parent : Pid} (h : k' ∈ (f.orphan parent).members) :
    ∃ k ∈ f.members, k.Becomes k' := by
  obtain ⟨k, hk, rfl⟩ := List.mem_map.mp h
  refine ⟨k, (List.mem_filter.mp hk).1, ?_⟩
  split
  · exact ⟨rfl, rfl, Or.inr rfl, id⟩
  · exact .refl k

/-- The numbers are a part of what they were: some children go away, and the others only get another
parent. -/
theorem map_pid_orphan (f : Family) (parent : Pid) :
    ((f.orphan parent).members.map (·.pid)).Sublist (f.members.map (·.pid)) := by
  have hsame : (f.orphan parent).members.map (·.pid) =
      (f.members.filter fun k => !(k.parent == parent && k.isOver)).map (·.pid) := by
    unfold orphan
    rw [List.map_map]
    refine List.map_congr_left fun k _ => ?_
    show (if k.parent == parent then _ else k).pid = k.pid
    split <;> rfl
  rw [hsame]
  exact List.filter_sublist.map _

theorem mem_without {k : Kin} {pid : Pid} :
    k ∈ (f.without pid).members ↔ k ∈ f.members ∧ k.pid ≠ pid := by
  simp [without]

/-- Whoever is in a family after a birth was there before or was born. -/
theorem mem_bear {k : Kin} {parent : Pid} {group handle : Option Pid}
    (h : k ∈ (f.bear parent group handle).members) :
    k ∈ f.members ∨ k = ⟨f.next, parent, group.getD f.next, false⟩ := by
  simpa [bear] using h

/-- The process with a number is the only one, so looking it up finds that one. -/
theorem Orderly.unique (h : f.Orderly) {k l : Kin} (hk : k ∈ f.members) (hl : l ∈ f.members)
    (hpid : k.pid = l.pid) : k = l := List.inj_on_of_nodup_map h.distinct hk hl hpid

/-- A new process gets a number that was not given out before, and its parent has an older one. -/
theorem Orderly.bear (h : f.Orderly) {parent : Pid} {group handle : Option Pid}
    (hparent : parent < f.next)
    (hhandle : handle = f.handle ∨ handle = some f.next ∧ parent = creatorPid) :
    (f.bear parent group handle).Orderly where
  distinct := by
    unfold Family.bear
    rw [List.map_append]
    refine List.nodup_append.mpr ⟨h.distinct, List.nodup_singleton _, ?_⟩
    intro pid hpid new hnew
    obtain ⟨k, hk, rfl⟩ := List.mem_map.mp hpid
    obtain rfl : new = f.next := List.mem_singleton.mp hnew
    exact Nat.ne_of_lt (h.numbered k hk).2
  numbered k hk := by
    have hbegun := h.begun
    show creatorPid < k.pid ∧ k.pid < f.next + 1
    rcases mem_bear hk with hold | rfl
    · exact ⟨(h.numbered k hold).1, Nat.lt_succ_of_lt (h.numbered k hold).2⟩
    · exact ⟨hbegun, Nat.lt_succ_self _⟩
  younger k hk := by
    rcases mem_bear hk with hold | rfl
    · exact h.younger k hold
    · exact hparent
  begun := Nat.lt_succ_of_lt h.begun
  handled pid hpid := by
    rcases hhandle with rfl | ⟨rfl, rfl⟩
    · obtain ⟨k, hk, hthere⟩ := h.handled pid hpid
      exact ⟨k, List.mem_append_left _ hk, hthere⟩
    · cases hpid
      exact ⟨_, List.mem_append_right _ (List.mem_singleton_self _), rfl, rfl⟩

/-- Whatever happens to an orderly family leaves it orderly. An end changes no number and no parent;
orphans get the oldest parent there is; whoever is gone leaves the others as they were. -/
theorem Orderly.step (h : f.Orderly) (hs : f.Step f') : f'.Orderly := by
  cases hs with
  | ends pid =>
    refine ⟨?_, fun k' hk' => ?_, fun k' hk' => ?_, h.begun, fun child hchild => ?_⟩
    · -- the mark changes neither a number nor a parent
      rw [map_pid_mark]
      exact h.distinct
    · obtain ⟨k, hk, hbecomes, -⟩ := mem_mark hk'
      rw [hbecomes.pid]
      exact h.numbered k hk
    · obtain ⟨k, hk, hbecomes, hparent⟩ := mem_mark hk'
      rw [hbecomes.pid, hparent]
      exact h.younger k hk
    · obtain ⟨k, hk, hpid, hparent⟩ := h.handled child hchild
      refine ⟨_, List.mem_map_of_mem hk, ?_⟩
      split <;> exact ⟨hpid, hparent⟩
  | @orphans pid other =>
    refine ⟨?_, fun k' hk' => ?_, fun k' hk' => ?_, h.begun, fun child hchild => ?_⟩
    · exact (map_pid_orphan f pid).nodup h.distinct
    · obtain ⟨k, hk, hbecomes⟩ := mem_orphan hk'
      rw [hbecomes.pid]
      exact h.numbered k hk
    · obtain ⟨k, hk, hbecomes⟩ := mem_orphan hk'
      rw [hbecomes.pid]
      -- a child that loses its parent gets the first process, which is older than anything numbered
      rcases hbecomes.parent with hsame | hfirst
      · rw [hsame]
        exact h.younger k hk
      · have hfirst' : firstPid < creatorPid := by decide
        rw [hfirst]
        exact Nat.lt_trans hfirst' (h.numbered k hk).1
    · obtain ⟨k, hk, hpid, hparent⟩ := h.handled child hchild
      have hne : (k.parent == pid) = false := by
        rw [hparent]
        exact beq_false_of_ne other.symm
      refine ⟨k, List.mem_map.mpr ⟨k, List.mem_filter.mpr ⟨hk, ?_⟩, ?_⟩, hpid, hparent⟩
      · simp [hne]
      · simp [hne]
  | @forgets k member other =>
    -- what is left of the family is part of it, so only the children somebody watches are in
    -- question
    have hpart : ∀ l, l ∈ (f.without k.pid).members → l ∈ f.members :=
      fun l hl => (mem_without.mp hl).1
    refine ⟨?_, fun l hl => h.numbered l (hpart l hl), fun l hl => h.younger l (hpart l hl),
      h.begun, fun child hchild => ?_⟩
    · exact (List.filter_sublist.map _).nodup h.distinct
    · obtain ⟨l, hl, hpid, hparent⟩ := h.handled child hchild
      refine ⟨l, mem_without.mpr ⟨hl, fun heq => ?_⟩, hpid, hparent⟩
      rw [h.unique hl member heq] at hparent
      exact other hparent
  | @claims pid handle =>
    have hpart : ∀ l, l ∈ (f.without pid).members → l ∈ f.members :=
      fun l hl => (mem_without.mp hl).1
    refine ⟨?_, fun l hl => h.numbered l (hpart l hl), fun l hl => h.younger l (hpart l hl),
      h.begun, nofun⟩
    exact (List.filter_sublist.map _).nodup h.distinct
  | forks group other known => exact h.bear known (Or.inl rfl)
  | creates => exact h.bear h.begun (Or.inr ⟨rfl, rfl⟩)

/-- A family that is in order stays so, whatever becomes of it. Induction on the steps. -/
theorem Becomes.orderly (h : f.Becomes f') (hf : f.Orderly) : f'.Orderly := by
  induction h with
  | refl => exact hf
  | tail _ hs ih => exact ih.step hs

/-! ## What becomes of a process -/

/-- Numbers are given out upwards: a birth takes the next one, and nothing gives one back. -/
theorem Step.next_le (h : f.Step f') : f.next ≤ f'.next := by
  cases h with
  | forks | creates => exact Nat.le_succ _
  | ends | orphans | forgets | claims => exact Nat.le_refl _

theorem Becomes.next_le (h : f.Becomes f') : f.next ≤ f'.next := by
  induction h with
  | refl => exact Nat.le_refl _
  | tail _ hs ih => exact Nat.le_trans ih hs.next_le

/-- A process that is there after something has happened was there before, unless it has just been
given the next number. -/
theorem Step.member (h : f.Step f') {k' : Kin} (hk' : k' ∈ f'.members) (hold : k'.pid < f.next) :
    ∃ k ∈ f.members, k.Becomes k' := by
  cases h with
  | ends pid =>
    obtain ⟨k, hk, hbecomes, -⟩ := mem_mark hk'
    exact ⟨k, hk, hbecomes⟩
  | orphans other => exact mem_orphan hk'
  | forgets => exact ⟨k', (mem_without.mp hk').1, .refl k'⟩
  | claims => exact ⟨k', (List.mem_filter.mp hk').1, .refl k'⟩
  | forks | creates =>
    rcases mem_bear hk' with hthere | rfl
    · exact ⟨k', hthere, .refl k'⟩
    · exact absurd hold (Nat.lt_irrefl _)

/-- A process whose number had been given out before was there then: by induction on what has
happened, since numbers that were given out stay so. -/
theorem Becomes.member (h : f.Becomes f') {k' : Kin} (hk' : k' ∈ f'.members)
    (hold : k'.pid < f.next) : ∃ k ∈ f.members, k.Becomes k' := by
  induction h generalizing k' with
  | refl => exact ⟨k', hk', .refl k'⟩
  | tail hb hs ih =>
    obtain ⟨between, hbetween, hlast⟩ :=
      hs.member hk' (Nat.lt_of_lt_of_le hold (Becomes.next_le hb))
    obtain ⟨k, hk, hfirst⟩ := ih hbetween (hlast.pid ▸ hold)
    exact ⟨k, hk, hfirst.trans hlast⟩

/-- A number that was given out and belongs to nobody any more never belongs to anybody again. -/
theorem Becomes.gone (h : f.Becomes f') {pid : Pid} (hold : pid < f.next)
    (hgone : ∀ k ∈ f.members, k.pid ≠ pid) : ∀ k' ∈ f'.members, k'.pid ≠ pid := by
  intro k' hk' heq
  obtain ⟨k, hk, hbecomes⟩ := h.member hk' (heq.symm ▸ hold)
  exact hgone k hk (hbecomes.pid.symm.trans heq)

end Family

/-! ## The table of processes -/

namespace World

open Platform (Table)

variable {m : World}

/-- The table that the managers are given shows the family, its numbers and its parents. -/
theorem table_eq (m : World) :
    m.table = m.family.members.map fun k => (k.pid, some k.parent) := by
  show m.procs.map _ = (m.procs.map Proc.kin).map _
  rw [List.map_map]
  rfl

/-- It lists each process once, since no number is given out twice. -/
theorem distinct_table (h : m.family.Orderly) : Table.Distinct m.table := by
  have hpids : m.table.map (·.1) = m.family.members.map (·.pid) := by
    rw [table_eq, List.map_map]
    rfl
  unfold Table.Distinct
  rw [hpids]
  exact h.distinct

/-- and none as its own ancestor, since ancestors are older. -/
theorem acyclic_table (h : m.family.Orderly) : Table.Acyclic m.table := by
  refine Table.acyclic_of_lt fun p c hparent => ?_
  have hlisted : (c, some p) ∈ m.table := hparent
  rw [table_eq] at hlisted
  obtain ⟨k, hk, hentry⟩ := List.mem_map.mp hlisted
  obtain ⟨rfl, rfl⟩ : k.pid = c ∧ k.parent = p := by simpa using hentry
  exact h.younger k hk

/-- So the search for the descendants of any process comes to an end. -/
theorem search_ends (h : m.family.Orderly) (root : Pid) :
    ∃ depth pids, Table.descendants m.table depth root = some pids :=
  Table.ends_iff.mpr fun p _ => acyclic_table h p

/-- What is done to a machine leads its family on in the few ways in which it can be, if it was in
order. -/
def Leads (m m' : World) : Prop := m.family.Orderly → m.family.Becomes m'.family

variable {m' m'' : World}

theorem Leads.refl (m : World) : m.Leads m := fun _ => .refl _

/-- What is done first keeps the family in order, so what is done next may rely on that. -/
theorem Leads.trans (h : m.Leads m') (h' : m'.Leads m'') : m.Leads m'' :=
  fun hm => (h hm).trans (h' ((h hm).orderly hm))

/-- A machine that is led on from one in order is in order. -/
theorem Leads.orderly (h : m.Leads m') (hm : m.family.Orderly) : m'.family.Orderly :=
  (h hm).orderly hm

/-- A machine without processes is in order, with the numbers above that of its creator still to be
given out. -/
theorem orderly_new (files : Host.Files) (installed : List (List UInt8 × Tool)) :
    (World.new files installed).family.Orderly where
  distinct := List.nodup_nil
  numbered _ h := nomatch h
  younger _ h := nomatch h
  begun := (by decide : creatorPid < 1001)
  handled _ h := nomatch h

end World
end KernelLink.Machine
