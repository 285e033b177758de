import KernelLink.Proofs.Machine.Family
/-!
# What becomes of a family when a machine does something small

The operations of which everything is made up that a machine does. Changing a process, its streams
or the pipes and files around it leaves the family alone. A signal, an exit and a new process come
down to the few things that can happen to it.

Main definitions:
* `World.Hosts`: a process that acts has a number that was given out.

Main results:
* `World.family_update`, `World.family_redirect`, `World.family_read`: what leaves the family alone.
* `World.finish_becomes`, `World.deliver_becomes`, `World.deliverGroup_becomes`: ends and signals.
* `World.fork_becomes`, `World.forkStages_becomes`: new processes.
-/
namespace KernelLink.Machine

open Control (Pid Status)
open Script (Command Redirect)
open Session (Wires)

namespace World

variable {m m' : World} {p q : Proc} {s : Shell} {w w' : Wires}

/-! ## What leaves the family alone -/

/-- Changing what a process does, but not what is seen of it. -/
theorem family_update {f : Proc → Proc} (hf : ∀ p, (f p).kin = p.kin) (m : World) (pid : Pid) :
    (m.update pid f).family = m.family := by
  have hkin : ∀ p : Proc, (if p.pid == pid then f p else p).kin = p.kin := by
    intro p
    split
    · exact hf p
    · rfl
  have hprocs : (m.update pid f).procs.map Proc.kin = m.procs.map Proc.kin := by
    unfold update
    rw [List.map_map]
    exact List.map_congr_left fun p _ => hkin p
  show Family.mk _ m.nextPid m.handlePid? = Family.mk _ m.nextPid m.handlePid?
  rw [hprocs]

/-- Changing the shell of a process changes what it does and nothing of who it is. -/
theorem family_updateShell (m : World) (pid : Pid) (f : Shell → Shell) :
    (m.updateShell pid f).family = m.family := by
  refine family_update (fun p => ?_) m pid
  cases p.work <;> rfl

/-- When a process goes on with its shell in another state, the family stays. -/
@[simp] theorem family_goOn (m : World) (p : Proc) (s : Shell) :
    (m.goOn p s).family = m.family := by
  refine family_update ?_ m p.pid
  exact fun _ => rfl

@[simp] theorem family_goOnAfter (m : World) (p : Proc) (s : Shell) (effects : List Effect) :
    (m.goOnAfter p s effects).family = m.family := by
  refine (family_update ?_ (m.goOn p s) p.pid).trans (family_goOn m p s)
  exact fun _ => rfl

@[simp] theorem family_complain (m : World) (p : Proc) (s : Shell) (code : Nat) (text : String) :
    (m.complain p s code text).family = m.family := family_goOnAfter m p _ _

@[simp] theorem family_abandon (m : World) (p : Proc) (s : Shell) (text : String) :
    (m.abandon p s text).family = m.family := family_goOnAfter m p _ _

@[simp] theorem family_hinder (m : World) (p : Proc) (s : Shell) (isSpecial : Bool)
    (hindrance : Hindrance) : (m.hinder p s isSpecial hindrance).family = m.family := by
  cases hindrance with
  | refused text => cases isSpecial <;> exact family_goOnAfter m p _ _
  | fatal text => exact family_abandon m p s text

@[simp] theorem family_become (m : World) (p : Proc) (s : Shell) (tool : Tool) (called : String)
    (args : List String) : (m.become p s tool called args).family = m.family := by
  refine family_update ?_ m p.pid
  exact fun _ => rfl

/-- A file that is opened for writing may be made, and no process is touched. -/
theorem family_openToWrite {directory : List UInt8} {atEnd : Bool} {target : String}
    {stream : Stream} (h : m.openToWrite directory atEnd target = .ok (m', stream)) :
    m'.family = m.family := by
  unfold openToWrite at h
  dsimp only at h
  split at h
  · exact nomatch h
  · cases h
    split <;> rfl
  · split at h
    · cases h
      rfl
    · exact nomatch h

/-- A redirection opens a stream and touches no process, whatever its target is. -/
theorem family_streamFor {direction : Script.Direction} {target : String} {stream : Stream}
    (h : m.streamFor p direction target = .ok (m', stream)) : m'.family = m.family := by
  unfold streamFor at h
  split at h
  · cases h
    rfl
  · cases h
    rfl
  · split at h
    · exact nomatch h
    · split at h
      · exact nomatch h
      · cases h
        rfl
  · cases h
    rfl
  · cases h
    rfl
  · split at h
    · cases h
      rfl
    · cases h
      rfl
    · exact nomatch h
  · cases h
    rfl
  · cases h
    rfl
  · cases hopen : m.openToWrite p.directory (direction == .atEnd) target with
    | error text => rw [hopen] at h; exact nomatch h
    | ok opened =>
      rw [hopen] at h
      cases h
      exact family_openToWrite hopen

/-- Redirections, in order, touch no process; the shell that goes on afterwards is the same
process. -/
theorem family_redirect {redirects : List Redirect} {s' : Shell}
    (h : m.redirect p s redirects = .ok (m', q, s')) :
    m'.family = m.family ∧ q.pid = p.pid ∧ q.group = p.group := by
  induction redirects generalizing m p s with
  | nil =>
    cases h
    exact ⟨rfl, rfl, rfl⟩
  | cons r rest ih =>
    rw [redirect] at h
    split at h
    · exact nomatch h
    · split at h
      · exact nomatch h
      · next opened stream hopen =>
        obtain ⟨hfamily, hpid, hgroup⟩ := ih h
        exact ⟨hfamily.trans (family_streamFor hopen), hpid, hgroup⟩

/-- Reading and writing touch no process: what is changed is a pipe, which is a wire or one of the
machine. -/
theorem family_putPipe (w : Wires) (m : World) (stream : Stream) (pipe : Host.Pipe) :
    (putPipe w m stream pipe).2.family = m.family := by
  cases stream <;> rfl

/-- Reading from a stream takes bytes out of a pipe or a file, and touches no process. -/
theorem family_read {stream : Stream} {bytes : List UInt8}
    (h : read w m stream = .data bytes w' m') : m'.family = m.family := by
  unfold read at h
  split at h
  · exact nomatch h
  · split at h
    · cases h
      exact family_putPipe w m stream _
    · split at h <;> exact nomatch h

theorem family_readLine {stream : Stream} {bytes : List UInt8}
    (h : readLine w m stream = .data bytes w' m') : m'.family = m.family := by
  unfold readLine at h
  split at h
  · next taken w₁ m₁ hread =>
    have hfirst := family_read hread
    split at h
    · split at h
      · cases h
        exact (family_putPipe w₁ m₁ stream _).trans hfirst
      · cases h
        exact hfirst
    · cases h
      exact hfirst
  · next hother => exact absurd h (hother bytes w' m')

/-- Writing to a stream puts bytes into a pipe or a file, and touches no process. -/
theorem family_write {stream : Stream} {bytes left : List UInt8}
    (h : write w m stream bytes = .left left w' m') : m'.family = m.family := by
  unfold write at h
  split at h
  · cases h
    rfl
  · split at h
    · cases h
      rfl
    · split at h
      · cases h
        rfl
      · split at h
        · exact nomatch h
        · split at h
          · exact nomatch h
          · cases h
            exact family_putPipe w m stream _

@[simp] theorem family_close (w : Wires) (m : World) : (m.close w).2.family = m.family := rfl

/-! ## Ends -/

/-- Removing a process from a machine removes it from the family, and gives its number to nobody. -/
theorem family_remove (m : World) (pid : Pid) :
    (m.remove pid).family = m.family.without pid := by
  have hprocs : (m.remove pid).procs.map Proc.kin = (m.family.without pid).members := by
    show (m.procs.filter _).map Proc.kin = (m.procs.map Proc.kin).filter _
    rw [List.filter_map]
    rfl
  exact congrArg (Family.mk · m.nextPid m.handlePid?) hprocs

/-- A process that is gone leaves no children behind: those that have ended go with it, and the
others get the first process of the machine for a parent. -/
theorem family_orphan (m : World) (pid : Pid) :
    (m.orphan pid).family = m.family.orphan pid := by
  have hprocs : (m.orphan pid).procs.map Proc.kin = (m.family.orphan pid).members := by
    unfold orphan Family.orphan family
    rw [List.filter_map, List.map_map, List.map_map]
    refine List.map_congr_left fun p _ => ?_
    show (if p.parent == pid then _ else p : Proc).kin = if p.parent == pid then _ else p.kin
    split <;> rfl
  exact congrArg (Family.mk · m.nextPid m.handlePid?) hprocs

/-- A process that is given a status has ended, whatever else is changed along with it. -/
theorem family_mark {f : Proc → Proc} (hf : ∀ p, (f p).kin = { p.kin with isOver := true })
    (m : World) (pid : Pid) : (m.update pid f).family = m.family.mark pid := by
  have hprocs : (m.update pid f).procs.map Proc.kin = (m.family.mark pid).members := by
    unfold update Family.mark family
    rw [List.map_map, List.map_map]
    refine List.map_congr_left fun p _ => ?_
    show (if p.pid == pid then f p else p).kin = if p.pid == pid then _ else p.kin
    split
    · exact hf p
    · rfl
  exact congrArg (Family.mk · m.nextPid m.handlePid?) hprocs

theorem mem_family (hp : p ∈ m.procs) : p.kin ∈ m.family.members := List.mem_map_of_mem hp

/-- A process ends: it stays for its parent, its children are handed over, and if the first process
is its parent it is asked for at once. -/
theorem finish_becomes {pid : Pid} (hpid : pid ≠ creatorPid) (m : World) (status : Status) :
    m.family.Becomes (m.finish pid status).family := by
  unfold finish
  dsimp only
  generalize hended : m.update pid _ = ended
  have hmark : ended.family = m.family.mark pid := by
    rw [← hended]
    exact family_mark (fun _ => rfl) m pid
  -- it ends, and its children get the first process; an orphan itself is then forgotten
  have horphan : m.family.Becomes (ended.orphan pid).family := by
    rw [family_orphan, hmark]
    exact (Family.Step.ends pid).becomes.trans (Family.Step.orphans hpid).becomes
  generalize ended.orphan pid = left at horphan
  split
  · next p hfind =>
    split
    · next hfirst =>
      have hkin : p.pid = pid := by simpa using List.find?_some hfind
      have hparent : p.kin.parent ≠ creatorPid := by
        have heq : p.parent = firstPid := by simpa using hfirst
        show p.parent ≠ creatorPid
        rw [heq]
        decide
      rw [family_remove, ← hkin]
      exact horphan.trans
        (Family.Step.forgets (mem_family (List.mem_of_find?_eq_some hfind)) hparent).becomes
    · exact horphan
  · exact horphan

/-- A signal ends a process or does nothing that is seen: it may be ignored, attended to later, or
meant for one that has ended. -/
theorem receive_becomes (hp : p.pid ≠ creatorPid) (m : World) (signal : Signal) :
    m.family.Becomes (m.receive p signal).family := by
  unfold receive
  split
  · exact .refl _
  · split
    · exact finish_becomes hp m _
    · split
      · exact .refl _
      · split
        · rw [family_updateShell]
          exact .refl _
        · split
          · exact finish_becomes hp m _
          · exact .refl _

/-- No process of the machine has the number of the creator, which was there before all of them. -/
theorem pid_ne_creator (hm : m.family.Orderly) (hp : p ∈ m.procs) : p.pid ≠ creatorPid :=
  Nat.ne_of_gt (hm.numbered _ (mem_family hp)).1

/-- A signal to a number is a signal to the process that has it, and nothing if there is none. -/
theorem deliver_becomes (hm : m.family.Orderly) (pid : Pid) (signal : Signal) :
    m.family.Becomes (m.deliver pid signal).2.family := by
  unfold deliver
  split
  · exact .refl _
  · next p hfind =>
    exact receive_becomes (pid_ne_creator hm (List.mem_of_find?_eq_some hfind)) m signal

/-- A signal comes to the members of a group one after the other, as they were when it was sent: by
induction on those that it still has to come to. -/
theorem deliverGroup_becomes (hm : m.family.Orderly) (group : Pid) (signal : Signal) :
    m.family.Becomes (m.deliverGroup group signal).2.family := by
  have hothers : ∀ p ∈ m.procs.filter (·.group == group), p.pid ≠ creatorPid :=
    fun p hp => pid_ne_creator hm (List.mem_of_mem_filter hp)
  show m.family.Becomes
    ((m.procs.filter (·.group == group)).foldl (fun m p => m.receive p signal) m).family
  generalize m.procs.filter (·.group == group) = members at hothers
  clear hm
  induction members generalizing m with
  | nil => exact .refl _
  | cons p rest ih =>
    have hfirst := receive_becomes (hothers p List.mem_cons_self) m signal
    exact hfirst.trans (ih fun q hq => hothers q (List.mem_cons_of_mem _ hq))

/-! ## Processes that act -/

/-- A process that acts belongs to an orderly family, or did when it was looked at: its number was
given out, and it is not the creator's. -/
structure Hosts (m : World) (p : Proc) : Prop where
  /-- The family is in order. -/
  orderly : m.family.Orderly
  /-- It is not the creator for links. -/
  other : creatorPid < p.pid
  /-- Its number was given out. -/
  known : p.pid < m.family.next

/-- It still does after whatever has happened, also if the process has changed otherwise. -/
theorem Hosts.later (h : m.Hosts p) (hm : m.family.Becomes m'.family) (hpid : q.pid = p.pid) :
    m'.Hosts q where
  orderly := hm.orderly h.orderly
  other := hpid ▸ h.other
  known := hpid ▸ Nat.lt_of_lt_of_le h.known hm.next_le

/-- Every process of an orderly machine does, since the numbers that were given out are below the
next one. -/
theorem hosts_of_mem (hm : m.family.Orderly) (hp : p ∈ m.procs) : m.Hosts p :=
  ⟨hm, (hm.numbered _ (mem_family hp)).1, (hm.numbered _ (mem_family hp)).2⟩

/-! ## New processes -/

/-- A new process is born into the family under the next number. A group that is not given is its
own. -/
theorem family_create (m : World) (parent : Pid) (group : Option Pid) (ignored : List Signal)
    (streams : Streams) (directory : List UInt8) (environment : List (String × String))
    (f : Pid → Work × List Effect) :
    (m.create parent group ignored streams directory environment f).2.family =
      m.family.bear parent group m.handlePid? := by
  have hprocs : (m.create parent group ignored streams directory environment f).2.procs.map
      Proc.kin = m.family.members ++ [⟨m.nextPid, parent, group.getD m.nextPid, false⟩] :=
    List.map_append
  exact congrArg (Family.mk · (m.nextPid + 1) m.handlePid?) hprocs

/-- A process creates another one: that is a birth, and its parent has been there. -/
theorem create_becomes (h : m.Hosts p) (group : Option Pid) (ignored : List Signal)
    (streams : Streams) (directory : List UInt8) (environment : List (String × String))
    (f : Pid → Work × List Effect) :
    m.family.Becomes
      (m.create p.pid group ignored streams directory environment f).2.family := by
  rw [family_create]
  exact (Family.Step.forks group h.other h.known).becomes

/-- A shell that forks creates a process that goes on as it would itself. -/
theorem fork_becomes (h : m.Hosts p) (s : Shell) (streams : Streams) (frames : List Frame) :
    m.family.Becomes (m.fork p s streams frames).2.family :=
  create_becomes h _ _ _ _ _ _

/-- The processes of a pipeline are created one after the other, each of them by the same shell.
Induction on the stages. -/
theorem forkStages_becomes (h : m.Hosts p) (s : Shell) (source : Stream) (stages : List Command) :
    m.family.Becomes (m.forkStages p s source stages).2.family := by
  induction stages generalizing m source with
  | nil => exact .refl _
  | cons c rest ih =>
    cases rest with
    | nil => exact fork_becomes h s _ _
    | cons next rest =>
      have hpiped : (m.addPipe .new).2.Hosts p := ⟨h.orderly, h.other, h.known⟩
      have hforked := fork_becomes hpiped s
        { p.streams with input := source, output := .pipe (m.addPipe .new).1 } [.run c]
      exact hforked.trans (ih (hpiped.later hforked rfl) _)

end World
end KernelLink.Machine
