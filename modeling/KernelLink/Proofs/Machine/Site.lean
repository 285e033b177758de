import KernelLink.Proofs.Machine.Steps
import KernelLink.Proofs.Session.Launched
/-!
# What a machine behind a link does

The calls of the platforms do to a machine what its processes may do as well, and the creator for
links asks for its own processes alone. So the family of a machine behind a link stays in order,
whatever is launched there, sent to it and asked of its manager; a search for descendants finds an
answer at once; and a process that was killed does not stay in the table.

Main results:
* `World.slay_handle`: who kills the process that was created has also asked how it ended.
* `lookCall_becomes`: what the calls of the platforms do.
* `carry_findDescendants`: the search for descendants is answered.
* `Site.carries`: what a link does to the machine behind it.
-/
namespace KernelLink.Machine

open Control (Pid Status)
open Platform (Call Table)
open Session (Backend Client Wires)

namespace World

variable {m m' : World} {w w' : Wires}

/-! ## The handle -/

/-- Who holds the handle does not matter to the family, as long as the same process is meant. -/
theorem family_onHandle {f : Handle → Handle}
    (hf : ∀ h, (f h).pid = h.pid ∧ (f h).reaped = h.reaped) (m : World) :
    (m.onHandle f).family = m.family := by
  have hpid : (m.onHandle f).handlePid? = m.handlePid? := by
    unfold onHandle handlePid?
    cases m.handle with
    | none => rfl
    | some h =>
      obtain ⟨hsame, hreaped⟩ := hf h
      show (if (f h).reaped.isNone then some (f h).pid else none) = _
      rw [hsame, hreaped]
  exact congrArg (Family.mk _ m.nextPid) hpid

/-- Closing the input of the created process touches nobody's place in the family. -/
theorem family_dropInput (w : Wires) (m : World) : (dropInput w m).2.family = m.family := by
  unfold dropInput
  split
  · split
    · refine family_onHandle ?_ m
      exact fun _ => ⟨rfl, rfl⟩
    · rfl
  · rfl

theorem family_takePipes (m : World) : m.takePipes.2.family = m.family := by
  unfold takePipes
  split
  · split
    · rfl
    · refine family_onHandle ?_ m
      exact fun _ => ⟨rfl, rfl⟩
  · rfl

/-- The creator asks how its process ended, and if it has, it is not in the table any more. -/
theorem reapHandle_becomes (m : World) : m.family.Becomes m.reapHandle.2.family := by
  unfold reapHandle
  split
  · exact .refl _
  · next h hhandle =>
    split
    · exact .refl _
    · next hreaped =>
      split
      · exact .refl _
      · next status _ =>
        -- the child was not reaped before, so it is still the one that the handle stands for
        have hpid : m.family.handle = some h.pid := by
          show m.handlePid? = _
          unfold handlePid?
          rw [hhandle]
          simp [hreaped]
        have hfamily : ((m.remove h.pid).onHandle fun h =>
            { h with reaped := some status }).family =
            { m.family.without h.pid with handle := none } := by
          have hgone : ((m.remove h.pid).onHandle fun h =>
              { h with reaped := some status }).handlePid? = none := by
            unfold onHandle handlePid?
            have hkept : (m.remove h.pid).handle = some h := hhandle
            rw [hkept]
            rfl
          have hmembers := congrArg Family.members (family_remove m h.pid)
          show Family.mk (m.remove h.pid).family.members _ _ = _
          rw [hmembers]
          exact congrArg (Family.mk _ m.nextPid) hgone
        rw [hfamily]
        exact (Family.Step.claims hpid).becomes

/-- Killing the created process and asking how it ended is a signal and then a claim. -/
theorem slay_becomes (hm : m.family.Orderly) (w : Wires) :
    m.family.Becomes (m.slay w).2.family := by
  unfold slay
  split
  · exact .refl _
  · next pid _ =>
    dsimp only
    have hkilled := deliver_becomes hm pid Signal.kill
    rw [family_close]
    refine hkilled.trans ?_
    rw [← family_dropInput w]
    exact reapHandle_becomes _

/-- The program that ends processes sends at most a signal, and only to the process that it was
given. -/
theorem runKiller_becomes (hm : m.family.Orderly) (args : List String) :
    m.family.Becomes (m.runKiller args).2.family := by
  unfold runKiller
  split
  · exact .refl _
  · next killer _ =>
    dsimp only
    split
    · exact deliver_becomes (m := { m with killings := args :: m.killings }) hm _ _
    · exact .refl _

/-- Nothing happens, or the creator for links creates a process and keeps its number. -/
theorem spawn_becomes (m : World) (program : String) (args : List String)
    (directory : Option String) (env : List (String × String)) :
    m.family.Becomes (m.spawn program args directory env).2.family := by
  unfold spawn
  split
  · exact .refl _
  · next path tool _ =>
    dsimp only
    generalize hcreated : m.create creatorPid none [] ⟨.input, .output, .errors, []⟩ path env
      (fun pid => m.load pid tool program args path env) = created
    have hbear := family_create m creatorPid none [] ⟨.input, .output, .errors, []⟩ path env
      fun pid => m.load pid tool program args path env
    rw [hcreated] at hbear
    -- the new process has the next number, and the handle is set to just that one
    have hpid : created.1 = m.nextPid := by
      rw [← hcreated]
      rfl
    have hfamily : ({ created.2 with
        handle := some ⟨created.1, none, false, true⟩ } : World).family =
        m.family.bear creatorPid none (some m.family.next) := by
      have hmembers := congrArg Family.members hbear
      have hnext := congrArg Family.next hbear
      show Family.mk created.2.family.members created.2.family.next (some created.1) = _
      rw [hmembers, hnext, hpid]
      rfl
    rw [hfamily]
    exact Family.Step.creates.becomes

/-! ## Killing -/

/-- A process that ends is over, as long as it is in the table. -/
theorem finish_isOver {pid : Pid} {status : Status} {k : Kin}
    (hk : k ∈ (m.finish pid status).family.members) (hpid : k.pid = pid) : k.isOver = true := by
  unfold finish at hk
  dsimp only at hk
  generalize hended : m.update pid _ = ended at hk
  have hmark : ended.family = m.family.mark pid := by
    rw [← hended]
    exact family_mark (fun _ => rfl) m pid
  -- whoever is still there after its end was marked, and neither its orphans nor the removal takes
  -- the mark away
  have hleft : k ∈ (m.family.mark pid |>.orphan pid).members := by
    rw [← hmark, ← family_orphan]
    split at hk
    · split at hk
      · rw [family_remove] at hk
        exact (Family.mem_without.mp hk).1
      · exact hk
    · exact hk
  obtain ⟨marked, hmarked, hbecomes⟩ := Family.mem_orphan hleft
  obtain ⟨l, -, rfl⟩ := List.mem_map.mp hmarked
  refine hbecomes.isOver ?_
  split
  · rfl
  · next hne =>
    have hsame := hbecomes.pid
    rw [if_neg hne, hpid] at hsame
    exact absurd (beq_iff_eq.mpr hsame.symm) hne

/-- A process that ends is still the one that was created for the link, until it is asked about. -/
theorem handle_finish (m : World) (pid : Pid) (status : Status) :
    (m.finish pid status).handlePid? = m.handlePid? := by
  unfold finish
  dsimp only
  split
  · split <;> rfl
  · rfl

/-- Nothing stops a process from being killed, but that it has ended. -/
theorem receive_kill (m : World) (p : Proc) :
    m.receive p Signal.kill =
      if p.status.isSome then m else m.finish p.pid (.signal Signal.kill) := by
  unfold receive
  rw [if_pos (beq_self_eq_true Signal.kill)]

/-- A process that is killed is over, as long as it is in the table. -/
theorem isOver_kill (hm : m.family.Orderly) {pid : Pid} {k : Kin}
    (hk : k ∈ (m.deliver pid Signal.kill).2.family.members) (hpid : k.pid = pid) :
    k.isOver = true := by
  unfold deliver at hk
  split at hk
  · next hnone =>
    obtain ⟨p, hp, rfl⟩ := List.mem_map.mp hk
    have hother := List.find?_eq_none.mp hnone p hp
    exact absurd (beq_iff_eq.mpr hpid) hother
  · next p hfind =>
    have hp := List.mem_of_find?_eq_some hfind
    have hsame : p.pid = pid := by simpa using List.find?_some hfind
    dsimp only at hk
    rw [receive_kill] at hk
    split at hk
    · next hover =>
      rw [hm.unique hk (mem_family hp) (hpid.trans hsame.symm)]
      exact hover
    · exact finish_isOver hk (hpid.trans hsame.symm)

theorem handle_kill (m : World) (pid : Pid) :
    (m.deliver pid Signal.kill).2.handlePid? = m.handlePid? := by
  unfold deliver
  split
  · rfl
  · next p _ =>
    dsimp only
    rw [receive_kill]
    split
    · rfl
    · exact handle_finish m p.pid _

/-- Whoever asks for a process that is over learns how it ended, and the process is not there any
more. -/
theorem reapHandle_over (hm : m.family.Orderly)
    (hover : ∀ k ∈ m.family.members, m.handlePid? = some k.pid → k.isOver = true) :
    m.reapHandle.2.handlePid? = none := by
  unfold reapHandle
  split
  · next hnone =>
    show m.handlePid? = none
    unfold handlePid?
    rw [hnone]
  · next h hhandle =>
    split
    · next status hreaped =>
      show m.handlePid? = none
      unfold handlePid?
      rw [hhandle]
      simp [hreaped]
    · next hreaped =>
      have hpid : m.handlePid? = some h.pid := by
        unfold handlePid?
        rw [hhandle]
        simp [hreaped]
      obtain ⟨k, hk, hkpid, -⟩ := hm.handled h.pid hpid
      obtain ⟨p, hp, rfl⟩ := List.mem_map.mp hk
      have hstatus : p.status.isSome = true := hover _ hk (by rw [hpid, hkpid])
      split
      · next hnone =>
        -- the process is found, and it has a status
        have hfind : ∃ q, m.find? h.pid = some q := by
          cases hfound : m.find? h.pid with
          | some q => exact ⟨q, rfl⟩
          | none => exact absurd (beq_iff_eq.mpr hkpid) (List.find?_eq_none.mp hfound p hp)
        obtain ⟨q, hq⟩ := hfind
        have hqp : q.kin = p.kin := by
          refine hm.unique (mem_family (List.mem_of_find?_eq_some hq)) hk ?_
          have hqpid : q.pid = h.pid := by simpa using List.find?_some hq
          exact hqpid.trans hkpid.symm
        have hqstatus : q.status.isSome = true := (congrArg Kin.isOver hqp).trans hstatus
        rw [hq] at hnone
        exact absurd hqstatus (by simp [show q.status = none from hnone])
      · unfold onHandle handlePid?
        have hkept : (m.remove h.pid).handle = some h := hhandle
        rw [hkept]
        rfl

/-- Who kills the process that was created has also asked how it ended: no process stays in the
table that nobody will ever ask for. -/
theorem slay_handle (hm : m.family.Orderly) (w : Wires) : (m.slay w).2.handlePid? = none := by
  unfold slay
  split
  · assumption
  · next pid hpid =>
    dsimp only
    have hkilled := deliver_becomes hm pid Signal.kill
    have hdropped := family_dropInput w (m.deliver pid Signal.kill).2
    show (dropInput w (m.deliver pid Signal.kill).2).2.reapHandle.2.handlePid? = none
    refine reapHandle_over (hdropped ▸ hkilled.orderly hm) fun k hk hhandle => ?_
    have hsame : (dropInput w (m.deliver pid Signal.kill).2).2.handlePid? = some pid := by
      rw [show World.handlePid? _ = _ from congrArg Family.handle hdropped]
      exact (handle_kill m pid).trans hpid
    rw [hdropped] at hk
    exact isOver_kill hm hk (Option.some.inj (hhandle.symm.trans hsame))

end World

/-! ## Calls -/

variable {m : World} {w : Wires}

/-- Beginning a call leaves the family alone; at most the input of the process is closed. -/
theorem startCall_family (now : Nat) (c : Call) (s : Wires × World) :
    (startCall now c s).2.family = s.2.family := by
  cases c with
  | wait limit => exact World.family_dropInput s.1 s.2
  | _ => rfl

/-- What the calls of the platforms do: signals are sent, the creator asks for its process or kills
it, and everything else is only looked at. -/
theorem lookCall_becomes (hm : m.family.Orderly) (since now : Nat) (c : Call) :
    m.family.Becomes (lookCall since now c (w, m)).2.2.family := by
  cases c with
  | signal pid signal => exact World.deliver_becomes hm pid signal
  | signalGroup group signal => exact World.deliverGroup_becomes hm group signal
  | wait limit =>
    have hreaped := World.reapHandle_becomes m
    unfold lookCall
    dsimp only
    generalize m.reapHandle = reaped at hreaped
    obtain ⟨status, m'⟩ := reaped
    cases status <;> exact hreaped
  | slay => exact World.slay_becomes hm w
  | runKiller args => exact World.runKiller_becomes hm args
  | handle | isThere | sleep | now | table | searchOn => exact .refl _

/-- Whoever answers the calls keeps what the family has become: beginning a call does nothing to it,
and looking is one of the cases above. -/
theorem agent_keeps (hm : m.family.Orderly) :
    agent.Keeps fun s => m.family.Becomes s.2.family where
  start now c s hs := by
    show m.family.Becomes (startCall now c s).2.family
    rw [startCall_family]
    exact hs
  look since now c s hs := hs.trans (lookCall_becomes (hs.orderly hm) since now c)

/-- All that the processes can do at an instant is one thing after another. -/
theorem settle_becomes (hm : m.family.Orderly) (fuel : Nat) :
    m.family.Becomes (settle fuel (w, m)).2.family := by
  induction fuel generalizing w m with
  | zero => exact .refl _
  | succ fuel ih =>
    rw [settle]
    split
    · next next hact =>
      have hstep := World.act_becomes hm hact
      exact hstep.trans (ih (hstep.orderly hm))
    · exact .refl _

/-- So does answering them in time, where the processes do what they can between two looks. -/
theorem clockwork_keeps (hm : m.family.Orderly) :
    clockwork.Keeps fun s => m.family.Becomes s.2.family where
  toKeeps := agent_keeps hm
  settle _ hs := hs.trans (settle_becomes (hs.orderly hm) Plan.patience)
  moveTo _ _ _ hs := hs

/-- The search for descendants ends at once: the table that it is given has no process that is its
own ancestor. -/
theorem carry_findDescendants (hm : m.family.Orderly) (now : Nat) (pid : Pid) :
    ∃ pids, Table.LeavesFirst m.table pid pids ∧
      (Platform.findDescendants pid).carry agent now (w, m) = (.finished (.ok pids), w, m) := by
  obtain ⟨depth, pids, hdepth⟩ := World.search_ends hm pid
  have hsearch : Table.descendants m.table (m.table.length + 1) pid = some pids :=
    Table.descendants_eq_some_iff.mpr ⟨depth, hdepth⟩
  refine ⟨pids, Table.leavesFirst (World.distinct_table hm) hsearch, ?_⟩
  simp only [Platform.findDescendants, Plan.carry, agent, startCall, lookCall, hsearch]

/-! ## A machine behind a link -/

namespace Site

/-- What is asked of the process at the other side does to its machine what the machine can go
through. -/
theorem start_leads (now : Nat) (c : Control.Command) (v : Wires) (s : Site) :
    s.machine.Leads (start now c (v, s)).2.machine :=
  fun hs => (agent_keeps hs).carry now _ (.refl _)

theorem look_leads (since now : Nat) (c : Control.Command) (v : Wires) (s : Site) :
    s.machine.Leads (look since now c (v, s)).2.2.machine := by
  intro hs
  unfold look
  split
  · exact .refl _
  · next busy _ =>
    split
    · have hpolled := (agent_keeps hs).poll now busy.progress (s := (v, s.machine)) (.refl _)
      dsimp only
      split <;> exact hpolled
    · exact .refl _

/-- What the processes of a machine do, what its manager is asked, and what a launch does there. -/
theorem carries : backend.Carries fun s s' => s.machine.Leads s'.machine where
  refl s := .refl s.machine
  trans := .trans
  act {v s p} hact := by
    obtain ⟨next, hnext, rfl⟩ := Option.map_eq_some_iff.mp hact
    exact fun hs => World.act_becomes hs hnext
  start := start_leads
  look := look_leads
  createFile suffix s := by
    show s.machine.Leads (createFile suffix s).2.machine
    unfold createFile
    split <;> exact .refl s.machine
  writeFile _ _ s := .refl s.machine
  removeFile _ s := .refl s.machine
  spawn now program args directory env s _ := by
    have hspawned := World.spawn_becomes s.machine program args directory env
    rw [← World.family_takePipes (s.machine.spawn program args directory env).2] at hspawned
    exact hspawned

end Site

end KernelLink.Machine
