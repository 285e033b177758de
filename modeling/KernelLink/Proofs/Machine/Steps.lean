import KernelLink.Proofs.Machine.Processes
import KernelLink.Proofs.Platform.WholeTree
import KernelLink.Proofs.Session.Played
/-!
# What a machine does

Each step of a machine is gone through once. A shell creates processes and asks for those that have
ended, signals and exits end them, and the creator for links starts and claims its own; everything
else leaves the family alone. So a machine whose family is in order stays that way, through every
step of every script and every call of the platforms, and it may be searched for descendants at any
moment.

Main results:
* `World.runCommand_becomes`, `World.shellStep_becomes`: what a shell does.
* `World.act_becomes`: what the processes do.
* `lookCall_becomes`: what the calls of the platforms do.
* `Site.leads`: what a machine behind a link does.
-/
namespace KernelLink.Machine

open Control (Pid Status)
open Script (Command Redirect Word)
open Session (Wires)

namespace World

variable {m m' : World} {p q : Proc} {s : Shell} {w w' : Wires}

/-! ## Commands -/

/-- Signals that a command sends, one after the other. Induction on whom they are for; a name that
is nobody's sends none. -/
theorem killAll_becomes (hm : m.family.Orderly) (s : Shell) (group : Pid) (signal : Signal)
    (targets : List String) :
    m.family.Becomes (m.killAll s group signal targets).2.2.family := by
  induction targets generalizing m with
  | nil => exact .refl _
  | cons text rest ih =>
    rw [killAll]
    split
    · exact .refl _
    · next recipient _ =>
      dsimp only
      have hsent : ∀ sent : Bool × World, m.family.Becomes sent.2.family →
          m.family.Becomes (sent.2.killAll s group signal rest).2.2.family :=
        fun sent h => h.trans (ih (h.orderly hm))
      cases recipient with
      | none => exact hsent (false, m) (.refl _)
      | some i =>
        dsimp only
        split
        · exact hsent _ (deliverGroup_becomes hm group signal)
        · split
          · exact hsent _ (deliverGroup_becomes hm i.natAbs signal)
          · exact hsent _ (deliver_becomes hm i.toNat signal)

/-- A command that sends signals does so one after the other; how it ends touches only its own
shell. -/
theorem killing_becomes (hm : m.family.Orderly) (p : Proc) (s : Shell) (args : List String) :
    m.family.Becomes (m.killing p s args).family := by
  -- how the command ends is not seen
  have hends : ∀ (m' : World) (code : Nat) (effects : List Effect),
      ((m'.updateShell p.pid fun s => { s with last := code }).update p.pid fun q =>
        { q with effects := q.effects ++ effects }).family = m'.family := by
    intro m' code effects
    refine (family_update ?_ _ p.pid).trans (family_updateShell m' p.pid _)
    exact fun _ => rfl
  unfold killing
  dsimp only
  split
  · split <;> rw [hends] <;> exact .refl _
  · split
    · rw [hends]
      exact .refl _
    · rw [hends]
      exact .refl _
    · next signal targets _ _ =>
      have hsent := killAll_becomes hm s p.group signal targets
      split <;> rw [hends] <;> exact hsent

/-- A command of the shell itself is carried out by the shell alone, unless it sends signals. -/
theorem builtin_becomes (hm : m.family.Orderly) (p : Proc) (s : Shell) (isSpecial : Bool)
    (name : String) (args : List String) :
    m.family.Becomes (m.builtin p s isSpecial name args).family := by
  have hput : ∀ (q : Proc) (s : Shell) (effects : List Effect),
      (m.update p.pid fun r =>
        { r with
          ignored := q.ignored, directory := q.directory, effects := r.effects ++ effects
          work := .shell s }).family = m.family := by
    intro q s effects
    refine family_update ?_ m p.pid
    exact fun _ => rfl
  unfold builtin
  dsimp only
  split
  · exact killing_becomes hm p s args
  · split
    · rw [hput]
      exact .refl _
    · split <;> rw [hput] <;> exact .refl _

/-- A program runs in the place of the shell or in a process of its own. -/
theorem runTool_becomes {before : Proc} (h : m.Hosts p) (s inner : Shell) (name : String)
    (args : List String) :
    m.family.Becomes (m.runTool before p s inner name args).family := by
  unfold runTool
  dsimp only
  split
  · simp only [family_complain]
    exact .refl _
  · split
    · simp only [family_become]
      exact .refl _
    · simp only [family_goOn]
      exact create_becomes h _ _ _ _ _ _

/-- A command with a name changes the shell, runs a command of the shell itself, or runs a program;
variables are set first, or the shell complains. -/
theorem runNamed_becomes {before : Proc} (h : m.Hosts p) (s : Shell)
    (assignments : List (String × Word)) (name : String) (args : List String)
    (passesFunctions : Bool) :
    m.family.Becomes (m.runNamed before p s assignments name args passesFunctions).family := by
  -- the commands of the shell itself are the only ones here that can send a signal or wait
  have hbuiltin : ∀ (s : Shell) (isSpecial : Bool),
      m.family.Becomes ((m.goOn p s).builtin p s isSpecial name args).family := by
    intro s isSpecial
    have hgoOn := family_goOn m p s
    rw [← hgoOn]
    exact builtin_becomes (hgoOn ▸ h.orderly) p s isSpecial name args
  unfold runNamed
  dsimp only
  split
  · split
    · split
      · split <;> simp only [family_goOn, family_abandon] <;> exact .refl _
      · split
        · split
          · simp only [family_become]
            exact .refl _
          · simp only [family_goOnAfter]
            exact .refl _
        · simp only [family_abandon]
          exact .refl _
    · split
      · exact hbuiltin _ _
      · simp only [family_abandon]
        exact .refl _
  · split
    · split <;> simp only [family_goOn, family_abandon] <;> exact .refl _
    · split
      · split
        · exact hbuiltin _ _
        · simp only [family_abandon]
          exact .refl _
      · split
        · exact runTool_becomes h s _ name args
        · simp only [family_abandon]
          exact .refl _

/-- A simple command puts its words together, opens what it redirects, and then is a function, a
command of the shell or a program. What goes wrong on the way is a complaint. -/
theorem runSimple_becomes (h : m.Hosts p) (s : Shell) (c : Command) (shown : Bool)
    (assignments : List (String × Word)) (words : List Word) (redirects : List Redirect) :
    m.family.Becomes (m.runSimple p s c shown assignments words redirects).family := by
  unfold runSimple
  dsimp only
  split
  · simp only [family_abandon]
    exact .refl _
  · split
    · simp only [family_goOnAfter]
      exact .refl _
    · split
      · simp only [family_hinder]
        exact .refl _
      · next m' q s' hredirect =>
        obtain ⟨hfamily, hpid, -⟩ := family_redirect hredirect
        have hsame : m.family.Becomes m'.family := hfamily ▸ .refl _
        split
        · split <;> simp only [family_goOn, family_abandon] <;> exact hsame
        · exact hsame.trans (runNamed_becomes (h.later hsame hpid) s' assignments _ _ _)

/-- Whatever a command is, the shell begins with it by going on, by creating processes, or by
complaining. -/
theorem runCommand_becomes (h : m.Hosts p) (s : Shell) (c : Command) (shown : Bool) :
    m.family.Becomes (m.runCommand p s c shown).family := by
  unfold runCommand
  extract_lets go within checked now
  -- most commands only put something on the shell's own pile, which the family does not see
  have hgo : ∀ frames, m.family.Becomes (go frames).family := by
    intro frames
    have hsame : (go frames).family = m.family := family_goOn m p _
    rw [hsame]
    exact .refl _
  -- redirections open and close files, and those are not part of the family either
  have hwithin : ∀ redirects f, m.family.Becomes (within redirects f).family := by
    intro redirects f
    dsimp only [within]
    split
    · simp only [family_hinder]
      exact .refl _
    · next m' q s' hredirect =>
      have hsame : m.family.Becomes m'.family := (family_redirect hredirect).1 ▸ .refl _
      split <;> simp only [family_goOn, family_abandon] <;> exact hsame
  clear_value go within checked now
  split
  · simp only [family_goOn]
    exact fork_becomes (m := (m.addPipe .new).2) ⟨h.orderly, h.other, h.known⟩ _ _ _
  · split
    · exact runSimple_becomes h _ _ _ _ _ _
    · exact hgo _
    · exact hgo _
    · exact hgo _
    · exact hgo _
    · simp only [family_goOn]
      refine fork_becomes ?_ _ _ _
      exact h.later (.refl _) rfl
    · simp only [family_goOn]
      exact forkStages_becomes h _ _ _
    · exact hwithin _ _
    · dsimp only
      split
      · simp only [family_hinder]
        exact .refl _
      · next m' q s' hredirect =>
        have hsame : m.family.Becomes m'.family := (family_redirect hredirect).1 ▸ .refl _
        split
        · simp only [family_goOn]
          exact hsame
        · simp only [family_goOn]
          exact hsame.trans (fork_becomes (h.later hsame rfl) _ _ _)
    · exact hwithin _ _
    · exact hwithin _ _
    · exact hwithin _ _
    · exact hwithin _ _
    · simp only [family_goOn]
      exact .refl _

/-! ## Shells -/

/-- A shell asks for a child that has ended, and that is forgotten. -/
theorem reapOne_becomes (h : m.Hosts p) (hreap : m.reapOne p s = some m') :
    m.family.Becomes m'.family := by
  unfold reapOne at hreap
  split at hreap
  · next c hfind =>
    cases hreap
    have hchild : c.parent = p.pid ∧ c.status.isSome := by simpa using List.find?_some hfind
    have hparent : c.kin.parent ≠ creatorPid := by
      show c.parent ≠ creatorPid
      rw [hchild.1]
      exact Nat.ne_of_gt h.other
    rw [family_goOn, family_remove]
    exact (Family.Step.forgets (mem_family (List.mem_of_find?_eq_some hfind)) hparent).becomes
  · exact nomatch hreap

/-- A shell that attends to a signal goes on with its own commands. -/
theorem family_attend (h : m.attend p s = some m') : m'.family = m.family := by
  unfold attend at h
  split at h
  · exact nomatch h
  · split at h
    · exact nomatch h
    · cases h
      exact family_goOn m p _

theorem family_assignLine (m : World) (p : Proc) (s : Shell) (asIs : Bool) (names : List String)
    (taken : List UInt8) (code : Nat) :
    (m.assignLine p s asIs names taken code).family = m.family := by
  unfold assignLine
  dsimp only
  split
  · exact family_goOn m p _
  · exact family_goOnAfter m p _ _

/-- What a shell reads from its input becomes something to do for it. -/
theorem family_interactStep {line : Nat} {taken : List UInt8} {next : Wires × World}
    (h : m.interactStep w p s line taken = some next) : next.2.family = m.family := by
  unfold interactStep at h
  split at h
  · cases h
    exact family_goOn m p _
  · split at h
    · next hread =>
      cases h
      exact (family_goOn _ p _).trans (family_read hread)
    · exact nomatch h
    · cases h
      exact family_goOn m p _

/-- What a shell has yet to do changes the shell alone, unless it is a command. -/
theorem frameStep_becomes (h : m.Hosts p) {frame : Frame} {next : Wires × World}
    (hstep : m.frameStep w p s frame = some next) : m.family.Becomes next.2.family := by
  -- most frames lead at once to a machine with the same family
  have hjust : ∀ {v : Wires} {m' : World}, m'.family = m.family → some (v, m') = some next →
      m.family.Becomes next.2.family := by
    rintro v m' hsame ⟨⟩
    rw [hsame]
    exact .refl _
  -- the others do so as soon as what they wait for is there
  have hwait : ∀ {α : Type} {o : Option α} {f : α → Wires × World},
      (∀ a, (f a).2.family = m.family) → o.map f = some next →
      m.family.Becomes next.2.family := by
    intro α o f hf ho
    obtain ⟨a, -, rfl⟩ := Option.map_eq_some_iff.mp ho
    rw [hf a]
    exact .refl _
  have hgoOn := fun q s' => family_goOn m q s'
  have hafter := fun s' effects => family_goOnAfter m p s' effects
  cases frame with
  | run c | shown c =>
    obtain rfl : _ = next := Option.some.inj hstep
    exact runCommand_becomes h s c _
  | ifSucceeded | ifFailed | negate | loopAgain | restore | rebind | leave | calling | status =>
    exact hjust (hgoOn _ _) hstep
  | mistake => exact hjust (family_abandon m p _ _) hstep
  | loopTest | branch | checked =>
    unfold frameStep at hstep
    dsimp only at hstep
    split at hstep <;> exact hjust (hgoOn _ _) hstep
  | each name values body =>
    unfold frameStep at hstep
    dsimp only at hstep
    cases values with
    | nil => exact hjust (hgoOn _ _) hstep
    | cons v values =>
      dsimp only at hstep
      split at hstep
      · exact hjust (hgoOn _ _) hstep
      · exact hjust (family_abandon m p _ _) hstep
  | child | pipeline => exact hwait (fun _ => hafter _ _) hstep
  | job pid =>
    cases pid with
    | some pid => exact hwait (fun _ => hafter _ _) hstep
    | none =>
      unfold frameStep at hstep
      dsimp only at hstep
      split at hstep
      · exact hjust (hgoOn _ _) hstep
      · exact nomatch hstep
  | collect n pid taken c =>
    unfold frameStep at hstep
    dsimp only at hstep
    split at hstep
    · next hread => exact hjust ((family_goOn _ p _).trans (family_read hread)) hstep
    · exact nomatch hstep
    · exact hwait (fun _ => hafter _ _) hstep
  | read asIs names taken =>
    unfold frameStep at hstep
    dsimp only at hstep
    split at hstep
    · next hread =>
      have hsame := family_readLine hread
      split at hstep
      · split at hstep
        · exact hjust ((family_goOn _ p _).trans hsame) hstep
        · exact hjust ((family_assignLine _ p s _ _ _ _).trans hsame) hstep
      · exact hjust ((family_goOn _ p _).trans hsame) hstep
    · exact nomatch hstep
    · exact hjust (family_assignLine m p s _ _ _ _) hstep
  | quit code =>
    unfold frameStep at hstep
    dsimp only at hstep
    split at hstep
    · exact hjust (hgoOn _ _) hstep
    · refine hjust (family_update ?_ m p.pid) hstep
      exact fun _ => rfl
  | interact line taken =>
    rw [family_interactStep hstep]
    exact .refl _

/-- A step of a shell attends to a signal, or goes on with the first thing that it has to do, or
takes a new line; only the second may create or end processes. -/
theorem shellStep_becomes (h : m.Hosts p) {next : Wires × World}
    (hstep : m.shellStep w p s = some next) : m.family.Becomes next.2.family := by
  unfold shellStep at hstep
  split at hstep
  · next hattend =>
    cases hstep
    rw [family_attend hattend]
    exact .refl _
  · split at hstep
    · cases hstep
      rw [family_goOn]
      exact .refl _
    · split at hstep
      · next hreap =>
        cases hstep
        split at hreap
        · exact reapOne_becomes h hreap
        · exact nomatch hreap
      · exact frameStep_becomes h hstep

/-! ## Steps of the processes -/

/-- A process that writes to a pipe without a reader ends, or goes on if it has said so. -/
theorem brokenPipe_becomes (h : m.Hosts p) (toErrors : Bool) :
    m.family.Becomes (m.brokenPipe p toErrors).family := by
  have hupdate : ∀ f : Proc → Proc, (∀ p, (f p).kin = p.kin) →
      m.family.Becomes (m.update p.pid f).family := by
    intro f hf
    rw [family_update hf]
    exact .refl _
  unfold brokenPipe
  split
  · exact hupdate _ fun _ => rfl
  · split
    · exact hupdate _ fun _ => rfl
    · exact receive_becomes (Nat.ne_of_gt h.other) m _

/-- The next thing that a process does: an effect that is due, a step of its program, or the end of
its sleep. -/
theorem step_becomes (h : m.Hosts p) {next : Wires × World} (hstep : m.step w p = some next) :
    m.family.Becomes next.2.family := by
  -- most steps change what a process is about to do, not what it is to its family
  have hupdate : ∀ {v : Wires} {m' : World} {f : Proc → Proc}, m'.family = m.family →
      some (v, m'.update p.pid f) = some next → (∀ p, (f p).kin = p.kin) →
      m.family.Becomes next.2.family := by
    rintro v m' f hsame ⟨⟩ hf
    rw [family_update hf, hsame]
    exact .refl _
  unfold step at hstep
  split at hstep
  · exact nomatch hstep
  · split at hstep
    · dsimp only at hstep
      split at hstep
      · next hwrite => exact hupdate (family_write hwrite) hstep fun _ => rfl
      · next hwrite => exact hupdate (family_write hwrite) hstep fun _ => rfl
      · exact nomatch hstep
      · cases hstep
        exact brokenPipe_becomes h _
    · split at hstep
      · exact hupdate rfl hstep fun _ => rfl
      · split at hstep
        · exact hupdate rfl hstep fun _ => rfl
        · exact nomatch hstep
    · split at hstep
      · next hread => exact hupdate (family_read hread) hstep fun _ => rfl
      · exact nomatch hstep
      · exact hupdate rfl hstep fun _ => rfl
    · cases hstep
      exact finish_becomes (Nat.ne_of_gt h.other) m _
    · split at hstep
      · cases hstep
        exact finish_becomes (Nat.ne_of_gt h.other) m _
      · dsimp only at hstep
        split at hstep
        · exact hupdate rfl hstep fun _ => rfl
        · split at hstep
          · obtain ⟨pipe, -, rfl⟩ := Option.map_eq_some_iff.mp hstep
            rw [family_putPipe]
            exact .refl _
          · exact hupdate (family_putPipe w m _ _) hstep fun _ => rfl
      · exact shellStep_becomes h hstep

/-- The first of some processes that can do something does it. Induction on those that are tried. -/
theorem actFirst_becomes (hm : m.family.Orderly) {procs : List Proc} (hprocs : procs ⊆ m.procs)
    {next : Wires × World} (hact : m.actFirst w procs = some next) :
    m.family.Becomes next.2.family := by
  induction procs with
  | nil => exact nomatch hact
  | cons p rest ih =>
    rw [actFirst] at hact
    split at hact
    · next w' m' hstep =>
      cases hact
      show m.family.Becomes m'.family
      exact step_becomes (hosts_of_mem hm (hprocs List.mem_cons_self)) hstep
    · exact ih (fun q hq => hprocs (List.mem_cons_of_mem _ hq)) hact

/-- Whatever the processes do, one of them does it, and each of them belongs to the machine. -/
theorem act_becomes (hm : m.family.Orderly) {next : Wires × World}
    (hact : m.act w = some next) : m.family.Becomes next.2.family :=
  actFirst_becomes hm (List.Subset.refl _) hact

end World
end KernelLink.Machine
