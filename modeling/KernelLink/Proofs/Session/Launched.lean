import KernelLink.Proofs.Session.Launching
import KernelLink.Proofs.Session.Played
import KernelLink.Session.Client
/-!
# From a launch to the link

A launch that is carried out either fails or hands a link over: the link begins over the wires that
the waiting for the greeting has left, so the kernel's lines behind its greeting are still to be
read, and it knows that greeting. From then on every operation of a client is a run of that link, so
the link of a client is always one that the link right after the greeting can come to.

Main definitions:
* `Client.Follows`: the link of a client has come from another one, and its free numbers are free.
* `Backend.Carries`: what becomes of the other side, also while a kernel is launched.

Main results:
* `Client.launch?_ok`, `Client.launch?_error`: what a launch in time gives.
* `Client.greeted`: the link begins where a run of the waiting for the greeting has ended.
* `Client.follows_launch?`, `Client.Follows.await`: whatever a client does is a run of its link.
* `Client.carried_launch?`, `Client.carried_request`: what becomes of the other side meanwhile.
-/
namespace KernelLink.Session

open Launch (stage start handshake)
open Plan (patience)

variable {σ : Type} {b : Backend σ} {timing : Timing}

/-! ## Carrying a launch out -/

namespace Launch

variable {α β : Type} {s s' : Wires × σ} {hello : Hello}

/-- One plan after another is carried out one after another, by induction on the first of them. -/
theorem runLaunch_bind (p : Steps α) (f : α → Steps β) (s : Wires × σ) :
    runLaunch b timing (p.bind f) s =
      runLaunch b timing (f (runLaunch b timing p s).1) (runLaunch b timing p s).2 := by
  induction p generalizing s with
  | done a => rfl
  | ask c next ih => exact ih _ _

/-- Removing the artifact does not touch the wires, whether it was a file of our own or not. -/
theorem runLaunch_release (staged : Staged) (s : Wires × σ) :
    (runLaunch b timing staged.release s).2.1 = s.1 := by
  cases staged <;> rfl

/-- A handshake that succeeds has taken the pipes, and its greeting is the one that came in time. -/
theorem runLaunch_handshake (h : runLaunch b timing handshake s = (.ok hello, s')) :
    b.hasPipes s.2 = true ∧
      greet b timing patience (Handshake.begin timing s.1) s = (.ok hello, s') := by
  unfold handshake runLaunch at h
  cases hpipes : b.hasPipes s.2 with
  | false =>
    simp only [answerLaunch, hpipes, runLaunch] at h
    exact nomatch h
  | true =>
    refine ⟨rfl, ?_⟩
    simp only [answerLaunch, hpipes, runLaunch] at h
    generalize greet b timing patience (Handshake.begin timing s.1) s = greeted at h ⊢
    obtain ⟨result, s''⟩ := greeted
    cases result with
    | error e =>
      simp only [runLaunch] at h
      exact nomatch h
    | ok hello => exact h

/-- Starting that succeeds ends with such a handshake: of its steps only the handshake gives a
greeting, and the pipes were open when it was begun. -/
theorem runLaunch_start {c : LaunchConfig} {path : List UInt8}
    (h : runLaunch b timing (start c path) s = (.ok hello, s')) :
    ∃ s₀, b.hasPipes s₀.2 = true ∧
      greet b timing patience (Handshake.begin timing s₀.1) s₀ = (.ok hello, s') := by
  unfold start runLaunch at h
  generalize answerLaunch b timing (spawning c path) s = spawned at h
  obtain ⟨created, s₀⟩ := spawned
  cases created with
  | error cause => exact nomatch h
  | ok _ =>
    refine ⟨s₀, ?_⟩
    simp only [runLaunch_bind] at h
    generalize hshaken : runLaunch b timing handshake s₀ = shaken at h
    obtain ⟨result, s''⟩ := shaken
    cases result with
    | error e => exact nomatch h
    | ok hello' =>
      cases h
      exact runLaunch_handshake hshaken

/-- A launch that succeeds has come to such a handshake, and what it does after that leaves the
wires alone. -/
theorem runLaunch_launch {c : LaunchConfig}
    (h : runLaunch b timing (launch c) s = (.ok hello, s')) :
    ∃ s₀ side, b.hasPipes s₀.2 = true ∧
      greet b timing patience (Handshake.begin timing s₀.1) s₀ = (.ok hello, s'.1, side) := by
  unfold launch at h
  split at h
  · exact nomatch h
  · rw [runLaunch_bind] at h
    generalize runLaunch b timing (stage c.artifact) s = staging at h
    obtain ⟨staged, s₁⟩ := staging
    cases staged with
    | error e => exact nomatch h
    | ok staged =>
      simp only [runLaunch_bind] at h
      generalize hstarted : runLaunch b timing (start c staged.path) s₁ = started at h
      obtain ⟨result, s₂⟩ := started
      have hwires : (runLaunch b timing staged.release s₂).2.1 = s₂.1 :=
        runLaunch_release staged s₂
      generalize runLaunch b timing staged.release s₂ = released at h hwires
      cases h
      obtain ⟨s₀, hpipes, hgreeted⟩ := runLaunch_start hstarted
      refine ⟨s₀, s₂.2, hpipes, ?_⟩
      rw [hgreeted, hwires]

end Launch

/-! ## What a launch gives -/

namespace Client

variable {config : LaunchConfig} {now : Nat} {side : σ} {s : Wires × σ} {c : Client σ}

/-- A launch that succeeds hands over the link after the greeting: it begins over the wires that
waiting for the greeting has left, behind the three pipes of a process, and knows that greeting. -/
theorem launch?_ok (h : launch? b config now side = (.ok c, s)) :
    c.scene.world = World.new config.timing s.1 ∧ c.scene.side = s.2 ∧ c.next = 0 ∧
      ∃ s₀ side₀, b.hasPipes s₀.2 = true ∧
        greet b config.timing patience (Handshake.begin config.timing s₀.1) s₀ =
          (.ok c.hello, s.1, side₀) := by
  unfold launch? at h
  dsimp only at h
  generalize hlaunched : runLaunch b config.timing (launch config)
    (Wires.new now config.timing.maxStderrBytes, side) = launched at h
  obtain ⟨result, wires, side'⟩ := launched
  cases result with
  | error e => exact nomatch h
  | ok hello =>
    cases h
    obtain ⟨s₀, side₀, hgreeted⟩ := Launch.runLaunch_launch hlaunched
    exact ⟨rfl, rfl, rfl, s₀, side₀, hgreeted⟩

/-- A launch fails in time exactly if its plan does, with the same error and the same traces. -/
theorem launch?_error {e : LinkError} :
    launch? b config now side = (.error e, s) ↔
      runLaunch b config.timing (launch config)
        (Wires.new now config.timing.maxStderrBytes, side) = (.error e, s) := by
  unfold launch?
  dsimp only
  generalize runLaunch b config.timing (launch config)
    (Wires.new now config.timing.maxStderrBytes, side) = launched
  obtain ⟨result, wires, side'⟩ := launched
  cases result with
  | error e' => simp
  | ok hello => simp

/-- With a faithful other side, the link begins where some run of the waiting for the greeting has
ended, and that run has ended with the greeting that the link knows. -/
theorem greeted (hb : b.Faithful) (h : launch? b config now side = (.ok c, s)) :
    ∃ v events, Handshake.after config.timing v events = (.finished (.ok c.hello), s.1) ∧
      c.scene.world = World.new config.timing s.1 := by
  obtain ⟨hworld, -, -, s₀, side₀, -, hgreeted⟩ := launch?_ok h
  obtain ⟨events, stage, hrun, hends⟩ :=
    greet_run hb config.timing patience (Handshake.begin config.timing s₀.1) s₀
  rw [hgreeted] at hrun hends
  rcases hends with rfl | hlate
  · exact ⟨s₀.1, events, hrun, hworld⟩
  · exact nomatch hlate

/-! ## What a client does -/

/-- The link of a client has come from the link `w`, and no task has a number that the client has
yet to give. -/
structure Follows (w : World) (c : Client σ) : Prop where
  /-- The link has come from `w`. -/
  run : ∃ events, c.scene.world = w.run events
  /-- The numbers that are still to be given are free. -/
  fresh : ∀ i, c.next ≤ i → c.scene.world.task? i = none

variable {w : World}

/-- What is played out without a new task leads the link on, and keeps the free numbers free. -/
theorem Follows.plays (h : c.Follows w) {scene : Scene σ} (hp : c.scene.Plays scene) :
    Follows w { c with scene := scene } := by
  obtain ⟨past, hpast⟩ := h.run
  obtain ⟨events, hevents, hrun⟩ := hp
  refine ⟨⟨past ++ events, ?_⟩, fun i hi => ?_⟩
  · show scene.world = _
    rw [hrun, hpast, World.run_append]
  · show scene.world.task? i = none
    rw [hrun]
    exact World.run_fresh hevents (h.fresh i hi)

/-- The link that a launch hands over has no tasks yet, so the run that it follows is the empty one.
-/
theorem follows_launch? (h : launch? b config now side = (.ok c, s)) :
    Follows (World.new config.timing s.1) c := by
  obtain ⟨hworld, -⟩ := launch?_ok h
  refine ⟨⟨[], hworld⟩, fun i _ => ?_⟩
  rw [hworld]
  rfl

/-- A task that begins with the next number begins as an event of the link, and takes no other
number. -/
theorem Follows.begin (h : c.Follows w) {f : World → Nat → World} {e : Event}
    (hf : c.scene.world.apply e = f c.scene.world c.next)
    (hothers : ∀ i, i ≠ c.next → (f c.scene.world c.next).task? i = c.scene.world.task? i) :
    Follows w (c.begin f).1 := by
  obtain ⟨past, hpast⟩ := h.run
  refine ⟨⟨past ++ [e], ?_⟩, fun i hi => ?_⟩
  · show f c.scene.world c.next = _
    rw [World.run_concat, ← hpast, hf]
  · have hlt : c.next < i := hi
    show (f c.scene.world c.next).task? i = none
    rw [hothers i (by omega)]
    exact h.fresh i (by omega)

/-- A call begins, which is an event of the run that the client follows. -/
theorem Follows.beginCall (h : c.Follows w) (r : Request) : Follows w (c.beginCall r).1 := by
  have hnew : c.scene.world.task? c.next = none := h.fresh c.next (Nat.le_refl _)
  refine h.begin (e := .call c.next (Text.Utf8.bytes r.line)) ?_ fun i hi => ?_
  · show (if (c.scene.world.task? c.next).isSome then _ else _) = _
    rw [hnew]
    rfl
  · unfold World.beginCall
    split
    · rw [World.task?_addTask _ _ _ _ hnew, if_neg hi]
    · rw [World.task?_enqueue _ _ _ _ hnew, if_neg hi]

/-- A closing begins, which is one event of the run, under the next number that is free. -/
theorem Follows.beginClose (h : c.Follows w) : Follows w c.beginClose.1 := by
  have hnew : c.scene.world.task? c.next = none := h.fresh c.next (Nat.le_refl _)
  refine h.begin (e := .close c.next) ?_ fun i hi => ?_
  · show (if (c.scene.world.task? c.next).isSome then _ else _) = _
    rw [hnew]
    rfl
  · unfold World.beginClose
    split
    · rw [World.task?_addTask _ _ _ _ hnew, if_neg hi]
    · rw [World.task?_addTask { c.scene.world with closed := true } _ _ _ hnew, if_neg hi]
      rfl

/-! ### What is played out for it -/

section Course

variable {R : Scene σ → Scene σ → Prop}

/-- Waiting for a task brings about what each thing does that is done meanwhile. -/
theorem course_await (h : Scene.Course b R) (c : Client σ) (id : Nat) :
    R c.scene (c.await b id).scene := by
  have hadvanced := h.advance id patience c.scene
  unfold Client.await
  dsimp only
  split
  · exact hadvanced
  · exact h.trans hadvanced (h.runUntil [] (finished id) patience _)

/-- So does letting time pass: by induction on how often the clock may still be moved. -/
theorem course_sleep_go (h : Scene.Course b R) (target fuel : Nat) (s : Scene σ) :
    R s (sleep.go b target fuel s) := by
  induction fuel generalizing s with
  | zero => exact h.refl s
  | succ fuel ih =>
    have hsettled := h.settle patience s
    unfold sleep.go
    generalize s.settle b patience = s' at hsettled
    dsimp only
    split
    · exact hsettled
    · next t hdue =>
      have hmoved := h.trans hsettled (h.clock (Nat.le_of_lt (Scene.lt_of_due hdue)))
      split
      · exact hmoved
      · exact h.trans hmoved (ih _)

theorem course_sleep (h : Scene.Course b R) (c : Client σ) (ms : Nat) :
    R c.scene (c.sleep b ms).scene := by
  unfold Client.sleep
  dsimp only
  split
  · exact h.refl c.scene
  · exact course_sleep_go h _ patience c.scene

/-- Moving the clock by hand is a move of the clock like any other. -/
theorem course_skip (h : Scene.Course b R) (c : Client σ) (ms : Nat) :
    R c.scene (c.skip ms).scene :=
  h.clock (Nat.le_add_right _ ms)

end Course

/-- Waiting for a task is a run of the link, with the other side answering. -/
theorem Follows.await (hb : b.Faithful) (h : c.Follows w) (id : Nat) :
    Follows w (c.await b id) :=
  h.plays (course_await (Scene.course_plays hb) c id)

/-- Doing what can be done at this instant: none of that begins a task, so the numbers stay as they
were. -/
theorem Follows.settle (hb : b.Faithful) (h : c.Follows w) : Follows w (c.settle b) :=
  h.plays ((Scene.course_plays hb).settle patience c.scene)

/-- Moving the clock is one event of such a run, and begins no task. -/
theorem Follows.skip (hb : b.Faithful) (h : c.Follows w) (ms : Nat) : Follows w (c.skip ms) :=
  h.plays (course_skip (Scene.course_plays hb) c ms)

/-- Letting time pass is a run of the link, moment by moment. -/
theorem Follows.sleep (hb : b.Faithful) (h : c.Follows w) (ms : Nat) :
    Follows w (c.sleep b ms) := by
  have hslept := h.plays (course_sleep (Scene.course_plays hb) c ms)
  unfold Client.sleep at hslept ⊢
  split
  · exact h
  · next hms =>
    rw [if_neg hms] at hslept
    exact hslept

/-- A request that is played out to its end: it is begun, which is an event, and then awaited. -/
theorem Follows.request (hb : b.Faithful) (h : c.Follows w) (r : Request) :
    Follows w (c.request b r).2 :=
  (h.beginCall r).await hb _

/-- A closing that is played out to its end, the manager's answers included. -/
theorem Follows.close (hb : b.Faithful) (h : c.Follows w) : Follows w (c.close b).2 :=
  h.beginClose.await hb _

end Client

/-! ## What becomes of the other side -/

/-- Whatever a launch does to the other side leads on as well: it makes, writes and removes files
and creates a process there. -/
structure Backend.Carries (b : Backend σ) (K : σ → σ → Prop) : Prop extends b.Leads K where
  /-- A file is made. -/
  createFile : ∀ suffix r, K r (b.createFile suffix r).2
  /-- A file is written. -/
  writeFile : ∀ path bytes r, K r (b.writeFile path bytes r).2
  /-- A file is removed. -/
  removeFile : ∀ path r, K r (b.removeFile path r)
  /-- A process is created. -/
  spawn : ∀ now program args directory env r, K r (b.spawn now program args directory env r).2

variable {K : σ → σ → Prop}

/-- All that the other side can do is one thing after another. Induction on how often it is asked.
-/
theorem Backend.Leads.actAll (hb : b.Leads K) (fuel : Nat) (s : Wires × σ) :
    K s.2 (Session.actAll b fuel s).2 := by
  induction fuel generalizing s with
  | zero => exact hb.refl s.2
  | succ fuel ih =>
    rw [Session.actAll]
    split
    · next s' hact =>
      have hfirst : K s.2 s'.2 := by
        unfold actOnce at hact
        split at hact
        · next p hdone =>
          cases hact
          exact hb.act hdone
        · obtain ⟨v, -, rfl⟩ := Option.map_eq_some_iff.mp hact
          exact hb.refl s.2
      exact hb.trans hfirst (ih s')
    · exact hb.refl s.2

/-- Carrying out a plan of process control does what its commands do. -/
theorem Backend.Leads.runPlan (hb : b.Leads K) {α : Type} (plan : Control.Routine α)
    (s : Wires × σ) : K s.2 (Session.runPlan b plan s).2.2 := by
  have hkeeps : (clockwork b).Keeps fun s' => K s.2 s'.2 :=
    { start := fun now c s' hs => hb.trans hs (hb.start now c s'.1 s'.2)
      look := fun since now c s' hs => hb.trans hs (hb.look since now c s'.1 s'.2)
      settle := fun s' hs => hb.trans hs (hb.actAll patience s')
      moveTo := fun _ _ _ hs => hs }
  exact hkeeps.runIn plan (hb.refl s.2)

/-- Waiting for a greeting lets the other side do what it does meanwhile. -/
theorem Backend.Leads.greet (hb : b.Leads K) (fuel : Nat) (stage : Handshake.Stage)
    (s : Wires × σ) : K s.2 (Session.greet b timing fuel stage s).2.2 := by
  induction fuel generalizing stage s with
  | zero => exact hb.refl s.2
  | succ fuel ih =>
    have hacted := hb.actAll patience s
    unfold Session.greet
    generalize Session.actAll b patience s = s' at hacted
    split
    · exact hacted
    · dsimp only
      split
      · next stage' v _ => exact hb.trans hacted (ih stage' (v, s'.2))
      · split
        · next t _ => exact hb.trans hacted (ih stage (moveTo t s'.1, s'.2))
        · exact hacted

/-- Each thing that a launch does leads on, as the invariant of the backend asks of every one of its
operations, -/
theorem Backend.Carries.answerLaunch (hb : b.Carries K) (c : Launch.Command) (s : Wires × σ) :
    K s.2 (Session.answerLaunch b timing c s).2.2 := by
  cases c with
  | look | openPipes | stopCapture => exact hb.refl s.2
  | createFile suffix => exact hb.createFile suffix s.2
  | writeFile path bytes => exact hb.writeFile path bytes s.2
  | spawn program args directory env => exact hb.spawn s.1.now program args directory env s.2
  | greet => exact hb.greet _ _ s
  | removeFile path => exact hb.removeFile path s.2
  | forceKill =>
    have hkilled := hb.runPlan (.ask .forceKill .done) s
    unfold Session.answerLaunch
    generalize Session.runPlan b (.ask .forceKill .done) s = killed at hkilled
    obtain ⟨outcome, s'⟩ := killed
    cases outcome <;> exact hkilled

/-- and so does the whole of it: by induction on its plan. -/
theorem Backend.Carries.runLaunch (hb : b.Carries K) {α : Type} (plan : Launch.Steps α)
    (s : Wires × σ) : K s.2 (Session.runLaunch b timing plan s).2.2 := by
  induction plan generalizing s with
  | done a => exact hb.refl s.2
  | ask c next ih => exact hb.trans (hb.answerLaunch c s) (ih _ _)

namespace Client

variable {config : LaunchConfig} {now : Nat} {side : σ} {c : Client σ}

/-- A launch leads the other side on, whether or not it succeeds. -/
theorem carried_launch? (hb : b.Carries K) {result : Except LinkError (Client σ)} {s : Wires × σ}
    (h : launch? b config now side = (result, s)) : K side s.2 := by
  have hlaunched : K side (runLaunch b config.timing (launch config)
      (Wires.new now config.timing.maxStderrBytes, side)).2.2 :=
    hb.runLaunch _ (Wires.new now config.timing.maxStderrBytes, side)
  unfold launch? at h
  dsimp only at h
  generalize runLaunch b config.timing (launch config)
    (Wires.new now config.timing.maxStderrBytes, side) = launched at h hlaunched
  obtain ⟨hello, wires, side'⟩ := launched
  cases hello <;> cases h <;> exact hlaunched

/-- So does what is played out for a request, a closing, or time. -/
theorem carried_request (hb : b.Leads K) (r : Request) :
    K c.scene.side (c.request b r).2.scene.side :=
  course_await (Scene.course_side hb) (c.beginCall r).1 c.next

/-- A closing carries the other side on, as all that is waited for does. -/
theorem carried_close (hb : b.Leads K) : K c.scene.side (c.close b).2.scene.side :=
  course_await (Scene.course_side hb) c.beginClose.1 c.next

theorem carried_sleep (hb : b.Leads K) (ms : Nat) :
    K c.scene.side (c.sleep b ms).scene.side :=
  course_sleep (Scene.course_side hb) c ms

end Client
end KernelLink.Session
