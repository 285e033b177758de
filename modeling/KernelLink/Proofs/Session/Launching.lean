import KernelLink.Proofs.Control.ShutDown
import KernelLink.Session.Engine
/-!
# A launch that fails leaves nothing behind

A launch acquires a file, a process and a background reader, one after the other, and may fail at
each step between. A ledger is kept of what was acquired and given back. From it follows what may be
asked next, and what the ledger must say at the end: no file is left, and a process that did not
greet was killed once, its reader stopped, and the error of its handshake reported.

What is proved of a plan follows its structure: a command has to be allowed by the ledger, and
whatever the answer is, the rest has to do its part with the ledger after it.

Main definitions:
* `Launch.Ledger`, `Launch.Ledger.after`: what was acquired and given back.
* `Launch.Ledger.Allows`: what may be asked.
* `Launch.Ensures`: every command is allowed, and the result fits the ledger.
* `Launch.Settled`: what the ledger says when a launch returns.
* `Launch.Mute`, `Launch.Shaken`: a plan without a handshake, and exchanges with at most one.

Main results:
* `Launch.ensures_bind`, `Launch.Ensures.runs`: plans one after the other, and their runs.
* `Launch.launch_runs_settled`: the ledger of a launch.
* `Launch.launch_greets`, `Launch.launch_gives`: a launch with its pipes awaits the greeting and
  gives what that gave.
-/
namespace KernelLink.Session.Launch

/-- A command of a launch with its answer. -/
abbrev Exchange := Plan.Exchange Command.Answer

/-! ## The ledger -/

/-- What a launch has acquired and given back. -/
structure Ledger where
  /-- Where the artifact is, once it is in place. -/
  inPlace : Option (List UInt8)
  /-- The files that were made and are still there. -/
  files : List (List UInt8)
  /-- Was the process created? -/
  created : Bool
  /-- Does the background reader run? -/
  reader : Bool
  /-- The error that the handshake ended with. -/
  failure : Option LinkError
  /-- How often the process was killed. -/
  kills : Nat
  deriving Repr, DecidableEq

namespace Ledger

/-- Nothing was acquired. -/
def empty : Ledger := ⟨none, [], false, false, none, 0⟩

/-- The ledger after one more exchange. -/
def after (l : Ledger) : Exchange → Ledger
  | ⟨.look path, .ok ()⟩ => { l with inPlace := some path }
  | ⟨.createFile _, .ok path⟩ => { l with files := path :: l.files }
  | ⟨.writeFile path _, .ok ()⟩ => { l with inPlace := some path }
  | ⟨.spawn .., .ok ()⟩ => { l with created := true }
  | ⟨.openPipes, true⟩ => { l with reader := true }
  | ⟨.openPipes, false⟩ => { l with failure := some (.spawn "kernel process has no stdio pipes") }
  | ⟨.greet, .error e⟩ => { l with failure := some e }
  | ⟨.stopCapture, ()⟩ => { l with reader := false }
  | ⟨.forceKill, _⟩ => { l with kills := l.kills + 1 }
  | ⟨.removeFile path, ()⟩ => { l with files := l.files.erase path }
  | _ => l

/-- The ledger after some exchanges. -/
def through (l : Ledger) (es : List Exchange) : Ledger := es.foldl after l

/-- The artifact is where the kernel finds it: the file that was made, and no other, or a file that
was there, and none was made. -/
def Holds (l : Ledger) (c : LaunchConfig) (path : List UInt8) : Prop :=
  l.inPlace = some path ∧
    match c.artifact with
    | .embedded .. => l.files = [path]
    | .path given => l.files = [] ∧ path = given

/-- What may be asked of the surroundings: nothing before the configuration is valid, a process only
for an artifact in place, which stays there until the kernel has greeted, and nothing is given back
that was not acquired. -/
def Allows (l : Ledger) (c : LaunchConfig) (command : Command) : Prop :=
  c.validate = .ok () ∧
    match command with
    | .look path => c.artifact = .path path
    | .createFile suffix => ∃ bytes, c.artifact = .embedded bytes suffix
    | .writeFile path bytes => path ∈ l.files ∧ ∃ suffix, c.artifact = .embedded bytes suffix
    | .spawn .. => ∃ path, l.Holds c path ∧ command = spawning c path
    | .openPipes => l.created = true ∧ ∃ path, l.Holds c path
    | .greet => l.created = true ∧ l.reader = true ∧ ∃ path, l.Holds c path
    | .stopCapture => l.reader = true
    | .forceKill => l.created = true ∧ l.kills = 0
    | .removeFile path => path ∈ l.files ∧ ∀ given, c.artifact ≠ .path given

end Ledger

/-- Each exchange is one that the ledger of those before it allows. -/
def Guarded (c : LaunchConfig) (l : Ledger) (es : List Exchange) : Prop :=
  ∀ before x rest, es = before ++ x :: rest → (l.through before).Allows c x.command

/-! ## What a plan ensures -/

variable {α β : Type} {c : LaunchConfig} {l : Ledger}

/-- Every command of a plan is allowed when it is asked, and the result fits the ledger that there
is then. -/
def Ensures (c : LaunchConfig) : Steps α → (α → Ledger → Prop) → Ledger → Prop
  | .done a, post, l => post a l
  | .ask command next, post, l =>
    l.Allows c command ∧ ∀ answer, Ensures c (next answer) post (l.after ⟨command, answer⟩)

/-- What a plan ensures that goes on as another one says: the first has to ensure what the second
needs. Induction on the first plan. -/
theorem ensures_bind {p : Steps α} {f : α → Steps β} {post : β → Ledger → Prop} :
    Ensures c (p.bind f) post l ↔ Ensures c p (fun a l => Ensures c (f a) post l) l := by
  induction p generalizing l with
  | done a => rfl
  | ask command next ih =>
    show _ ∧ (∀ answer, Ensures c ((next answer).bind f) post _) ↔ _
    simp only [ih]
    rfl

theorem guarded_nil (c : LaunchConfig) (l : Ledger) : Guarded c l [] :=
  fun _ _ _ h => absurd h.symm (List.append_ne_nil_of_right_ne_nil _ (List.cons_ne_nil _ _))

/-- Exchanges are guarded if the first is allowed now and the others are after it. -/
theorem guarded_cons {x : Exchange} {es : List Exchange} (hx : l.Allows c x.command)
    (hes : Guarded c (l.after x) es) : Guarded c l (x :: es) := by
  intro before y rest h
  cases before with
  | nil =>
    obtain ⟨rfl, -⟩ := List.cons.inj h
    exact hx
  | cons z before =>
    obtain ⟨rfl, htail⟩ := List.cons.inj h
    exact hes before y rest htail

/-- What a plan ensures is so in each of its runs: by induction on the run, the ledger is kept
through each exchange as `Ensures` reads it. -/
theorem Ensures.runs {p : Steps α} {post : α → Ledger → Prop} {es : List Exchange} {a : α}
    (h : Ensures c p post l) (hr : p.Runs es a) : Guarded c l es ∧ post a (l.through es) := by
  induction hr generalizing l with
  | done a => exact ⟨guarded_nil c l, h⟩
  | ask _ ih =>
    obtain ⟨hallowed, hrest⟩ := h
    obtain ⟨hguarded, hpost⟩ := ih (hrest _)
    exact ⟨guarded_cons hallowed hguarded, hpost⟩

/-! ## The parts of a launch -/

/-- The files made for an artifact in place. -/
def Staged.made : Staged → List (List UInt8)
  | .temporary path => [path]
  | .existing _ => []

/-- The ledger of an artifact in place. -/
def Staged.ledger (staged : Staged) : Ledger :=
  { Ledger.empty with inPlace := some staged.path, files := staged.made }

/-- A file is made for an embedded artifact, and a path leads to a file that was there. -/
inductive Staged.Of : Artifact → Staged → Prop where
  /-- An embedded artifact. -/
  | temporary (bytes : List UInt8) (suffix : String) (path : List UInt8) :
      Of (.embedded bytes suffix) (.temporary path)
  /-- A path. -/
  | existing (path : List UInt8) : Of (.path path) (.existing path)

/-- A file in its place with what is known of it holds the artifact, whether it was made for it or
named. -/
theorem Staged.Of.holds {staged : Staged} (h : Staged.Of c.artifact staged) {l : Ledger}
    (hplace : l.inPlace = some staged.path) (hfiles : l.files = staged.made) :
    l.Holds c staged.path := by
  refine ⟨hplace, ?_⟩
  cases hartifact : c.artifact with
  | embedded bytes suffix =>
    rw [hartifact] at h
    cases h
    exact hfiles
  | path given =>
    rw [hartifact] at h
    cases h
    exact ⟨hfiles, rfl⟩

/-- Staging puts the artifact in place, or leaves the ledger empty: a file that could not be written
is removed before the error is given. -/
theorem stage_ensures (hvalid : c.validate = .ok ())
    {post : Except LinkError Staged → Ledger → Prop} (hfails : ∀ e, post (.error e) .empty)
    (hstages : ∀ staged, Staged.Of c.artifact staged → post (.ok staged) staged.ledger) :
    Ensures c (stage c.artifact) post .empty := by
  cases hartifact : c.artifact with
  | path path =>
    refine ⟨⟨hvalid, hartifact⟩, fun answer => ?_⟩
    cases answer with
    | error fault => exact hfails _
    | ok _ => exact hstages (.existing path) (hartifact ▸ .existing path)
  | embedded bytes suffix =>
    refine ⟨⟨hvalid, bytes, hartifact⟩, fun answer => ?_⟩
    cases answer with
    | error fault => exact hfails _
    | ok path =>
      refine ⟨⟨hvalid, List.mem_singleton_self path, suffix, hartifact⟩, fun answer => ?_⟩
      cases answer with
      | ok _ => exact hstages (.temporary path) (hartifact ▸ .temporary bytes suffix path)
      | error fault =>
        -- the file is there and is removed again
        refine ⟨⟨hvalid, List.mem_singleton_self path, fun given h => ?_⟩, fun _ => ?_⟩
        · rw [hartifact] at h
          exact nomatch h
        · show post _ { Ledger.empty with files := [path].erase path }
          rw [List.erase_cons_head]
          exact hfails _

/-- Starting makes no file and removes none. A process that was created and did not greet has been
killed once, and its reader stopped. -/
theorem start_ensures (hvalid : c.validate = .ok ()) {path : List UInt8} (hl : l.Holds c path)
    (hreader : l.reader = false) (hkills : l.kills = 0)
    {post : Except LinkError Hello → Ledger → Prop} (hunborn : ∀ e, post (.error e) l)
    (hfails : ∀ e, post (.error e) { l with created := true, failure := some e, kills := 1 })
    (hgreets : ∀ hello, post (.ok hello) { l with created := true, reader := true }) :
    Ensures c (start c path) post l := by
  obtain ⟨inPlace, files, created, reader, failure, kills⟩ := l
  obtain rfl : reader = false := hreader
  obtain rfl : kills = 0 := hkills
  refine ⟨⟨hvalid, path, hl, rfl⟩, fun answer => ?_⟩
  cases answer with
  | error cause => exact hunborn _
  | ok _ =>
    refine ensures_bind.mpr ⟨⟨hvalid, rfl, path, hl⟩, fun pipes => ?_⟩
    cases pipes with
    | false => exact ⟨⟨hvalid, rfl, rfl⟩, fun _ => hfails _⟩
    | true =>
      refine ⟨⟨hvalid, rfl, rfl, path, hl⟩, fun greeting => ?_⟩
      cases greeting with
      | ok hello => exact hgreets hello
      | error e => exact ⟨⟨hvalid, rfl⟩, fun _ => ⟨⟨hvalid, rfl, rfl⟩, fun _ => hfails e⟩⟩

/-- Releasing leaves no file that was made, and touches none that was named. -/
theorem release_ensures (hvalid : c.validate = .ok ()) {staged : Staged}
    (hof : Staged.Of c.artifact staged) (hfiles : l.files = staged.made)
    {post : Unit → Ledger → Prop} (h : post () { l with files := [] }) :
    Ensures c staged.release post l := by
  obtain ⟨inPlace, files, created, reader, failure, kills⟩ := l
  obtain rfl : files = staged.made := hfiles
  cases staged with
  | existing path => exact h
  | temporary path =>
    refine ⟨⟨hvalid, List.mem_singleton_self path, fun given hgiven => ?_⟩, fun _ => ?_⟩
    · rw [hgiven] at hof
      exact nomatch hof
    · show post () ⟨inPlace, [path].erase path, created, reader, failure, kills⟩
      rw [List.erase_cons_head]
      exact h

/-! ## The handshake -/

section Handshake

variable {es before after : List Exchange} {result greeting : Except LinkError Hello}

/-- Is it part of the handshake? -/
def Command.shakes : Command → Bool
  | .openPipes | .greet => true
  | _ => false

/-- None of these exchanges is part of a handshake. -/
def Still (es : List Exchange) : Prop := ∀ x ∈ es, x.command.shakes = false

/-- The plan shakes no hands. -/
def Mute : Steps α → Prop
  | .done _ => True
  | .ask command next => command.shakes = false ∧ ∀ answer, Mute (next answer)

theorem still_nil : Still [] := fun _ hx => nomatch hx

theorem still_cons {x : Exchange} : Still (x :: es) ↔ x.command.shakes = false ∧ Still es :=
  List.forall_mem_cons

theorem still_append : Still (before ++ after) ↔ Still before ∧ Still after :=
  List.forall_mem_append

/-- The runs of a plan that shakes no hands are still: by induction on the run, each exchange of
which has one of the commands of the plan. -/
theorem Mute.runs {p : Steps α} {a : α} (h : Mute p) (hr : p.Runs es a) : Still es := by
  induction hr with
  | done => exact still_nil
  | ask _ ih => exact still_cons.mpr ⟨h.1, ih (h.2 _)⟩

/-- Putting the artifact in place only touches files, and so asks nothing of a process or of its
pipes. -/
theorem mute_stage (artifact : Artifact) : Mute (stage artifact) := by
  cases artifact with
  | path path =>
    refine ⟨rfl, fun answer => ?_⟩
    cases answer <;> trivial
  | embedded bytes suffix =>
    refine ⟨rfl, fun answer => ?_⟩
    cases answer with
    | error fault => trivial
    | ok path =>
      refine ⟨rfl, fun answer => ?_⟩
      cases answer with
      | error fault => exact ⟨rfl, fun _ => trivial⟩
      | ok _ => trivial

/-- So does removing it, in which nothing is awaited. -/
theorem mute_release (staged : Staged) : Mute staged.release := by
  cases staged with
  | temporary path => exact ⟨rfl, fun _ => trivial⟩
  | existing path => trivial

/-- The handshake fails for want of pipes, or it awaits the greeting right after it has taken them,
gives what that gave, and does nothing more of its kind. -/
theorem handshake_runs (h : handshake.Runs es result) :
    (es = [⟨.openPipes, false⟩] ∧ ∃ e, result = .error e) ∨
      ∃ rest, es = ⟨.openPipes, true⟩ :: ⟨.greet, result⟩ :: rest ∧ Still rest := by
  obtain ⟨pipes, rest, rfl, hrest⟩ := Plan.runs_ask.mp h
  cases pipes with
  | false =>
    obtain ⟨rfl, rfl⟩ := Plan.runs_done.mp hrest
    exact Or.inl ⟨rfl, _, rfl⟩
  | true =>
    obtain ⟨answer, rest, rfl, hlast⟩ := Plan.runs_ask.mp hrest
    cases answer with
    | ok hello =>
      obtain ⟨rfl, rfl⟩ := Plan.runs_done.mp hlast
      exact Or.inr ⟨[], rfl, still_nil⟩
    | error e =>
      obtain ⟨stopped, rest, rfl, hdone⟩ := Plan.runs_ask.mp hlast
      obtain ⟨rfl, rfl⟩ := Plan.runs_done.mp hdone
      exact Or.inr ⟨_, rfl, still_cons.mpr ⟨rfl, still_nil⟩⟩

/-- There was no handshake, and something failed; or there was one, and what it gave is the
result. -/
inductive Shaken (es : List Exchange) (result : Except LinkError Hello) : Prop where
  /-- There was none. -/
  | never (still : Still es) (failed : ∃ e, result = .error e)
  /-- There was one, somewhere. -/
  | once {before shaken after : List Exchange} (parts : es = before ++ (shaken ++ after))
      (hands : handshake.Runs shaken result) (first : Still before) (last : Still after)

/-- What is done before and after it may be anything that is still. -/
theorem Shaken.within (h : Shaken es result) (hbefore : Still before) (hafter : Still after) :
    Shaken (before ++ (es ++ after)) result := by
  cases h with
  | never still failed =>
    exact .never (still_append.mpr ⟨hbefore, still_append.mpr ⟨still, hafter⟩⟩) failed
  | @once first shaken last parts hands hfirst hlast =>
    have hparts : before ++ (es ++ after) = (before ++ first) ++ (shaken ++ (last ++ after)) := by
      simp only [parts, List.append_assoc]
    exact .once hparts hands (still_append.mpr ⟨hbefore, hfirst⟩)
      (still_append.mpr ⟨hlast, hafter⟩)

/-- What is part of a handshake was part of the one handshake there was. -/
theorem Shaken.mem (h : Shaken es result) {x : Exchange} (hm : x ∈ es)
    (hx : x.command.shakes = true) :
    ∃ shaken, handshake.Runs shaken result ∧ x ∈ shaken ∧ ∀ y ∈ shaken, y ∈ es := by
  have hnot : ∀ {xs}, Still xs → x ∉ xs := by
    intro xs hstill hin
    rw [hstill x hin] at hx
    exact Bool.false_ne_true hx
  cases h with
  | never still failed => exact absurd hm (hnot still)
  | @once before shaken after parts hands first last =>
    refine ⟨shaken, hands, ?_, fun y hy => ?_⟩
    · rw [parts] at hm
      exact (List.mem_append.mp ((List.mem_append.mp hm).resolve_left (hnot first))).resolve_right
        (hnot last)
    · rw [parts]
      exact List.mem_append_right before (List.mem_append_left after hy)

/-- Starting shakes hands once the process is there; in every other case it fails before a line was
read. -/
theorem start_shaken {path : List UInt8} (h : (start c path).Runs es result) :
    Shaken es result := by
  obtain ⟨created, rest, rfl, hrest⟩ := Plan.runs_ask.mp h
  have hspawn : Still [⟨spawning c path, created⟩] := still_cons.mpr ⟨rfl, still_nil⟩
  cases created with
  | error cause =>
    obtain ⟨rfl, rfl⟩ := Plan.runs_done.mp hrest
    exact .never hspawn ⟨_, rfl⟩
  | ok _ =>
    obtain ⟨shaken, given, last, rfl, hshake, hlast⟩ := Plan.runs_bind.mp hrest
    cases given with
    | ok hello =>
      obtain ⟨rfl, rfl⟩ := Plan.runs_done.mp hlast
      exact .once rfl hshake hspawn still_nil
    | error e =>
      obtain ⟨outcome, last, rfl, hdone⟩ := Plan.runs_ask.mp hlast
      obtain ⟨rfl, rfl⟩ := Plan.runs_done.mp hdone
      exact .once rfl hshake hspawn (still_cons.mpr ⟨rfl, still_nil⟩)

/-- A launch shakes hands at most once, and if it does not it fails: what comes before starting and
after it only touches files. -/
theorem launch_shaken (h : (launch c).Runs es result) : Shaken es result := by
  unfold launch at h
  split at h
  · obtain ⟨rfl, rfl⟩ := Plan.runs_done.mp h
    exact .never still_nil ⟨_, rfl⟩
  · obtain ⟨first, staged, rest, rfl, hstage, hrest⟩ := Plan.runs_bind.mp h
    have hfirst : Still first := (mute_stage c.artifact).runs hstage
    cases staged with
    | error e =>
      obtain ⟨rfl, rfl⟩ := Plan.runs_done.mp hrest
      exact .never (still_append.mpr ⟨hfirst, still_nil⟩) ⟨_, rfl⟩
    | ok staged =>
      obtain ⟨started, given, last, rfl, hstart, hlast⟩ := Plan.runs_bind.mp hrest
      obtain ⟨released, _, done, rfl, hrelease, hdone⟩ := Plan.runs_bind.mp hlast
      obtain ⟨rfl, rfl⟩ := Plan.runs_done.mp hdone
      rw [List.append_nil]
      exact (start_shaken hstart).within hfirst ((mute_release staged).runs hrelease)

/-- What a launch gives is what the waiting for the greeting gave. -/
theorem launch_gives (h : (launch c).Runs es result) (hm : ⟨.greet, greeting⟩ ∈ es) :
    result = greeting := by
  obtain ⟨shaken, hands, hin, -⟩ := (launch_shaken h).mem hm rfl
  rcases handshake_runs hands with ⟨rfl, -⟩ | ⟨rest, rfl, hstill⟩
  · exact nomatch List.mem_singleton.mp hin
  · rcases List.mem_cons.mp hin with heq | hin
    · exact nomatch heq
    · rcases List.mem_cons.mp hin with heq | hin
      · cases heq
        rfl
      · exact absurd (hstill _ hin) (by simp [Command.shakes])

/-- A launch whose process has its three pipes awaits the greeting, and gives what that gave. -/
theorem launch_greets (h : (launch c).Runs es result) (hm : ⟨.openPipes, true⟩ ∈ es) :
    ⟨.greet, result⟩ ∈ es := by
  obtain ⟨shaken, hands, hin, hsub⟩ := (launch_shaken h).mem hm rfl
  rcases handshake_runs hands with ⟨rfl, -⟩ | ⟨rest, rfl, -⟩
  · exact nomatch List.mem_singleton.mp hin
  · exact hsub _ (List.mem_cons_of_mem _ List.mem_cons_self)

/-- A launch succeeds exactly if the process had its three pipes and the waiting for the greeting
gave one. -/
theorem launch_ok_iff {hello : Hello} (h : (launch c).Runs es result) :
    result = .ok hello ↔ ⟨.openPipes, true⟩ ∈ es ∧ ⟨.greet, .ok hello⟩ ∈ es := by
  constructor
  · rintro rfl
    cases launch_shaken h with
    | never still failed =>
      obtain ⟨e, he⟩ := failed
      exact nomatch he
    | @once before shaken after parts hands first last =>
      rcases handshake_runs hands with ⟨-, e, he⟩ | ⟨rest, rfl, -⟩
      · exact nomatch he
      · rw [parts]
        simp
  · rintro ⟨-, hm⟩
    exact launch_gives h hm

end Handshake

/-! ## A whole launch -/

/-- What the ledger says when a launch returns. -/
structure Settled (c : LaunchConfig) (result : Except LinkError Hello) (l : Ledger) : Prop where
  /-- A configuration that is not valid is refused. -/
  refused : ∀ e, c.validate = .error e → result = .error e
  /-- No file that was made is left. -/
  files : l.files = []
  /-- A process is created, and killed exactly once if the launch fails then. The error is the one
  of the handshake. -/
  failed : ∀ e, result = .error e → l.created = true → l.kills = 1 ∧ l.failure = some e
  /-- The background reader of a failed launch has been stopped. -/
  stopped : ∀ e, result = .error e → l.reader = false
  /-- Without a process nothing is killed. -/
  unborn : l.created = false → l.kills = 0 ∧ ∃ e, result = .error e
  /-- A successful launch leaves the process and the reader alone. -/
  greeted : ∀ hello, result = .ok hello → l.created = true ∧ l.kills = 0 ∧ l.reader = true

/-- The launch fails before there is a process: with nothing to stop, the files and the reader are
all that is asked after. -/
theorem settled_unborn {e : LinkError} (hrefused : ∀ e', c.validate = .error e' → e = e')
    (hfiles : l.files = []) (hcreated : l.created = false) (hreader : l.reader = false)
    (hkills : l.kills = 0) : Settled c (.error e) l where
  refused := fun e' he' => by rw [hrefused e' he']
  files := hfiles
  failed := fun _ _ h => by
    rw [hcreated] at h
    exact nomatch h
  stopped := fun _ _ => hreader
  unborn := fun _ => ⟨hkills, e, rfl⟩
  greeted := fun _ h => nomatch h

/-- The handshake fails: the process was killed once, the reader is gone and the error is the one of
the handshake. -/
theorem settled_failed {e : LinkError} (hvalid : c.validate = .ok ()) (hfiles : l.files = [])
    (hcreated : l.created = true) (hreader : l.reader = false) (hkills : l.kills = 1)
    (hfailure : l.failure = some e) : Settled c (.error e) l where
  refused := fun e' he' => by
    rw [hvalid] at he'
    exact nomatch he'
  files := hfiles
  failed := fun e' he' _ => ⟨hkills, Except.error.inj he' ▸ hfailure⟩
  stopped := fun _ _ => hreader
  unborn := fun h => by
    rw [hcreated] at h
    exact nomatch h
  greeted := fun _ h => nomatch h

/-- The kernel greets: the process and the reader go on, and the file that was made is gone. -/
theorem settled_greeted {hello : Hello} (hvalid : c.validate = .ok ()) (hfiles : l.files = [])
    (hcreated : l.created = true) (hreader : l.reader = true) (hkills : l.kills = 0) :
    Settled c (.ok hello) l where
  refused := fun e' he' => by
    rw [hvalid] at he'
    exact nomatch he'
  files := hfiles
  failed := fun _ h => nomatch h
  stopped := fun _ h => nomatch h
  unborn := fun h => by
    rw [hcreated] at h
    exact nomatch h
  greeted := fun _ _ => ⟨hcreated, hkills, hreader⟩

/-- A launch ensures that all is settled when it ends. It goes along the plan, step by step, and at
each step what has been acquired so far is what the ledger says. -/
theorem launch_ensures (c : LaunchConfig) : Ensures c (launch c) (Settled c) .empty := by
  unfold launch
  cases hvalid : c.validate with
  | error e =>
    exact settled_unborn (fun e' he' => Except.error.inj (hvalid.symm.trans he')) rfl rfl rfl rfl
  | ok _ =>
    have hnever : ∀ {e : LinkError} e', c.validate = .error e' → e = e' := by
      intro e e' he'
      rw [hvalid] at he'
      exact nomatch he'
    refine ensures_bind.mpr (stage_ensures hvalid (fun e => ?_) fun staged hof => ?_)
    · exact settled_unborn hnever rfl rfl rfl rfl
    · -- whatever starting gives, the files are released after it
      have hrelease : ∀ {result l}, l.files = staged.made →
          Settled c result { l with files := [] } →
          Ensures c (staged.release.bind fun () => .done result) (Settled c) l :=
        fun hfiles h => ensures_bind.mpr (release_ensures hvalid hof hfiles h)
      refine ensures_bind.mpr (start_ensures hvalid (hof.holds rfl rfl) rfl rfl (fun e => ?_)
        (fun e => ?_) fun hello => ?_)
      · exact hrelease rfl (settled_unborn hnever rfl rfl rfl rfl)
      · exact hrelease rfl (settled_failed hvalid rfl rfl rfl rfl rfl)
      · exact hrelease rfl (settled_greeted hvalid rfl rfl rfl rfl)

/-- Whatever is answered to a launch: everything it asks is allowed, and when it returns it has
given back what it does not hand over. -/
theorem launch_runs_settled {es : List Exchange} {result : Except LinkError Hello}
    (h : (launch c).Runs es result) :
    Guarded c .empty es ∧ Settled c result (Ledger.empty.through es) :=
  (launch_ensures c).runs h

/-- A launch with an embedded artifact. -/
def silentLaunch : LaunchConfig :=
  ⟨"k", "node", [], [], .embedded [123, 125] ".js", none, .standard⟩

/-- Its kernel does not greet, and the process is not killed in time. -/
def silentExchanges : List Exchange :=
  [⟨.createFile ".js", .ok [47, 107]⟩, ⟨.writeFile [47, 107] [123, 125], .ok ()⟩,
    ⟨.spawn "node" [Text.Utf8.lossy [47, 107]] none [], .ok ()⟩, ⟨.openPipes, true⟩,
    ⟨.greet, .error (Handshake.tooLate .standard)⟩, ⟨.stopCapture, ()⟩,
    ⟨.forceKill, .timedOut⟩, ⟨.removeFile [47, 107], ()⟩]

/-- Then it fails with the error of the greeting, the file is gone, and the process was told to end
once. -/
theorem launch_runs_settled_silent :
    (launch silentLaunch).Runs silentExchanges (.error (Handshake.tooLate .standard)) ∧
      Guarded silentLaunch .empty silentExchanges ∧
      Settled silentLaunch (.error (Handshake.tooLate .standard))
        ⟨some [47, 107], [], true, false, some (Handshake.tooLate .standard), 1⟩ := by
  have hruns : (launch silentLaunch).Runs silentExchanges
      (.error (Handshake.tooLate .standard)) :=
    .ask (.ask (.ask (.ask (.ask (.ask (.ask (.ask (.done _))))))))
  exact ⟨hruns, launch_runs_settled hruns⟩

/-- Carrying a launch out is one of its runs: the backend's answers are some answers. -/
theorem runLaunch_runs {σ : Type} (b : Backend σ) (timing : Timing) (p : Steps α)
    (s : Wires × σ) : ∃ es, p.Runs es (runLaunch b timing p s).1 := by
  induction p generalizing s with
  | done a => exact ⟨[], .done a⟩
  | ask command next ih =>
    obtain ⟨es, hes⟩ := ih (answerLaunch b timing command s).1 (answerLaunch b timing command s).2
    exact ⟨⟨command, _⟩ :: es, .ask hes⟩

end KernelLink.Session.Launch
