import KernelLink.Proofs.Session.Launching
import KernelLink.Proofs.Text.Replaced
/-!
# What the kernel is handed

A launch creates one process once its artifact is in place, and the last argument of that process
is meant to be the path of the artifact. A path is a list of bytes and an argument is a text: the
path is read as text, and whatever is no text in it is replaced. So a path that is no text passes
the check that there is something at it, and the kernel is handed the name of something else.

Main definitions:
* `Command.creates`: the commands that create a process.
* `Launch.Childless`: a plan that creates no process.

Main results:
* `Launch.created_of_staged`: what a launch with its artifact in place creates.
* `Launch.path_handed`, `Launch.stray_byte_replaced`: which paths the kernel is handed as they are.
-/
namespace KernelLink.Session.Launch

open Plan (asked)
open Text (Utf8.bytes Utf8.lossy Utf8.replacement)

variable {α β : Type} {c : LaunchConfig} {path : List UInt8} {es : List Exchange}
  {result : Except LinkError Hello}

/-! ## The commands that create a process -/

/-- The command creates a process. -/
def Command.creates : Command → Bool
  | .spawn .. => true
  | _ => false

/-- The plan creates no process. -/
def Childless : Steps α → Prop
  | .done _ => True
  | .ask command next => command.creates = false ∧ ∀ answer, Childless (next answer)

/-- A plan that creates no process and goes on as one that creates none creates none. -/
theorem Childless.bind {p : Steps α} {f : α → Steps β} (hp : Childless p)
    (hf : ∀ a, Childless (f a)) : Childless (p.bind f) := by
  induction p with
  | done a => exact hf a
  | ask command next ih => exact ⟨hp.1, fun answer => ih answer (hp.2 answer)⟩

/-- No command of its runs creates a process; by induction on the run, one exchange after the other.
-/
theorem Childless.filter_asked {p : Steps α} {a : α} (h : Childless p) (hr : p.Runs es a) :
    (asked es).filter Command.creates = [] := by
  induction hr with
  | done a => rfl
  | ask _ ih =>
    rw [Plan.asked_cons, List.filter_cons_of_neg (by simp [h.1])]
    exact ih (h.2 _)

theorem childless_handshake : Childless handshake := by
  refine ⟨rfl, fun pipes => ?_⟩
  cases pipes with
  | false => trivial
  | true =>
    refine ⟨rfl, fun greeting => ?_⟩
    cases greeting with
    | error e => exact ⟨rfl, fun _ => trivial⟩
    | ok hello => trivial

/-- Starting creates one process, for the artifact at the path: that is its first command, and what
follows is childless. -/
theorem created_of_start (h : (start c path).Runs es result) :
    (asked es).filter Command.creates = [spawning c path] := by
  obtain ⟨created, rest, rfl, hrest⟩ := Plan.runs_ask.mp h
  have hnone : (asked rest).filter Command.creates = [] := by
    cases created with
    | error cause =>
      obtain ⟨rfl, -⟩ := Plan.runs_done.mp hrest
      rfl
    | ok _ =>
      refine (childless_handshake.bind fun greeting => ?_).filter_asked hrest
      cases greeting with
      | error e => exact ⟨rfl, fun _ => trivial⟩
      | ok hello => trivial
  rw [Plan.asked_cons, List.filter_cons_of_pos rfl, hnone]

/-- What is created once something was found at the path of the artifact. -/
theorem created_of_staged (hpath : c.artifact = .path path) (h : (launch c).Runs es result)
    (hstaged : ⟨.look path, Except.ok ()⟩ ∈ es) :
    (asked es).filter Command.creates = [spawning c path] := by
  unfold launch at h
  split at h
  · -- a configuration that is refused is launched without a look at the artifact
    obtain ⟨rfl, -⟩ := Plan.runs_done.mp h
    exact absurd hstaged List.not_mem_nil
  · rw [hpath] at h
    obtain ⟨first, staged, rest, rfl, hstage, hrest⟩ := Plan.runs_bind.mp h
    obtain ⟨found, _, rfl, hfound⟩ := Plan.runs_ask.mp hstage
    cases found with
    | error fault =>
      obtain ⟨rfl, rfl⟩ := Plan.runs_done.mp hfound
      obtain ⟨rfl, -⟩ := Plan.runs_done.mp hrest
      cases List.mem_singleton.mp hstaged
    | ok _ =>
      obtain ⟨rfl, rfl⟩ := Plan.runs_done.mp hfound
      obtain ⟨begun, started, last, rfl, hstart, hlast⟩ := Plan.runs_bind.mp hrest
      obtain ⟨rfl, -⟩ := Plan.runs_done.mp hlast
      rw [List.append_nil, Plan.asked_append, List.filter_append, created_of_start hstart]
      rfl

/-! ## The path as an argument -/

/-- A launch with something at the path of its artifact creates one process, with the arguments
that were configured and behind them the path read as text. This last argument is the path byte for
byte if the path is a text, and only then. No two texts give the same arguments; that no other path
at all gives the same holds exactly of the texts without a replacement. -/
theorem path_handed (hpath : c.artifact = .path path) (h : (launch c).Runs es result)
    (hstaged : ⟨.look path, Except.ok ()⟩ ∈ es) :
    (asked es).filter Command.creates =
        [.spawn c.program (c.args ++ [Utf8.lossy path]) c.workingDirectory c.env] ∧
      (Utf8.bytes (Utf8.lossy path) = path ↔ ∃ text, path = Utf8.bytes text) ∧
      (∀ text, path = Utf8.bytes text →
        ∀ other, c.launchArgs (Utf8.bytes other) = c.launchArgs path → other = text) ∧
      ((∀ other, c.launchArgs other = c.launchArgs path → other = path) ↔
        ∃ text, path = Utf8.bytes text ∧ Utf8.replacement ∉ text.toList) := by
  have hargs : ∀ {p q}, c.launchArgs p = c.launchArgs q ↔ Utf8.lossy p = Utf8.lossy q := by
    intro p q
    unfold LaunchConfig.launchArgs
    rw [List.append_cancel_left_eq, List.singleton_inj]
  simp only [hargs]
  refine ⟨created_of_staged hpath h hstaged, Text.Utf8.bytes_lossy_iff, ?_,
    Text.Utf8.lossy_tells_iff⟩
  rintro text rfl other hother
  rwa [Text.Utf8.lossy_bytes, Text.Utf8.lossy_bytes] at hother

/-- A launch with an artifact at a path. -/
def pathLaunch (path : List UInt8) : LaunchConfig :=
  ⟨"k", "node", ["first"], [], .path path, none, .standard⟩

/-- There is something at the path, and the kernel greets. -/
def pathRun (path : List UInt8) (hello : Hello) : List Exchange :=
  [⟨.look path, Except.ok ()⟩, ⟨spawning (pathLaunch path) path, Except.ok ()⟩,
    ⟨.openPipes, true⟩, ⟨.greet, Except.ok hello⟩]

/-- The played launch hands over a path: the plan asks for just these things if it is answered in
this way. -/
theorem runs_pathRun (path : List UInt8) (hello : Hello) :
    (launch (pathLaunch path)).Runs (pathRun path hello) (.ok hello) := by
  have hvalid : (pathLaunch path).validate = .ok () := by
    refine (if_neg (show ¬ (Text.trim "node".toList).isEmpty = true by decide)).trans ?_
    exact (by decide : Timing.standard.validate = .ok ())
  unfold launch
  rw [hvalid]
  exact .ask (.ask (.ask (.ask (.done _))))

/-- A path that is a text is handed over as it is, and no other path looks the same. -/
theorem path_handed_text :
    (asked (pathRun [47, 107] ⟨"@kernel/mock@1.2.3", "1.2.3"⟩)).filter Command.creates =
        [.spawn "node" ["first", "/k"] none []] ∧
      (∀ other, (pathLaunch [47, 107]).launchArgs other = ["first", "/k"] → other = [47, 107]) := by
  have h := path_handed rfl (runs_pathRun [47, 107] ⟨"@kernel/mock@1.2.3", "1.2.3"⟩)
    List.mem_cons_self
  exact ⟨h.1, h.2.2.2.mpr ⟨"/k", by decide, by decide⟩⟩

/-- A path with a byte that begins no character. The kernel is handed the name of something else,
and would be handed the same if its artifact were there. -/
theorem stray_byte_replaced :
    (launch (pathLaunch [47, 0xFF])).Runs (pathRun [47, 0xFF] ⟨"@kernel/mock@1.2.3", "1.2.3"⟩)
        (.ok ⟨"@kernel/mock@1.2.3", "1.2.3"⟩) ∧
      (asked (pathRun [47, 0xFF] ⟨"@kernel/mock@1.2.3", "1.2.3"⟩)).filter Command.creates =
        [.spawn "node" ["first", "/\uFFFD"] none []] ∧
      Utf8.bytes "/\uFFFD" ≠ [47, 0xFF] ∧
      (pathLaunch [47, 0xFF]).launchArgs (Utf8.bytes "/\uFFFD") =
        (pathLaunch [47, 0xFF]).launchArgs [47, 0xFF] := by
  refine ⟨runs_pathRun _ _, ?_, ?_, ?_⟩
  · decide
  · decide
  · decide

end KernelLink.Session.Launch
