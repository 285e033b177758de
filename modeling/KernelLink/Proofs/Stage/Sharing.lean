import KernelLink.Proofs.Machine.Site
import KernelLink.Proofs.Shared.OneInstalled
import KernelLink.Proofs.Shared.Series
import KernelLink.Stage.Sharing
import KernelLink.Stage.Tenancy
/-!
# What rehearsals of a shared kernel show

A rehearsal of the sharing is a run of it, with a clock that only goes forward: whatever is on its
way to an operation answers it and begins none, so each operation keeps the number it was given. A
program that installs and uses the one shared kernel goes through a run of the place for it, and
whoever installs is told that the kernel is the one that was installed first.

Main definitions:
* `Sharing.Scene.Sound`, `Sharing.Scene.Leads`: what holds of a rehearsal, and what is done to it.
* `Tenancy.Sound`: the place has come about by a run, and the first kernel is the installed one.
* `Tenancy.Orderly`: the processes of every kernel are in order.

Main results:
* `Sharing.Scene.leads_step`: every step of a rehearsal is a run, and takes no less than no time.
* `Tenancy.sound_step`: every step of the program is a run.
* `Tenancy.step_install`: installing always gives the kernel that was installed first.
* `Tenancy.orderly_step`: whatever the program does, they stay so.
-/
namespace KernelLink.Stage

namespace Sharing.Scene

open Shared (World Deed Event)

/-! ## Events that begin nothing -/

/-- Does an operation begin? -/
def begins : Event → Bool
  | .begin .. => true
  | _ => false

/-- Where no operation has a number, none has it after another one got further. -/
theorem task?_goOn_none {w : World} {i : Nat} (h : w.task? i = none) (id : Nat)
    (after : Shared.Stage) : (w.goOn id after).task? i = none := by
  have hmap : (w.goOn id after).task? i =
      if i = id then (w.task? i).map (fun t => { t with stage := after }) else w.task? i :=
    World.lookup_map_update w.tasks id i fun t => { t with stage := after }
  rw [hmap, h]
  split <;> rfl

/-- No operation appears but by beginning: every other rule lets one go on, or none. -/
theorem apply_free {w : World} {e : Event} {i : Nat} (he : begins e = false)
    (h : w.task? i = none) : (w.apply e).task? i = none := by
  have hmove := World.apply_cases w e
  generalize w.apply e = w' at hmove ⊢
  cases hmove with
  | idle | forestall => exact h
  | begin => exact nomatch he
  | refuse | pass | fail | spare | there | version | replied | ended => exact task?_goOn_none h _ _
  | mark => exact task?_goOn_none (w := { w with closed := true }) h _ _
  | start => exact task?_goOn_none (w := { w with cell := _, starts := _ }) h _ _
  | tell => exact task?_goOn_none (w := { w with closings := _ }) h _ _
  | ask => exact task?_goOn_none (w := { w with asked := _ }) h _ _
  | started => exact task?_goOn_none (w := { w with cell := _ }) h _ _

/-! ## What is done to a rehearsal -/

/-- The sharing has come about by a run, the numbers that are still to be given are free, and
nothing that is on its way begins an operation. -/
structure Sound (s : Scene) : Prop where
  /-- The sharing has come about by a run. -/
  run : ∃ events, s.world = World.new.run events
  /-- Numbers that are still to be given are free. -/
  free : ∀ i, s.next ≤ i → s.world.task? i = none
  /-- What is on its way answers. -/
  coming : ∀ c ∈ s.coming, begins c.event = false

/-- What is done keeps a rehearsal sound, and the clock does not go back. -/
structure Leads (s s' : Scene) : Prop where
  /-- It stays sound. -/
  sound : s.Sound → s'.Sound
  /-- The clock does not go back. -/
  now : s.now ≤ s'.now

variable {s s' s'' : Scene}

theorem Leads.refl (s : Scene) : s.Leads s := ⟨id, Nat.le_refl _⟩

/-- What is done first keeps the rehearsal sound, and its clock does not go back in either part. -/
theorem Leads.trans (h : s.Leads s') (h' : s'.Leads s'') : s.Leads s'' :=
  ⟨fun hs => h'.sound (h.sound hs), Nat.le_trans h.now h'.now⟩

/-- At the beginning of a rehearsal nobody has begun and nothing is on its way. -/
theorem sound_new (script : Script) (cues : List Cue) : (new script cues).Sound where
  run := ⟨[], rfl⟩
  free _ _ := rfl
  coming _ h := nomatch h

/-- The clock moves forward, and this touches nothing else. -/
theorem Leads.clock {t : Nat} (h : s.now ≤ t) : s.Leads { s with now := t } :=
  ⟨fun hs => ⟨hs.run, hs.free, hs.coming⟩, h⟩

/-- An event that begins nothing happens to the sharing, and less may be on its way. -/
theorem Sound.apply (h : s.Sound) {e : Event} (he : begins e = false) {coming : List Coming}
    (hcoming : coming ⊆ s.coming) :
    Sound { s with world := s.world.apply e, coming := coming } := by
  obtain ⟨events, hrun⟩ := h.run
  refine ⟨⟨events ++ [e], ?_⟩, fun i hi => apply_free he (h.free i hi), fun c hc => ?_⟩
  · rw [World.run_concat, ← hrun]
  · exact h.coming c (hcoming hc)

/-- Something that answers an operation may be put on its way, for it will begin nothing when it
comes. -/
theorem Sound.expect (h : s.Sound) (delay id : Nat) {e : Event} (he : begins e = false) :
    (s.expect delay id e).Sound := by
  refine ⟨h.run, h.free, fun c hc => ?_⟩
  rcases List.mem_append.mp hc with hold | hnew
  · exact h.coming c hold
  · rw [List.mem_singleton.mp hnew]
    exact he

/-- The surroundings put nothing on its way but answers. -/
theorem Sound.react (h : s.Sound) (id : Nat) : (s.react id).Sound := by
  unfold Scene.react
  split
  · exact h.expect _ _ rfl
  · split
    · exact h.expect _ _ rfl
    · next cue cues _ =>
      have hcued : Sound { s with cues := cues } := ⟨h.run, h.free, h.coming⟩
      exact hcued.expect cue.delay id rfl
  · exact h.expect _ _ rfl
  · exact h

theorem react_now (s : Scene) (id : Nat) : (s.react id).now = s.now := by
  unfold Scene.react
  split
  · rfl
  · split <;> rfl
  · rfl
  · rfl

/-- One operation does one thing: it takes what has come for it, or it is polled. -/
theorem leads_advance {id : Nat} (h : s.advance id = some s') : s.Leads s' := by
  unfold advance at h
  split at h
  · next c hfound =>
    cases h
    refine ⟨fun hs => hs.apply (hs.coming c (List.mem_of_find?_eq_some hfound)) ?_,
      Nat.le_refl _⟩
    exact List.filter_subset_self _
  · obtain ⟨w, hw, rfl⟩ := Option.map_eq_some_iff.mp h
    have hpolled : w = s.world.apply (.poll id) := by
      show w = (s.world.poll id).getD _
      rw [hw]
      rfl
    refine ⟨fun hs => Sound.react ?_ id, Nat.le_of_eq (react_now { s with world := w } id).symm⟩
    rw [hpolled]
    exact hs.apply rfl (List.Subset.refl _)

/-- Letting the first operation get further that can is letting some operation do so. Induction on
those that are tried. -/
theorem leads_advanceFirst {ids : List Nat} (h : s.advanceFirst ids = some s') : s.Leads s' := by
  induction ids with
  | nil => exact nomatch h
  | cons id ids ih =>
    rcases Option.or_eq_some_iff.mp h with hfirst | ⟨-, hothers⟩
    · exact leads_advance hfirst
    · exact ih hothers

/-- What is done at one instant is one thing after another. -/
theorem leads_settle (fuel : Nat) (s : Scene) : s.Leads (s.settle fuel) := by
  induction fuel generalizing s with
  | zero => exact .refl s
  | succ fuel ih =>
    unfold settle
    split
    · next s' hdone => exact (leads_advanceFirst hdone).trans (ih s')
    · exact .refl s

/-- The next instant at which something is due is a later one, so playing on never goes back. -/
theorem lt_of_due {other : Option Nat} {t : Nat} (h : s.due other = some t) : s.now < t := by
  have hmem : t ∈ (other.toList ++ s.coming.map (·.instant)).filter (s.now < ·) :=
    List.min?_mem h
  simpa using (List.mem_filter.mp hmem).2

/-- Playing on until an operation is finished: by induction on how often the clock may be moved. -/
theorem leads_playUntil (id fuel : Nat) (s : Scene) : s.Leads (playUntil id fuel s) := by
  induction fuel generalizing s with
  | zero => exact .refl s
  | succ fuel ih =>
    have hsettled := leads_settle patience s
    unfold playUntil
    generalize s.settle patience = s' at hsettled
    dsimp only
    split
    · exact hsettled
    · split
      · next t hdue =>
        exact (hsettled.trans (.clock (Nat.le_of_lt (lt_of_due hdue)))).trans (ih _)
      · exact hsettled

/-- Letting time pass is the same with an instant in place of an operation. -/
theorem leads_playTo (target fuel : Nat) (s : Scene) : s.Leads (playTo target fuel s) := by
  induction fuel generalizing s with
  | zero => exact .refl s
  | succ fuel ih =>
    have hsettled := leads_settle patience s
    unfold playTo
    split
    · exact .refl s
    · generalize s.settle patience = s' at hsettled
      dsimp only
      split
      · next t hdue =>
        exact (hsettled.trans (.clock (Nat.le_of_lt (lt_of_due hdue)))).trans (ih _)
      · exact hsettled

/-- An operation begins with the next number, which is free, and takes no other one. -/
theorem leads_begin (s : Scene) (ask : Ask) : s.Leads (s.begin ask).1 := by
  cases ask with
  | deed deed =>
    refine ⟨fun hs => ?_, Nat.le_refl _⟩
    obtain ⟨events, hrun⟩ := hs.run
    have hnew : s.world.task? s.next = none := hs.free s.next (Nat.le_refl _)
    refine ⟨⟨events ++ [.begin s.next deed], ?_⟩, fun i hi => ?_, hs.coming⟩
    · rw [World.run_concat, ← hrun]
      show _ = if (s.world.task? s.next).isSome then _ else _
      rw [hnew]
      rfl
    · have hlt : s.next < i := hi
      show (s.world.begin s.next deed).task? i = none
      rw [World.task?_begin hnew, if_neg (by omega)]
      exact hs.free i (by omega)
  | malformed | sleep | isStarted => exact .refl s

/-- Waiting for an operation, a moment or an answer plays on until it is there. -/
theorem leads_await (s : Scene) (job : Job) : s.Leads (s.await job).2 := by
  cases job with
  | task id => exact leads_playUntil id patience s
  | timer endsAt => exact leads_playTo endsAt patience s
  | answered answer => exact .refl s

/-- How many pauses there were is nothing that the sharing knows of. -/
theorem leads_pauses (s : Scene) (n : Nat) : s.Leads { s with pauses := n } :=
  ⟨fun hs => ⟨hs.run, hs.free, hs.coming⟩, Nat.le_refl _⟩

/-- A pause lets everything happen that can happen now, and then perhaps a moment pass. -/
theorem leads_pause (s : Scene) : s.Leads s.pause := by
  have hsettled := leads_settle patience s
  unfold pause
  dsimp only
  split
  · exact hsettled.trans (leads_pauses _ _)
  · exact (hsettled.trans (leads_pauses _ 0)).trans (.clock (Nat.le_add_right _ 1))

/-- A step of a rehearsal is a run of the sharing, and the time that it is said to have taken is the
time by which the clock has moved forward. -/
theorem leads_step (s : Scene) (step : Step Ask) :
    s.Leads (s.step step).1 ∧ s.now + (s.step step).2.2 = (s.step step).1.now := by
  have hrest : ∀ q : Scene, s.Leads q →
      s.Leads { q with pauses := if s.now < q.now then 0 else q.pauses } ∧
        s.now + (q.now - s.now) = q.now := fun q hq =>
    ⟨hq.trans (leads_pauses q _), Nat.add_sub_cancel' hq.now⟩
  cases step with
  | wait ask => exact hrest _ ((leads_begin s ask).trans (leads_await _ _))
  | start name ask =>
    refine hrest _ (((leads_begin s ask).trans ?_).trans (leads_pause _))
    exact ⟨fun hs => ⟨hs.run, hs.free, hs.coming⟩, Nat.le_refl _⟩
  | join name =>
    unfold Scene.step
    dsimp only
    split
    · exact hrest s (.refl s)
    · exact hrest _ (leads_await s _)

end Sharing.Scene

/-! ## A program with its shared kernel -/

namespace Tenancy

open Machine (Site)
open Shared (Place PlaceEvent Progress Wish)

/-- The numbers that are still to be given to callers are free. -/
def Free (p : Place) : Prop := ∀ i, p.callers.length ≤ i → p.caller? i = none

/-- The place has come about by a run, its free numbers are free, and the kernel that was installed
first is the one that is installed. -/
structure Sound (t : Tenancy) : Prop where
  /-- The place has come about by a run. -/
  run : ∃ events, t.place = Place.new.run events
  /-- Numbers that are still to be given are free. -/
  free : Free t.place
  /-- The first kernel is the installed one. -/
  first : t.first = t.place.installed

theorem sound_new (machine : Machine.World) : (new machine).Sound where
  run := ⟨[], rfl⟩
  free _ _ := rfl
  first := rfl

/-- Where no caller has a number, none has it after another one got further. -/
theorem caller?_goOn_none {p : Place} {i : Nat} (h : p.caller? i = none) (id : Nat)
    (progress : Progress) : (p.goOn id progress).caller? i = none := by
  have hmap : (p.goOn id progress).caller? i =
      if i = id then (p.caller? i).map (fun c => { c with progress := progress })
      else p.caller? i :=
    Shared.World.lookup_map_update p.callers id i fun c => { c with progress := progress }
  rw [hmap, h]
  split <;> rfl

/-- A poll moves a caller on, and adds none. -/
theorem free_poll {p : Place} (h : Free p) (id : Nat) : Free (p.poll id) := by
  have hgo : ∀ {q : Place}, q.callers = p.callers → ∀ id progress, Free (q.goOn id progress) := by
    intro q hq id progress i hi
    refine caller?_goOn_none ?_ id progress
    have hlength : q.callers.length ≤ i := by simpa [Place.goOn] using hi
    rw [Place.caller?, hq]
    exact h i (hq ▸ hlength)
  have hmove := Place.poll_cases p id
  generalize p.poll id = p' at hmove ⊢
  cases hmove with
  | idle => exact h
  | find | miss | prepare | install | lose => exact hgo rfl _ _

/-- A caller that visits the place begins with the next number, and two polls are enough for it. -/
theorem visit_eq {p : Place} (h : Free p) (wish : Wish) :
    (p.visit wish).2 = ((p.begin p.callers.length wish).poll p.callers.length).poll
      p.callers.length := by
  have hnew : p.caller? p.callers.length = none := h _ (Nat.le_refl _)
  show (((p.apply (.begin _ wish)).apply (.poll _)).apply (.poll _)) = _
  have hbegun : p.apply (.begin p.callers.length wish) = p.begin p.callers.length wish := by
    show (if (p.caller? _).isSome then _ else _) = _
    rw [hnew]
    rfl
  rw [hbegun]
  rfl

/-- A visit takes one number, the next one, so those above it stay free. -/
theorem free_visit {p : Place} (h : Free p) (wish : Wish) : Free (p.visit wish).2 := by
  rw [visit_eq h]
  refine free_poll (free_poll ?_ _) _
  intro i hi
  have hlength : p.callers.length + 1 ≤ i := by simpa [Place.begin] using hi
  rw [Place.caller?_begin (h _ (Nat.le_refl _)), if_neg (by omega)]
  exact h i (by omega)

/-- Whatever a visit does is a run of the place, and what is installed stays. -/
theorem run_visit {p : Place} (h : ∃ events, p = Place.new.run events) (wish : Wish) :
    ∃ events, (p.visit wish).2 = Place.new.run events := by
  obtain ⟨events, rfl⟩ := h
  exact ⟨_, (Place.run_append _ events _).symm⟩

/-- A caller that has got a kernel stays with it. -/
theorem poll_got {p : Place} {id c : Nat} {wish : Wish}
    (h : p.caller? id = some ⟨wish, .got c⟩) : p.poll id = p := by
  unfold Place.poll
  rw [h]

/-- Whoever visits the place to install a kernel has got one at the end: the one that was installed,
or the one that it has prepared itself, which takes one more poll. -/
theorem visit_install {p : Place} (h : Free p) (config : LaunchConfig) :
    ∃ c, (p.visit (.install config)).2.caller? p.callers.length =
      some ⟨.install config, .got c⟩ := by
  have hbegun : (p.begin p.callers.length (.install config)).caller? p.callers.length =
      some ⟨.install config, .fresh⟩ := by
    rw [Place.caller?_begin (h _ (Nat.le_refl _)), if_pos rfl]
  rw [visit_eq h]
  generalize p.begin p.callers.length (.install config) = q at hbegun
  cases hc : q.installed with
  | some c =>
    have hfound : (q.poll p.callers.length).caller? p.callers.length =
        some ⟨.install config, .got c⟩ := Place.found hbegun hc
    refine ⟨c, ?_⟩
    rw [poll_got hfound]
    exact hfound
  | none =>
    have hpoll : q.poll p.callers.length =
        (q.withCandidate config).goOn p.callers.length (.prepared q.candidates.length) :=
      (Place.poll_fresh hbegun).trans (Place.look_install config hc)
    exact Place.gets (Place.caller?_poll (v := q.withCandidate config) hbegun rfl hpoll)

/-- Installing gives a kernel, which is the one that is installed from then on. -/
theorem installed_visit {p : Place} (h : Free p) (hrun : ∃ events, p = Place.new.run events)
    (config : LaunchConfig) :
    ∃ c, (p.visit (.install config)).1 = some (.got c) ∧
      (p.visit (.install config)).2.installed = some c := by
  obtain ⟨c, hc⟩ := visit_install h config
  obtain ⟨events, hvisited⟩ := run_visit hrun (.install config)
  refine ⟨c, ?_, ?_⟩
  · show ((p.visit (.install config)).2.caller? p.callers.length).map _ = _
    rw [hc]
    rfl
  · rw [hvisited] at hc ⊢
    exact (Place.sound_run events).got _ _ _ hc

/-- Looking for the installed kernel, and demanding it, install none: the first poll finds one or
does not, and the second does nothing. -/
theorem installed_visit_of_look {p : Place} (h : Free p) {wish : Wish}
    (hw : ∀ config, wish ≠ .install config) : (p.visit wish).2.installed = p.installed := by
  have hbegun : (p.begin p.callers.length wish).caller? p.callers.length = some ⟨wish, .fresh⟩ := by
    rw [Place.caller?_begin (h _ (Nat.le_refl _)), if_pos rfl]
  have hkept : (p.begin p.callers.length wish).installed = p.installed := rfl
  rw [visit_eq h, ← hkept]
  generalize p.begin p.callers.length wish = q at hbegun
  generalize p.callers.length = id at hbegun
  -- the caller comes to something that it does not leave again
  have hends : ∀ progress : Progress, progress ≠ .fresh → (∀ c, progress ≠ .prepared c) →
      q.look id wish = q.goOn id progress → ((q.poll id).poll id).installed = q.installed := by
    intro progress hfresh hprepared hlook
    have hled : (q.goOn id progress).caller? id = some ⟨wish, progress⟩ := by
      rw [Place.caller?_goOn hbegun, if_pos rfl]
    rw [Place.poll_fresh hbegun, hlook]
    unfold Place.poll
    rw [hled]
    split
    · next heq => exact absurd (Shared.Caller.mk.inj (Option.some.inj heq)).2 hfresh
    · next heq => exact absurd (Shared.Caller.mk.inj (Option.some.inj heq)).2 (hprepared _)
    · rfl
  cases hc : q.installed with
  | some c =>
    rw [← hc]
    exact hends (.got c) nofun (fun _ => nofun) (by simp [Place.look, hc])
  | none =>
    rw [← hc]
    cases wish with
    | install config => exact absurd rfl (hw config)
    | look => exact hends .nothing nofun (fun _ => nofun) (by simp [Place.look, hc])
    | demand =>
      exact hends (.failed Shared.notInstalled) nofun (fun _ => nofun) (by simp [Place.look, hc])

variable {t : Tenancy}

/-- Whatever else is done to the program, its place has been visited. -/
theorem Sound.visit (h : t.Sound) (wish : Wish) (hw : ∀ config, wish ≠ .install config)
    {t' : Tenancy} (hplace : t'.place = (t.place.visit wish).2) (hfirst : t'.first = t.first) :
    t'.Sound := by
  refine ⟨?_, ?_, ?_⟩
  · rw [hplace]
    exact run_visit h.run wish
  · rw [hplace]
    exact free_visit h.free wish
  · rw [hplace, hfirst, h.first, installed_visit_of_look h.free hw]

/-- What is done to the installed kernel is done by whoever has looked for it, so the place has been
visited. -/
theorem Sound.onInstalled (h : t.Sound) (f : Tenant → Answer × Tenant) :
    (t.onInstalled f).1.Sound := by
  unfold Tenancy.onInstalled
  split
  · next place hvisit =>
    dsimp only
    split
    · exact h.visit .demand (fun _ => nofun) (by rw [hvisit]; rfl) rfl
    · exact h.visit .demand (fun _ => nofun) (by rw [hvisit]) rfl
  · next place hvisit => exact h.visit .demand (fun _ => nofun) (by rw [hvisit]) rfl
  · next place _ _ hvisit =>
    exact h.visit .demand (fun _ => nofun) (by rw [hvisit]) rfl

/-- Installing gives the kernel that was installed first, also to whoever comes later. -/
theorem step_install (h : t.Sound) (config : LaunchConfig) :
    (t.step (.install config)).1.Sound ∧
      (t.step (.install config)).2 = .installed true := by
  obtain ⟨c, hgot, hinstalled⟩ := installed_visit h.free h.run config
  have hrun := run_visit h.run (.install config)
  have hfree := free_visit h.free (.install config)
  have hfirst : t.first.getD c = c := by
    rw [h.first]
    cases hd : t.place.installed with
    | none => rfl
    | some d =>
      have hstays : (t.place.visit (.install config)).2.installed = some d :=
        Place.installed_run hd _
      rw [hinstalled] at hstays
      exact (Option.some.inj hstays).symm
  have hvisit : t.place.visit (.install config) =
      (some (.got c), (t.place.visit (.install config)).2) := Prod.ext hgot rfl
  have hstep : t.step (.install config) =
      ({ t with place := (t.place.visit (.install config)).2, first := some c },
        .installed true) := by
    unfold step
    dsimp only
    rw [hvisit]
    simp only [hfirst, beq_self_eq_true]
  rw [hstep]
  exact ⟨⟨hrun, hfree, hinstalled.symm⟩, rfl⟩

/-- Every step of the program is a run of the place for the shared kernel. -/
theorem sound_step (h : t.Sound) (ask : Ask) : (t.step ask).1.Sound := by
  cases ask with
  | install config => exact (step_install h config).1
  | look =>
    unfold step
    dsimp only
    split
    · next hvisit => exact h.visit .look (fun _ => nofun) (by rw [hvisit]) rfl
    · next hvisit => exact h.visit .look (fun _ => nofun) (by rw [hvisit]) rfl
  | deed | malformed | sleep =>
    unfold step
    exact h.onInstalled _

/-! ## The machines of the kernels -/

/-- The processes of every machine of the program are in order: of the one on which kernels are
launched, and of those with the kernels that have been used. -/
structure Orderly (t : Tenancy) : Prop where
  /-- Where kernels are launched. -/
  machine : t.machine.family.Orderly
  /-- Where kernels have been launched. -/
  tenants : ∀ entry ∈ t.tenants, entry.2.kernel.side.machine.family.Orderly

/-- The machine that a program begins with is in order, and it has no kernels yet. -/
theorem orderly_new {machine : Machine.World} (h : machine.family.Orderly) :
    (new machine).Orderly :=
  ⟨h, fun _ hentry => nomatch hentry⟩

/-- Whatever kernel is meant, it has been used, or it begins on the machine for kernels. -/
theorem Orderly.tenant (h : t.Orderly) {candidate : Nat} {tenant : Tenant}
    (ht : t.tenant? candidate = some tenant) : tenant.kernel.side.machine.family.Orderly := by
  unfold tenant? at ht
  split at ht
  · next used hlookup =>
    obtain rfl : used = tenant := Option.some.inj ht
    obtain ⟨before, after, hentries, -⟩ := List.lookup_eq_some_iff.mp hlookup
    refine h.tenants (candidate, used) ?_
    rw [hentries]
    exact List.mem_append_right _ List.mem_cons_self
  · obtain ⟨c, -, rfl⟩ := Option.map_eq_some_iff.mp ht
    exact h.machine

theorem Orderly.put (h : t.Orderly) (candidate : Nat) {tenant : Tenant}
    (ht : tenant.kernel.side.machine.family.Orderly) : (t.put candidate tenant).Orderly := by
  refine ⟨h.machine, fun entry hentry => ?_⟩
  rcases List.mem_cons.mp hentry with rfl | hold
  · exact ht
  · exact h.tenants entry (List.mem_of_mem_filter hold)

/-- What is done to the installed kernel leads the machine on that it runs on. -/
theorem Orderly.onInstalled (h : t.Orderly) {f : Tenant → Answer × Tenant}
    (hf : ∀ tenant : Tenant,
      tenant.kernel.side.machine.Leads (f tenant).2.kernel.side.machine) :
    (t.onInstalled f).1.Orderly := by
  have hplaced : ∀ place, ({ t with place := place } : Tenancy).Orderly :=
    fun _ => ⟨h.machine, h.tenants⟩
  unfold Tenancy.onInstalled
  split
  · dsimp only
    split
    · next tenant htenant =>
      have hthere := (hplaced _).tenant htenant
      exact (hplaced _).put _ ((hf tenant).orderly hthere)
    · exact hplaced _
  · exact hplaced _
  · exact hplaced _

/-- Whatever the program does, the processes of its machines stay in order. -/
theorem orderly_step (h : t.Orderly) (ask : Ask) : (t.step ask).1.Orderly := by
  have hcarries := Machine.Site.carries
  cases ask with
  | install | look =>
    unfold step
    dsimp only
    split <;> exact ⟨h.machine, h.tenants⟩
  | deed deed =>
    unfold step
    refine h.onInstalled fun tenant => ?_
    exact Shared.Series.carried_perform hcarries tenant deed
  | malformed =>
    unfold step
    exact h.onInstalled fun tenant => .refl tenant.kernel.side.machine
  | sleep ms =>
    unfold step
    refine h.onInstalled fun tenant => ?_
    exact Shared.Series.carried_sleep hcarries tenant ms

end Tenancy
end KernelLink.Stage
