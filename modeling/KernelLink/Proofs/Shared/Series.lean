import KernelLink.Proofs.Session.Launched
import KernelLink.Proofs.Shared.Sharing
import KernelLink.Shared.Series
/-!
# A shared kernel and the link behind it

When operations come one after another, the sharing and a real kernel are kept together by the stage
that each operation has reached. Whatever is done is a run of the sharing; a kernel is present
exactly when the sharing says that one is there; and the link behind it has come from the one that
its launch handed over. So the statements about every run of the sharing and about every run of the
link are statements about what such a program does.

Main definitions:
* `Series.Sound`: the sharing and its kernel fit.
* `Series.Linked`: the link of the kernel has come from the one after its greeting.
* `Kernel.side`: the other side, with or without a kernel.
* `Series.Goes`: what can come of going on with an operation.

Main results:
* `Series.perform_keeps`: what going on keeps, a whole operation keeps.
* `Series.sound_perform`: every operation keeps the two together.
* `Series.linked_perform`: every operation is a run of the link.
* `Series.carried_perform`: what becomes of the other side.
-/
namespace KernelLink.Shared

/-- The other side, with or without a kernel. -/
def Kernel.side {σ : Type} : Kernel σ → σ
  | .absent _ side => side
  | .present client => client.scene.side

namespace Series

open Session (Backend Client)
open World (Sharing Move)

variable {σ : Type} {b : Backend σ} {s : Series σ} {id : Nat}

/-- Is a kernel behind the sharing? -/
def Present (s : Series σ) : Prop := ∃ client, s.kernel = .present client

/-- The sharing has come about by a run, and a kernel is behind it exactly when it says so. -/
structure Sound (s : Series σ) : Prop where
  /-- The sharing has come about by a run. -/
  run : ∃ events, s.world = World.new.run events
  /-- A kernel is there when the sharing says so, and only then. -/
  present : s.Present ↔ s.world.isStarted = true

/-- The link of the kernel has come from the link that a launch handed over. -/
def Linked (s : Series σ) : Prop :=
  ∀ client, s.kernel = .present client →
    ∃ wires, client.Follows (Session.World.new s.config.timing wires)

/-- The sharing says that a kernel is there exactly if the cell is settled with one. -/
theorem isStarted_iff {w : World} :
    w.isStarted = true ↔ ∃ kernel, w.cell = .settled (.ok kernel) := by
  unfold World.isStarted
  split
  · next kernel hcell => simp [hcell]
  · next hcell =>
    constructor
    · intro h
      exact nomatch h
    · rintro ⟨kernel, hk⟩
      exact absurd hk (hcell kernel)

/-- The sharing behind a series has come about by a run, so its invariant holds. -/
theorem Sound.sharing (h : s.Sound) : Sharing s.world := by
  obtain ⟨events, hrun⟩ := h.run
  rw [hrun]
  exact World.sharing_run events

/-- An event leads the sharing on; the kernel is still rightly there if the event does not change
whether the sharing says so. -/
theorem Sound.apply (h : s.Sound) (e : Event)
    (hcell : (s.world.apply e).isStarted = s.world.isStarted) : (s.apply e).Sound := by
  obtain ⟨events, hrun⟩ := h.run
  refine ⟨⟨events ++ [e], ?_⟩, ?_⟩
  · rw [World.run_concat, ← hrun]
    rfl
  · show s.Present ↔ (s.world.apply e).isStarted = true
    rw [hcell]
    exact h.present

/-- Only the end of a start makes a kernel be there: the rules that change what is known of the
kernel lead from nothing to a start, or from nothing to its failure. -/
theorem isStarted_apply {w : World} {e : Event} (he : ∀ id result, e ≠ .started id result) :
    (w.apply e).isStarted = w.isStarted := by
  have hmove := World.apply_cases w e
  generalize w.apply e = w' at hmove ⊢
  cases hmove with
  | start task uses empty => simp [World.isStarted, World.goOn, empty]
  | forestall task empty => simp [World.isStarted, empty]
  | started result cell => exact absurd rfl (he _ result)
  | _ => rfl

/-! ## What it is to go on -/

/-- What can come of going on with an operation: what it waits for is done with the kernel, or it
goes on by itself. -/
inductive Goes (b : Backend σ) (s : Series σ) (id : Nat) : Series σ → Prop where
  /-- The kernel that is to be started, or asked, is there already, or not there. -/
  | stays : Goes b s id s
  /-- It starts the kernel, which is launched. -/
  | launches {deed : Deed} {now : Nat} {side : σ} {client : Client σ} {sides : Session.Wires × σ}
      (task : s.world.task? id = some ⟨deed, .starting⟩) (absent : s.kernel = .absent now side)
      (launched : Client.launch? b s.config now side = (.ok client, sides)) :
      Goes b s id
        ({ s with kernel := .present client }.apply (.started id (.ok client.hello.version)))
  /-- It starts the kernel, whose launch fails. -/
  | fails {deed : Deed} {now : Nat} {side : σ} {e : LinkError} {sides : Session.Wires × σ}
      (task : s.world.task? id = some ⟨deed, .starting⟩) (absent : s.kernel = .absent now side)
      (failed : Client.launch? b s.config now side = (.error e, sides)) :
      Goes b s id
        ({ s with kernel := .absent sides.1.now sides.2 }.apply (.started id (.error e)))
  /-- It asks the kernel. -/
  | asks {client : Client σ} (present : s.kernel = .present client) (r : Request) :
      Goes b s id ({ s with kernel := .present (client.request b r).2 }.apply
        (.replied id ((client.request b r).1.getD (.error .noResponse))))
  /-- It closes the kernel. -/
  | closes {client : Client σ} (present : s.kernel = .present client) :
      Goes b s id ({ s with kernel := .present (client.close b).2 }.apply
        (.ended id ((client.close b).1.getD (.ok ()))))
  /-- It does not wait for the kernel. -/
  | polls : Goes b s id (s.apply (.poll id))

/-- Going on is one of these; this is where `goOn` is opened. -/
theorem goOn_goes (s : Series σ) (id : Nat) : Goes b s id (s.goOn b id) := by
  unfold Series.goOn
  split
  · next deed task =>
    unfold Series.launch
    split
    · exact .stays
    · next now side absent =>
      split
      · next launched => exact .launches task absent launched
      · next failed => exact .fails task absent failed
  · next r kernel task =>
    unfold Series.request
    split
    · exact .stays
    · next present => exact .asks present r
  · unfold Series.close
    split
    · exact .stays
    · next present => exact .closes present
  · exact .polls

/-- What holds once an operation has begun, and is kept by going on, holds when it has been
performed: by induction on its steps. -/
theorem perform_keeps {P : Series σ → Prop} {deed : Deed}
    (hbegun : P ({ s with next := s.next + 1 }.apply (.begin s.next deed)))
    (hgoes : ∀ {s s' : Series σ} {id : Nat}, P s → Goes b s id s' → P s') :
    P (s.perform b deed).2 := by
  unfold Series.perform
  dsimp only
  generalize ({ s with next := s.next + 1 }.apply (.begin s.next deed) : Series σ) = begun at hbegun
  induction List.range steps generalizing begun with
  | nil => exact hbegun
  | cons n rest ih => exact ih _ (hgoes hbegun (goOn_goes begun s.next))

/-! ## The sharing and its kernel -/

theorem sound_new (config : LaunchConfig) (side : σ) : (new config side).Sound where
  run := ⟨[], rfl⟩
  present := by
    constructor
    · rintro ⟨client, hclient⟩
      exact nomatch hclient
    · intro h
      exact nomatch h

/-- The end of a start leads the sharing on, and a kernel is behind it afterwards exactly if the
launch has given one: the operation alone can be starting it. -/
theorem Sound.started (h : s.Sound) {deed : Deed}
    (task : s.world.task? id = some ⟨deed, .starting⟩) {kernel : Kernel σ}
    {result : Except LinkError String}
    (hkernel : (∃ client, kernel = .present client) ↔ ∃ version, result = .ok version) :
    ({ s with kernel := kernel }.apply (.started id result)).Sound := by
  obtain ⟨events, hrun⟩ := h.run
  have hcell : s.world.cell = .starting id := h.sharing.fits id deed .starting task
  have hends : (s.world.apply (.started id result)).cell =
      .settled (result.map fun version => ⟨s.world.starts, version⟩) := by
    simp [World.apply, World.started, hcell, World.goOn]
  refine ⟨⟨events ++ [.started id result], ?_⟩, hkernel.trans ?_⟩
  · rw [World.run_concat, ← hrun]
    rfl
  · show _ ↔ (s.world.apply (.started id result)).isStarted = true
    rw [isStarted_iff, hends]
    cases result <;> simp [Except.map]

/-- A kernel that is used goes on being there, since using it gives another client and not none. -/
theorem Sound.use (h : s.Sound) {client client' : Client σ} (hk : s.kernel = .present client)
    {e : Event} (he : ∀ id result, e ≠ .started id result) :
    ({ s with kernel := .present client' }.apply e).Sound := by
  have hsame : ({ s with kernel := .present client' } : Series σ).Sound :=
    ⟨h.run, iff_of_true ⟨client', rfl⟩ (h.present.mp ⟨client, hk⟩)⟩
  exact hsame.apply e (isStarted_apply he)

/-- Going on keeps the two together: only the end of a start changes whether a kernel is there. -/
theorem Sound.goes {s' : Series σ} (h : s.Sound) (hgoes : Goes b s id s') : s'.Sound := by
  cases hgoes with
  | stays => exact h
  | launches task => exact h.started task (iff_of_true ⟨_, rfl⟩ ⟨_, rfl⟩)
  | fails task => exact h.started task (iff_of_false (by simp) (by simp))
  | asks present | closes present => exact h.use present fun _ _ => nofun
  | polls => exact h.apply (.poll id) (isStarted_apply fun _ _ => nofun)

/-- Every operation keeps the sharing and its kernel together, from its beginning on. -/
theorem sound_perform (h : s.Sound) (deed : Deed) : (s.perform b deed).2.Sound := by
  have hnumbered : ({ s with next := s.next + 1 } : Series σ).Sound := ⟨h.run, h.present⟩
  exact perform_keeps (hnumbered.apply (.begin s.next deed) (isStarted_apply fun _ _ => nofun))
    Sound.goes

/-- So does time, which is time of the kernel if one is there. -/
theorem sound_sleep (h : s.Sound) (ms : Nat) : (s.sleep b ms).Sound := by
  unfold Series.sleep
  split
  · next now side hk =>
    refine ⟨h.run, iff_of_false ?_ ?_⟩
    · rintro ⟨client, hclient⟩
      exact nomatch hclient
    · intro hstarted
      obtain ⟨client, hclient⟩ := h.present.mpr hstarted
      exact nomatch hk.symm.trans hclient
  · next client hk => exact ⟨h.run, iff_of_true ⟨_, rfl⟩ (h.present.mp ⟨client, hk⟩)⟩

/-! ## The link behind it -/

theorem linked_new (config : LaunchConfig) (side : σ) : (new config side).Linked :=
  fun _ h => nomatch h

/-- The configuration, with its time limits, stays what it is. -/
theorem Goes.config {s' : Series σ} (h : Goes b s id s') : s'.config = s.config := by
  cases h <;> rfl

/-- What an operation waits for is a launch, a request or a closing, and the link goes on from where
it was or from where its launch left it. -/
theorem Linked.goes {s' : Series σ} (hb : b.Faithful) (h : s.Linked) (hgoes : Goes b s id s') :
    s'.Linked := by
  intro client' hclient
  rw [hgoes.config]
  cases hgoes with
  | stays | polls => exact h client' hclient
  | launches task absent launched =>
    cases hclient
    exact ⟨_, Client.follows_launch? launched⟩
  | fails => exact nomatch hclient
  | asks present r =>
    cases hclient
    obtain ⟨wires, hfollows⟩ := h _ present
    exact ⟨wires, hfollows.request hb r⟩
  | closes present =>
    cases hclient
    obtain ⟨wires, hfollows⟩ := h _ present
    exact ⟨wires, hfollows.close hb⟩

/-- Every operation is a run of the link behind the sharing. -/
theorem linked_perform (hb : b.Faithful) (h : s.Linked) (deed : Deed) :
    (s.perform b deed).2.Linked :=
  perform_keeps (P := Linked) h (Linked.goes hb)

/-- So is time, in which the other side may do what it does. -/
theorem linked_sleep (hb : b.Faithful) (h : s.Linked) (ms : Nat) : (s.sleep b ms).Linked := by
  unfold Series.sleep
  split
  · exact fun client hclient => nomatch hclient
  · next client hk =>
    obtain ⟨wires, hfollows⟩ := h client hk
    rintro client' hclient
    cases hclient
    exact ⟨wires, hfollows.sleep hb ms⟩

/-! ## What becomes of the other side -/

variable {K : σ → σ → Prop}

/-- A launch, a request and a closing lead the other side on, and nothing else touches it. -/
theorem Goes.carried {s' : Series σ} (hb : b.Carries K) (h : Goes b s id s') :
    K s.kernel.side s'.kernel.side := by
  cases h with
  | stays | polls => exact hb.refl _
  | launches task absent launched =>
    -- the client begins with the other side as its launch left it
    have hled := Client.carried_launch? hb launched
    rw [← (Client.launch?_ok launched).2.1] at hled
    rw [absent]
    exact hled
  | fails task absent failed =>
    rw [absent]
    exact Client.carried_launch? hb failed
  | asks present r =>
    rw [present]
    exact Client.carried_request hb.toLeads r
  | closes present =>
    rw [present]
    exact Client.carried_close hb.toLeads

/-- So does a whole operation, each step of which leads on. -/
theorem carried_perform (hb : b.Carries K) (s : Series σ) (deed : Deed) :
    K s.kernel.side (s.perform b deed).2.kernel.side :=
  perform_keeps (P := fun s' => K s.kernel.side s'.kernel.side) (hb.refl _)
    fun hled hgoes => hb.trans hled (hgoes.carried hb)

/-- Time carries the other side on, with or without a kernel in between. -/
theorem carried_sleep (hb : b.Carries K) (s : Series σ) (ms : Nat) :
    K s.kernel.side (s.sleep b ms).kernel.side := by
  unfold Series.sleep
  split
  · next hk =>
    rw [hk]
    exact hb.refl _
  · next client hk =>
    rw [hk]
    exact Client.carried_sleep hb.toLeads ms

end Series
end KernelLink.Shared
