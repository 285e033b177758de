import KernelLink.Proofs.Shared.Moves
/-!
# How far the operations are and what is known of the kernel

The invariant that carries every statement about the sharing: how often a kernel was started and how
far each operation has got fit what is known of the kernel. It is proved for one event, rule by
rule, and then for every run.

Main definition:
* `Sharing`: the invariant.

Main results:
* `Move.sharing`: one event preserves it.
* `sharing_run`: it holds in every run.
* `task?_run`: an operation stays what it is, and its result does.
-/
namespace KernelLink.Shared.World

variable {w w' : World} {id i : Nat} {deed : Deed} {stage : Stage}

/-! ## The invariant -/

/-- The kernel with a number is there. -/
def There (w : World) (number : Nat) : Prop :=
  ∃ kernel : Started, w.cell = .settled (.ok kernel) ∧ kernel.number = number

/-- A closing need not wait: either there will be no kernel, or it was told to close. -/
def Released (w : World) : Prop :=
  ∃ slot, w.cell = .settled slot ∧ ∀ kernel, slot = .ok kernel → kernel.number ∈ w.closings

/-- What the stage of an operation says of the sharing. -/
def Fits (w : World) (id : Nat) (deed : Deed) : Stage → Prop
  | .fresh => True
  | .wanting => True
  | .starting => w.cell = .starting id
  | .asking kernel => w.cell = .settled (.ok kernel)
  | .closing kernel => w.cell = .settled (.ok kernel) ∧ kernel.number ∈ w.closings
  | .finished result =>
    (deed = .close → w.Released) ∧
      ∀ text, result = .ok (.version text) →
        ∃ kernel, w.cell = .settled (.ok kernel) ∧ kernel.version = text

/-- How often a kernel was started, by what is known of it. -/
def Counted (w : World) : Prop :=
  match w.cell with
  | .empty => w.starts = 0
  | .starting _ => w.starts = 1
  | .settled _ => w.starts ≤ 1

/-- What holds at every moment of every run. -/
structure Sharing (w : World) : Prop where
  /-- There is at most one start. -/
  counted : w.Counted
  /-- Whoever is said to be starting the kernel is. -/
  starter : ∀ id, w.cell = .starting id → ∃ deed, w.task? id = some ⟨deed, .starting⟩
  /-- Only the kernel that is there was asked anything. -/
  asked : ∀ entry ∈ w.asked, w.There entry.1
  /-- Only the kernel that is there was told to close. -/
  closings : ∀ number ∈ w.closings, w.There number
  /-- Every operation is at a stage that fits. -/
  fits : ∀ id deed stage, w.task? id = some ⟨deed, stage⟩ → w.Fits id deed stage

/-- At the beginning there are no operations, nothing was started and the cell is empty. -/
theorem sharing_new : Sharing new where
  counted := rfl
  starter _ h := by cases h
  asked _ h := by cases h
  closings _ h := by cases h
  fits _ _ _ h := by cases h

/-! ### What one event does to it -/

/-- A kernel that is there stays there as long as the cell stays settled. -/
theorem There.of_settled {v : World} {number : Nat} (h : w.There number)
    (hcell : ∀ slot, w.cell = .settled slot → v.cell = .settled slot) : v.There number := by
  obtain ⟨kernel, hk, hn⟩ := h
  exact ⟨kernel, hcell _ hk, hn⟩

/-- The stage of an operation that does nothing goes on fitting. -/
theorem Fits.of_settled {v : World} (h : w.Fits i deed stage)
    (hcell : ∀ slot, w.cell = .settled slot → v.cell = .settled slot)
    (hstarting : w.cell = .starting i → v.cell = .starting i)
    (hclosings : w.closings ⊆ v.closings) : v.Fits i deed stage := by
  cases stage with
  | fresh => trivial
  | wanting => trivial
  | starting => exact hstarting h
  | asking kernel => exact hcell _ h
  | closing kernel => exact ⟨hcell _ h.1, hclosings h.2⟩
  | finished result =>
    refine ⟨fun hd => ?_, fun text ht => ?_⟩
    · obtain ⟨slot, hs, hk⟩ := h.1 hd
      exact ⟨slot, hcell _ hs, fun kernel he => hclosings (hk kernel he)⟩
    · obtain ⟨kernel, hk, hv⟩ := h.2 text ht
      exact ⟨kernel, hcell _ hk, hv⟩

/-- One operation goes on, and `v` is the state but for that: only what is said of `v` and of the
stage that the operation comes to is left to check. -/
theorem Sharing.goOn {v : World} {after : Stage} (h : Sharing w) (htasks : v.tasks = w.tasks)
    (task : w.task? id = some ⟨deed, stage⟩) (counted : v.Counted)
    (hcell : ∀ slot, w.cell = .settled slot → v.cell = .settled slot)
    (hstarting : ∀ i, i ≠ id → w.cell = .starting i → v.cell = .starting i)
    (starter : ∀ i, v.cell = .starting i → i = id ∧ after = .starting ∨
      i ≠ id ∧ w.cell = .starting i)
    (asked : ∀ entry ∈ v.asked, entry ∈ w.asked ∨ v.There entry.1)
    (closings : ∀ number ∈ v.closings, number ∈ w.closings ∨ v.There number)
    (hclosings : w.closings ⊆ v.closings) (fits : v.Fits id deed after) :
    Sharing (v.goOn id after) := by
  have hlookup : ∀ i, v.task? i = w.task? i := fun i => by rw [task?, task?, htasks]
  have htask : v.task? id = some ⟨deed, stage⟩ := by rw [hlookup, task]
  refine ⟨counted, fun i hi => ?_, fun entry he => ?_, fun number hn => ?_, fun i d s hs => ?_⟩
  · rw [task?_goOn htask]
    rcases starter i hi with ⟨rfl, rfl⟩ | ⟨hne, hw⟩
    · exact ⟨deed, if_pos rfl⟩
    · rw [if_neg hne, hlookup]
      exact h.starter i hw
  · rcases asked entry he with hold | hnew
    · exact (h.asked entry hold).of_settled hcell
    · exact hnew
  · rcases closings number hn with hold | hnew
    · exact (h.closings number hold).of_settled hcell
    · exact hnew
  · rw [task?_goOn htask] at hs
    by_cases hi : i = id
    · subst hi
      rw [if_pos rfl, Option.some.injEq, Task.mk.injEq] at hs
      obtain ⟨rfl, rfl⟩ := hs
      exact fits
    · rw [if_neg hi, hlookup] at hs
      exact (h.fits i d s hs).of_settled (v := v) hcell (hstarting i hi) hclosings

/-- One operation goes on and nothing else happens, so the others fit as they did before. -/
theorem Sharing.goOn_only {after : Stage} (h : Sharing w) (task : w.task? id = some ⟨deed, stage⟩)
    (hstage : stage ≠ .starting) (fits : w.Fits id deed after) : Sharing (w.goOn id after) := by
  refine h.goOn rfl task h.counted (fun _ hs => hs) (fun _ _ hs => hs) (fun i hi => ?_)
    (fun _ => .inl) (fun _ => .inl) (List.Subset.refl _) fits
  refine .inr ⟨?_, hi⟩
  rintro rfl
  obtain ⟨_, hs⟩ := h.starter i hi
  rw [task, Option.some.injEq, Task.mk.injEq] at hs
  exact hstage hs.2

/-- An operation begins: it has got nowhere, so all that is known of the others stays. -/
theorem Sharing.begin (h : Sharing w) (fresh : w.task? id = none) (deed : Deed) :
    Sharing (w.begin id deed) := by
  refine ⟨h.counted, fun i hi => ?_, h.asked, h.closings, fun i d s hs => ?_⟩
  · obtain ⟨d, hd⟩ := h.starter i hi
    have hne : i ≠ id := by
      rintro rfl
      rw [fresh] at hd
      cases hd
    rw [task?_begin fresh, if_neg hne]
    exact ⟨d, hd⟩
  · rw [task?_begin fresh] at hs
    by_cases hi : i = id
    · rw [if_pos hi, Option.some.injEq, Task.mk.injEq] at hs
      obtain ⟨-, rfl⟩ := hs
      trivial
    · rw [if_neg hi] at hs
      exact h.fits i d s hs

theorem Counted.le_one (h : w.Counted) : w.starts ≤ 1 := by
  unfold Counted at h
  split at h <;> omega

/-- Before anything is known of the kernel, none was started. -/
theorem Sharing.starts_of_empty (h : Sharing w) (empty : w.cell = .empty) : w.starts = 0 := by
  have hcounted := h.counted
  rwa [Counted, empty] at hcounted

/-- While the kernel is being started, one was. -/
theorem Sharing.starts_of_starting (h : Sharing w) (cell : w.cell = .starting id) :
    w.starts = 1 := by
  have hcounted := h.counted
  rwa [Counted, cell] at hcounted

/-- A closing comes before everybody who wants a kernel, so nobody is at a stage that would need
one. -/
theorem Sharing.forestall (h : Sharing w) (empty : w.cell = .empty) :
    Sharing { w with cell := .settled (.error .closed) } := by
  have hstarts := h.starts_of_empty empty
  have hcell : ∀ cell, w.cell = cell → cell ≠ .empty → False := by
    rintro cell hc hne
    rw [empty] at hc
    exact hne hc.symm
  refine ⟨?_, fun i hi => ?_, fun entry he => ?_, fun number hn => ?_, fun i d s hs => ?_⟩
  · show w.starts ≤ 1
    omega
  · cases hi
  · obtain ⟨kernel, hk, -⟩ := h.asked entry he
    exact (hcell _ hk (by simp)).elim
  · obtain ⟨kernel, hk, -⟩ := h.closings number hn
    exact (hcell _ hk (by simp)).elim
  · exact (h.fits i d s hs).of_settled (fun _ hc => (hcell _ hc (by simp)).elim)
      (fun hc => (hcell _ hc (by simp)).elim) (List.Subset.refl _)

/-- Rule by rule, the invariant is preserved. What each rule does to the cell decides what has to be
shown of the operations that look at it. -/
theorem Move.sharing {e : Event} (move : Move w e w') (h : Sharing w) : Sharing w' := by
  cases move with
  | idle => exact h
  | begin id deed fresh => exact h.begin fresh deed
  | refuse task uses closed => exact h.goOn_only task (by simp) ⟨fun hd => absurd hd uses, by simp⟩
  | pass task => exact h.goOn_only task (by simp) trivial
  | mark task =>
    -- whoever starts the kernel is at another stage than the closing, so he goes on starting it
    refine h.goOn rfl task h.counted (fun _ hs => hs) (fun _ _ hs => hs) (fun i hi => ?_)
      (fun _ => .inl) (fun _ => .inl) (List.Subset.refl _) trivial
    refine .inr ⟨?_, hi⟩
    rintro rfl
    obtain ⟨_, hs⟩ := h.starter i hi
    rw [task] at hs
    cases hs
  | start task uses empty =>
    have hstarts := h.starts_of_empty empty
    -- the cell was empty, so nobody relies on what it held
    refine h.goOn rfl task (show w.starts + 1 = 1 by rw [hstarts]) (fun slot hs => ?_)
      (fun i _ hi => ?_) (fun i hi => ?_) (fun _ => .inl) (fun _ => .inl) (List.Subset.refl _) rfl
    · rw [empty] at hs
      cases hs
    · rw [empty] at hi
      cases hi
    · cases hi
      exact .inl ⟨rfl, rfl⟩
  | forestall task empty => exact h.forestall empty
  | fail task uses => exact h.goOn_only task (by simp) ⟨fun hd => absurd hd uses, by simp⟩
  | spare task cell =>
    refine h.goOn_only task (by simp) ⟨fun _ => ⟨_, cell, ?_⟩, by simp⟩
    rintro kernel ⟨⟩
  | tell task cell =>
    refine h.goOn rfl task h.counted (fun _ hs => hs) (fun _ _ hs => hs) (fun i hi => ?_)
      (fun _ => .inl) (fun number hn => ?_) (List.subset_append_left _ _) ⟨cell, by simp⟩
    · have hi : w.cell = .starting i := hi
      rw [cell] at hi
      cases hi
    · rcases List.mem_append.1 hn with hold | hnew
      · exact .inl hold
      · rw [List.mem_singleton] at hnew
        exact .inr ⟨_, cell, hnew.symm⟩
  | there task cell =>
    exact h.goOn_only task (by simp) ⟨fun hd => absurd hd (by simp), by simp⟩
  | @version id kernel task cell =>
    refine h.goOn_only task (by simp) ⟨fun hd => absurd hd (by simp), fun text ht => ?_⟩
    rw [Except.ok.injEq, Gift.version.injEq] at ht
    exact ⟨kernel, cell, ht⟩
  | ask task cell =>
    refine h.goOn rfl task h.counted (fun _ hs => hs) (fun _ _ hs => hs) (fun i hi => ?_)
      (fun entry he => ?_) (fun _ => .inl) (List.Subset.refl _) cell
    · have hi : w.cell = .starting i := hi
      rw [cell] at hi
      cases hi
    · rcases List.mem_append.1 he with hold | hnew
      · exact .inl hold
      · rw [List.mem_singleton] at hnew
        subst hnew
        exact .inr ⟨_, cell, rfl⟩
  | @started id result cell =>
    -- only the starter relied on the cell being in the making, and he goes on
    obtain ⟨d, task⟩ := h.starter id cell
    have hstarts := h.starts_of_starting cell
    refine h.goOn rfl task (show w.starts ≤ 1 by omega) (fun slot hs => ?_) (fun i hne hi => ?_)
      (fun i hi => ?_) (fun _ => .inl) (fun _ => .inl) (List.Subset.refl _) trivial
    · rw [cell] at hs
      cases hs
    · rw [cell, Cell.starting.injEq] at hi
      exact absurd hi.symm hne
    · cases hi
  | @replied id r kernel result task =>
    refine h.goOn_only task (by simp) ⟨fun hd => absurd hd (by simp), fun text ht => ?_⟩
    cases hr : Reply.ofResult r.api result with
    | error e => simp [hr, Except.map] at ht
    | ok reply => simp [hr, Except.map] at ht
  | @ended id d kernel result task =>
    obtain ⟨cell, told⟩ := h.fits id d _ task
    refine h.goOn_only task (by simp) ⟨fun _ => ⟨_, cell, ?_⟩, fun text ht => ?_⟩
    · rintro k ⟨⟩
      exact told
    · cases result with
      | error e => simp [Except.map] at ht
      | ok u => simp [Except.map] at ht

/-- A run from where the invariant holds keeps it. Induction on the events. -/
theorem sharing_of (h : Sharing w) (events : List Event) : Sharing (w.run events) := by
  induction events generalizing w with
  | nil => exact h
  | cons e events ih => exact ih ((apply_cases w e).sharing h)

theorem sharing_run (events : List Event) : Sharing (new.run events) :=
  sharing_of sharing_new events

/-! ## Over a run -/

/-- A run in two parts: the later events start from where the earlier ones led. -/
theorem run_append (w : World) (before after : List Event) :
    w.run (before ++ after) = (w.run before).run after :=
  List.foldl_append

/-- One more event is applied to what the events before it have led to. -/
theorem run_concat (w : World) (events : List Event) (e : Event) :
    w.run (events ++ [e]) = (w.run events).apply e := by
  rw [run_append]
  rfl

/-- An operation stays what it is, and its result does; by induction on the events. -/
theorem task?_run (h : Sharing w) (ht : w.task? id = some ⟨deed, stage⟩) (events : List Event) :
    ∃ after, (w.run events).task? id = some ⟨deed, after⟩ ∧
      ∀ result, stage = .finished result → after = .finished result := by
  induction events generalizing w stage with
  | nil => exact ⟨stage, ht, fun _ hs => hs⟩
  | cons e events ih =>
    obtain ⟨next, hnext, hkeeps, -⟩ := (apply_cases w e).task h.starter ht
    obtain ⟨after, hafter, hkept⟩ := ih ((apply_cases w e).sharing h) hnext
    exact ⟨after, hafter, fun result hs => hkept result (hkeeps result hs)⟩

/-- An operation has a result exactly if it has finished with that result. -/
theorem result?_eq_some {result : Result} :
    w.result? id = some result ↔ ∃ deed, w.task? id = some ⟨deed, .finished result⟩ := by
  unfold result?
  split
  · next d r h => simp [h]
  · next h =>
    constructor
    · intro he
      cases he
    · rintro ⟨deed, ht⟩
      exact absurd ht (h deed result)

theorem result?_finish (task : w.task? id = some ⟨deed, stage⟩) (result : Result) :
    (w.finish id result).result? id = some result := by
  refine result?_eq_some.2 ⟨deed, ?_⟩
  rw [finish, task?_goOn task, if_pos rfl]

theorem result?_run (h : Sharing w) {result : Result} (hr : w.result? id = some result)
    (events : List Event) : (w.run events).result? id = some result := by
  obtain ⟨deed, ht⟩ := result?_eq_some.1 hr
  obtain ⟨after, hafter, hkept⟩ := task?_run h ht events
  rw [hkept result rfl] at hafter
  exact result?_eq_some.2 ⟨deed, hafter⟩

/-! ## Polls -/

theorem apply_fresh (task : w.task? id = some ⟨deed, .fresh⟩) :
    w.apply (.poll id) = w.look id deed := by
  simp [apply, poll, task]

/-- An operation that wants the kernel gets what the cell was settled with. -/
theorem apply_settled {slot : Slot} (task : w.task? id = some ⟨deed, .wanting⟩)
    (cell : w.cell = .settled slot) : w.apply (.poll id) = w.receive id deed slot := by
  simp [apply, poll, task, want, cell]

end KernelLink.Shared.World
