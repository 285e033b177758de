import KernelLink.Shared.Kernel
/-!
# What one event of the sharing can do

The events of a shared kernel, one rule for each way an event can go, with the state that it leads
to. An operation first looks whether a closing has begun, then it wants the kernel, and what it gets
is what the cell says at that moment. Later proofs go through these rules and never open the
functions behind them.

Main definition:
* `World.Move`: the rules.

Main results:
* `World.apply_cases`: whatever happens follows one of the rules.
* `World.Move.settled`: what is settled stays, and nothing is started any more.
-/
namespace KernelLink.Shared.World

/-! ## Looking operations up -/

/-- Changing the entry of one number changes what is found under it, if anything was, and under no
other. Induction on the list. -/
theorem lookup_map_update {α : Type} (entries : List (Nat × α)) (id i : Nat) (f : α → α) :
    (entries.map fun entry => if entry.1 = id then (id, f entry.2) else entry).lookup i =
      if i = id then (entries.lookup i).map f else entries.lookup i := by
  induction entries with
  | nil => simp
  | cons entry rest ih =>
    obtain ⟨j, t⟩ := entry
    rw [List.map_cons, List.lookup_cons]
    by_cases hj : j = id
    · subst hj
      rw [if_pos rfl, List.lookup_cons, ih]
      by_cases hi : i = j
      · subst hi
        simp
      · have hb : (i == j) = false := by simpa using hi
        simp only [hb, hi]
    · rw [if_neg hj, List.lookup_cons, ih]
      by_cases hi : i = j
      · subst hi
        simp [hj]
      · have hb : (i == j) = false := by simpa using hi
        simp only [hb]

variable {w w' : World} {id i : Nat} {deed : Deed} {stage : Stage}

/-- An operation that gets further is found there, and every other one where it was. -/
theorem task?_goOn (h : w.task? id = some ⟨deed, stage⟩) (after : Stage) (i : Nat) :
    (w.goOn id after).task? i = if i = id then some ⟨deed, after⟩ else w.task? i := by
  have hmap : (w.goOn id after).task? i =
      if i = id then (w.task? i).map (fun t => { t with stage := after }) else w.task? i :=
    lookup_map_update w.tasks id i fun t => { t with stage := after }
  rw [hmap]
  by_cases hi : i = id
  · rw [if_pos hi, if_pos hi, hi, h]
    rfl
  · rw [if_neg hi, if_neg hi]

theorem task?_begin (h : w.task? id = none) (deed : Deed) (i : Nat) :
    (w.begin id deed).task? i = if i = id then some ⟨deed, .fresh⟩ else w.task? i := by
  unfold task? begin at *
  rw [List.lookup_append]
  by_cases hi : i = id
  · subst hi
    simp [h]
  · have hb : (i == id) = false := by simpa using hi
    simp [List.lookup_cons, hb, hi]

/-! ## The rules -/

/-- One event: `Move w e w'` leads from `w` to `w'`. -/
inductive Move (w : World) : Event → World → Prop where
  /-- Nothing happens. -/
  | idle (e : Event) : Move w e w
  /-- An operation begins. -/
  | begin (id : Nat) (deed : Deed) (fresh : w.task? id = none) :
      Move w (.begin id deed) (w.begin id deed)
  /-- An operation finds that a closing has begun. -/
  | refuse {id : Nat} {deed : Deed} (task : w.task? id = some ⟨deed, .fresh⟩)
      (uses : deed ≠ .close) (closed : w.closed = true) :
      Move w (.poll id) (w.finish id (.error .closed))
  /-- An operation finds that no closing has begun. -/
  | pass {id : Nat} {deed : Deed} (task : w.task? id = some ⟨deed, .fresh⟩)
      (uses : deed ≠ .close) (going : w.closed = false) : Move w (.poll id) (w.goOn id .wanting)
  /-- A closing lets it be known. -/
  | mark {id : Nat} (task : w.task? id = some ⟨.close, .fresh⟩) :
      Move w (.poll id) ({ w with closed := true }.goOn id .wanting)
  /-- The first that wants the kernel starts it. -/
  | start {id : Nat} {deed : Deed} (task : w.task? id = some ⟨deed, .wanting⟩)
      (uses : deed ≠ .close) (empty : w.cell = .empty) :
      Move w (.poll id)
        ({ w with cell := .starting id, starts := w.starts + 1 }.goOn id .starting)
  /-- A closing settles that there will be no kernel. -/
  | forestall {id : Nat} (task : w.task? id = some ⟨.close, .wanting⟩) (empty : w.cell = .empty) :
      Move w (.poll id) { w with cell := .settled (.error .closed) }
  /-- An operation finds that there is no kernel. -/
  | fail {id : Nat} {deed : Deed} {cause : LinkError} (task : w.task? id = some ⟨deed, .wanting⟩)
      (uses : deed ≠ .close) (cell : w.cell = .settled (.error cause)) :
      Move w (.poll id) (w.finish id (.error (failure cause)))
  /-- A closing finds that there is no kernel. -/
  | spare {id : Nat} {cause : LinkError} (task : w.task? id = some ⟨.close, .wanting⟩)
      (cell : w.cell = .settled (.error cause)) : Move w (.poll id) (w.finish id (.ok .nothing))
  /-- A closing tells the kernel to close. -/
  | tell {id : Nat} {kernel : Started} (task : w.task? id = some ⟨.close, .wanting⟩)
      (cell : w.cell = .settled (.ok kernel)) :
      Move w (.poll id)
        ({ w with closings := w.closings ++ [kernel.number] }.goOn id (.closing kernel))
  /-- A start finds the kernel there. -/
  | there {id : Nat} {kernel : Started} (task : w.task? id = some ⟨.start, .wanting⟩)
      (cell : w.cell = .settled (.ok kernel)) : Move w (.poll id) (w.finish id (.ok .nothing))
  /-- The version is read off the kernel. -/
  | version {id : Nat} {kernel : Started} (task : w.task? id = some ⟨.version, .wanting⟩)
      (cell : w.cell = .settled (.ok kernel)) :
      Move w (.poll id) (w.finish id (.ok (.version kernel.version)))
  /-- A call sends its request to the kernel. -/
  | ask {id : Nat} {r : Request} {kernel : Started} (task : w.task? id = some ⟨.call r, .wanting⟩)
      (cell : w.cell = .settled (.ok kernel)) :
      Move w (.poll id)
        ({ w with asked := w.asked ++ [(kernel.number, r)] }.goOn id (.asking kernel))
  /-- The start of the kernel ends. -/
  | started {id : Nat} (result : Except LinkError String) (cell : w.cell = .starting id) :
      Move w (.started id result)
        ({ w with cell := .settled (result.map fun version => ⟨w.starts, version⟩) }.goOn id
          .wanting)
  /-- The kernel replies to a call. -/
  | replied {id : Nat} {r : Request} {kernel : Started} (result : Except LinkError Json)
      (task : w.task? id = some ⟨.call r, .asking kernel⟩) :
      Move w (.replied id result) (w.finish id ((Reply.ofResult r.api result).map .reply))
  /-- The kernel has closed for a closing. -/
  | ended {id : Nat} {deed : Deed} {kernel : Started} (result : Except LinkError Unit)
      (task : w.task? id = some ⟨deed, .closing kernel⟩) :
      Move w (.ended id result) (w.finish id (result.map fun _ => .nothing))

/-! ## Every event follows a rule -/

/-- An operation that has just begun follows one of the rules: a closing notes that it has begun,
and any other one is refused if a closing has, and otherwise wants the kernel. -/
theorem look_cases (task : w.task? id = some ⟨deed, .fresh⟩) :
    Move w (.poll id) (w.look id deed) := by
  by_cases hd : deed = .close
  · subst hd
    exact .mark task
  have hlook : w.look id deed =
      if w.closed then w.finish id (.error .closed) else w.goOn id .wanting := by
    unfold look
    split
    · exact absurd rfl hd
    · rfl
  rw [hlook]
  by_cases hc : w.closed = true
  · rw [if_pos hc]
    exact .refuse task hd hc
  · rw [if_neg hc]
    exact .pass task hd (by simpa using hc)

/-- An operation that gets what the cell was settled with follows one of the rules, by what it is
for and by whether that is a kernel. -/
theorem receive_cases {slot : Slot} (task : w.task? id = some ⟨deed, .wanting⟩)
    (cell : w.cell = .settled slot) : Move w (.poll id) (w.receive id deed slot) := by
  cases slot with
  | error cause =>
    cases deed with
    | close => exact .spare task cell
    | start => exact .fail task (by simp) cell
    | version => exact .fail task (by simp) cell
    | call r => exact .fail task (by simp) cell
  | ok kernel =>
    cases deed with
    | close => exact .tell task cell
    | start => exact .there task cell
    | version => exact .version task cell
    | call r => exact .ask task cell

/-- An operation that wants the kernel gets what the cell is settled with, starts the kernel if the
cell is empty, or waits; a closing that finds the cell empty settles it. -/
theorem want_cases (task : w.task? id = some ⟨deed, .wanting⟩) (h : w.want id deed = some w') :
    Move w (.poll id) w' := by
  unfold want at h
  split at h
  case h_1 slot deed hcell =>
    rw [Option.some.injEq] at h
    subst h
    exact receive_cases task hcell
  case h_2 => exact absurd h (by simp)
  case h_3 hcell =>
    rw [Option.some.injEq] at h
    subst h
    exact .forestall task hcell
  case h_4 hcell hd =>
    rw [Option.some.injEq] at h
    subst h
    exact .start task hd hcell

theorem poll_cases (h : w.poll id = some w') : Move w (.poll id) w' := by
  unfold poll at h
  split at h
  case h_1 deed task =>
    rw [Option.some.injEq] at h
    subst h
    exact look_cases task
  case h_2 deed task => exact want_cases task h
  case h_3 => exact absurd h (by simp)

/-- Whatever happens follows one of the rules, an event that changes nothing among them. -/
theorem apply_cases (w : World) (e : Event) : Move w e (w.apply e) := by
  cases e with
  | begin id deed =>
    unfold apply
    dsimp only
    cases ht : w.task? id with
    | some t => exact .idle _
    | none => exact .begin id deed ht
  | poll id =>
    unfold apply
    dsimp only
    cases hp : w.poll id with
    | none => exact .idle _
    | some w' => exact poll_cases hp
  | started id result =>
    unfold apply World.started
    dsimp only
    split
    · next starter hcell =>
      by_cases hs : starter = id
      · subst hs
        rw [if_pos rfl]
        exact .started result hcell
      · rw [if_neg hs]
        exact .idle _
    · exact .idle _
  | replied id result =>
    unfold apply World.replied
    dsimp only
    split
    · next r kernel task => exact .replied result task
    · exact .idle _
  | ended id result =>
    unfold apply World.ended
    dsimp only
    split
    · next deed kernel task => exact .ended result task
    · exact .idle _

/-! ## What every event leaves alone -/

/-- What is settled stays, and nothing is started any more, for the rules that start or settle ask
for a cell that is neither. -/
theorem Move.settled {e : Event} {slot : Slot} (h : Move w e w') (hc : w.cell = .settled slot) :
    w'.cell = .settled slot ∧ w'.starts = w.starts := by
  cases h with
  | start task uses empty =>
    rw [empty] at hc
    exact absurd hc (by simp)
  | forestall task empty =>
    rw [empty] at hc
    exact absurd hc (by simp)
  | started result cell =>
    rw [cell] at hc
    exact absurd hc (by simp)
  | _ => exact ⟨hc, rfl⟩

/-- What is settled stays settled along every run, and nothing is started any more. -/
theorem settled_run {slot : Slot} (hc : w.cell = .settled slot) (events : List Event) :
    (w.run events).cell = .settled slot ∧ (w.run events).starts = w.starts := by
  induction events generalizing w with
  | nil => exact ⟨hc, rfl⟩
  | cons e events ih =>
    obtain ⟨hcell, hstarts⟩ := (apply_cases w e).settled hc
    have hrun := ih hcell
    rw [hstarts] at hrun
    exact hrun

/-- Kernels that were told to close stay told, for one rule adds to the list and none takes away. -/
theorem Move.closings {e : Event} (h : Move w e w') : w.closings ⊆ w'.closings := by
  cases h with
  | tell task cell => exact List.subset_append_left _ _
  | _ => exact List.Subset.refl _

theorem closings_run (w : World) (events : List Event) : w.closings ⊆ (w.run events).closings := by
  induction events generalizing w with
  | nil => exact List.Subset.refl _
  | cons e events ih => exact List.Subset.trans (apply_cases w e).closings (ih (w.apply e))

/-- An operation that has begun is the same operation afterwards; a finished one has the same
result. -/
theorem Move.task {e : Event} (h : Move w e w')
    (starter : ∀ id, w.cell = .starting id → ∃ deed, w.task? id = some ⟨deed, .starting⟩)
    (ht : w.task? i = some ⟨deed, stage⟩) :
    ∃ after, w'.task? i = some ⟨deed, after⟩ ∧
      (∀ result, stage = .finished result → after = .finished result) ∧
      (stage ≠ .fresh → after ≠ .fresh) := by
  -- one operation goes on from a stage that is not the last one, and the others stay
  have hgo : ∀ {v : World} {id : Nat} {d : Deed} {before after : Stage},
      v.task? id = some ⟨d, before⟩ → (∀ i, v.task? i = w.task? i) →
      (∀ result, before ≠ .finished result) → after ≠ .fresh →
      ∃ after', (v.goOn id after).task? i = some ⟨deed, after'⟩ ∧
        (∀ result, stage = .finished result → after' = .finished result) ∧
        (stage ≠ .fresh → after' ≠ .fresh) := by
    intro v id d before after hv hsame hb ha
    rw [task?_goOn hv]
    by_cases hi : i = id
    · subst hi
      rw [hsame, ht, Option.some.injEq, Task.mk.injEq] at hv
      obtain ⟨rfl, rfl⟩ := hv
      rw [if_pos rfl]
      exact ⟨after, rfl, fun result he => absurd he (hb result), fun _ => ha⟩
    · rw [if_neg hi, hsame]
      exact ⟨stage, ht, fun _ h => h, fun h => h⟩
  cases h with
  | idle => exact ⟨stage, ht, fun _ h => h, fun h => h⟩
  | begin id deed' fresh =>
    have hi : i ≠ id := by
      rintro rfl
      rw [fresh] at ht
      exact absurd ht (by simp)
    rw [task?_begin fresh, if_neg hi]
    exact ⟨stage, ht, fun _ h => h, fun h => h⟩
  | refuse task => exact hgo task (fun _ => rfl) (by simp) (by simp)
  | pass task => exact hgo task (fun _ => rfl) (by simp) (by simp)
  | mark task => exact hgo (v := { w with closed := true }) task (fun _ => rfl) (by simp) (by simp)
  | start task =>
    exact hgo (v := { w with cell := _, starts := _ }) task (fun _ => rfl) (by simp) (by simp)
  | forestall task empty => exact ⟨stage, ht, fun _ h => h, fun h => h⟩
  | fail task => exact hgo task (fun _ => rfl) (by simp) (by simp)
  | spare task => exact hgo task (fun _ => rfl) (by simp) (by simp)
  | tell task => exact hgo (v := { w with closings := _ }) task (fun _ => rfl) (by simp) (by simp)
  | there task => exact hgo task (fun _ => rfl) (by simp) (by simp)
  | version task => exact hgo task (fun _ => rfl) (by simp) (by simp)
  | ask task => exact hgo (v := { w with asked := _ }) task (fun _ => rfl) (by simp) (by simp)
  | started result cell =>
    obtain ⟨_, task⟩ := starter _ cell
    exact hgo (v := { w with cell := _ }) task (fun _ => rfl) (by simp) (by simp)
  | replied result task => exact hgo task (fun _ => rfl) (by simp) (by simp)
  | ended result task => exact hgo task (fun _ => rfl) (by simp) (by simp)

end KernelLink.Shared.World
