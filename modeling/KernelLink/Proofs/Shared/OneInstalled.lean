import KernelLink.Proofs.Shared.Sharing
import KernelLink.Shared.Installed
import Mathlib.Data.List.Induction
/-!
# One installed kernel

Installing races: a caller that finds nothing prepares a candidate, and until it installs it others
may have installed theirs. Whatever the order of the steps of any number of callers, all that get a
kernel get the same one, and no other candidate is ever started.

Main definitions:
* `Place.Move`: what an event can do, one rule for each way it can go.
* `Place.Sound`: the invariant.
* `OneInstalled`: what holds of every run.

Main results:
* `Place.apply_cases`: whatever happens follows one of the rules.
* `Place.Move.sound`: every event keeps the invariant.
* `one_installed`: `OneInstalled` holds of every run.
-/
namespace KernelLink.Shared

namespace Place

variable {p p' : Place} {id i : Nat} {wish wish' : Wish} {progress : Progress} {c : Nat}
  {e : PlaceEvent}

/-! ## Looking callers up -/

/-- A caller that gets further is found there, and every other one where it was. -/
theorem caller?_goOn (h : p.caller? id = some ⟨wish, progress⟩) (after : Progress) (i : Nat) :
    (p.goOn id after).caller? i = if i = id then some ⟨wish, after⟩ else p.caller? i := by
  have hmap : (p.goOn id after).caller? i =
      if i = id then (p.caller? i).map (fun t => { t with progress := after })
      else p.caller? i :=
    World.lookup_map_update p.callers id i fun t => { t with progress := after }
  rw [hmap]
  by_cases hi : i = id
  · rw [if_pos hi, if_pos hi, hi, h]
    rfl
  · rw [if_neg hi, if_neg hi]

/-- A caller that is found after another one went on was there, or is that one. -/
theorem caller?_goOn_cases {v : Place} (hv : v.callers = p.callers)
    (h : p.caller? id = some ⟨wish, progress⟩) {after : Progress} {found : Caller}
    (hi : (v.goOn id after).caller? i = some found) :
    i = id ∧ found = ⟨wish, after⟩ ∨ i ≠ id ∧ p.caller? i = some found := by
  have hid : v.caller? id = some ⟨wish, progress⟩ := by
    rw [caller?, hv]
    exact h
  rw [caller?_goOn hid] at hi
  by_cases heq : i = id
  · rw [if_pos heq] at hi
    exact .inl ⟨heq, (Option.some.inj hi).symm⟩
  · rw [if_neg heq, caller?, hv] at hi
    exact .inr ⟨heq, hi⟩

/-- The place with one more caller. -/
def begin (p : Place) (id : Nat) (wish : Wish) : Place :=
  { p with callers := p.callers ++ [(id, ⟨wish, .fresh⟩)] }

/-- A new caller is found at its beginning; its number was free, so nobody else is found
differently. -/
theorem caller?_begin (h : p.caller? id = none) (wish : Wish) (i : Nat) :
    (p.begin id wish).caller? i = if i = id then some ⟨wish, .fresh⟩ else p.caller? i := by
  unfold caller? begin at *
  rw [List.lookup_append]
  by_cases hi : i = id
  · subst hi
    simp [h]
  · have hb : (i == id) = false := by simpa using hi
    simp [List.lookup_cons, hb, hi]

/-! ## The rules -/

/-- What a caller finds that looks and does not install: nothing, or an error. -/
def Fruitless (wish : Wish) (progress : Progress) : Prop :=
  wish = .look ∧ progress = .nothing ∨ wish = .demand ∧ progress = .failed notInstalled ∨
    ∃ config fault, wish = .install config ∧ progress = .failed (.stream fault)

/-- With one more candidate. -/
def withCandidate (p : Place) (config : LaunchConfig) : Place :=
  { p with candidates := p.candidates ++ [⟨config, .new⟩] }

/-- One event: `Move p e p'` leads from `p` to `p'`. -/
inductive Move (p : Place) : PlaceEvent → Place → Prop where
  /-- Nothing happens. -/
  | idle (e : PlaceEvent) : Move p e p
  /-- A caller begins. -/
  | begin (id : Nat) (wish : Wish) (fresh : p.caller? id = none) :
      Move p (.begin id wish) (p.begin id wish)
  /-- A caller finds the kernel that is installed. -/
  | find {id : Nat} {wish : Wish} {c : Nat} (caller : p.caller? id = some ⟨wish, .fresh⟩)
      (installed : p.installed = some c) : Move p (.poll id) (p.goOn id (.got c))
  /-- A caller finds none, and that is all. -/
  | miss {id : Nat} {wish : Wish} {progress : Progress} (e : PlaceEvent)
      (caller : p.caller? id = some ⟨wish, .fresh⟩) (empty : p.installed = none)
      (fruitless : Fruitless wish progress) : Move p e (p.goOn id progress)
  /-- A caller finds none and prepares one. -/
  | prepare {id : Nat} {config : LaunchConfig}
      (caller : p.caller? id = some ⟨.install config, .fresh⟩) (empty : p.installed = none) :
      Move p (.poll id) ((p.withCandidate config).goOn id (.prepared p.candidates.length))
  /-- A caller installs its candidate. -/
  | install {id : Nat} {wish : Wish} {c : Nat}
      (caller : p.caller? id = some ⟨wish, .prepared c⟩) (empty : p.installed = none) :
      Move p (.poll id) ({ p with installed := some c }.goOn id (.got c))
  /-- A caller finds that another one was faster. -/
  | lose {id : Nat} {wish : Wish} {c d : Nat} (caller : p.caller? id = some ⟨wish, .prepared c⟩)
      (installed : p.installed = some d) : Move p (.poll id) (p.goOn id (.got d))
  /-- Something happens to the kernel that a caller has got. -/
  | operate {id : Nat} {wish : Wish} {c : Nat} (event : Event)
      (caller : p.caller? id = some ⟨wish, .got c⟩) :
      Move p (.operate id event) (p.operate c event)

/-- Whoever wants to install and finds nothing prepares a candidate, which is numbered behind all
others. -/
theorem look_install {p : Place} {id : Nat} (config : LaunchConfig) (empty : p.installed = none) :
    p.look id (.install config)
      = (p.withCandidate config).goOn id (.prepared p.candidates.length) := by
  obtain ⟨installed, candidates, callers⟩ := p
  cases empty
  rfl

/-- A poll follows one of the rules. How far the caller has got and what is installed at that moment
decide which one; a caller that has ended and a number that is nobody's change nothing. -/
theorem poll_cases (p : Place) (id : Nat) : Move p (.poll id) (p.poll id) := by
  unfold poll
  split
  · next wish caller =>
    unfold look
    split
    · next c installed => exact .find caller installed
    · next installed => exact .miss _ caller installed (.inl ⟨rfl, rfl⟩)
    · next installed => exact .miss _ caller installed (.inr (.inl ⟨rfl, rfl⟩))
    · next config installed => exact .prepare caller installed
  · next wish c caller =>
    unfold install
    cases hd : p.installed with
    | none => exact .install caller hd
    | some d =>
      have hkept : ({ p with installed := some d } : Place) = p := by rw [← hd]
      show Move p (.poll id) (({ p with installed := some d } : Place).goOn id (.got d))
      rw [hkept]
      exact .lose caller hd
  · exact .idle _

/-- Whatever happens, a poll, a new caller or something done to a kernel, follows one of the rules.
-/
theorem apply_cases (p : Place) (e : PlaceEvent) : Move p e (p.apply e) := by
  cases e with
  | begin id wish =>
    cases hn : p.caller? id with
    | none =>
      have happly : p.apply (.begin id wish) = p.begin id wish := by
        unfold apply
        dsimp only
        rw [hn]
        rfl
      rw [happly]
      exact .begin id wish hn
    | some found =>
      have happly : p.apply (.begin id wish) = p := by
        unfold apply
        dsimp only
        rw [hn]
        rfl
      rw [happly]
      exact .idle _
  | poll id => exact poll_cases p id
  | lack id fault =>
    unfold apply lack
    dsimp only
    split
    · next config empty caller =>
      exact .miss _ caller empty (.inr (.inr ⟨config, fault, rfl, rfl⟩))
    · exact .idle _
  | operate id event =>
    unfold apply
    dsimp only
    split
    · next wish c caller => exact .operate event caller
    · exact .idle _

/-! ## The invariant -/

/-- Whoever has got a kernel has got the one that is installed, and nothing has happened to any
other. -/
structure Sound (p : Place) : Prop where
  got : ∀ id wish c, p.caller? id = some ⟨wish, .got c⟩ → p.installed = some c
  -- a caller prepares its own candidate, and nobody else's
  prepared : ∀ id wish c, p.caller? id = some ⟨wish, .prepared c⟩ →
    ∃ candidate, p.candidates[c]? = some candidate ∧ wish = .install candidate.config
  own : ∀ i j wish wish' c, p.caller? i = some ⟨wish, .prepared c⟩ →
    p.caller? j = some ⟨wish', .prepared c⟩ → i = j
  installed : ∀ c, p.installed = some c → c < p.candidates.length
  worlds : ∀ c candidate, p.candidates[c]? = some candidate →
    ∃ events, candidate.world = World.new.run events ∧ (p.installed ≠ some c → events = [])
  demands : ∀ id cause, p.caller? id = some ⟨.demand, .failed cause⟩ → cause = notInstalled

theorem sound_new : Sound new where
  got _ _ _ h := nomatch h
  prepared _ _ _ h := nomatch h
  own _ _ _ _ _ h := nomatch h
  installed _ h := nomatch h
  worlds _ _ h := nomatch h
  demands _ _ h := nomatch h

/-- A caller goes on, and the place keeps what is installed and all candidates. -/
theorem Sound.goOn {v : Place} {after : Progress} (h : Sound p) (hv : v.callers = p.callers)
    (caller : p.caller? id = some ⟨wish, progress⟩)
    (hkept : ∀ d, p.installed = some d → v.installed = some d)
    (hgrow : p.candidates <+: v.candidates)
    (hgot : ∀ d, after = .got d → v.installed = some d)
    (hprepared : ∀ d, after = .prepared d → d = p.candidates.length ∧
      ∃ candidate, v.candidates[d]? = some candidate ∧ wish = .install candidate.config)
    (hinstalled : ∀ d, v.installed = some d → d < v.candidates.length)
    (hworlds : ∀ d candidate, v.candidates[d]? = some candidate →
      ∃ events, candidate.world = World.new.run events ∧ (v.installed ≠ some d → events = []))
    (hdemands : ∀ cause, wish = .demand → after = .failed cause → cause = notInstalled) :
    Sound (v.goOn id after) := by
  have hcases : ∀ {i : Nat} {found : Caller}, (v.goOn id after).caller? i = some found →
      i = id ∧ found = ⟨wish, after⟩ ∨ i ≠ id ∧ p.caller? i = some found :=
    fun {i found} => caller?_goOn_cases hv caller
  have hlength : ∀ {d candidate}, p.candidates[d]? = some candidate → d < p.candidates.length :=
    fun {d candidate} hd => (List.getElem?_eq_some_iff.mp hd).1
  -- each caller is the one that goes on, or is where it was
  refine ⟨?_, ?_, ?_, hinstalled, hworlds, ?_⟩
  · intro i w d hi
    rcases hcases hi with ⟨-, hfound⟩ | ⟨-, hold⟩
    · exact hgot d (Caller.mk.inj hfound).2.symm
    · exact hkept d (h.got i w d hold)
  · intro i w d hi
    rcases hcases hi with ⟨-, hfound⟩ | ⟨-, hold⟩
    · obtain ⟨rfl, hafter⟩ := Caller.mk.inj hfound
      exact (hprepared d hafter.symm).2
    · obtain ⟨candidate, hd, hconfig⟩ := h.prepared i w d hold
      obtain ⟨more, hmore⟩ := hgrow
      refine ⟨candidate, ?_, hconfig⟩
      show v.candidates[d]? = some candidate
      rw [← hmore, List.getElem?_append_left (hlength hd), hd]
  · -- a candidate that was prepared before is not the one that is prepared now
    have hnew : ∀ {j w d}, p.caller? j = some ⟨w, .prepared d⟩ → after ≠ .prepared d := by
      intro j w d hj hafter
      obtain ⟨candidate, hd, -⟩ := h.prepared j w d hj
      have hlast := (hprepared d hafter).1
      have hless := hlength hd
      omega
    intro i j w w' d hi hj
    rcases hcases hi with ⟨rfl, hfound⟩ | ⟨-, hold⟩
    · rcases hcases hj with ⟨rfl, -⟩ | ⟨-, hold'⟩
      · rfl
      · exact absurd (Caller.mk.inj hfound).2.symm (hnew hold')
    · rcases hcases hj with ⟨rfl, hfound⟩ | ⟨-, hold'⟩
      · exact absurd (Caller.mk.inj hfound).2.symm (hnew hold)
      · exact h.own i j w w' d hold hold'
  · intro i cause hi
    rcases hcases hi with ⟨-, hfound⟩ | ⟨-, hold⟩
    · obtain ⟨hwish, hafter⟩ := Caller.mk.inj hfound
      exact hdemands cause hwish.symm hafter.symm
    · exact h.demands i cause hold

/-- A new caller has got nowhere yet, so whatever is known of callers was known before. -/
theorem Sound.begin (h : Sound p) (fresh : p.caller? id = none) (wish : Wish) :
    Sound (p.begin id wish) := by
  -- who has got somewhere was there before
  have hold : ∀ {i found}, (p.begin id wish).caller? i = some found →
      found.progress ≠ .fresh → p.caller? i = some found := by
    -- the new caller is fresh, so it is not the one that was found
    intro i found hi hprogress
    rw [caller?_begin fresh] at hi
    by_cases heq : i = id
    · rw [if_pos heq, Option.some.injEq] at hi
      subst hi
      exact absurd rfl hprogress
    · rw [if_neg heq] at hi
      exact hi
  refine ⟨?_, ?_, ?_, h.installed, h.worlds, ?_⟩
  · intro i w d hi
    exact h.got i w d (hold hi (by simp))
  · intro i w d hi
    exact h.prepared i w d (hold hi (by simp))
  · intro i j w w' d hi hj
    exact h.own i j w w' d (hold hi (by simp)) (hold hj (by simp))
  · intro i cause hi
    exact h.demands i cause (hold hi (by simp))

theorem candidates_operate (p : Place) (c d : Nat) (event : Event) :
    (p.operate c event).candidates[d]? = (p.candidates[d]?).map fun candidate =>
      if c = d then { candidate with world := candidate.world.apply event } else candidate :=
  List.getElem?_modify _ c p.candidates d

/-- Whatever happens to the kernel that is installed, it is a kernel that something happened to. -/
theorem Sound.operate (h : Sound p) (hc : p.installed = some c) (event : Event) :
    Sound (p.operate c event) := by
  refine ⟨h.got, ?_, h.own, ?_, ?_, h.demands⟩
  · intro i w d hi
    obtain ⟨candidate, hd, hconfig⟩ := h.prepared i w d hi
    rw [candidates_operate, hd]
    refine ⟨_, rfl, ?_⟩
    split
    · exact hconfig
    · exact hconfig
  · intro d hd
    have hlength : (p.operate c event).candidates.length = p.candidates.length :=
      List.length_modify _ _ _
    rw [hlength]
    exact h.installed d hd
  · intro d candidate hd
    rw [candidates_operate] at hd
    obtain ⟨before, hbefore, rfl⟩ := Option.map_eq_some_iff.mp hd
    obtain ⟨events, hrun, hempty⟩ := h.worlds d before hbefore
    -- only the installed candidate is led on, and it is the one that may be other than new
    by_cases hcd : c = d
    · rw [if_pos hcd]
      refine ⟨events ++ [event], ?_, fun hother => ?_⟩
      · rw [World.run_concat, ← hrun]
      · rw [hcd] at hc
        exact absurd hc hother
    · rw [if_neg hcd]
      exact ⟨events, hrun, hempty⟩

/-- A caller that finds the installed kernel gets that one, as everybody else does. -/
theorem Sound.finds (h : Sound p) (caller : p.caller? id = some ⟨wish, progress⟩)
    (hc : p.installed = some c) : Sound (p.goOn id (.got c)) := by
  refine h.goOn rfl caller (fun _ hd => hd) (List.prefix_refl _) ?_ (fun _ hd => nomatch hd)
    h.installed h.worlds (fun _ _ hd => nomatch hd)
  rintro d hd
  rw [hc, Progress.got.inj hd]

/-- Every rule keeps the invariant. The case that matters is an installation: if the place is still
empty, the caller's own candidate becomes the kernel, and otherwise it gets the one that is there.
-/
theorem Move.sound (move : Move p e p') (h : Sound p) : Sound p' := by
  cases move with
  | idle => exact h
  | begin id wish fresh => exact h.begin fresh wish
  | operate event caller => exact h.operate (h.got _ _ _ caller) event
  | find caller installed | lose caller installed => exact h.finds caller installed
  | @miss id wish progress e caller empty fruitless =>
    have hafter : (∀ d, progress ≠ .got d) ∧ (∀ d, progress ≠ .prepared d) ∧
        ∀ cause, wish = .demand → progress = .failed cause → cause = notInstalled := by
      rcases fruitless with ⟨rfl, rfl⟩ | ⟨rfl, rfl⟩ | ⟨config, fault, rfl, rfl⟩
      · simp
      · simp
      · simp
    obtain ⟨hgot, hprepared, hdemands⟩ := hafter
    exact h.goOn rfl caller (fun _ hd => hd) (List.prefix_refl _)
      (fun d hd => absurd hd (hgot d)) (fun d hd => absurd hd (hprepared d)) h.installed h.worlds
      hdemands
  | @prepare id config caller empty =>
    refine h.goOn (v := p.withCandidate config) rfl caller (fun _ hd => hd)
      (List.prefix_append _ _) (fun _ hd => nomatch hd) ?_ ?_ ?_ (fun _ _ hd => nomatch hd)
    · rintro d hd
      obtain rfl := Progress.prepared.inj hd
      refine ⟨rfl, ⟨config, .new⟩, ?_, rfl⟩
      exact List.getElem?_concat_length
    · intro d hd
      rw [show (p.withCandidate config).installed = p.installed from rfl, empty] at hd
      exact nomatch hd
    · intro d candidate hd
      rw [show (p.withCandidate config).candidates = p.candidates ++ [⟨config, .new⟩] from rfl,
        List.getElem?_append] at hd
      split at hd
      · exact h.worlds d candidate hd
      · obtain rfl := List.mem_singleton.mp (List.mem_of_getElem? hd)
        exact ⟨[], rfl, fun _ => rfl⟩
  | @install id wish c caller empty =>
    obtain ⟨candidate, hc, -⟩ := h.prepared id wish c caller
    refine h.goOn (v := { p with installed := some c }) rfl caller ?_ (List.prefix_refl _) ?_
      (fun _ hd => nomatch hd) ?_ ?_ (fun _ _ hd => nomatch hd)
    · intro d hd
      rw [empty] at hd
      exact nomatch hd
    · rintro d hd
      rw [Progress.got.inj hd]
    · rintro d hd
      obtain rfl := Option.some.inj hd
      exact (List.getElem?_eq_some_iff.mp hc).1
    · -- nothing was installed, so nothing has happened to any candidate
      intro d other hd
      obtain ⟨events, hrun, hempty⟩ := h.worlds d other hd
      refine ⟨events, hrun, fun _ => hempty ?_⟩
      rw [empty]
      simp

/-! ## What stays -/

/-- What is installed stays: the only rule that installs needs an empty place. -/
theorem Move.installed (move : Move p e p') (hc : p.installed = some c) :
    p'.installed = some c := by
  cases move with
  | install caller empty =>
    rw [empty] at hc
    exact nomatch hc
  | _ => exact hc

/-- Something is installed only by a caller with a candidate, while nothing is installed. -/
theorem Move.installs (move : Move p e p') (hc : p'.installed = some c) :
    p.installed = some c ∨
      p.installed = none ∧ ∃ id wish, e = .poll id ∧ p.caller? id = some ⟨wish, .prepared c⟩ := by
  cases move with
  | @install id wish d caller empty =>
    obtain rfl := Option.some.inj hc
    exact .inr ⟨empty, id, wish, rfl, caller⟩
  | _ => exact .inl hc

/-- A candidate keeps the configuration with which it was prepared, since candidates are added
behind the others and never removed. -/
theorem Move.config (move : Move p e p') {config : LaunchConfig}
    (hc : (p.candidates[c]?).map (·.config) = some config) :
    (p'.candidates[c]?).map (·.config) = some config := by
  cases move with
  | prepare caller empty =>
    obtain ⟨candidate, hd, rfl⟩ := Option.map_eq_some_iff.mp hc
    have hless := (List.getElem?_eq_some_iff.mp hd).1
    show ((p.candidates ++ [_])[c]?).map (·.config) = _
    rw [List.getElem?_append_left hless, hd]
    rfl
  | @operate id wish d event caller =>
    obtain ⟨candidate, hcandidate, rfl⟩ := Option.map_eq_some_iff.mp hc
    rw [candidates_operate, hcandidate, Option.map_some, Option.map_some]
    split
    · rfl
    · rfl
  | _ => exact hc

/-! ## Runs -/

/-- A run in two parts: the later events start from where the earlier ones led. -/
theorem run_append (p : Place) (before after : List PlaceEvent) :
    p.run (before ++ after) = (p.run before).run after :=
  List.foldl_append

/-- One more event is applied to what the events before it have led to. -/
theorem run_concat (p : Place) (events : List PlaceEvent) (e : PlaceEvent) :
    p.run (events ++ [e]) = (p.run events).apply e := by
  rw [run_append]
  rfl

/-- The invariant holds of every run, by induction on its events from the end. -/
theorem sound_run (events : List PlaceEvent) : Sound (new.run events) := by
  induction events using List.reverseRecOn with
  | nil => exact sound_new
  | append_singleton events e ih =>
    rw [run_concat]
    exact (apply_cases _ e).sound ih

theorem installed_run (hc : p.installed = some c) (later : List PlaceEvent) :
    (p.run later).installed = some c := by
  induction later generalizing p with
  | nil => exact hc
  | cons e later ih => exact ih ((apply_cases p e).installed hc)

/-! ## One poll of a caller -/

/-- Where a poll lets its caller get further, the caller is found there afterwards. -/
theorem caller?_poll (caller : p.caller? id = some ⟨wish, progress⟩) {after : Progress} {v : Place}
    (hv : v.callers = p.callers) (hpoll : p.poll id = v.goOn id after) :
    (p.apply (.poll id)).caller? id = some ⟨wish, after⟩ := by
  have hid : v.caller? id = some ⟨wish, progress⟩ := by
    rw [caller?, hv]
    exact caller
  show (p.poll id).caller? id = _
  rw [hpoll, caller?_goOn hid, if_pos rfl]

theorem poll_fresh (caller : p.caller? id = some ⟨wish, .fresh⟩) : p.poll id = p.look id wish := by
  unfold poll
  rw [caller]

/-- A caller that looks while a kernel is installed gets it. -/
theorem found (caller : p.caller? id = some ⟨wish, .fresh⟩) (hc : p.installed = some c) :
    (p.apply (.poll id)).caller? id = some ⟨wish, .got c⟩ := by
  have hlook : p.look id wish = p.goOn id (.got c) := by
    unfold look
    rw [hc]
  exact caller?_poll caller rfl ((poll_fresh caller).trans hlook)

/-- What a caller gets that looks while nothing is installed, it gets only then. -/
theorem missed_iff {after : Progress} (caller : p.caller? id = some ⟨wish, .fresh⟩)
    (hafter : ∀ c, after ≠ .got c)
    (hnone : p.installed = none → p.look id wish = p.goOn id after) :
    (p.apply (.poll id)).caller? id = some ⟨wish, after⟩ ↔ p.installed = none := by
  constructor
  · intro hpolled
    cases hc : p.installed with
    | none => rfl
    | some c =>
      rw [found caller hc, Option.some.injEq, Caller.mk.injEq] at hpolled
      exact absurd hpolled.2.symm (hafter c)
  · intro hempty
    exact caller?_poll caller rfl ((poll_fresh caller).trans (hnone hempty))

/-- Whoever has prepared a candidate gets a kernel with its next poll: its own if the place is still
empty, and otherwise the one that is installed. -/
theorem gets (caller : p.caller? id = some ⟨wish, .prepared c⟩) :
    ∃ d, (p.apply (.poll id)).caller? id = some ⟨wish, .got d⟩ := by
  have hpoll : p.poll id = p.install id c := by
    unfold poll
    rw [caller]
  exact ⟨p.installed.getD c, caller?_poll (v := { p with installed := some _ }) caller rfl hpoll⟩

/-! ## Starts -/

/-- How often kernels were started, all candidates together. -/
def starts (p : Place) : Nat :=
  (p.candidates.map fun candidate => candidate.world.starts).foldr (· + ·) 0

/-- If all of some numbers but one are zero, their sum is no larger than a bound of that one. -/
theorem sum_le {ns : List Nat} {only : Option Nat} (hone : ∀ n ∈ ns, n ≤ 1)
    (hzero : ∀ (d n : Nat), ns[d]? = some n → only ≠ some d → n = 0) :
    ns.foldr (· + ·) 0 ≤ if only.isSome then 1 else 0 := by
  induction ns generalizing only with
  | nil => exact Nat.zero_le _
  | cons n ns ih =>
    have hrest : ∀ m ∈ ns, m ≤ 1 := fun m hm => hone m (List.mem_cons_of_mem n hm)
    cases only with
    | none =>
      have hn : n = 0 := hzero 0 n rfl (by simp)
      have hns : ns.foldr (· + ·) 0 ≤ 0 :=
        @ih none hrest fun d m hd _ => hzero (d + 1) m hd (by simp)
      show n + ns.foldr (· + ·) 0 ≤ 0
      omega
    | some k =>
      cases k with
      | zero =>
        -- it is the first one
        have hn : n ≤ 1 := hone n List.mem_cons_self
        have hns : ns.foldr (· + ·) 0 ≤ 0 :=
          @ih none hrest fun d m hd _ => hzero (d + 1) m hd (by simp)
        show n + ns.foldr (· + ·) 0 ≤ 1
        omega
      | succ k =>
        have hn : n = 0 := hzero 0 n rfl (by simp)
        have hns : ns.foldr (· + ·) 0 ≤ 1 := @ih (some k) hrest fun d m hd hother =>
          hzero (d + 1) m hd (by simpa using hother)
        show n + ns.foldr (· + ·) 0 ≤ 1
        omega

/-- All candidates together are started at most once: one that is not installed was never used, and
so never started, and the installed one is a sharing of its own. -/
theorem Sound.starts (h : Sound p) : p.starts ≤ 1 := by
  have hle : p.starts ≤ if p.installed.isSome then 1 else 0 := by
    refine sum_le ?_ ?_
    · intro n hn
      obtain ⟨candidate, hmem, rfl⟩ := List.mem_map.mp hn
      obtain ⟨d, hd⟩ := List.mem_iff_getElem?.mp hmem
      obtain ⟨events, hrun, -⟩ := h.worlds d candidate hd
      rw [hrun]
      exact (World.sharing_run events).counted.le_one
    · intro d n hd hother
      rw [List.getElem?_map] at hd
      obtain ⟨candidate, hcandidate, rfl⟩ := Option.map_eq_some_iff.mp hd
      obtain ⟨events, hrun, hempty⟩ := h.worlds d candidate hcandidate
      rw [hrun, hempty hother]
      rfl
  refine Nat.le_trans hle ?_
  split
  · exact Nat.le_refl 1
  · exact Nat.zero_le 1

/-! ## Where the installed kernel comes from -/

/-- What is installed was installed by the caller that had prepared it, before anybody had got a
kernel. -/
theorem origin_run (events : List PlaceEvent) (hc : (new.run events).installed = some c) :
    ∃ past id later config, events = past ++ .poll id :: later ∧
      (new.run past).caller? id = some ⟨.install config, .prepared c⟩ ∧
      (new.run past).installed = none ∧
      ((new.run events).candidates[c]?).map (·.config) = some config := by
  induction events using List.reverseRecOn with
  | nil => exact nomatch hc
  | append_singleton events e ih =>
    rw [run_concat] at hc ⊢
    have hmove := apply_cases (new.run events) e
    rcases hmove.installs hc with hold | ⟨hnone, id, wish, rfl, caller⟩
    · obtain ⟨past, id, later, config, rfl, caller, hnone, hconfig⟩ := ih hold
      exact ⟨past, id, later ++ [e], config, by simp, caller, hnone, hmove.config hconfig⟩
    · obtain ⟨candidate, hcandidate, rfl⟩ := (sound_run events).prepared id wish c caller
      refine ⟨events, id, [], candidate.config, rfl, caller, hnone, hmove.config ?_⟩
      rw [hcandidate]
      rfl

end Place

open Place (new)

/-- What holds of every run, whatever it consists of. -/
structure OneInstalled (events : List PlaceEvent) : Prop where
  /-- All callers that have got a kernel have got the one that is installed. -/
  same : ∀ id wish c, (new.run events).caller? id = some ⟨wish, .got c⟩ →
    (new.run events).installed = some c
  /-- It was prepared and installed by a single caller, as that caller's configuration says; before
  that step nobody had got a kernel. -/
  origin : ∀ c, (new.run events).installed = some c → ∃ past id later config,
    events = past ++ .poll id :: later ∧
      (new.run past).caller? id = some ⟨.install config, .prepared c⟩ ∧
      (∀ i wish, (new.run past).caller? i = some ⟨wish, .prepared c⟩ → i = id) ∧
      (new.run past).installed = none ∧
      (∀ i wish d, (new.run past).caller? i ≠ some ⟨wish, .got d⟩) ∧
      ((new.run events).candidates[c]?).map (·.config) = some config
  /-- Once a caller has got a kernel, every caller that looks gets it, for ever. -/
  forever : ∀ id wish c, (new.run events).caller? id = some ⟨wish, .got c⟩ →
    ∀ later i wish', (new.run (events ++ later)).caller? i = some ⟨wish', .fresh⟩ →
      (new.run (events ++ later ++ [.poll i])).caller? i = some ⟨wish', .got c⟩
  /-- Looking finds nothing exactly while nothing is installed. -/
  looks : ∀ id, (new.run events).caller? id = some ⟨.look, .fresh⟩ →
    ((new.run (events ++ [.poll id])).caller? id = some ⟨.look, .nothing⟩ ↔
      (new.run events).installed = none)
  /-- Demanding fails exactly while nothing is installed. -/
  demands : ∀ id, (new.run events).caller? id = some ⟨.demand, .fresh⟩ →
    ((new.run (events ++ [.poll id])).caller? id = some ⟨.demand, .failed notInstalled⟩ ↔
      (new.run events).installed = none)
  /-- It fails for no other reason. -/
  reasons : ∀ id cause, (new.run events).caller? id = some ⟨.demand, .failed cause⟩ →
    cause = notInstalled
  /-- A caller that wants to install a kernel and finds none prepares one, if it can. -/
  prepares : ∀ id config, (new.run events).caller? id = some ⟨.install config, .fresh⟩ →
    (new.run events).installed = none →
    (new.run (events ++ [.poll id])).caller? id =
      some ⟨.install config, .prepared (new.run events).candidates.length⟩
  /-- A caller that has prepared a kernel gets one with its next step. -/
  installs : ∀ id wish c, (new.run events).caller? id = some ⟨wish, .prepared c⟩ →
    ∃ d, (new.run (events ++ [.poll id])).caller? id = some ⟨wish, .got d⟩
  /-- Every candidate is a shared kernel with a run of its own. -/
  worlds : ∀ (c : Nat) (candidate : Candidate), (new.run events).candidates[c]? = some candidate →
    ∃ own, candidate.world = World.new.run own
  /-- To one that is not installed nothing has happened. -/
  losers : ∀ (c : Nat) (candidate : Candidate), (new.run events).candidates[c]? = some candidate →
    (new.run events).installed ≠ some c → candidate.world = .new
  /-- All candidates together are started at most once. -/
  once : (new.run events).starts ≤ 1

/-- In every run, whatever the order of its steps, there is one kernel for all callers. -/
theorem one_installed (events : List PlaceEvent) : OneInstalled events := by
  have h := Place.sound_run events
  refine ⟨h.got, ?_, ?_, ?_, ?_, h.demands, ?_, ?_, ?_, ?_, h.starts⟩
  · intro c hc
    obtain ⟨past, id, later, config, hevents, caller, hnone, hconfig⟩ := Place.origin_run events hc
    have hpast := Place.sound_run past
    -- nothing was installed before, so neither had anybody got a kernel
    refine ⟨past, id, later, config, hevents, caller, ?_, hnone, ?_, hconfig⟩
    · intro i wish hi
      exact hpast.own i id _ _ c hi caller
    · intro i wish d hi
      rw [hpast.got i wish d hi] at hnone
      exact nomatch hnone
  · intro id wish c hgot later i wish' hi
    have hlater := Place.installed_run (h.got id wish c hgot) later
    rw [← Place.run_append] at hlater
    rw [Place.run_concat]
    exact Place.found hi hlater
  · intro id hi
    rw [Place.run_concat]
    refine Place.missed_iff hi (by simp) fun hnone => ?_
    unfold Place.look
    rw [hnone]
  · intro id hi
    rw [Place.run_concat]
    refine Place.missed_iff hi (by simp) fun hnone => ?_
    unfold Place.look
    rw [hnone]
  · intro id config hi hnone
    rw [Place.run_concat]
    refine Place.caller?_poll (v := (new.run events).withCandidate config) hi rfl ?_
    rw [Place.poll_fresh hi, Place.look_install config hnone]
  · intro id wish c hi
    rw [Place.run_concat]
    exact Place.gets hi
  · intro c candidate hc
    obtain ⟨own, hrun, -⟩ := h.worlds c candidate hc
    exact ⟨own, hrun⟩
  · intro c candidate hc hother
    obtain ⟨own, hrun, hempty⟩ := h.worlds c candidate hc
    rw [hrun, hempty hother]
    rfl

end KernelLink.Shared
