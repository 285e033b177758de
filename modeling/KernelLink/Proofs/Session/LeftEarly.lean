import KernelLink.Proofs.Session.KernelGone
import KernelLink.Proofs.Session.Launching
import KernelLink.Proofs.Session.Listening
import KernelLink.Proofs.Session.Paced
/-!
# A kernel that is gone before it greets

A kernel that closes its output without a greeting is given the grace to say why on its error
output, and that is reported as the end of the waiting. But the waiting ends at its deadline in any
case, also in the middle of the grace. Whether the end of a kernel is reported as such depends on
whether the grace ends before the deadline, and on nothing else: if it does, the report comes
exactly when the grace ends, with all error output captured by then; if it does not, a greeting is
reported as missing at the deadline, and what the kernel said is lost.

Main definitions:
* `Handshake.Dies`: the kernel closes its output in time, having written nothing but blanks.
* `Handshake.Attended`: time passes only while there is nothing to do for the waiting.
* `Handshake.Dying`: the waiting for a kernel that is gone.
* `Handshake.Obituary`: what becomes of the launch.

Main results:
* `Handshake.Dies.course`: how the waiting goes on, and how it ends.
* `Handshake.end_reported`: every launch whose kernel dies is as described.
* `Handshake.end_unreported`: a launch that does not report the end of its kernel.
-/
namespace KernelLink.Session.Handshake

open Host (Delivery Pipe)
open Stderr (Buffer)
open Text (IsBlankBytes)
open World (WireStep)

variable {timing : Timing} {w v v' : Wires} {stage stage' : Stage} {since deadline : Nat}
  {past mid : List Event} {e : Event} {result : Except LinkError Hello}

/-! ## Time -/

/-- An event takes as long as it says, also while a greeting is waited for. -/
theorem now_apply (timing : Timing) (s : Stage × Wires) (e : Event) :
    (apply timing s e).2.now = s.2.now + e.span := by
  cases e with
  | poll i =>
    show ((poll timing s.2 s.1).getD s).2.now = s.2.now
    cases h : poll timing s.2 s.1 with
    | none => rfl
    | some next => exact (poll_cases h).now
  | _ => exact World.now_apply (World.new timing s.2) _

/-- There is nothing to do for the waiting. -/
def idle (timing : Timing) (s : Stage × Wires) : Bool := (poll timing s.2 s.1).isNone

/-- The kernel closes its output behind `past`, and from then on time passes only while there is
nothing to do for the waiting. -/
def Attended (timing : Timing) (w : Wires) (past mid : List Event) : Prop :=
  Paced (apply timing) (idle timing) (after timing w (past ++ [.kernelClosesOutput])) mid

theorem after_death (timing : Timing) (w : Wires) (past mid : List Event) :
    after timing w (past ++ .kernelClosesOutput :: mid) =
      run timing (after timing w (past ++ [.kernelClosesOutput])) mid := by
  rw [← after_append, List.append_assoc]
  rfl

/-- One more event is attended to if nobody had anything to do in the meantime. -/
theorem attended_concat : Attended timing w past (mid ++ [e]) ↔
    Attended timing w past mid ∧ ∀ k < e.span, idle timing (apply timing
      (after timing w (past ++ .kernelClosesOutput :: mid)) (.pass k)) = true := by
  rw [after_death]
  exact paced_concat

/-! ## What was captured -/

/-- What the buffer keeps of what it held and of what was captured while the waiting went on. -/
def lastBytes (timing : Timing) (w : Wires) (events : List Event) : List UInt8 :=
  Buffer.newest w.buffer.limit
    (w.buffer.bytes ++ Log.captured (log timing (begin timing w, w) events))

/-- As long as the waiting goes on, the buffer only takes what is captured. -/
theorem PollStep.buffer (h : PollStep timing v stage stage' v') (hs : ¬ stage'.Over) :
    v'.buffer = v.buffer := by
  cases h with
  | pass | gone => rfl
  | _ => exact absurd ⟨_, rfl⟩ hs

/-- As long as the waiting goes on, the buffer holds the newest of all error output. Only the end of
the waiting empties it. -/
theorem buffer_after (hf : w.buffer.Fits) (events : List Event)
    (hgoing : ¬ (after timing w events).1.Over) :
    (after timing w events).2.buffer.limit = w.buffer.limit ∧
      (after timing w events).2.buffer.bytes = lastBytes timing w events := by
  induction events using List.reverseRecOn with
  | nil =>
    refine ⟨rfl, ?_⟩
    show w.buffer.bytes = Buffer.newest w.buffer.limit (w.buffer.bytes ++ [])
    rw [List.append_nil, Buffer.newest_of_le hf]
  | append_singleton past e ih =>
    have hstep := apply_cases timing (after timing w past) e
    have hlog : log timing (begin timing w, w) (past ++ [e]) =
        log timing (begin timing w, w) past ++
          (World.new timing (after timing w past).2).deeds e := by
      rw [log_append]
      exact congrArg _ (List.append_nil _)
    -- what goes on now went on before, so the induction applies; then one event is looked at
    have hbefore : ¬ (after timing w past).1.Over := by
      rintro ⟨r, hr⟩
      exact hgoing ⟨r, by rw [after_concat]; exact hstep.finished hr⟩
    obtain ⟨hlimit, hbytes⟩ := ih hbefore
    unfold lastBytes at hbytes ⊢
    rw [after_concat] at hgoing ⊢
    rw [hlog, Log.captured_append]
    generalize apply timing (after timing w past) e = s' at hstep hgoing ⊢
    generalize (World.new timing (after timing w past).2).deeds e = deeds at hstep ⊢
    cases hstep with
    | wait =>
      rw [show Log.captured [] = [] from rfl, List.append_nil]
      exact ⟨hlimit, hbytes⟩
    | poll i poll =>
      rw [poll.buffer hgoing, show Log.captured [] = [] from rfl, List.append_nil]
      exact ⟨hlimit, hbytes⟩
    | wires other wires =>
      obtain ⟨hsame, ⟨hkept, hnone⟩ | htaken⟩ := wires.buffer
      · rw [hsame, hkept, hnone, List.append_nil]
        exact ⟨hlimit, hbytes⟩
      · -- the newest of the newest and more are the newest of all
        rw [hsame, htaken, hlimit, hbytes, Buffer.newest_append, List.append_assoc]
        exact ⟨rfl, rfl⟩

/-! ## The death of a kernel -/

/-- Behind `past` the kernel closes its output, before the deadline, and it has written nothing but
blanks. -/
structure Dies (timing : Timing) (w : Wires) (past : List Event) : Prop where
  /-- The captured error output is within its limit. -/
  fits : w.buffer.Fits
  /-- The output was open until then. -/
  opened : (after timing w past).2.output.writing = true
  /-- There are no lines, and there is nothing behind the last of the blank ones. -/
  silent : heard timing w (past ++ [.kernelClosesOutput]) = []
  /-- The deadline has not come. -/
  early : (after timing w past).2.now < expiry timing w

/-- When the kernel died. -/
def deathTime (timing : Timing) (w : Wires) (past : List Event) : Nat := (after timing w past).2.now

theorem shut_after_death (timing : Timing) (w : Wires) (past mid : List Event) :
    (after timing w (past ++ .kernelClosesOutput :: mid)).2.output.writing = false := by
  have hshut : (after timing w (past ++ [.kernelClosesOutput])).2.output.writing = false := by
    rw [after_concat]
    rfl
  have hstays := (heard_of_shut hshut mid).2
  rwa [List.append_assoc] at hstays

theorem Dies.unheard (h : Dies timing w past) (mid : List Event) :
    heard timing w (past ++ .kernelClosesOutput :: mid) = [] := by
  have hsame := (heard_of_shut (shut_after_death timing w past []) mid).1
  rw [List.append_assoc] at hsame
  exact hsame.trans h.silent

/-- A kernel that dies is still listened to: nothing was heard of it, so the stage is the first one
still, and the moment is before the deadline. -/
theorem Dies.listening (h : Dies timing w past) :
    (after timing w (past ++ [.kernelClosesOutput])).1 = .listening (expiry timing w) ∧
      (after timing w (past ++ [.kernelClosesOutput])).2.now = deathTime timing w past := by
  have hnone : heard timing w past = [] :=
    List.prefix_nil.mp (h.silent ▸ heard_concat w past .kernelClosesOutput)
  obtain ⟨read, hstands, haccount⟩ := standing_after timing w past
  have hread := heard_eq haccount
  rw [after_concat]
  refine ⟨?_, rfl⟩
  show (after timing w past).1 = _
  generalize hs : (after timing w past).1 = stage at hstands ⊢
  cases hstands with
  | listening => rfl
  | leaving _ shut =>
    rw [h.opened] at shut
    exact absurd shut.symm Bool.false_ne_true
  | judged d =>
    rw [hnone] at hread
    exact absurd hread.symm (List.cons_ne_nil _ _)
  | silent why =>
    -- without a line it ends only behind the deadline or the end of the output
    obtain ⟨before, i, rest, rfl, -, hending⟩ := after_ended hs
    have hlater := now_le timing w before (.poll i :: rest)
    generalize hresult : Except.error (LinkError.handshake why) = result at hending
    cases hending with
    | heard first =>
      have hfirst := World.head?_of_prefix (heard_grows w before (.poll i :: rest)) first
      rw [hnone] at hfirst
      exact nomatch hfirst
    | silent _ _ expired =>
      rcases expired with hlate | hshut
      · exact absurd (Nat.le_trans hlate hlater) (Nat.not_le_of_lt h.early)
      · exact absurd ((heard_of_shut hshut _).2.symm.trans h.opened) Bool.false_ne_true

theorem Dies.unread (h : Dies timing w past) (mid : List Event) :
    (World.new timing (after timing w (past ++ .kernelClosesOutput :: mid)).2).unread = [] := by
  obtain ⟨read, -, haccount⟩ := standing_after timing w (past ++ .kernelClosesOutput :: mid)
  have hall := heard_eq haccount
  rw [h.unheard mid] at hall
  exact (List.append_eq_nil_iff.mp hall.symm).2

/-! ## The waiting for a kernel that is gone -/

/-- The waiting for a kernel that died at `since`, when the clock stands at `now`. -/
inductive Dying (timing : Timing) (since deadline now : Nat) : Stage → Prop where
  /-- The end of the output was not met. -/
  | listening (begun : now = since) : Dying timing since deadline now (.listening deadline)
  /-- Neither the grace nor the time of the greeting has passed unnoticed. -/
  | leaving (grace : now ≤ since + timing.stderrGrace) (limit : now ≤ deadline) :
      Dying timing since deadline now (.leaving deadline (since + timing.stderrGrace))

/-- How the waiting for a kernel that died at `since` ends at `now`, with `bytes` captured. -/
inductive Outcome (timing : Timing) (since deadline : Nat) (bytes : List UInt8) (now : Nat) :
    Except LinkError Hello → Prop where
  /-- The grace ends by the deadline, and the last words are reported. -/
  | reported (fits : since + timing.stderrGrace ≤ deadline)
      (ends : now = since + timing.stderrGrace) :
      Outcome timing since deadline bytes now (.error (leftEarly (wordsOf bytes)))
  /-- The deadline comes before the grace ends. -/
  | missed (late : deadline < since + timing.stderrGrace) (ends : now = deadline) :
      Outcome timing since deadline bytes now (.error (tooLate timing))

/-- A poll goes on with the waiting or ends it; with the output shut and no line unread, there are
the end to find and the grace to wait out. -/
theorem Dying.poll (h : Dying timing since deadline v.now stage)
    (hp : PollStep timing v stage stage' v') (hearly : since < deadline)
    (hshut : v.output.writing = false) (hnone : (World.new timing v).unread = []) :
    Dying timing since deadline v'.now stage' ∨
      ∃ result, stage' = .finished result ∧
        Outcome timing since deadline v.buffer.bytes v.now result := by
  cases hp with
  | pass => exact Or.inl h
  | take read inked =>
    -- a line that was read would be among those that are unread, and there are none
    have hfirst := (Pipe.Accounts.start v.output).next_eq read inked
    rw [show Host.textLines (!v.output.writing) (v.output.held ++ v.output.bytes) = [] from hnone]
      at hfirst
    exact nomatch hfirst
  | gone =>
    cases h with
    | listening begun =>
      rw [begun]
      exact Or.inl (.leaving (Nat.le_add_right _ _) (Nat.le_of_lt hearly))
  | late line fill =>
    have hopen := (Pipe.textLines_of_nothing line fill).1
    exact absurd (hshut.symm.trans hopen) Bool.false_ne_true
  | left passed =>
    cases h with
    | leaving grace limit =>
      exact Or.inr ⟨_, rfl, .reported (Nat.le_trans passed limit) (Nat.le_antisymm grace passed)⟩
  | cut running passed =>
    cases h with
    | leaving grace limit =>
      exact Or.inr ⟨_, rfl, .missed (Nat.lt_of_le_of_lt passed running)
        (Nat.le_antisymm limit passed)⟩

/-- The waiting for a kernel whose output has ended has something to do until it has noticed. -/
theorem poll_listening_of_shut (hshut : v.output.writing = false) :
    poll timing v (.listening deadline) ≠ none := by
  rcases v.output.next_cases with ⟨hline, hfill⟩ | ⟨q, hread⟩ | ⟨d, q, hread, hinked, -⟩ |
    ⟨q, hpass, -⟩
  · have hopen := (Pipe.textLines_of_nothing hline hfill).1
    exact absurd (hshut.symm.trans hopen) Bool.false_ne_true
  · simp only [poll, hread]
    exact Option.some_ne_none _
  · rw [poll_take hread hinked]
    exact Option.some_ne_none _
  · rw [poll_pass hpass]
    exact Option.some_ne_none _

/-- A waiting that looks after the error output goes on exactly until its grace or its own time has
passed. -/
theorem poll_leaving_eq_none {endsAt : Nat} :
    poll timing v (.leaving deadline endsAt) = none ↔ v.now < endsAt ∧ v.now < deadline := by
  simp only [poll]
  split
  · next hends => simp [Nat.not_lt_of_le hends]
  · next hruns =>
    split
    · next hlate => simp [Nat.not_lt_of_le hlate]
    · next hopen => simp [Nat.lt_of_not_le hruns, Nat.lt_of_not_le hopen]

/-- Time that passes while there is nothing to do goes past neither end. -/
theorem Dying.pass {s : Stage × Wires} (h : Dying timing since deadline s.2.now s.1)
    (hshut : s.2.output.writing = false)
    (hidle : ∀ k < e.span, idle timing (apply timing s (.pass k)) = true) :
    Dying timing since deadline (s.2.now + e.span) s.1 := by
  obtain ⟨stage, v⟩ := s
  cases hspan : e.span with
  | zero => exact h
  | succ k =>
    have hnone : Handshake.poll timing { v with now := v.now + k } stage = none :=
      Option.isNone_iff_eq_none.mp (hidle k (by omega))
    cases h with
    | listening => exact absurd hnone (poll_listening_of_shut hshut)
    | leaving =>
      obtain ⟨hgrace, hlimit⟩ := poll_leaving_eq_none.mp hnone
      exact .leaving (Nat.succ_le_of_lt hgrace) (Nat.succ_le_of_lt hlimit)

/-- An event behind the death of a kernel goes on with the waiting, or it is the poll that ends
it. -/
theorem Dies.step (h : Dies timing w past) {front : List Event}
    (hidle : ∀ k < e.span, idle timing (apply timing
      (after timing w (past ++ .kernelClosesOutput :: front)) (.pass k)) = true)
    (hdying : Dying timing (deathTime timing w past) (expiry timing w)
      (after timing w (past ++ .kernelClosesOutput :: front)).2.now
      (after timing w (past ++ .kernelClosesOutput :: front)).1) :
    Dying timing (deathTime timing w past) (expiry timing w)
        (after timing w (past ++ .kernelClosesOutput :: (front ++ [e]))).2.now
        (after timing w (past ++ .kernelClosesOutput :: (front ++ [e]))).1 ∨
      ∃ i result, e = .poll i ∧
        (after timing w (past ++ .kernelClosesOutput :: (front ++ [e]))).1 = .finished result ∧
        Outcome timing (deathTime timing w past) (expiry timing w)
          (lastBytes timing w (past ++ .kernelClosesOutput :: front))
          (after timing w (past ++ .kernelClosesOutput :: front)).2.now result := by
  have hshut := shut_after_death timing w past front
  have hpass := hdying.pass hshut hidle
  have hstep := apply_cases timing (after timing w (past ++ .kernelClosesOutput :: front)) e
  have hnow := now_apply timing (after timing w (past ++ .kernelClosesOutput :: front)) e
  rw [← List.cons_append, ← List.append_assoc, after_concat]
  generalize apply timing (after timing w (past ++ .kernelClosesOutput :: front)) e = s'
    at hstep hnow ⊢
  cases hstep with
  | wait => exact Or.inl (hnow ▸ hpass)
  | wires => exact Or.inl (hnow ▸ hpass)
  | poll i poll =>
    -- the waiting still goes on before the poll, so the buffer holds all that was captured
    have hgoing : ¬ (after timing w (past ++ .kernelClosesOutput :: front)).1.Over := by
      rintro ⟨result, hover⟩
      rw [hover] at hdying
      exact nomatch hdying
    rcases hdying.poll poll h.early hshut (h.unread front) with hgoes | ⟨result, rfl, houtcome⟩
    · exact Or.inl hgoes
    · rw [(buffer_after h.fits _ hgoing).2] at houtcome
      exact Or.inr ⟨i, result, rfl, rfl, houtcome⟩

/-- How the waiting for a kernel that dies goes on, and how it ends. -/
theorem Dies.course (h : Dies timing w past) (mid : List Event)
    (ha : Attended timing w past mid) :
    Dying timing (deathTime timing w past) (expiry timing w)
        (after timing w (past ++ .kernelClosesOutput :: mid)).2.now
        (after timing w (past ++ .kernelClosesOutput :: mid)).1 ∨
      ∃ early i rest result, mid = early ++ .poll i :: rest ∧
        (after timing w (past ++ .kernelClosesOutput :: mid)).1 = .finished result ∧
        Outcome timing (deathTime timing w past) (expiry timing w)
          (lastBytes timing w (past ++ .kernelClosesOutput :: early))
          (after timing w (past ++ .kernelClosesOutput :: early)).2.now result := by
  induction mid using List.reverseRecOn with
  | nil =>
    obtain ⟨hstage, hnow⟩ := h.listening
    rw [hstage, hnow]
    exact Or.inl (.listening rfl)
  | append_singleton front e ih =>
    obtain ⟨hfront, hidle⟩ := attended_concat.mp ha
    rcases ih hfront with hdying | ⟨early, i, rest, result, rfl, hended, houtcome⟩
    · rcases h.step hidle hdying with hgoes | ⟨i, result, rfl, hended, houtcome⟩
      · exact Or.inl hgoes
      · exact Or.inr ⟨front, i, [], result, rfl, hended, houtcome⟩
    · refine Or.inr ⟨early, i, rest ++ [e], result, by simp, ?_, houtcome⟩
      rw [← List.cons_append, ← List.append_assoc, after_concat]
      exact (apply_cases timing _ e).finished hended

/-! ## The end of the waiting -/

/-- A kernel that is gone is waited for until the first of the two ends. -/
theorem leaving_ends (timing : Timing) (deadline endsAt : Nat) (v : Wires) :
    ∃ ms, Paced (apply timing) (idle timing) (.leaving deadline endsAt, v) [.pass ms, .poll 0] ∧
      (run timing (.leaving deadline endsAt, v) [.pass ms, .poll 0]).1.Over := by
  refine ⟨min endsAt deadline - v.now, ⟨fun k hk => ?_, paced_of_instants (by simp [Event.span])⟩,
    ?_⟩
  · have hk' : k < min endsAt deadline - v.now := hk
    refine Option.isNone_iff_eq_none.mpr (poll_leaving_eq_none.mpr ?_)
    show v.now + k < endsAt ∧ v.now + k < deadline
    omega
  · have hpolls : poll timing { v with now := v.now + (min endsAt deadline - v.now) }
        (.leaving deadline endsAt) ≠ none := by
      rw [Ne, poll_leaving_eq_none]
      show ¬ (v.now + _ < endsAt ∧ v.now + _ < deadline)
      omega
    obtain ⟨⟨stage', v'⟩, hnext⟩ := Option.ne_none_iff_exists'.mp hpolls
    show ((poll timing { v with now := v.now + (min endsAt deadline - v.now) }
      (.leaving deadline endsAt)).getD _).1.Over
    rw [hnext]
    cases poll_cases hnext with
    | left | cut => exact ⟨_, rfl⟩

/-- What has ended stays so, however long it goes on, by induction on the events. -/
theorem over_run {s : Stage × Wires} (h : s.1.Over) (events : List Event) :
    (run timing s events).1.Over := by
  induction events generalizing s with
  | nil => exact h
  | cons e events ih =>
    obtain ⟨result, hr⟩ := h
    exact ih ⟨result, (apply_cases timing s e).finished hr⟩

/-- Some polls after the death of a kernel the waiting has noticed it. -/
theorem Dies.notices {now : Nat} (h : Dies timing w past)
    (hdying : Dying timing since (expiry timing w) now
      (after timing w (past ++ .kernelClosesOutput :: mid)).1) :
    ∃ n endsAt, (after timing w (past ++ .kernelClosesOutput ::
      (mid ++ List.replicate n (.poll 0)))).1 = .leaving (expiry timing w) endsAt := by
  have hunread := h.unread mid
  have hpolls : ∀ n, after timing w
      (past ++ .kernelClosesOutput :: (mid ++ List.replicate n (.poll 0))) =
        run timing (after timing w (past ++ .kernelClosesOutput :: mid))
          (List.replicate n (.poll 0)) := by
    intro n
    rw [← after_polls, List.append_assoc]
    rfl
  -- polls do not open the output again, so at its end there is the end to be read
  have hshut : ∀ n, (run timing (after timing w (past ++ .kernelClosesOutput :: mid))
      (List.replicate n (.poll 0))).2.output.writing = false :=
    fun n => hpolls n ▸ shut_after_death timing w past _
  simp only [hpolls]
  generalize after timing w (past ++ .kernelClosesOutput :: mid) = s at hdying hunread hshut ⊢
  obtain ⟨stage, v⟩ := s
  cases hdying with
  | leaving => exact ⟨0, _, rfl⟩
  | listening =>
    obtain ⟨n, stage', v', hrun, -, ⟨d, ds, hline, -⟩ | ⟨-, rfl | ⟨-, hread, hfill⟩⟩⟩ :=
      listens_out timing (expiry timing w) v
    · exact absurd (hunread.symm.trans hline) (List.cons_ne_nil d ds).symm
    · exact ⟨n, _, by rw [hrun]⟩
    · have hclosed := hshut n
      rw [hrun] at hclosed
      exact absurd (hclosed.symm.trans (Pipe.textLines_of_nothing hread hfill).1)
        Bool.false_ne_true

/-- Nothing but polls and time, and a poll behind it. -/
def outlast (polls ms : Nat) : List Event := List.replicate polls (.poll 0) ++ [.pass ms, .poll 0]

/-- The waiting for a kernel that dies ends with nothing but polls and time. -/
theorem Dies.ends (h : Dies timing w past) (ha : Attended timing w past mid) :
    ∃ n ms, Attended timing w past (mid ++ outlast n ms) ∧
      (after timing w (past ++ .kernelClosesOutput :: (mid ++ outlast n ms))).1.Over := by
  -- either it has ended already, or polls bring it to the grace and time to its end
  have hlast : ∃ n ms, Paced (apply timing) (idle timing)
        (after timing w (past ++ .kernelClosesOutput :: (mid ++ List.replicate n (.poll 0))))
        [.pass ms, .poll 0] ∧
      (run timing (after timing w (past ++ .kernelClosesOutput ::
        (mid ++ List.replicate n (.poll 0)))) [.pass ms, .poll 0]).1.Over := by
    rcases h.course mid ha with hdying | ⟨early, i, rest, result, -, hended, -⟩
    · obtain ⟨n, endsAt, hleaving⟩ := h.notices hdying
      refine ⟨n, ?_⟩
      generalize after timing w (past ++ .kernelClosesOutput ::
        (mid ++ List.replicate n (.poll 0))) = s at hleaving ⊢
      obtain ⟨stage, v⟩ := s
      obtain rfl : stage = .leaving (expiry timing w) endsAt := hleaving
      exact leaving_ends timing _ endsAt v
    · refine ⟨0, 0, paced_of_instants (by simp [Event.span]), over_run ⟨result, ?_⟩ _⟩
      rw [List.replicate_zero, List.append_nil]
      exact hended
  obtain ⟨n, ms, hpaced, hover⟩ := hlast
  refine ⟨n, ms, ?_⟩
  unfold outlast
  rw [← List.append_assoc]
  constructor
  · rw [after_death] at hpaced
    refine paced_append.mpr ⟨paced_append.mpr ⟨ha, paced_of_instants fun e he => ?_⟩, hpaced⟩
    rw [List.eq_of_mem_replicate he]
    rfl
  · rw [← List.cons_append, ← List.append_assoc, after_append]
    exact hover

/-! ## What is reported -/

/-- What a kernel said that is gone is reported, unless it is blank. -/
theorem leftEarly_wordsOf (bytes : List UInt8) :
    (IsBlankBytes bytes →
      leftEarly (wordsOf bytes) = .handshake "kernel exited before greeting") ∧
    (¬ IsBlankBytes bytes →
      leftEarly (wordsOf bytes) =
        .handshake ("kernel exited before greeting: " ++ wordsOf bytes)) := by
  have hempty : (wordsOf bytes).isEmpty = true ↔ IsBlankBytes bytes :=
    text_isEmpty_iff ⟨0, bytes, false⟩
  unfold leftEarly
  constructor
  · intro hblank
    rw [if_pos (hempty.mpr hblank)]
  · intro hinked
    rw [if_neg fun h => hinked (hempty.mp h)]

/-- The end of a kernel is never worded like a missing greeting. -/
theorem leftEarly_ne_tooLate (timing : Timing) (words : String) :
    leftEarly words ≠ tooLate timing := by
  intro h
  have hfirst := congrArg (fun text => text.toList.head?) (LinkError.handshake.inj h)
  have hgreeting : (s!"no greeting within {timing.handshakeTimeout}ms").toList.head? =
      some 'n' := by
    show ("no greeting within " ++ toString timing.handshakeTimeout ++ "ms").toList.head? = _
    simp
  rw [hgreeting] at hfirst
  split at hfirst <;> simp at hfirst

/-! ## Every launch -/

/-- What becomes of a launch whose kernel dies behind `past`, if the waiting for its greeting is
attended. -/
structure Obituary (c : LaunchConfig) (w : Wires) (past : List Event) : Prop where
  /-- If the grace ends by the deadline, the end of the kernel is reported then, with what was
  captured by then. -/
  reported : deathTime c.timing w past + c.timing.stderrGrace ≤ expiry c.timing w →
    ∀ mid result, Attended c.timing w past mid →
      (after c.timing w (past ++ .kernelClosesOutput :: mid)).1 = .finished result →
      ∃ early i rest, mid = early ++ .poll i :: rest ∧
        (after c.timing w (past ++ .kernelClosesOutput :: early)).2.now =
          deathTime c.timing w past + c.timing.stderrGrace ∧
        result = .error (leftEarly
          (wordsOf (lastBytes c.timing w (past ++ .kernelClosesOutput :: early))))
  /-- If it does not, a greeting is reported as missing, whatever the kernel has said. -/
  missed : expiry c.timing w < deathTime c.timing w past + c.timing.stderrGrace →
    ∀ mid result, Attended c.timing w past mid →
      (after c.timing w (past ++ .kernelClosesOutput :: mid)).1 = .finished result →
      ∃ early i rest, mid = early ++ .poll i :: rest ∧
        (after c.timing w (past ++ .kernelClosesOutput :: early)).2.now = expiry c.timing w ∧
        result = .error (tooLate c.timing)
  /-- The waiting goes on no longer than until one of the two. -/
  waits : ∀ mid, Attended c.timing w past mid →
    ¬ (after c.timing w (past ++ .kernelClosesOutput :: mid)).1.Over →
    (after c.timing w (past ++ .kernelClosesOutput :: mid)).2.now ≤
      min (deathTime c.timing w past + c.timing.stderrGrace) (expiry c.timing w)
  /-- It ends with nothing but polls and time. -/
  ends : ∀ mid, Attended c.timing w past mid →
    ∃ n ms, Attended c.timing w past (mid ++ outlast n ms) ∧
      (after c.timing w (past ++ .kernelClosesOutput :: (mid ++ outlast n ms))).1.Over
  /-- The report has the words of the kernel behind it, unless they are blank. -/
  words : ∀ bytes,
    (IsBlankBytes bytes →
      leftEarly (wordsOf bytes) = .handshake "kernel exited before greeting") ∧
    (¬ IsBlankBytes bytes →
      leftEarly (wordsOf bytes) =
        .handshake ("kernel exited before greeting: " ++ wordsOf bytes))
  /-- The launch gives what the waiting has ended with. -/
  launches : ∀ es result greeting, (launch c).Runs es result → ⟨.greet, greeting⟩ ∈ es →
    result = greeting

/-- The moment is at most one grace after the end of the output, and not later than the limit of the
waiting. -/
theorem Dying.now_le {now : Nat} (h : Dying timing since deadline now stage)
    (hearly : since < deadline) : now ≤ min (since + timing.stderrGrace) deadline := by
  cases h with
  | listening begun => omega
  | leaving grace limit => exact Nat.le_min.mpr ⟨grace, limit⟩

/-- Every launch whose kernel closes its output in time, without a line, is as described. -/
theorem end_reported (c : LaunchConfig) (w : Wires) (past : List Event)
    (h : Dies c.timing w past) : Obituary c w past where
  reported hfits mid result ha hr := by
    rcases h.course mid ha with hdying | ⟨early, i, rest, result', hmid, hended, houtcome⟩
    · rw [hr] at hdying
      exact nomatch hdying
    · -- it ends once, so the ending in the course is the one in question
      obtain rfl := Stage.finished.inj (hended.symm.trans hr)
      cases houtcome with
      | reported _ ends => exact ⟨early, i, rest, hmid, ends, rfl⟩
      | missed late => exact absurd hfits (Nat.not_le_of_lt late)
  missed hlate mid result ha hr := by
    rcases h.course mid ha with hdying | ⟨early, i, rest, result', hmid, hended, houtcome⟩
    · rw [hr] at hdying
      exact nomatch hdying
    · obtain rfl := Stage.finished.inj (hended.symm.trans hr)
      cases houtcome with
      | reported fits => exact absurd fits (Nat.not_le_of_lt hlate)
      | missed _ ends => exact ⟨early, i, rest, hmid, ends, rfl⟩
  waits mid ha hgoing := by
    rcases h.course mid ha with hdying | ⟨early, i, rest, result, -, hended, -⟩
    · exact hdying.now_le h.early
    · exact absurd ⟨result, hended⟩ hgoing
  ends mid ha := h.ends ha
  words := leftEarly_wordsOf
  launches es result greeting hruns hm := Launch.launch_gives hruns hm

/-! ## Two launches -/

/-- A kernel that has five milliseconds to greet, and three to say why it leaves. -/
def briefLaunch : LaunchConfig :=
  ⟨"k", "node", [], [], .embedded [123, 125] ".js", none, ⟨5, 9, 3, 1, 9⟩⟩

/-- The kernel writes a blank line and says something on its error output, and lives for a while. -/
def shortLife (ms : Nat) : List Event :=
  [.kernelWrites [32, 10], .kernelReports [97], .capture, .capture, .poll 0, .poll 0, .pass ms]

/-- The kernel dies early enough, and its words are reported when the deadline comes. -/
theorem end_reported_at_deadline :
    Dies briefLaunch.timing (.new 0 9) (shortLife 2) ∧
    Attended briefLaunch.timing (.new 0 9) (shortLife 2) [.poll 0, .pass 3, .poll 0] ∧
    (after briefLaunch.timing (.new 0 9)
      (shortLife 2 ++ [.kernelClosesOutput, .poll 0, .pass 3, .poll 0])).1 =
        .finished (.error (leftEarly "a")) ∧
    ∃ early i rest, [.poll 0, .pass 3, .poll 0] = early ++ Event.poll i :: rest ∧
      (after briefLaunch.timing (.new 0 9)
        (shortLife 2 ++ .kernelClosesOutput :: early)).2.now = 2 + 3 ∧
      (.error (leftEarly "a") : Except LinkError Hello) = .error (leftEarly (wordsOf
        (lastBytes briefLaunch.timing (.new 0 9)
          (shortLife 2 ++ .kernelClosesOutput :: early)))) := by
  have hdies : Dies briefLaunch.timing (.new 0 9) (shortLife 2) :=
    ⟨by unfold Buffer.Fits; decide +kernel, by decide +kernel, by decide +kernel,
      by decide +kernel⟩
  have hattended : Attended briefLaunch.timing (.new 0 9) (shortLife 2)
      [.poll 0, .pass 3, .poll 0] := by
    unfold Attended
    decide +kernel
  have hends : (after briefLaunch.timing (.new 0 9)
      (shortLife 2 ++ [.kernelClosesOutput, .poll 0, .pass 3, .poll 0])).1 =
        .finished (.error (leftEarly "a")) := rfl
  exact ⟨hdies, hattended, hends,
    (end_reported briefLaunch _ _ hdies).reported (by decide +kernel) _ _ hattended hends⟩

/-- The kernel dies a millisecond later. The launch is valid, and the kernel has said why it left,
but a greeting is reported as missing. -/
theorem end_unreported :
    briefLaunch.validate = .ok () ∧
    Dies briefLaunch.timing (.new 0 9) (shortLife 3) ∧
    Attended briefLaunch.timing (.new 0 9) (shortLife 3) [.poll 0, .pass 2, .poll 0] ∧
    wordsOf (lastBytes briefLaunch.timing (.new 0 9)
      (shortLife 3 ++ [.kernelClosesOutput, .poll 0, .pass 2])) = "a" ∧
    (after briefLaunch.timing (.new 0 9)
      (shortLife 3 ++ [.kernelClosesOutput, .poll 0, .pass 2, .poll 0])).1 =
        .finished (.error (tooLate briefLaunch.timing)) ∧
    tooLate briefLaunch.timing ≠ leftEarly "a" := by
  refine ⟨rfl, ⟨by unfold Buffer.Fits; decide +kernel, by decide +kernel, by decide +kernel,
    by decide +kernel⟩, ?_, by decide +kernel, rfl, (leftEarly_ne_tooLate _ _).symm⟩
  unfold Attended
  decide +kernel

end KernelLink.Session.Handshake
