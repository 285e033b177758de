import KernelLink.Proofs.Host.WholeLines
import KernelLink.Proofs.Session.Pairing
/-!
# Calls whose callers go away

A caller may go away at any moment, and the call with it; what the call did to the conversation
stays. What the link then knows of the kernel is in the phase alone. If the phase is ready, the next
call takes it that whole lines were written and that all of them were answered. So a caller may go
away before its call has written anything, or once the phase says that a reply is outstanding or
that the conversation is over. It must not go away in the middle of its line, for the next line is
then written behind a part of one, nor while the reply is awaited, for the next call then takes that
reply for its own.

Main definitions:
* `Log.Owes`, `Log.Writes`: whole lines and what is owed for them, and a line that is being written.
* `World.Sound`: the phase and the stages of calls account for what was written.
* `Stage.Safe`: the stages in which a caller may go away.

Main results:
* `World.Sound.step`, `World.sound_run`: this is kept while callers go away only when they may.
* `World.Sound.abandon_iff`: and no longer.
* `World.own_reply`: as long as it is kept, a call takes the reply to its own line.
* `World.misread`, `World.Sound.torn`: otherwise the next call takes the reply to the line of the
  call that was left, or writes its own behind a part of that line.
-/
namespace KernelLink.Session

open Host (Delivery IsLine splitLines)

/-! ## What is owed -/

namespace Log

variable {log more : Log} {n : Nat} {line rest : List UInt8}

/-- Whole lines were written, and `n` more of them than replies were taken. -/
def Owes (log : Log) (n : Nat) : Prop :=
  (splitLines (written log)).2 = [] ∧ (written log).count 10 = (taken log).length + n

/-- Behind whole lines, as many as replies were taken, a line was written but for its rest. -/
def Writes (log : Log) (line rest : List UInt8) : Prop :=
  ∃ base done, written log = base ++ done ∧ (splitLines base).2 = [] ∧
    base.count 10 = (taken log).length ∧ line = done ++ rest

theorem Owes.append (h : Owes log n) (hw : written more = []) (ht : taken more = []) :
    Owes (log ++ more) n := by
  unfold Owes
  rw [written_append, taken_append, hw, ht, List.append_nil, List.append_nil]
  exact h

theorem Owes.take {x : Nat × Delivery} (h : Owes log (n + 1)) (hw : written more = [])
    (ht : taken more = [x]) : Owes (log ++ more) n := by
  obtain ⟨hwhole, hcount⟩ := h
  unfold Owes
  rw [written_append, taken_append, hw, ht, List.append_nil, List.length_append,
    List.length_singleton]
  exact ⟨hwhole, by omega⟩

/-- When nothing is owed, a line can be begun: all that was written are whole lines. -/
theorem Owes.writes (h : Owes log 0) : Writes log line line :=
  ⟨written log, [], (List.append_nil _).symm, h.1, h.2, rfl⟩

/-- A request that is written in pieces goes on where the last piece ended. -/
theorem Writes.append (h : Writes log line rest) {left : List UInt8}
    (hw : written more ++ left = rest) (ht : taken more = []) :
    Writes (log ++ more) line left := by
  obtain ⟨base, done, hlog, hwhole, hcount, hline⟩ := h
  refine ⟨base, done ++ written more, ?_, hwhole, ?_, ?_⟩
  · rw [written_append, hlog, List.append_assoc]
  · rw [taken_append, ht, List.append_nil]
    exact hcount
  · rw [hline, ← hw, List.append_assoc]

/-- When a line is written, it is the last of the lines, and its number is how many replies were
taken. -/
theorem Writes.last (h : Writes log line []) (hl : IsLine line) :
    ∃ earlier, splitLines (written log) = (earlier ++ [line], []) ∧
      earlier.length = (taken log).length := by
  obtain ⟨base, done, hlog, hwhole, hcount, hline⟩ := h
  rw [List.append_nil] at hline
  subst hline
  refine ⟨(splitLines base).1, ?_, ?_⟩
  · rw [hlog, Host.splitLines_append _ hwhole, hl.splitLines]
  · rw [Host.length_splitLines, hcount]

/-- So it is owed for, as soon as nothing of it is left to write. -/
theorem Writes.owes (h : Writes log line []) (hl : IsLine line) : Owes log 1 := by
  obtain ⟨earlier, hlines, hlength⟩ := h.last hl
  have hcount := Host.length_splitLines (written log)
  rw [hlines, List.length_append, List.length_singleton, hlength] at hcount
  exact ⟨by rw [hlines], hcount.symm⟩

/-- In the middle of a line there is a part of one behind the whole lines. -/
theorem Writes.torn (h : Writes log line rest) (hl : IsLine line) (hne : rest ≠ line)
    (hmore : rest ≠ []) : (splitLines (written log)).2 ≠ [] := by
  obtain ⟨base, done, hlog, hwhole, -, hline⟩ := h
  obtain ⟨body, hbody, hnot⟩ := hl
  -- what was written of the line is a part of its body, since the line feed is its last byte
  have hfront : done <+: body := by
    have hpre : done <+: body ++ [10] := ⟨rest, by rw [← hline, hbody]⟩
    rcases List.prefix_concat_iff.mp hpre with hall | hpart
    · rw [hline, hall, List.append_right_eq_self] at hbody
      exact absurd hbody hmore
    · exact hpart
  have hpart : (10 : UInt8) ∉ done := fun hm => hnot (hfront.subset hm)
  rw [hlog, Host.splitLines_append _ hwhole, Host.splitLines_of_not_mem hpart]
  rintro rfl
  exact hne hline.symm

/-- So nothing can be said to be settled after a part of a line, or after all of it. -/
theorem Writes.owes_zero_iff (h : Writes log line rest) (hl : IsLine line) :
    Owes log 0 ↔ rest = line := by
  refine ⟨fun howes => ?_, ?_⟩
  · by_contra hne
    by_cases hrest : rest = []
    · subst hrest
      have hone := (h.owes hl).2
      rw [howes.2] at hone
      omega
    · exact h.torn hl hne hrest howes.1
  · rintro rfl
    obtain ⟨base, done, hlog, hwhole, hcount, hline⟩ := h
    obtain rfl := List.append_left_eq_self.mp hline.symm
    rw [List.append_nil] at hlog
    exact ⟨hlog ▸ hwhole, hlog ▸ hcount⟩

end Log

/-! ## Sound conversations -/

/-- What a call in some stage has written, and what is owed for that. -/
def Stage.Accounts (line : List UInt8) (log : Log) : Stage → Prop
  | .writing rest => log.Writes line rest
  | .awaiting _ _ => log.Writes line []
  | .queued | .discarding _ | .leaving _ | .finished _ => True

/-- The stages in which a caller may go away: its call has written nothing, or the phase says that
it is over with the conversation. -/
def Stage.Safe (line : List UInt8) : Stage → Prop
  | .writing rest => rest = line
  | .awaiting _ _ => False
  | .queued | .discarding _ | .leaving _ | .finished _ => True

theorem Stage.accounts_of_not_sends {stage : Stage} {line : List UInt8} {log : Log}
    (h : stage.sends = false) : stage.Accounts line log := by
  cases stage with
  | writing rest => exact absurd h.symm Bool.false_ne_true
  | awaiting deadline graceEnd => exact absurd h.symm Bool.false_ne_true
  | queued | discarding | leaving | finished => trivial

namespace World

variable {w w' : World} {id : Nat} {line : List UInt8} {before after : Stage} {deeds : List Deed}
  {log : Log}

/-- The phase and the stages of calls account for what was written and taken. -/
structure Sound (w : World) (log : Log) : Prop where
  /-- When the next call may write, nothing is owed. -/
  free : w.holder = none → w.phase = .ready → log.Owes 0
  /-- When a reply is outstanding, it is that to the last line. -/
  late : w.phase = .replyOutstanding → log.Owes 1
  /-- A call that writes or waits knows what is owed. -/
  own : ∀ {id line stage}, w.task? id = some (.call line stage) → stage.Accounts line log
  /-- The line of a call is one line. -/
  line : ∀ {id line stage}, w.task? id = some (.call line stage) → IsLine line

theorem Sound.new (timing : Timing) (wires : Wires) : (World.new timing wires).Sound [] where
  free _ _ := ⟨rfl, rfl⟩
  late h := Phase.noConfusion h
  own h := absurd h (by simp [World.new, task?])
  line h := absurd h (by simp [World.new, task?])

/-! ## The polls of a call -/

/-- After a poll that leaves the conversation ready and nobody with a turn, nothing is owed: the
call has taken its reply. -/
theorem CallStep.settles (h : CallStep w id line before after w' deeds) (hw : w.Orderly)
    (hs : w.Sound log) (ht : w.task? id = some (.call line before)) (hh : w'.holder = none)
    (hp : w'.phase = .ready) : (log ++ deeds).Owes 0 := by
  have hturn := h.turn hw ht
  have howed := hs.own ht
  cases h with
  | reply going read inked decoded => exact (Log.Writes.owes howed (hs.line ht)).take rfl rfl
  | enterRefused next refusal =>
    rw [show w.phase = .ready from hp] at refusal
    exact absurd refusal (by simp [Phase.refusal])
  | leave due =>
    have hexit : w.phase = .exited := hw.fits ht
    rw [show w.phase = .ready from hp] at hexit
    exact Phase.noConfusion hexit
  | cancel | fail | missing | garbled | report | overdue => exact Phase.noConfusion hp
  | skip waits | fill waits =>
    rw [hturn, Stage.inTurn_of_waits waits] at hh
    exact absurd hh (Option.some_ne_none id)
  | _ =>
    rw [hturn] at hh
    exact absurd hh (Option.some_ne_none id)

/-- After a poll that leaves a reply outstanding, that reply is owed: it was before, or the call
that waited for it reports error output instead. -/
theorem CallStep.outstanding (h : CallStep w id line before after w' deeds) (hw : w.Orderly)
    (hs : w.Sound log) (ht : w.task? id = some (.call line before))
    (hp : w'.phase = .replyOutstanding) : (log ++ deeds).Owes 1 := by
  have howed := hs.own ht
  have hfit : before.Fits w.phase := hw.fits ht
  cases h with
  | report quiet due inked => exact (Log.Writes.owes howed (hs.line ht)).append rfl rfl
  | enterLate next phase => exact (hs.late hp).append rfl rfl
  | enterRefused next refusal => exact (hs.late hp).append rfl rfl
  | skip waits going read blank => exact (hs.late hp).append rfl rfl
  | fill waits going none some => exact (hs.late hp).append rfl rfl
  | enterReady next phase =>
    rw [show w.phase = .replyOutstanding from hp] at phase
    exact Phase.noConfusion phase
  | written | put | reply | stale | arm | disarm | leave =>
    rw [show w.phase = .replyOutstanding from hp] at hfit
    exact Phase.noConfusion hfit
  | _ => exact Phase.noConfusion hp

/-- The call itself knows what is owed: nothing before it begins, part of a request while it writes,
and one line while it waits. -/
theorem CallStep.accounted (h : CallStep w id line before after w' deeds) (hw : w.Orderly)
    (hs : w.Sound log) (ht : w.task? id = some (.call line before)) :
    after.Accounts line (log ++ deeds) := by
  have howed := hs.own ht
  have hfit : before.Fits w.phase := hw.fits ht
  cases h with
  | enterReady next phase =>
    exact ((hs.free (holder_of_isNext next) phase).append rfl rfl).writes
  | discard going read inked => exact ((hs.late hfit).take rfl rfl).writes
  | written => exact Log.Writes.append howed rfl rfl
  | put more writing reading room =>
    refine Log.Writes.append howed ?_ rfl
    simp [Log.written]
  | skip waits going read blank | fill waits going none some =>
    cases before with
    | awaiting deadline graceEnd => exact Log.Writes.append howed rfl rfl
    | writing rest => exact absurd waits Bool.false_ne_true
    | queued | discarding | leaving | finished => trivial
  | stale | arm | disarm => exact Log.Writes.append howed rfl rfl
  | _ => trivial

/-- A poll keeps the conversation sound: whoever sends accounts for it, and nobody else has anything
to account for. -/
theorem Sound.poll (hs : w.Sound log) (hw : w.Orderly) (ht : w.task? id = some (.call line before))
    (h : CallStep w id line before after w' deeds) : w'.Sound (log ++ deeds) where
  free := h.settles hw hs ht
  late := h.outstanding hw hs ht
  own {i l stage} hi := by
    cases hsends : stage.sends with
    | false => exact Stage.accounts_of_not_sends hsends
    | true =>
      -- nobody else sends
      obtain rfl := h.only_after hw ht hi (Stage.inTurn_of_sends hsends)
      obtain ⟨rfl, rfl⟩ := call_inj (h.self ht) hi
      exact h.accounted hw hs ht
  line {i l stage} hi := by
    rcases (EventStep.step ht h).call_cases hi with hsame | ⟨-, he, -⟩ | ⟨_, hsame, -⟩ | ⟨hsame, -⟩
    · exact hs.line hsame
    · exact absurd he (by simp)
    · exact hs.line hsame
    · exact hs.line hsame

/-! ## Every event -/

/-- An event that is no poll of a call keeps the conversation sound, if nobody goes away from a call
that he may not leave. -/
theorem Sound.calm {e : Event} (hs : w.Sound log) (hw : w.Orderly) (h : EventStep w e w' deeds)
    (calm : Calm w e w' deeds) (hline : ∀ i l, e = .call i l → IsLine l)
    (hsafe : ∀ i, e = .abandon i → ∀ l s, w.task? i = some (.call l s) → s.Safe l) :
    w'.Sound (log ++ deeds) := by
  have hwr := Log.written_of_calm calm.log
  have htk := Log.taken_of_calm calm.log
  refine ⟨fun hh hp => ?_, fun hp => ?_, fun {i l stage} hi => ?_, fun {i l stage} hi => ?_⟩
  · rcases calm.phase with hphase | ⟨hexit, -⟩
    · refine Log.Owes.append ?_ hwr htk
      rcases calm.holder with hsame | ⟨i, he, hheld, -⟩
      · exact hs.free (hsame ▸ hh) (hphase ▸ hp)
      · -- whoever has the turn while the conversation is ready writes or waits
        obtain ⟨l, s, hi, hturn⟩ := hw.held hheld
        have hready : w.phase = .ready := hphase ▸ hp
        have hfit : s.Fits .ready := hready ▸ hw.fits hi
        have hmay := hsafe i he l s hi
        have howed := hs.own hi
        cases s with
        | writing rest => exact (Log.Writes.owes_zero_iff howed (hs.line hi)).mpr hmay
        | awaiting deadline graceEnd => exact hmay.elim
        | discarding deadline => exact Phase.noConfusion hfit
        | leaving endsAt => exact Phase.noConfusion hfit
        | queued | finished => exact absurd hturn Bool.false_ne_true
    · rw [hexit] at hp
      exact Phase.noConfusion hp
  · rcases calm.phase with hphase | ⟨hexit, -⟩
    · exact (hs.late (hphase ▸ hp)).append hwr htk
    · rw [hexit] at hp
      exact Phase.noConfusion hp
  · cases hsends : stage.sends with
    | false => exact Stage.accounts_of_not_sends hsends
    | true =>
      have howed := hs.own (calm.inTurn hi (Stage.inTurn_of_sends hsends))
      cases stage with
      | writing rest => exact Log.Writes.append howed (by rw [hwr]; rfl) htk
      | awaiting deadline graceEnd => exact Log.Writes.append howed (by rw [hwr]; rfl) htk
      | queued | discarding | leaving | finished => trivial
  · rcases h.call_cases hi with hsame | ⟨-, he, -⟩ | ⟨_, hsame, -⟩ | ⟨hsame, -⟩
    · exact hs.line hsame
    · exact hline i l he
    · exact hs.line hsame
    · exact hs.line hsame

/-- Every event keeps the conversation sound, if nobody goes away from a call that he may not
leave. -/
theorem Sound.step {e : Event} (hs : w.Sound log) (hw : w.Orderly) (h : EventStep w e w' deeds)
    (hline : ∀ i l, e = .call i l → IsLine l)
    (hsafe : ∀ i, e = .abandon i → ∀ l s, w.task? i = some (.call l s) → s.Safe l) :
    w'.Sound (log ++ deeds) := by
  rcases h.poll_or_calm hw with ⟨id, line, before, after, -, task, poll⟩ | calm
  · exact hs.poll hw task poll
  · exact hs.calm hw h calm hline hsafe

/-- What a call that writes leaves behind when its caller goes away: the next call may write. -/
theorem Orderly.left_ready (hw : w.Orderly) (ht : w.task? id = some (.call line before))
    (hs : before.sends = true) :
    (w.abandon id).holder = none ∧ (w.abandon id).phase = .ready := by
  have hfit : before.Fits w.phase := hw.fits ht
  constructor
  · show (if w.holder = some id then none else w.holder) = none
    rw [if_pos (hw.turn ht (Stage.inTurn_of_sends hs))]
  · cases before with
    | writing rest => exact hfit
    | awaiting deadline graceEnd => exact hfit
    | queued | discarding | leaving | finished => exact absurd hs Bool.false_ne_true

/-- When a caller goes away, the conversation stays sound exactly if he may leave his call. -/
theorem Sound.abandon_iff (hs : w.Sound log) (hw : w.Orderly)
    (ht : w.task? id = some (.call line before)) :
    (w.abandon id).Sound log ↔ before.Safe line := by
  constructor
  · intro hafter
    have howed := hs.own ht
    -- a call that is gone while it sends leaves the link ready, and then nothing may be owed
    have hleft : before.sends = true → log.Owes 0 := fun hsends =>
      hafter.free (hw.left_ready ht hsends).1 (hw.left_ready ht hsends).2
    cases before with
    | writing rest => exact (Log.Writes.owes_zero_iff howed (hs.line ht)).mp (hleft rfl)
    | awaiting deadline graceEnd =>
      have hone := (Log.Writes.owes howed (hs.line ht)).2
      rw [(hleft rfl).2] at hone
      omega
    | queued | discarding | leaving | finished => trivial
  · intro hmay
    have hstep : EventStep w (.abandon id) (w.abandon id) [] := .abandon id
    have hafter := hs.step hw hstep (by simp) fun i he l s hi => by
      obtain rfl := Event.abandon.inj he
      obtain ⟨rfl, rfl⟩ := call_inj ht hi
      exact hmay
    rw [List.append_nil] at hafter
    exact hafter

/-! ## Runs -/

/-- Calls have lines, and callers go away only when they may. -/
structure Careful (w : World) (events : List Event) : Prop where
  /-- Calls have lines. -/
  lines : ∀ id line, .call id line ∈ events → IsLine line
  /-- Callers go away only when they may. -/
  safe : ∀ past id, past ++ [.abandon id] <+: events →
    ∀ line stage, (w.run past).task? id = some (.call line stage) → stage.Safe line

/-- A run in which callers go away only when that does no harm is one all along. -/
theorem Careful.of_prefix {past events : List Event} (h : w.Careful events)
    (hp : past <+: events) : w.Careful past where
  lines id line hm := h.lines id line (hp.subset hm)
  safe more id hm := h.safe more id (hm.trans hp)

/-- Along every such run the conversation is sound, by induction on the events from the end. -/
theorem sound_run {timing : Timing} {wires : Wires} {events : List Event}
    (h : (World.new timing wires).Careful events) :
    ((World.new timing wires).run events).Sound ((World.new timing wires).log events) := by
  induction events using List.reverseRecOn with
  | nil => exact Sound.new timing wires
  | append_singleton past e ih =>
    have hs := ih (h.of_prefix (List.prefix_append past [e]))
    rw [run_concat, log_concat]
    refine hs.step ((Orderly.new timing wires).run past) (apply_cases _ e) ?_ ?_
    · rintro i l rfl
      exact h.lines i l (List.mem_append_right _ List.mem_cons_self)
    · rintro i rfl
      exact h.safe past i List.prefix_rfl

/-- The account of the pipes holds along every run whose calls have lines. -/
theorem ledger_run {timing : Timing} {wires : Wires} (hin : wires.input.bytes = [])
    {events : List Event} (h : ∀ id line, .call id line ∈ events → IsLine line) :
    ((World.new timing wires).run events).Ledger (wires.output.held ++ wires.output.bytes)
      ((World.new timing wires).log events) := by
  induction events using List.reverseRecOn with
  | nil => exact Ledger.new timing wires hin
  | append_singleton past e ih =>
    have hl := ih fun id line hm => h id line (List.mem_append_left _ hm)
    rw [run_concat, log_concat]
    refine hl.step ((Orderly.new timing wires).run past) (apply_cases _ e) ?_
    rintro id line rfl
    exact (h id line (List.mem_append_right _ List.mem_cons_self)).count

/-! ## Whose reply a call takes -/

/-- As long as callers go away only when they may, a call takes the reply to its own line: what it
takes is the kernel's line of the same number. -/
theorem own_reply {timing : Timing} {wires : Wires} {events : List Event} {deadline : Nat}
    {graceEnd : Option Nat} {d : Delivery} (hin : wires.input.bytes = [])
    (h : (World.new timing wires).Careful events)
    (ht : ((World.new timing wires).run events).task? id =
      some (.call line (.awaiting deadline graceEnd)))
    (hm : .took id d ∈ ((World.new timing wires).run events).deeds (.poll id)) :
    ∃ earlier, splitLines (Log.written ((World.new timing wires).log events)) =
        (earlier ++ [line], []) ∧
      ((World.new timing wires).kernelLines events)[earlier.length]? = some d ∧
      (((World.new timing wires).run events).apply (.poll id)).callResult? id =
        some (replyTo d) := by
  have hs := sound_run h
  have hw := (Orderly.new timing wires).run events
  obtain ⟨l, before, after, -, poll⟩ := hw.poll_of_deed hm rfl
  obtain ⟨earlier, hearlier, hlength⟩ := Log.Writes.last (hs.own ht) (hs.line ht)
  refine ⟨earlier, hearlier, ?_, hw.takes_reply ht hm⟩
  rw [hlength]
  exact (ledger_run hin h.lines).reads poll (poll.took hm).2

/-- If the caller goes away while the reply is awaited, the next call that takes a line takes that
reply for its own. -/
theorem misread {timing : Timing} {wires : Wires} {past more : List Event} {g : Nat}
    {l : List UInt8} {deadline deadline' : Nat} {graceEnd graceEnd' : Option Nat} {d : Delivery}
    (hin : wires.input.bytes = []) (h : (World.new timing wires).Careful past)
    (ht : ((World.new timing wires).run past).task? id =
      some (.call line (.awaiting deadline graceEnd)))
    (hlines : ∀ i l, .call i l ∈ more → IsLine l)
    (hnone : Log.taken ((((World.new timing wires).run past).abandon id).log more) = [])
    (hg : ((World.new timing wires).run (past ++ .abandon id :: more)).task? g =
      some (.call l (.awaiting deadline' graceEnd')))
    (hm : .took g d ∈
      ((World.new timing wires).run (past ++ .abandon id :: more)).deeds (.poll g)) :
    ∃ earlier, splitLines (Log.written ((World.new timing wires).log past)) =
        (earlier ++ [line], []) ∧
      ((World.new timing wires).kernelLines (past ++ .abandon id :: more))[earlier.length]? =
        some d ∧
      (((World.new timing wires).run (past ++ .abandon id :: more)).apply (.poll g)).callResult? g =
        some (replyTo d) := by
  have hs := sound_run h
  have hw := (Orderly.new timing wires).run (past ++ .abandon id :: more)
  obtain ⟨l', before, after, -, poll⟩ := hw.poll_of_deed hm rfl
  obtain ⟨earlier, hearlier, hlength⟩ := Log.Writes.last (hs.own ht) (hs.line ht)
  -- the next line to be taken has the number of the line that was left
  have htaken : Log.taken ((World.new timing wires).log (past ++ .abandon id :: more)) =
      Log.taken ((World.new timing wires).log past) := by
    rw [log_append, Log.taken_append]
    show _ ++ Log.taken ([] ++ (((World.new timing wires).run past).abandon id).log more) = _
    rw [List.nil_append, hnone, List.append_nil]
  have hall : ∀ i l, .call i l ∈ past ++ .abandon id :: more → IsLine l := by
    intro i l hmem
    rcases List.mem_append.mp hmem with hold | hnew
    · exact h.lines i l hold
    · exact hlines i l ((List.mem_cons.mp hnew).resolve_left (by simp))
  refine ⟨earlier, hearlier, ?_, hw.takes_reply hg hm⟩
  rw [hlength, ← htaken]
  exact (ledger_run hin hall).reads poll (poll.took hm).2

/-- The second call is told what the kernel replied to the first, whose caller went away. -/
example :
    ((World.new ⟨1, 1, 0, 1, 1⟩ (.new 0 1)).run
      [.call 0 (Text.Utf8.bytes (Request.del ⟨"a"⟩).line), .poll 0, .poll 0, .poll 0, .abandon 0,
        .call 1 (Text.Utf8.bytes (Request.del ⟨"b"⟩).line), .poll 1, .poll 1, .poll 1,
        .kernelTakes 43, .kernelWrites [49, 10], .poll 1, .poll 1]).callResult? 1 =
      some (.ok (.num (.int 1))) := by
  decide +kernel

/-- If the caller goes away in the middle of its line, the next call writes its line behind that. -/
theorem Sound.torn {rest : List UInt8} (hs : w.Sound log) (hw : w.Orderly)
    (ht : w.task? id = some (.call line (.writing rest))) (hbegun : rest ≠ line)
    (hmore : rest ≠ []) :
    (w.abandon id).holder = none ∧ (w.abandon id).phase = .ready ∧
      (splitLines (Log.written log)).2 ≠ [] :=
  ⟨(hw.left_ready ht rfl).1, (hw.left_ready ht rfl).2,
    Log.Writes.torn (hs.own ht) (hs.line ht) hbegun hmore⟩

end World
end KernelLink.Session
