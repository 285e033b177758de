import KernelLink.Proofs.Session.Captured
import KernelLink.Proofs.Session.Span
import KernelLink.Proofs.Session.Wakeups
import KernelLink.Proofs.Text.Lossy
/-!
# Error output in the place of a reply

A call that waits and gets no line reports the error output, and only if there is none it reports
that there was no response. Two things come between. The deadline may pass while a grace runs, which
is so if the error output was noticed too late, or before the reader has stored the wake-up for what
it added: then the error output is overtaken. And what exceeds the limit of the buffer may be all
that was no blank: then it is forgotten.

Main definitions:
* `World.Waits`: a call begins to wait for its reply, or for the last words of the kernel.
* `World.Notices`: its grace begins.
* `World.Overtaken`, `World.Forgotten`: how error output is passed over.
* `World.Listening`: what the buffer holds while a call waits.
* `World.FallsBack`: what a call reports that gets no line.

Main results:
* `World.fallback_iff`: when a call that gets no line reports the error output.
* `World.errors_overtaken`: a run in which it does not.
-/
namespace KernelLink.Session

open Stderr (Buffer)
open Text (IsBlankBytes)

/-! ## Deadlines, graces and blanks -/

/-- The deadline of a call that waits for its reply. -/
def Stage.deadline : Stage → Option Nat
  | .awaiting deadline _ => some deadline
  | .queued | .discarding _ | .writing _ | .leaving _ | .finished _ => none

/-- The end of the grace that runs. -/
def Stage.graceEnd : Stage → Option Nat
  | .awaiting _ graceEnd => graceEnd
  | .queued | .discarding _ | .writing _ | .leaving _ | .finished _ => none

theorem Stage.listens_of_graceEnd {stage : Stage} {graceAt : Nat}
    (h : stage.graceEnd = some graceAt) : stage.listens = true := by
  cases stage with
  | awaiting deadline graceEnd => rfl
  | _ => exact absurd h.symm (Option.some_ne_none graceAt)

/-- The text of a buffer is empty if the buffer keeps nothing but blanks. -/
theorem text_isEmpty_iff (b : Buffer) : b.text.isEmpty = true ↔ IsBlankBytes b.bytes := by
  unfold Buffer.text IsBlankBytes
  rw [Text.isEmpty_trimmedEnd]

namespace World

variable {w w' : World} {id : Nat} {line : List UInt8} {before after : Stage} {deeds : List Deed}
  {log : Log}

/-- With its next poll the call begins to wait for its reply, or for the kernel's last words. -/
def Waits (w : World) (id : Nat) : Prop := w.Reaches Stage.listens id

/-- With its next poll the call notices that there is error output, and its grace begins. -/
def Notices (w : World) (id : Nat) : Prop := w.Reaches (fun stage => stage.graceEnd.isSome) id

/-- The deadline has passed while there was error output, and its grace had not ended or not even
begun. -/
def Overtaken (w : World) (id : Nat) : Prop :=
  ∃ line deadline graceEnd, w.task? id = some (.call line (.awaiting deadline graceEnd)) ∧
    deadline ≤ w.wires.now ∧ (graceEnd = none → w.wires.buffer.bytes ≠ []) ∧
    ∀ graceAt, graceEnd = some graceAt → w.wires.now < graceAt

/-- There is no error output left to report: the kernel is gone and the buffer keeps only blanks, or
it is empty and no grace runs. -/
def Forgotten (w : World) (id : Nat) : Prop :=
  (∃ line endsAt, w.task? id = some (.call line (.leaving endsAt)) ∧
    IsBlankBytes w.wires.buffer.bytes) ∨
  ∃ line deadline, w.task? id = some (.call line (.awaiting deadline none)) ∧
    w.wires.buffer.bytes = []

/-! ## How a call ends without a line -/

/-- Nothing is left to be said exactly if the buffer holds blanks only. -/
theorem lastWords_eq_noResponse_iff (b : Buffer) :
    lastWords b.text = .error .noResponse ↔ IsBlankBytes b.bytes := by
  rw [← text_isEmpty_iff]
  unfold lastWords
  by_cases hb : b.text.isEmpty = true
  · rw [if_pos hb]
    exact ⟨fun _ => hb, fun _ => rfl⟩
  · rw [if_neg hb]
    exact ⟨fun h => absurd h (by simp), fun h => absurd h hb⟩

/-- Without a line a call reports that there was no response exactly if error output was overtaken
or forgotten. -/
theorem CallStep.noResponse_iff {result : Result}
    (h : CallStep w id line before (.finished result) w' deeds)
    (ht : w.task? id = some (.call line before))
    (hr : result = .error .noResponse ∨ ∃ text, result = .error (.kernelStderr text)) :
    result = .error .noResponse ↔ w.Overtaken id ∨ w.Forgotten id := by
  have hstage : ∀ {l s}, w.task? id = some (.call l s) → s = before :=
    fun hs => (call_inj hs ht).2
  rcases h.unanswered hr with ⟨deadline, graceEnd, rfl, rfl, hover, hrunning, -⟩ |
    ⟨deadline, graceAt, rfl, hover, rfl⟩ | ⟨endsAt, rfl, rfl⟩
  · refine ⟨fun _ => ?_, fun _ => rfl⟩
    -- past its deadline with nothing captured it has nothing else to say; otherwise text was
    -- overtaken
    by_cases hg : graceEnd = none ∧ w.wires.buffer.bytes = []
    · obtain ⟨rfl, hb⟩ := hg
      exact Or.inr (Or.inr ⟨line, deadline, ht, hb⟩)
    · exact Or.inl ⟨line, deadline, graceEnd, ht, hover, fun hn hb => hg ⟨hn, hb⟩, hrunning⟩
  · refine ⟨fun he => absurd he (by simp), ?_⟩
    rintro (⟨l, d, g, hs, -, -, hrunning⟩ | ⟨l, endsAt, hs, -⟩ | ⟨l, d, hs, -⟩)
    · obtain ⟨-, rfl⟩ := Stage.awaiting.inj (hstage hs)
      have hlt := hrunning graceAt rfl
      omega
    · exact Stage.noConfusion (hstage hs)
    · exact absurd (Stage.awaiting.inj (hstage hs)).2 (by simp)
  · rw [lastWords_eq_noResponse_iff]
    refine ⟨fun hb => Or.inr (Or.inl ⟨line, endsAt, ht, hb⟩), ?_⟩
    rintro (⟨l, d, g, hs, -⟩ | ⟨l, endsAt', hs, hb⟩ | ⟨l, d, hs, -⟩)
    · exact Stage.noConfusion (hstage hs)
    · exact hb
    · exact Stage.noConfusion (hstage hs)

/-! ## While a call waits -/

/-- What the buffer holds while a call waits that found `kept` in it: unless there was too much, all
that was kept and captured but for blanks. -/
structure Listening (kept : List UInt8) (limit due : Nat) (id : Nat) (w : World) (log : Log) :
    Prop where
  /-- The limit stays. -/
  bound : w.wires.buffer.limit = limit
  /-- The call waits. -/
  stage : ∀ {line stage}, w.task? id = some (.call line stage) → stage.listens = true
  /-- Its deadline stays. -/
  deadline : ∀ {line stage deadline}, w.task? id = some (.call line stage) →
    stage.deadline = some deadline → deadline = due
  /-- What the buffer no longer holds were blanks. -/
  gone : (kept ++ Log.captured log).length ≤ limit →
    ∃ gone, kept ++ Log.captured log = gone ++ w.wires.buffer.bytes ∧ IsBlankBytes gone

/-- A call that waits waits on with its deadline, and the buffer is emptied only of blanks. -/
theorem CallStep.listens (h : CallStep w id line before after w' deeds)
    (hb : before.listens = true) (ha : after.inTurn = true) :
    after.listens = true ∧
      (∀ deadline, after.deadline = some deadline → before.deadline = some deadline) ∧
      w'.wires.buffer.limit = w.wires.buffer.limit ∧
      (w'.wires.buffer.bytes = w.wires.buffer.bytes ∨
        w'.wires.buffer.bytes = [] ∧ IsBlankBytes w.wires.buffer.bytes) := by
  cases h with
  | skip waits going read blank => exact ⟨hb, fun _ hd => hd, rfl, Or.inl rfl⟩
  | fill waits going none some => exact ⟨hb, fun _ hd => hd, rfl, Or.inl rfl⟩
  | gone waits going read =>
    exact ⟨rfl, fun d hd => absurd hd.symm (Option.some_ne_none d), rfl, Or.inl rfl⟩
  | stale quiet permit empty => exact ⟨rfl, fun _ hd => hd, rfl, Or.inl rfl⟩
  | arm quiet permit filled => exact ⟨rfl, fun _ hd => hd, rfl, Or.inl rfl⟩
  | disarm quiet due blank =>
    exact ⟨rfl, fun _ hd => hd, rfl, Or.inr ⟨rfl, (text_isEmpty_iff _).mp blank⟩⟩
  | enterReady | enterLate | discard | written | broken | put =>
    exact absurd hb Bool.false_ne_true
  | _ => exact absurd ha Bool.false_ne_true

variable {kept : List UInt8} {limit due : Nat}

/-- A poll after which the call is still in its turn leaves the buffer and its deadline as they are,
so what it listens to is the same. -/
theorem Listening.poll (hl : Listening kept limit due id w log)
    (ht : w.task? id = some (.call line before))
    (h : CallStep w id line before after w' deeds) (hself : w'.task? id = some (.call line after))
    (ha : after.inTurn = true) : Listening kept limit due id w' (log ++ deeds) := by
  obtain ⟨hstage, hdeadline, hlimit, hbytes⟩ := h.listens (hl.stage ht) ha
  refine ⟨hlimit.trans hl.bound, fun {l s} hs => ?_, fun {l s d} hs hd => ?_, fun hlen => ?_⟩
  · obtain ⟨-, rfl⟩ := call_inj hself hs
    exact hstage
  · obtain ⟨-, rfl⟩ := call_inj hself hs
    exact hl.deadline ht (hdeadline d hd)
  · rw [Log.captured_append, h.captured, List.append_nil] at hlen ⊢
    obtain ⟨gone, hsplit, hblank⟩ := hl.gone hlen
    rcases hbytes with hb | ⟨hb, hkept⟩
    · exact ⟨gone, by rw [hb]; exact hsplit, hblank⟩
    · -- at the end of a grace the buffer is emptied, but only of blanks
      exact ⟨gone ++ w.wires.buffer.bytes, by rw [hb, List.append_nil]; exact hsplit,
        hblank.append hkept⟩

/-- What the others do leaves the call where it is; the reader may add to the buffer, and then the
log says what was added. -/
theorem Listening.calm {e : Event} {stage : Stage} (hl : Listening kept limit due id w log)
    (ht : w.task? id = some (.call line stage)) (h : Calm w e w' deeds)
    (hself : w'.task? id = some (.call line stage)) :
    Listening kept limit due id w' (log ++ deeds) := by
  obtain ⟨hlimit, hbytes⟩ := h.wires.buffer
  refine ⟨hlimit.trans hl.bound, fun {l s} hs => ?_, fun {l s d} hs hd => ?_, fun hlen => ?_⟩
  · obtain ⟨-, rfl⟩ := call_inj hself hs
    exact hl.stage ht
  · obtain ⟨-, rfl⟩ := call_inj hself hs
    exact hl.deadline ht hd
  · -- as long as all that was captured fits, the buffer drops nothing of it
    rw [Log.captured_append, ← List.append_assoc] at hlen ⊢
    have hbefore : (kept ++ Log.captured log).length ≤ limit := by
      rw [List.length_append] at hlen
      omega
    obtain ⟨gone, hsplit, hblank⟩ := hl.gone hbefore
    rw [hsplit] at hlen ⊢
    rcases hbytes with ⟨hb, hnone⟩ | hb
    · rw [hb, hnone, List.append_nil]
      exact ⟨gone, rfl, hblank⟩
    · have hfits : (w.wires.buffer.bytes ++ Log.captured deeds).length ≤
          w.wires.buffer.limit := by
        rw [hl.bound]
        simp only [List.length_append] at hlen ⊢
        omega
      rw [hb, Buffer.newest_of_le hfits, List.append_assoc]
      exact ⟨gone, rfl, hblank⟩

/-- When a call begins to wait, it finds the buffer as it is, and its deadline is set. -/
theorem CallStep.waited (h : CallStep w id line before after w' deeds)
    (hb : before.listens = false) (ha : after.listens = true) :
    w'.wires.buffer = w.wires.buffer ∧
      ∀ deadline, after.deadline = some deadline →
        deadline = w.wires.now + w.timing.responseTimeout := by
  cases h with
  | written => exact ⟨rfl, fun d hd => (Option.some.inj hd).symm⟩
  | broken | gone => exact ⟨rfl, fun d hd => absurd hd.symm (Option.some_ne_none d)⟩
  | skip | fill =>
    rw [hb] at ha
    exact absurd ha Bool.false_ne_true
  | stale | arm | disarm => exact absurd hb.symm Bool.false_ne_true
  | _ => exact absurd ha Bool.false_ne_true

/-- From the poll with which a call begins to wait until it has a result, the buffer holds what it
should. -/
theorem Waits.listening (h : w.Waits id) (hw : w.Orderly) (mid : List Event)
    (hkept : .abandon id ∉ mid) (hn : (w.run (.poll id :: mid)).callResult? id = none) :
    Listening w.wires.buffer.bytes w.wires.buffer.limit
      (w.wires.now + w.timing.responseTimeout) id (w.run (.poll id :: mid))
      (w.log (.poll id :: mid)) := by
  obtain ⟨line, before, after, ht, hb, ha, hpoll⟩ := h.poll Stage.inTurn_of_listens
  have hself := hpoll.self ht
  obtain ⟨hbuffer, hdeadline⟩ := hpoll.waited hb ha
  have hfirst : Listening w.wires.buffer.bytes w.wires.buffer.limit
      (w.wires.now + w.timing.responseTimeout) id (w.apply (.poll id)) (w.deeds (.poll id)) := by
    refine ⟨by rw [hbuffer], fun {l s} hs => ?_, fun {l s d} hs hd => ?_,
      fun _ => ⟨[], ?_, Text.isBlankBytes_nil⟩⟩
    · obtain ⟨-, rfl⟩ := call_inj hself hs
      exact ha
    · obtain ⟨-, rfl⟩ := call_inj hself hs
      exact hdeadline d hd
    · rw [hpoll.captured, hbuffer, List.append_nil, List.nil_append]
  have hnow : (w.apply (.poll id)).Orderly := hw.step (apply_cases w _)
  rcases hnow.span hself (Stage.inTurn_of_listens _ ha) hfirst
    (fun _ hl ht _ hs hself hturn => hl.poll ht hs hself hturn)
    (fun _ hl ht _ hcalm hself => hl.calm ht hcalm hself) mid hkept with ⟨result, hr⟩ | ⟨-, hl⟩
  · rw [show (w.run (.poll id :: mid)).callResult? id = some result from hr] at hn
    exact absurd hn (Option.some_ne_none result)
  · exact hl

/-! ## When a grace begins -/

/-- A grace begins when a call that had none finds something in the buffer, and it ends one grace
after that moment. -/
theorem CallStep.noticed {graceAt : Nat} (h : CallStep w id line before after w' deeds)
    (hb : before.graceEnd ≠ some graceAt) (ha : after.graceEnd = some graceAt) :
    before.graceEnd = none ∧ before.listens = true ∧ w.wires.buffer.bytes ≠ [] ∧
      graceAt = w.wires.now + w.timing.stderrGrace := by
  cases h with
  | arm quiet permit filled =>
    refine ⟨rfl, rfl, ?_, (Option.some.inj ha).symm⟩
    intro hempty
    rw [Buffer.isEmpty, hempty] at filled
    exact absurd filled (by decide)
  | skip | fill => exact absurd ha hb
  | _ => exact absurd ha.symm (Option.some_ne_none graceAt)

/-- The grace of a call that waits began at a poll since it began to wait. -/
theorem Waits.noticed (h : w.Waits id) (hw : w.Orderly) (mid : List Event) {stage : Stage}
    {graceAt : Nat} (ht : (w.run (.poll id :: mid)).task? id = some (.call line stage))
    (hg : stage.graceEnd = some graceAt) :
    ∃ more rest, mid = more ++ .poll id :: rest ∧ (w.run (.poll id :: more)).Notices id ∧
      graceAt = (w.run (.poll id :: more)).wires.now + w.timing.stderrGrace := by
  obtain ⟨l, first, -, hfirst, hdeaf, -⟩ := h
  have hturn : ∀ s : Stage, decide (s.graceEnd = some graceAt) = true → s.inTurn = true :=
    fun s hs => Stage.inTurn_of_listens s (Stage.listens_of_graceEnd (of_decide_eq_true hs))
  have hstart : ∀ {l s}, w.task? id = some (.call l s) →
      decide (s.graceEnd = some graceAt) = false := by
    intro l s hs
    refine decide_eq_false fun hgrace => ?_
    rw [(call_inj hfirst hs).2, Stage.listens_of_graceEnd hgrace] at hdeaf
    exact Bool.false_ne_true hdeaf.symm
  obtain ⟨past, rest, he, hin, -⟩ := hw.reaches hstart hturn _ ht (decide_eq_true hg)
  obtain ⟨l', before, after, hbefore, hb, ha, hpoll⟩ := hin.poll hturn
  obtain ⟨hnone, hlistens, -, hat⟩ := hpoll.noticed (of_decide_eq_false hb) (of_decide_eq_true ha)
  cases past with
  | nil =>
    -- with its first poll the call only begins to wait
    rw [(call_inj hfirst hbefore).2, hlistens] at hdeaf
    exact absurd hdeaf.symm Bool.false_ne_true
  | cons e more =>
    obtain ⟨rfl, rfl⟩ := List.cons.inj he
    rw [hw.timing_run] at hat
    refine ⟨more, rest, rfl, ⟨l', before, after, hbefore, ?_, hpoll.self hbefore, ?_⟩, hat⟩
    · show before.graceEnd.isSome = false
      rw [hnone]
      rfl
    · show after.graceEnd.isSome = true
      rw [of_decide_eq_true ha]
      rfl

/-! ## Calls that get no line -/

/-- When a call that gets no line reports the error output, and what it reports: it begins to wait
with a poll in the state `began`, and gets its result behind `mid`. -/
structure FallsBack (began : World) (mid : List Event) (id : Nat) (result : Result) : Prop where
  /-- No response is reported exactly if error output was overtaken or forgotten. -/
  noResponse : result = .error .noResponse ↔
    (began.run (.poll id :: mid)).Overtaken id ∨ (began.run (.poll id :: mid)).Forgotten id
  /-- So only then can there be error output in spite of which no response is reported. -/
  order : (result = .error .noResponse → IsBlankBytes (began.capturedSince [] mid id)) ↔
    IsBlankBytes (began.capturedSince [] mid id) ∨
      ¬ ((began.run (.poll id :: mid)).Overtaken id ∨ (began.run (.poll id :: mid)).Forgotten id)
  /-- It is overtaken if it was noticed so late that its grace ends behind the deadline, or if the
  reader was about to store its wake-up. -/
  overtaken : (began.run (.poll id :: mid)).Overtaken id →
    (∃ more rest, mid = more ++ .poll id :: rest ∧ (began.run (.poll id :: more)).Notices id ∧
      began.wires.now + began.timing.responseTimeout <
        (began.run (.poll id :: more)).wires.now + began.timing.stderrGrace) ∨
    (began.run (.poll id :: mid)).wires.capture = .owing
  /-- It is forgotten if there were only blanks, or too much of it. -/
  forgotten : (began.run (.poll id :: mid)).Forgotten id →
    IsBlankBytes (began.wires.buffer.bytes ++ began.capturedSince [] mid id) ∨
      began.wires.buffer.limit <
        (began.wires.buffer.bytes ++ began.capturedSince [] mid id).length
  /-- Error output is reported as the buffer keeps it: unless there was too much, all of it but for
  blanks in front. -/
  text : ∀ text, result = .error (.kernelStderr text) →
    text = (began.run (.poll id :: mid)).wires.buffer.text ∧
    ((began.wires.buffer.bytes ++ began.capturedSince [] mid id).length ≤
        began.wires.buffer.limit →
      ∃ gone, began.wires.buffer.bytes ++ began.capturedSince [] mid id =
        gone ++ (began.run (.poll id :: mid)).wires.buffer.bytes ∧ IsBlankBytes gone)

/-- A call without a grace that ends for want of a reply had no wake-up stored; otherwise it would
have looked first. -/
theorem CallStep.unwoken {deadline : Nat} {result : Result}
    (h : CallStep w id line (.awaiting deadline none) (.finished result) w' deeds)
    (hr : result = .error .noResponse ∨ ∃ text, result = .error (.kernelStderr text)) :
    w.wires.buffer.permit = false := by
  rcases h.unanswered hr with ⟨d, g, hb, -, -, -, hp⟩ | ⟨d, g, hb, -⟩ | ⟨t, hb, -⟩
  · exact hp (Stage.awaiting.inj hb).2.symm
  · exact absurd (Stage.awaiting.inj hb).2.symm (Option.some_ne_none g)
  · exact Stage.noConfusion hb

/-- Overtaken error output was noticed too late, or its wake-up is about to be stored. -/
theorem Waits.overtaken (h : w.Waits id) (hw : w.Orderly) (mid : List Event)
    (hl : Listening kept limit (w.wires.now + w.timing.responseTimeout) id
      (w.run (.poll id :: mid)) log)
    (hk : (w.run (.poll id :: mid)).Wakeful)
    (hp : ∀ {line deadline}, (w.run (.poll id :: mid)).task? id =
      some (.call line (.awaiting deadline none)) →
      (w.run (.poll id :: mid)).wires.buffer.permit = false)
    (ho : (w.run (.poll id :: mid)).Overtaken id) :
    (∃ more rest, mid = more ++ .poll id :: rest ∧ (w.run (.poll id :: more)).Notices id ∧
      w.wires.now + w.timing.responseTimeout <
        (w.run (.poll id :: more)).wires.now + w.timing.stderrGrace) ∨
    (w.run (.poll id :: mid)).wires.capture = .owing := by
  obtain ⟨line, deadline, graceEnd, ht, hover, hinked, hrunning⟩ := ho
  cases graceEnd with
  | some graceAt =>
    obtain ⟨more, rest, hmid, hnotices, hat⟩ := h.noticed hw mid ht rfl
    have hdeadline := hl.deadline ht rfl
    have hlate := hrunning graceAt rfl
    exact Or.inl ⟨more, rest, hmid, hnotices, by omega⟩
  | none =>
    rcases hk ht rfl (hinked rfl) with hpermit | howing
    · rw [hp ht] at hpermit
      exact absurd hpermit Bool.false_ne_true
    · exact Or.inr howing

/-- Error output is forgotten only if there were only blanks, or too much of it. -/
theorem Listening.forgotten (hl : Listening kept limit due id w log) (h : w.Forgotten id) :
    IsBlankBytes (kept ++ Log.captured log) ∨ limit < (kept ++ Log.captured log).length := by
  have hblank : IsBlankBytes w.wires.buffer.bytes := by
    rcases h with ⟨-, -, -, hb⟩ | ⟨-, -, -, hb⟩
    · exact hb
    · rw [hb]
      exact Text.isBlankBytes_nil
  by_cases hlen : (kept ++ Log.captured log).length ≤ limit
  · obtain ⟨gone, hsplit, hgone⟩ := hl.gone hlen
    rw [hsplit]
    exact Or.inl (hgone.append hblank)
  · exact Or.inr (Nat.lt_of_not_le hlen)

/-- The end of a call for want of a reply, in its two cases: the deadline has passed, or the grace
has. What the buffer holds at that moment decides what is said. -/
theorem Ends.fallsBack {past mid : List Event} {e : Event} {result : Result}
    (h : Ends w past mid e id result) (hwaits : (w.run past).Waits id) (hw : w.Orderly)
    (hk : w.Wakeful)
    (hr : result = .error .noResponse ∨ ∃ text, result = .error (.kernelStderr text)) :
    FallsBack (w.run past) mid id result := by
  -- either the call has ended before it waited, or one of its own polls ends it
  rcases h.poll with rfl | ⟨line, before, w', deeds, ht, hs⟩
  · exact absurd hr (by simp)
  have hwait := h.waits
  have hwakes : ((w.run past).run (.poll id :: mid)).Wakeful := by
    rw [← run_append]
    exact hk.run hw _
  rw [run_append] at hwait ht hs
  have hpast := hw.run past
  have hl := hwaits.listening hpast mid h.kept hwait
  have hiff := hs.noResponse_iff ht hr
  refine ⟨hiff, ?_, hwaits.overtaken hpast mid hl hwakes fun {l d} ht' => ?_, hl.forgotten, ?_⟩
  · rw [hiff]
    exact imp_iff_or_not
  · obtain ⟨rfl, rfl⟩ := call_inj ht ht'
    exact hs.unwoken hr
  · rintro text rfl
    exact ⟨hs.stderr, hl.gone⟩

/-- In whatever run, with whatever limits, every call that reports error output, or that there was
no response, began to wait at some poll and got its result at some later event; and the two say what
it reports: no response in spite of error output exactly if that was overtaken or forgotten. -/
theorem fallback_iff (timing : Timing) (wires : Wires) (events : List Event) (id : Nat)
    (result : Result)
    (hr : ((World.new timing wires).run events).callResult? id = some result)
    (hnone : result = .error .noResponse ∨ ∃ text, result = .error (.kernelStderr text)) :
    ∃ past mid e later, events = past ++ .poll id :: mid ++ e :: later ∧
      ((World.new timing wires).run past).Waits id ∧
      Ends (World.new timing wires) past mid e id result ∧
      FallsBack ((World.new timing wires).run past) mid id result := by
  have hw := Orderly.new timing wires
  have hclosed : result ≠ .error .closed := by
    rintro rfl
    exact absurd hnone (by simp)
  obtain ⟨past, mid, e, later, he, hwaits, hends⟩ :=
    hw.ends rfl Stage.inTurn_of_listens hclosed (fun hs => hs.listened hnone) events hr
  exact ⟨past, mid, e, later, he, hwaits, hends,
    hends.fallsBack hwaits hw (Wakeful.new timing wires) hnone⟩

/-- A call whose error output comes early enough: it is captured before the grace ends, and so the
text is told in place of `noResponse`. -/
theorem fallback_in_time :
    ((World.new ⟨1, 2, 1, 1, 9⟩ (.new 0 9)).run
      [.call 0 [10], .poll 0, .poll 0, .poll 0, .kernelReports [97], .capture, .capture, .poll 0,
        .pass 1, .poll 0]).callResult? 0 = some (.error (.kernelStderr "a")) ∧
    ∃ past mid e, Ends (World.new ⟨1, 2, 1, 1, 9⟩ (.new 0 9)) past mid e 0
      (.error (.kernelStderr "a")) := by
  have hr : ((World.new ⟨1, 2, 1, 1, 9⟩ (.new 0 9)).run
      [.call 0 [10], .poll 0, .poll 0, .poll 0, .kernelReports [97], .capture, .capture, .poll 0,
        .pass 1, .poll 0]).callResult? 0 = some (.error (.kernelStderr "a")) := by decide +kernel
  obtain ⟨past, mid, e, -, -, -, hends, -⟩ :=
    fallback_iff _ _ _ 0 (.error (.kernelStderr "a")) hr (Or.inr ⟨"a", rfl⟩)
  exact ⟨hr, past, mid, e, hends⟩

/-! ## Error output that is overtaken -/

/-- While a call waits, the kernel reports an error later than a grace before the deadline. -/
def lateErrors : List Event :=
  [.pass 1, .kernelReports [97], .capture, .capture, .poll 0, .pass 1]

/-- Under limits that make sense together, the deadline passes before the grace has ended, and the
call reports that there was no response, though the kernel reported an error while it waited. -/
theorem errors_overtaken :
    Timing.validate ⟨1, 2, 2, 1, 9⟩ = .ok () ∧
    ((World.new ⟨1, 2, 2, 1, 9⟩ (.new 0 9)).run [.call 0 [10], .poll 0, .poll 0]).Waits 0 ∧
    Ends (World.new ⟨1, 2, 2, 1, 9⟩ (.new 0 9)) [.call 0 [10], .poll 0, .poll 0] lateErrors
      (.poll 0) 0 (.error .noResponse) ∧
    ¬ IsBlankBytes ((World.new ⟨1, 2, 2, 1, 9⟩ (.new 0 9)).capturedSince
      [.call 0 [10], .poll 0, .poll 0] lateErrors 0) := by
  have hwaits : ((World.new ⟨1, 2, 2, 1, 9⟩ (.new 0 9)).run
      [.call 0 [10], .poll 0, .poll 0]).Waits 0 :=
    ⟨[10], .writing [], .awaiting 2 none, rfl, rfl, rfl, rfl⟩
  exact ⟨rfl, hwaits, ⟨by simp [lateErrors], by decide +kernel, by decide +kernel⟩,
    by decide +kernel⟩

end World
end KernelLink.Session
