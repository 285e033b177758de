import KernelLink.Proofs.Session.Captured
import KernelLink.Proofs.Session.Span
/-!
# Whose error output a call reports

A call that fails with error output reports what the buffer keeps. The buffer is emptied when a call
begins to write, so what such a call reports was captured during its turn. A call that waits for a
late reply has not begun; if the kernel hangs up on it, it reports whatever the buffer kept from the
time before its turn as well.

Main definition:
* `World.Captures`: what the buffer holds during a turn.

Main results:
* `World.Captures.own_iff`: when all that is kept was captured during the turn.
* `World.stderr_own_iff`: the same of every call that fails with error output.
* `World.stale_errors_blamed`: a run in which it was not.
-/
namespace KernelLink.Session.World

open Stderr (Buffer)

variable {w w' : World} {id : Nat} {line : List UInt8} {before after : Stage} {deeds : List Deed}
  {log : Log}

/-! ## During a turn -/

/-- What the buffer holds during the turn of a call that found `old` in it: once the call has begun,
bytes captured since then; before that, the newest of all. -/
structure Captures (old : List UInt8) (limit : Nat) (id : Nat) (w : World) (log : Log) : Prop where
  /-- The limit stays. -/
  bound : w.wires.buffer.limit = limit
  /-- Of a call that has begun. -/
  own : .began id ∈ log → w.wires.buffer.bytes <:+ Log.captured log
  /-- Of a call that has not begun. -/
  stale : .began id ∉ log → w.wires.buffer.bytes = Buffer.newest limit (old ++ Log.captured log)
  /-- A call that writes or waits has begun. -/
  began : ∀ {line stage}, w.task? id = some (.call line stage) → stage.sends = true →
    .began id ∈ log

/-- All that is kept was captured during the turn if the call has begun, if there was nothing
before, or if so much was captured that nothing older is left. -/
theorem Captures.own_iff {old : List UInt8} {limit : Nat} (h : Captures old limit id w log)
    (hf : old.length ≤ limit) :
    w.wires.buffer.bytes <:+ Log.captured log ↔
      .began id ∈ log ∨ old = [] ∨ limit ≤ (Log.captured log).length := by
  by_cases hb : .began id ∈ log
  · exact ⟨fun _ => Or.inl hb, fun _ => h.own hb⟩
  · rw [h.stale hb, Buffer.newest_suffix_iff _ hf]
    exact ⟨Or.inr, fun hc => hc.resolve_left hb⟩

/-- A call that takes its turn finds in the buffer what was there, or has cleared it if it begins
its request at once. -/
theorem Captures.first (hf : w.wires.buffer.Fits)
    (h : CallStep w id line .queued after w' deeds) (ht : w'.task? id = some (.call line after))
    (hs : after.inTurn = true) :
    Captures w.wires.buffer.bytes w.wires.buffer.limit id w' deeds := by
  obtain ⟨hl, hcase⟩ := h.buffer
  have hstage : ∀ {l s}, w'.task? id = some (.call l s) → s = after :=
    fun ht' => (call_inj ht' ht).2
  rcases hcase with ⟨hb, hnot, hsends⟩ | ⟨hb, hcase⟩
  · refine ⟨hl, fun hm => absurd hm hnot, fun _ => ?_, fun ht' hs' => ?_⟩
    · rw [hb, h.captured, List.append_nil, Buffer.newest_of_le hf]
    · rw [hstage ht'] at hs'
      exact absurd (hsends hs') Bool.false_ne_true
  · have hbegan : .began id ∈ deeds := by
      rcases hcase with hm | hm | hm
      · exact hm
      · exact absurd hm Bool.false_ne_true
      · rw [hs] at hm
        exact absurd hm.symm Bool.false_ne_true
    refine ⟨hl, fun _ => ?_, fun hm => absurd hbegan hm, fun _ _ => hbegan⟩
    rw [hb]
    exact List.nil_suffix

/-- A poll after which the call is still in its turn captures nothing; if it begins the request the
buffer is cleared, and from then on it holds only what is new. -/
theorem Captures.poll {old : List UInt8} {limit : Nat} (hc : Captures old limit id w log)
    (ht : w.task? id = some (.call line before))
    (h : CallStep w id line before after w' deeds) (hself : w'.task? id = some (.call line after))
    (hs : after.inTurn = true) : Captures old limit id w' (log ++ deeds) := by
  have hcap : Log.captured (log ++ deeds) = Log.captured log := by
    rw [Log.captured_append, h.captured, List.append_nil]
  have hstage : ∀ {l s}, w'.task? id = some (.call l s) → s = after :=
    fun ht' => (call_inj ht' hself).2
  -- the buffer is left alone, or it is emptied by a call that has begun
  obtain ⟨hl, hcase⟩ := h.buffer
  rcases hcase with ⟨hb, hnot, hsends⟩ | ⟨hb, hcase⟩
  · have hmem : .began id ∈ log ++ deeds ↔ .began id ∈ log := by
      rw [List.mem_append]
      exact ⟨fun hm => hm.resolve_right hnot, Or.inl⟩
    refine ⟨hl.trans hc.bound, fun hm => ?_, fun hm => ?_, fun ht' hs' => ?_⟩
    · rw [hb, hcap]
      exact hc.own (hmem.mp hm)
    · rw [hb, hcap]
      exact hc.stale fun hm' => hm (hmem.mpr hm')
    · rw [hstage ht'] at hs'
      exact hmem.mpr (hc.began ht (hsends hs'))
  · have hbegan : .began id ∈ log ++ deeds := by
      rw [List.mem_append]
      rcases hcase with hm | hm | hm
      · exact Or.inr hm
      · exact Or.inl (hc.began ht hm)
      · rw [hs] at hm
        exact absurd hm.symm Bool.false_ne_true
    refine ⟨hl.trans hc.bound, fun _ => ?_, fun hm => absurd hbegan hm, fun _ _ => hbegan⟩
    rw [hb]
    exact List.nil_suffix

/-- What the others do adds to the buffer only what is captured now. -/
theorem Captures.calm {old : List UInt8} {limit : Nat} {e : Event} {stage : Stage}
    (hc : Captures old limit id w log) (ht : w.task? id = some (.call line stage))
    (h : Calm w e w' deeds) (hself : w'.task? id = some (.call line stage)) :
    Captures old limit id w' (log ++ deeds) := by
  have hmem : .began id ∈ log ++ deeds ↔ .began id ∈ log := by
    rw [List.mem_append]
    exact ⟨fun hm => hm.resolve_right fun hd => Bool.false_ne_true (h.log _ hd).symm, Or.inl⟩
  have hbegan : ∀ {l s}, w'.task? id = some (.call l s) → s.sends = true →
      .began id ∈ log ++ deeds := by
    intro l s ht' hs'
    replace ht' := call_inj hself ht'
    rw [← ht'.2] at hs'
    exact hmem.mpr (hc.began ht hs')
  -- nothing is captured, or it is added and the oldest bytes make room for it
  obtain ⟨hl, ⟨hb, hcap⟩ | hb⟩ := h.wires.buffer
  · refine ⟨hl.trans hc.bound, fun hm => ?_, fun hm => ?_, hbegan⟩
    · rw [hb, Log.captured_append, hcap, List.append_nil]
      exact hc.own (hmem.mp hm)
    · rw [hb, Log.captured_append, hcap, List.append_nil]
      exact hc.stale fun hm' => hm (hmem.mpr hm')
  · refine ⟨hl.trans hc.bound, fun hm => ?_, fun hm => ?_, hbegan⟩
    · rw [hb, Log.captured_append]
      obtain ⟨front, hfront⟩ := hc.own (hmem.mp hm)
      refine (Buffer.newest_suffix _ _).trans ⟨front, ?_⟩
      rw [← List.append_assoc, hfront]
    · rw [hb, Log.captured_append, hc.stale fun hm' => hm (hmem.mpr hm'), hc.bound,
        Buffer.newest_append, List.append_assoc]

/-- Until a call has a result, the buffer holds what it should. -/
theorem Enters.captures (h : w.Enters id) (hw : w.Orderly) (hf : w.wires.buffer.Fits)
    (mid : List Event) (hkept : .abandon id ∉ mid)
    (hn : (w.run (.poll id :: mid)).callResult? id = none) :
    Captures w.wires.buffer.bytes w.wires.buffer.limit id (w.run (.poll id :: mid))
      (w.log (.poll id :: mid)) := by
  obtain ⟨line, after, ht, hs⟩ := h.poll hw
  rcases hs.goes with hturn | ⟨result, rfl⟩
  · have hfirst := Captures.first hf hs (hs.self ht) hturn
    have hnow : (w.apply (.poll id)).Orderly := hw.step (apply_cases w _)
    rcases hnow.span (hs.self ht) hturn hfirst
      (fun _ hc ht _ hs hself hturn => hc.poll ht hs hself hturn)
      (fun _ hc ht _ hcalm hself => hc.calm ht hcalm hself) mid hkept with ⟨result, hr⟩ | ⟨-, hc⟩
    · rw [show (w.run (.poll id :: mid)).callResult? id = some result from hr] at hn
      exact absurd hn (Option.some_ne_none result)
    · exact hc
  · -- a call that is refused has its result at once
    have hr : (w.apply (.poll id)).callResult? id = some result :=
      callResult?_eq_some.mpr ⟨line, hs.self ht⟩
    have hstays := callResult?_run hr mid hkept
    rw [show (w.run (.poll id :: mid)).callResult? id = some result from hstays] at hn
    exact absurd hn (Option.some_ne_none result)

/-! ## Calls that fail with error output -/

/-- What a call that fails with error output reports, and when all of it is its own. -/
theorem Ends.own_iff {past mid : List Event} {e : Event} {text : String}
    (h : Ends w past mid e id (.error (.kernelStderr text))) (hin : (w.run past).Enters id)
    (hw : w.Orderly) (hf : w.wires.buffer.Fits) :
    text = (w.run (past ++ .poll id :: mid)).wires.buffer.text ∧
      ((w.run (past ++ .poll id :: mid)).wires.buffer.bytes <:+ w.capturedSince past mid id ↔
        .began id ∈ (w.run past).log (.poll id :: mid) ∨ (w.run past).wires.buffer.bytes = [] ∨
          (w.run past).wires.buffer.limit ≤ (w.capturedSince past mid id).length) := by
  rcases h.poll with hc | ⟨line, before, w', deeds, ht, hs⟩
  · exact absurd hc (by simp)
  refine ⟨hs.stderr, ?_⟩
  have hwaits := h.waits
  rw [run_append] at hwaits ⊢
  have hpast := hw.fits_run hf past
  exact (hin.captures (hw.run past) hpast mid h.kept hwaits).own_iff hpast

/-- In whatever run, every call that fails with error output got its turn at some poll and failed at
some later event, with the text of what the buffer kept; and all that the buffer kept was captured
between the two if and only if the call had begun to write, or the buffer was empty when its turn
began, or so much was captured since that nothing older was left. -/
theorem stderr_own_iff (timing : Timing) (wires : Wires) (hf : wires.buffer.Fits)
    (events : List Event) (id : Nat) (text : String)
    (hr : ((World.new timing wires).run events).callResult? id =
      some (.error (.kernelStderr text))) :
    ∃ past mid e later, events = past ++ .poll id :: mid ++ e :: later ∧
      ((World.new timing wires).run past).Enters id ∧
      Ends (World.new timing wires) past mid e id (.error (.kernelStderr text)) ∧
      text = ((World.new timing wires).run (past ++ .poll id :: mid)).wires.buffer.text ∧
      (((World.new timing wires).run (past ++ .poll id :: mid)).wires.buffer.bytes <:+
          (World.new timing wires).capturedSince past mid id ↔
        .began id ∈ ((World.new timing wires).run past).log (.poll id :: mid) ∨
        ((World.new timing wires).run past).wires.buffer.bytes = [] ∨
        ((World.new timing wires).run past).wires.buffer.limit ≤
          ((World.new timing wires).capturedSince past mid id).length) := by
  have hw := Orderly.new timing wires
  obtain ⟨past, mid, e, later, he, hin, hends⟩ :=
    hw.ends rfl (fun _ hs => hs) (by simp)
      (fun hs => Stage.inTurn_of_listens _ (hs.listened (Or.inr ⟨text, rfl⟩))) events hr
  exact ⟨past, mid, e, later, he, hin.enters, hends, hends.own_iff hin.enters hw hf⟩

/-- A call whose error output is its own: the first one, whose turn begins with an empty buffer. -/
theorem stderr_own_first :
    (Wires.new 0 9).buffer.Fits ∧
    ((World.new ⟨1, 1, 0, 1, 9⟩ (.new 0 9)).run
      [.call 0 [10], .poll 0, .poll 0, .poll 0, .kernelReports [97], .capture, .capture, .poll 0,
        .poll 0]).callResult? 0 = some (.error (.kernelStderr "a")) ∧
    ∃ past mid e, ((World.new ⟨1, 1, 0, 1, 9⟩ (.new 0 9)).run past).Enters 0 ∧
      Ends (World.new ⟨1, 1, 0, 1, 9⟩ (.new 0 9)) past mid e 0 (.error (.kernelStderr "a")) := by
  have hr : ((World.new ⟨1, 1, 0, 1, 9⟩ (.new 0 9)).run
      [.call 0 [10], .poll 0, .poll 0, .poll 0, .kernelReports [97], .capture, .capture, .poll 0,
        .poll 0]).callResult? 0 = some (.error (.kernelStderr "a")) := by decide +kernel
  obtain ⟨past, mid, e, -, -, hin, hends, -⟩ := stderr_own_iff _ _ (Buffer.fits_new 9) _ 0 "a" hr
  exact ⟨Buffer.fits_new 9, hr, past, mid, e, hin, hends⟩

/-! ## Error output of another time -/

/-- The first call fails with error output. Before the turn of the second the kernel says something
more and closes its output. -/
def staleRun : List Event :=
  [.call 0 [10], .call 1 [10], .poll 0, .poll 0, .poll 0, .kernelReports [97], .capture, .capture,
    .poll 0, .poll 0, .kernelReports [98], .capture, .capture, .kernelClosesOutput]

/-- The second call waits for the late reply, finds that the kernel is gone, and fails with what was
captured before its turn, though nothing was captured since. -/
theorem stale_errors_blamed :
    ((World.new ⟨1, 1, 0, 1, 9⟩ (.new 0 9)).run staleRun).Enters 1 ∧
    Ends (World.new ⟨1, 1, 0, 1, 9⟩ (.new 0 9)) staleRun [.poll 1] (.poll 1) 1
      (.error (.kernelStderr "b")) ∧
    (World.new ⟨1, 1, 0, 1, 9⟩ (.new 0 9)).capturedSince staleRun [.poll 1] 1 = [] ∧
    ¬ ((World.new ⟨1, 1, 0, 1, 9⟩ (.new 0 9)).run
        (staleRun ++ .poll 1 :: [.poll 1])).wires.buffer.bytes <:+
      (World.new ⟨1, 1, 0, 1, 9⟩ (.new 0 9)).capturedSince staleRun [.poll 1] 1 := by
  have henters : .entered 1 ∈
      ((World.new ⟨1, 1, 0, 1, 9⟩ (.new 0 9)).run staleRun).deeds (.poll 1) := by decide +kernel
  exact ⟨henters, ⟨by simp, by decide +kernel, by decide +kernel⟩, by decide +kernel,
    by decide +kernel⟩

end KernelLink.Session.World
