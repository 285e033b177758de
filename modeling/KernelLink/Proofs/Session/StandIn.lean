import KernelLink.Proofs.Mock.Replies
import KernelLink.Proofs.Session.Pairing
import KernelLink.Proofs.Session.Sent
/-!
# A link to the stand-in kernel

The stand-in kernel writes, sooner or later, what its program puts out for the complete lines that
it has received. So it answers each request at most once and in order, and more is known of what it
answers: line `i` is what the program puts out for request `i`, after all requests before it.

Main definitions:
* `World.heardLines`, `World.replyLines`: what the kernel was told, and what it says to that.
* `World.StandIn`: the kernel on the other side is the stand-in kernel.
* `World.asked`: the requests that have begun, as the kernel reads them.

Main results:
* `World.StandIn.answering`: it answers each request at most once and in order.
* `World.StandIn.append`, `World.StandIn.say`: how a run with it can go on.
* `World.StandIn.next`, `World.StandIn.taken`: which line answers which request, and how.
-/
namespace KernelLink.Session.World

open Host (Delivery IsLine)
open Mock (Store Replies)

variable {w w' : World} {id : Nat} {line : List UInt8} {before after : Stage} {deeds : List Deed}
  {log : Log} {events : List Event} {there : Bool} {timing : Timing} {wires : Wires}

/-! ## What the kernel says -/

/-- The complete lines that the kernel has received. -/
def heardLines (w : World) (events : List Event) : List Delivery :=
  (Host.splitLines (Log.heard (w.log events))).1.map Host.lineOf

/-- What the program of the stand-in kernel puts out for them, line by line. -/
def replyLines (w : World) (events : List Event) (there : Bool) : List (List UInt8) :=
  (Mock.outs (Mock.onLines there .empty (w.heardLines events))).map Text.Utf8.bytes

/-- Calls send requests and nobody abandons them. The kernel on the other side is the stand-in
kernel: it begins with nothing, writes what its program puts out for the complete lines that it has
received, though it may be late, and stops only between lines. Of its error output, of the clock and
of closings nothing is said. -/
structure StandIn (w : World) (events : List Event) (there : Bool) : Prop where
  /-- Calls send requests. -/
  requests : ∀ id line, .call id line ∈ events → ∃ r : Request, line = Text.Utf8.bytes r.line
  /-- Calls run to completion. -/
  kept : ∀ past id, past ++ [.abandon id] <+: events →
    ∀ line stage, (w.run past).task? id ≠ some (.call line stage)
  /-- Nobody has written anything yet. -/
  fresh : w.wires.input.bytes = [] ∧ w.wires.output.held ++ w.wires.output.bytes = [] ∧
    w.wires.output.writing = true
  /-- When it writes, it goes on with what its program puts out. -/
  speaks : ∀ past bytes, past ++ [.kernelWrites bytes] <+: events →
    Log.spoken (w.log (past ++ [.kernelWrites bytes])) <+:
      Text.Utf8.bytes (Mock.Transcript.of (Mock.onLines there .empty (w.heardLines past))).output
  /-- It stops only between lines. -/
  closes : ∀ past, past ++ [.kernelClosesOutput] <+: events →
    (Host.splitLines (Log.spoken (w.log past))).2 = []

theorem StandIn.of_prefix {past : List Event} (h : w.StandIn events there) (hp : past <+: events) :
    w.StandIn past there where
  requests id line hm := h.requests id line (hp.subset hm)
  kept more id hm := h.kept more id (hm.trans hp)
  fresh := h.fresh
  speaks more bytes hm := h.speaks more bytes (hm.trans hp)
  closes more hm := h.closes more (hm.trans hp)

theorem StandIn.new (timing : Timing) (now limit : Nat) (there : Bool) :
    (World.new timing (.new now limit)).StandIn [] there where
  requests id line hm := absurd hm List.not_mem_nil
  kept past id hm := absurd (List.prefix_nil.mp hm) (by simp)
  fresh := ⟨rfl, rfl, rfl⟩
  speaks past bytes hm := absurd (List.prefix_nil.mp hm) (by simp)
  closes past hm := absurd (List.prefix_nil.mp hm) (by simp)

/-- A front of two runs that ends with an event is a front of the first, or that event is one of the
second. -/
theorem concat_prefix_cases {α : Type} {past events more : List α} {e : α}
    (h : past ++ [e] <+: events ++ more) : past ++ [e] <+: events ∨ e ∈ more := by
  rcases List.prefix_or_prefix_of_prefix h (List.prefix_append events more) with hp | ⟨m, hm⟩
  · exact Or.inl hp
  · rcases List.eq_nil_or_concat m with rfl | ⟨m', e', rfl⟩
    · rw [List.append_nil] at hm
      exact Or.inl (hm ▸ List.prefix_rfl)
    · rw [List.concat_eq_append, ← List.append_assoc] at hm
      obtain ⟨rfl, he⟩ := List.append_inj' hm rfl
      obtain rfl := List.singleton_inj.mp he
      rw [List.append_assoc, List.prefix_append_right_inj] at h
      exact Or.inr (h.subset (List.mem_append_right _ List.mem_cons_self))

/-- While the kernel says nothing and nobody goes away, it stays the stand-in kernel. -/
theorem StandIn.append (h : w.StandIn events there) {more : List Event}
    (hc : ∀ id line, .call id line ∈ more → ∃ r : Request, line = Text.Utf8.bytes r.line)
    (hk : ∀ id, .abandon id ∉ more) (hw : ∀ bytes, .kernelWrites bytes ∉ more)
    (he : .kernelClosesOutput ∉ more) : w.StandIn (events ++ more) there where
  requests id line hm := (List.mem_append.mp hm).elim (h.requests id line) (hc id line)
  kept past id hp := h.kept past id ((concat_prefix_cases hp).resolve_right (hk id))
  fresh := h.fresh
  speaks past bytes hp := h.speaks past bytes ((concat_prefix_cases hp).resolve_right (hw bytes))
  closes past hp := h.closes past ((concat_prefix_cases hp).resolve_right he)

/-! ## Who writes to the kernel's output -/

/-- A poll lets the kernel say nothing: it takes lines and writes requests. -/
theorem spoken_pollDeeds : Log.spoken (w.pollDeeds w' id) = [] := by
  unfold pollDeeds
  split
  · next l before l' after _ _ =>
    have htaken : Log.spoken (w.takenBy id before) = [] := by
      unfold takenBy
      split
      · split <;> rfl
      · rfl
    have hshown : Log.spoken (before.deeds id after) = [] := by
      cases before <;> cases after <;> rfl
    have hwritten : Log.spoken (w.writtenBy w' id) = [] := by
      unfold writtenBy
      split <;> rfl
    rw [Log.spoken_append, Log.spoken_append, htaken, hshown, hwritten]
    rfl
  · rfl

/-- The kernel says nothing unless it writes, so only that event has to be looked at. -/
theorem spoken_deeds {e : Event} (he : ∀ bytes, e ≠ .kernelWrites bytes) :
    Log.spoken (w.deeds e) = [] := by
  cases e with
  | kernelWrites bytes => exact absurd rfl (he bytes)
  | capture =>
    unfold World.deeds
    dsimp only
    split <;> rfl
  | poll id =>
    show Log.spoken (((w.poll id).map fun w' => w.pollDeeds w' id).getD []) = []
    cases w.poll id with
    | none => rfl
    | some w' => exact spoken_pollDeeds
  | _ => rfl

theorem writing_poll (hp : w.poll id = some w') :
    w'.wires.output.writing = w.wires.output.writing := by
  cases poll_polled hp with
  | call task step => exact step.writing
  | close task step =>
    -- a closing touches the input at most
    cases step <;> rfl

/-- The kernel's output ends only when the kernel closes it; the other events add to it or take from
it. -/
theorem writing_apply {e : Event} (he : e ≠ .kernelClosesOutput) :
    (w.apply e).wires.output.writing = w.wires.output.writing := by
  cases e with
  | kernelClosesOutput => exact absurd rfl he
  | kernelWrites bytes | kernelReports bytes =>
    unfold apply onWires
    dsimp only
    split <;> rfl
  | capture =>
    show (w.wires.captureStep.getD w.wires).output.writing = _
    rw [(captureStep_leaves w.wires).2.2]
  | poll id =>
    -- a call reads the output but has no hold of its writing end
    show ((w.poll id).getD w).wires.output.writing = _
    cases hp : w.poll id with
    | none => rfl
    | some w' => exact writing_poll hp
  | call | close | giveUp | abandon | answer => rw [wires_apply rfl]
  | _ => rfl

/-! ## What the kernel says -/

/-- What it has to say only grows, since what it was told does. -/
theorem replyLines_grow (past more : List Event) (there : Bool) :
    w.replyLines past there <+: w.replyLines (past ++ more) there := by
  obtain ⟨rest, hrest⟩ :=
    Host.splitLines_grow (Log.heard (w.log past)) (Log.heard ((w.run past).log more))
  unfold replyLines heardLines
  rw [log_append, Log.heard_append, ← hrest, List.map_append]
  exact (Mock.outs_onLines_grow _).map _

/-- What comes out are lines, and none of them is blank, as each is the text of one object. -/
theorem inked_replyLines {l : List UInt8} (h : l ∈ w.replyLines events there) :
    IsLine l ∧ (Host.lineOf l).isBlank = false := by
  obtain ⟨out, hout, rfl⟩ := List.mem_map.mp h
  obtain ⟨text, rfl, htext⟩ := Mock.isReply_of_mem_outs hout
  rw [htext.lineOf_bytes]
  exact ⟨htext.isLine, htext.inked⟩

theorem length_replyLines_le : (w.replyLines events there).length ≤ w.received events := by
  have hle := @Mock.length_outs_le there .empty (w.heardLines events)
  unfold replyLines received
  rw [List.length_map]
  refine hle.trans (Nat.le_of_eq ?_)
  unfold heardLines
  rw [List.length_map, Host.length_splitLines]

/-- What the program puts out if the kernel has received some requests. -/
theorem output_of_heard {rs : List Request} {replies : List Json}
    (hheard : Log.heard (w.log events) = (rs.map fun r => r.toJson.lineBytes).flatten)
    (houts : Mock.outs (Mock.onLines there .empty (rs.map fun r => .line r.toJson.text)) =
      replies.map fun v => Mock.lineOf v.text) :
    Text.Utf8.bytes
        (Mock.Transcript.of (Mock.onLines there .empty (w.heardLines events))).output =
      (replies.map Json.lineBytes).flatten := by
  have hlines : w.heardLines events = rs.map fun r => .line r.toJson.text := by
    have hls : ∀ l ∈ rs.map fun r => r.toJson.lineBytes, IsLine l := by
      intro l hl
      obtain ⟨r, -, rfl⟩ := List.mem_map.mp hl
      exact r.toJson.isLine_lineBytes
    unfold heardLines
    rw [hheard, Host.splitLines_flatten hls]
    simp only [List.map_map, Function.comp_def, Json.lineOf_lineBytes]
  rw [Mock.bytes_output, hlines, houts, List.flatMap_def, List.map_map]
  exact congrArg List.flatten (List.map_congr_left fun v _ => Mock.bytes_lineOf_text v)

/-- The kernel stays the stand-in kernel when it says what its program puts out. -/
theorem StandIn.say (h : w.StandIn events there) {bytes : List UInt8}
    (hspoken : Log.spoken (w.log (events ++ [.kernelWrites bytes])) =
      Text.Utf8.bytes
        (Mock.Transcript.of (Mock.onLines there .empty (w.heardLines events))).output) :
    w.StandIn (events ++ [.kernelWrites bytes]) there := by
  refine ⟨fun id line hm => h.requests id line (by simpa using hm), fun past id hp => ?_, h.fresh,
    fun past bytes' hp => ?_, fun past hp => ?_⟩
  · exact h.kept past id ((concat_prefix_cases hp).resolve_right (by simp))
  · rcases List.prefix_concat_iff.mp hp with hp | hp
    · obtain ⟨rfl, hb⟩ := List.append_inj' hp rfl
      obtain rfl := Event.kernelWrites.inj (List.singleton_inj.mp hb)
      rw [hspoken]
    · exact h.speaks past bytes' hp
  · exact h.closes past ((concat_prefix_cases hp).resolve_right (by simp))

/-- What the kernel has written so far is a front of what comes out. -/
theorem StandIn.spoken (h : w.StandIn events there) :
    Log.spoken (w.log events) <+: (w.replyLines events there).flatten := by
  induction events using List.reverseRecOn with
  | nil => exact List.nil_prefix
  | append_singleton past e ih =>
    have hgrows : (w.replyLines past there).flatten <+:
        (w.replyLines (past ++ [e]) there).flatten := (replyLines_grow past [e] there).flatten
    refine List.IsPrefix.trans ?_ hgrows
    by_cases he : ∃ bytes, e = .kernelWrites bytes
    · obtain ⟨bytes, rfl⟩ := he
      have hspeaks := h.speaks past bytes List.prefix_rfl
      rw [Mock.bytes_output] at hspeaks
      exact hspeaks
    · rw [log_concat, Log.spoken_append, spoken_deeds fun bytes hb => he ⟨bytes, hb⟩,
        List.append_nil]
      exact ih (h.of_prefix (List.prefix_append past [e]))

/-- When the kernel can write no more, it has written whole lines. -/
theorem StandIn.stopped (h : w.StandIn events there)
    (hw : (w.run events).wires.output.writing = false) :
    (Host.splitLines (Log.spoken (w.log events))).2 = [] := by
  induction events using List.reverseRecOn with
  | nil => exact absurd (hw.symm.trans h.fresh.2.2) Bool.false_ne_true
  | append_singleton past e ih =>
    have hp := h.of_prefix (List.prefix_append past [e])
    rw [run_concat] at hw
    -- behind the end of its output the kernel says nothing, and it ends it with whole lines
    have hsame : Log.spoken (w.log (past ++ [e])) = Log.spoken (w.log past) ∧
        (Host.splitLines (Log.spoken (w.log past))).2 = [] := by
      rw [log_concat, Log.spoken_append]
      by_cases he : e = .kernelClosesOutput
      · subst he
        exact ⟨List.append_nil _, h.closes past List.prefix_rfl⟩
      · rw [writing_apply he] at hw
        refine ⟨?_, ih hp hw⟩
        by_cases hb : ∃ bytes, e = .kernelWrites bytes
        · obtain ⟨bytes, rfl⟩ := hb
          unfold World.deeds
          dsimp only
          rw [if_neg (by rw [hw]; exact Bool.false_ne_true)]
          exact List.append_nil _
        · rw [spoken_deeds fun bytes h => hb ⟨bytes, h⟩, List.append_nil]
    rw [hsame.1]
    exact hsame.2

/-- The lines that the kernel has written are the first of those that come out. -/
theorem StandIn.kernelLines (h : w.StandIn events there) :
    w.kernelLines events =
      ((w.replyLines events there).take ((Log.spoken (w.log events)).count 10)).map
        Host.lineOf := by
  obtain ⟨hlines, -⟩ := Host.splitLines_of_front (fun l hl => (inked_replyLines hl).1) h.spoken
  have hrest : (!(w.run events).wires.output.writing &&
      !(Host.splitLines (Log.spoken (w.log events))).2.isEmpty) = false := by
    cases hw : (w.run events).wires.output.writing with
    | true => rfl
    | false =>
      rw [h.stopped hw]
      rfl
  unfold World.kernelLines Host.textLines
  rw [h.fresh.2.1, List.nil_append, hrest, hlines,
    Host.filled_of_inked fun l hl => (inked_replyLines (List.mem_of_mem_take hl)).2]
  exact List.append_nil _

/-- The stand-in kernel answers each request at most once, in order and after it has received
it. -/
theorem StandIn.answering (h : w.StandIn events there) : w.Answering events fun i => i where
  requests := h.requests
  kept := h.kept
  inOrder _ _ hlt := hlt
  timely past hp i hi := by
    have hpast := h.of_prefix hp
    rw [hpast.kernelLines, List.length_map, List.length_take] at hi
    have hle := @length_replyLines_le w past there
    omega

/-! ## What the kernel was asked -/

/-- What holds along a run with the stand-in kernel. -/
structure Attended (w : World) (events : List Event) (there : Bool) : Prop where
  /-- The kernel is the stand-in kernel. -/
  standIn : w.StandIn events there
  /-- Requests and replies belong together. -/
  conversing : w.Conversing events fun i => i
  /-- What was written are the lines of calls. -/
  spelled : (w.run events).Spelled (w.log events)
  /-- They are requests. -/
  request : ∀ {id line stage}, (w.run events).task? id = some (.call line stage) →
    ∃ r : Request, line = Text.Utf8.bytes r.line

/-- One more event keeps all this; each part is about what the event may do. -/
theorem Attended.concat {e : Event} (ha : w.Attended events there)
    (h : w.StandIn (events ++ [e]) there) : w.Attended (events ++ [e]) there where
  standIn := h
  conversing := ha.conversing.concat h.answering
  spelled := by
    rw [run_concat, log_concat]
    refine ha.spelled.step ha.conversing.orderly ha.conversing.tally (apply_cases _ e) ?_
    rintro i rfl
    exact h.kept events i List.prefix_rfl
  request {id line stage} ht := by
    rw [run_concat] at ht
    rcases (apply_cases _ e).call_cases ht with hs | ⟨-, rfl, -⟩ | ⟨before, hs, -⟩ | ⟨hs, -⟩
    · exact ha.request hs
    · exact h.requests id line (List.mem_append_right _ List.mem_cons_self)
    · exact ha.request hs
    · exact ha.request hs

/-- Along every run with the stand-in kernel all this holds; by induction from the last event, with
the kernel's state as the requests so far have left it. -/
theorem StandIn.attended (h : (World.new timing wires).StandIn events there) :
    (World.new timing wires).Attended events there := by
  induction events using List.reverseRecOn with
  | nil =>
    have hin : wires.input.bytes = [] := h.fresh.1
    refine ⟨h, h.answering.conversing hin, Spelled.new timing wires, fun {id line stage} ht => ?_⟩
    exact absurd ht (by simp [run, World.new, task?])
  | append_singleton past e ih => exact (ih (h.of_prefix (List.prefix_append past [e]))).concat h

/-- The requests that have begun, as the kernel reads them. -/
def asked (w : World) (events : List Event) : List Delivery :=
  ((w.run events).sent (w.log events)).map Host.lineOf

theorem length_asked : (w.asked events).length = (Log.begun (w.log events)).length := by
  unfold asked sent
  rw [List.length_map, List.length_map]

/-- Requests that begin come behind those that were asked before, as the log is only ever added to
at its end. -/
theorem Attended.asked_concat {e : Event} (ha : w.Attended events there)
    (h : w.StandIn (events ++ [e]) there) :
    ∃ more, w.asked (events ++ [e]) = w.asked events ++ more := by
  have hsent := (apply_cases (w.run events) e).sent ha.conversing.tally (by
    rintro i rfl
    exact h.kept events i List.prefix_rfl)
  unfold asked
  rw [run_concat, log_concat, hsent, List.map_append]
  exact ⟨_, rfl⟩

/-- The lines that were sent are lines, with one line feed at the end. -/
theorem Attended.isLine_sent (h : w.Attended events there) {l : List UInt8}
    (hl : l ∈ (w.run events).sent (w.log events)) : IsLine l := by
  obtain ⟨q, hq, he⟩ := List.mem_map.mp hl
  obtain ⟨line, stage, ht, -⟩ := h.conversing.tally.calls hq
  obtain ⟨r, hr⟩ := h.request ht
  rw [← he, callLine_eq ht, hr]
  exact r.isLine

/-- While a call waits for a reply, the kernel has received the first of the requests. -/
theorem Attended.heard (h : w.Attended events there)
    (ht : (w.run events).task? id = some (.call line before)) (hb : before.waits = true) :
    w.heardLines events = (w.asked events).take (w.received events) := by
  have hwhole := h.spelled.waiting h.conversing.orderly ht hb
  have hpre := (List.prefix_append _ _).trans h.conversing.ledger.input
  rw [hwhole] at hpre
  obtain ⟨hlines, -⟩ := Host.splitLines_of_front (fun l hl => h.isLine_sent hl) hpre
  unfold heardLines asked
  rw [hlines, List.map_take]
  rfl

/-- When everything has reached the kernel, it has received all of them. -/
theorem Attended.heard_all (h : w.Attended events there)
    (ht : (w.run events).task? id = some (.call line before)) (hb : before.waits = true)
    (hreading : (w.run events).wires.input.reading = true)
    (hbytes : (w.run events).wires.input.bytes = []) : w.heardLines events = w.asked events := by
  have hwritten := h.conversing.ledger.reading hreading
  rw [hbytes, List.append_nil, h.spelled.waiting h.conversing.orderly ht hb] at hwritten
  rw [h.heard ht hb, received, hwritten, Host.count_flatten fun l hl => h.isLine_sent hl]
  unfold asked
  rw [List.take_of_length_le (by rw [List.length_map])]

/-! ## Which line answers which request -/

theorem CallStep.waits_of_taken {i : Nat} {d : Delivery}
    (h : CallStep w id line before after w' deeds) (ht : Log.taken deeds = [(i, d)]) :
    before.waits = true := by
  cases h with
  | fail waits going read => exact waits
  | discard | reply | garbled => rfl
  | _ => exact absurd ht (List.cons_ne_nil _ _).symm

/-- A line that is taken is what the kernel says to the last request that has begun. -/
theorem Attended.next (h : w.Attended events there)
    (ht : (w.run events).task? id = some (.call line before))
    (hs : CallStep (w.run events) id line before after w' deeds) {i : Nat} {d : Delivery}
    (htk : Log.taken deeds = [(i, d)]) :
    ∃ text, d = .line text ∧
      Replies there .empty (w.asked events) (Log.taken (w.log events)).length text := by
  have hline := h.conversing.ledger.reads hs htk
  have hheard := h.heard ht (hs.waits_of_taken htk)
  obtain ⟨q, hlen, -⟩ := hs.due h.conversing.orderly h.conversing.tally ht htk
  have hle := @length_replyLines_le w events there
  have hreceived : w.received events ≤ (Log.begun (w.log events)).length :=
    h.conversing.ledger.received
  have hasked := @length_asked w events
  rw [h.standIn.kernelLines, List.map_take] at hline
  -- as many lines came out as requests have begun, so the kernel has received them all
  obtain ⟨hlt, -⟩ := List.getElem?_eq_some_iff.mp hline
  rw [List.length_take, List.length_map] at hlt
  rw [List.take_of_length_le (by omega)] at hheard
  have hall : (Mock.outs (Mock.onLines there .empty (w.heardLines events))).length =
      (w.heardLines events).length := by
    rw [hheard]
    unfold replyLines at hle hlt
    rw [List.length_map, hheard] at hle hlt
    omega
  obtain ⟨text, hreply, hout⟩ := Mock.outs_getElem? hall
    (i := (Log.taken (w.log events)).length) (by rw [hheard]; omega)
  have hd : d = .line text := by
    rw [List.getElem?_take_of_lt (by omega), replyLines, List.map_map, List.getElem?_map, hout,
      Option.map_some, Option.some.injEq] at hline
    obtain ⟨-, -, -, hreply⟩ := hreply
    exact hline.symm.trans hreply.lineOf_bytes
  rw [hheard] at hreply
  exact ⟨text, hd, hreply⟩

/-- So is a line that is seen to be taken, which is the same line, seen from the log. -/
theorem Attended.took (h : w.Attended events there) {d : Delivery}
    (hm : .took id d ∈ (w.run events).deeds (.poll id)) :
    ∃ text, d = .line text ∧
      Replies there .empty (w.asked events) (Log.taken (w.log events)).length text := by
  obtain ⟨line, before, after, task, poll⟩ := h.conversing.orderly.poll_of_deed hm rfl
  exact h.next task poll (poll.took hm).2

/-- Every line that was taken is what the kernel says to the request in its place. -/
theorem StandIn.taken (h : (World.new timing wires).StandIn events there) {i : Nat} {d : Delivery}
    (hi : (Log.taken ((World.new timing wires).log events))[i]? = some (id, d)) :
    ∃ text, d = .line text ∧
      Replies there .empty ((World.new timing wires).asked events) i text := by
  induction events using List.reverseRecOn generalizing i id d with
  | nil => exact absurd hi (by simp [log, Log.taken])
  | append_singleton past e ih =>
    have hp := h.of_prefix (List.prefix_append past [e])
    have ha := hp.attended
    -- a line that was taken before stays the reply that it was, as later requests only come behind
    have hbefore : ∃ text, d = .line text ∧
        Replies there .empty ((World.new timing wires).asked past) i text := by
      rw [log_concat] at hi
      rcases getElem?_taken_cases hi with hold | ⟨hnew, hge⟩
      · exact ih hp hold
      rcases (apply_cases _ e).poll_or_calm ha.conversing.orderly with
        ⟨j, line, before, after, -, task, poll⟩ | calm
      · rcases poll.takes with hnone | ⟨d', htk, -⟩
        · rw [hnone] at hnew
          exact absurd hnew (by simp)
        · have hnext := ha.next task poll htk
          rw [htk, List.getElem?_singleton] at hnew
          obtain ⟨hidx, hpair⟩ := Option.ite_none_right_eq_some.mp hnew
          have he : (Log.taken ((World.new timing wires).log past)).length = i := by omega
          obtain ⟨rfl, rfl⟩ := Prod.mk.inj (Option.some.inj hpair)
          rw [he] at hnext
          exact hnext
      · rw [Log.taken_of_calm calm.log] at hnew
        exact absurd hnew (by simp)
    obtain ⟨text, hd, hreply⟩ := hbefore
    obtain ⟨more, hgrows⟩ := ha.asked_concat h
    rw [hgrows]
    exact ⟨text, hd, hreply.append more⟩

end KernelLink.Session.World
