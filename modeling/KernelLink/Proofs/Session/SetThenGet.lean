import KernelLink.Proofs.Mock.Requests
import KernelLink.Proofs.Session.StandIn
/-!
# Setting a property and getting it back

A property of an object of the stand-in kernel was set, and no other request about that object came
between. Then a call that gets the property is told the value that was set, if that is not nested
too deep: the reply stands two levels around the value, the request that set it only one. A value at
the limit of the request is therefore accepted and kept, and the reply that should tell it is no
document to the link, which ends the conversation.

Main definitions:
* `World.SetThenGet`: a property was set, and a call waits to be told.
* `World.Settled`: the kernel has received everything and said all that it has to say.
* `World.Tells`, `World.Chokes`: a call was told the value, or the conversation has ended over it.
* `World.repliedRun`: runs in which the value is nested as deep as one likes.

Main results:
* `World.set_then_get`: what becomes of the call.
* `World.shallow_value_told`, `World.deepest_value_chokes`: one value of each kind.
-/
namespace KernelLink.Session.World

open Host (Delivery IsLine)
open Mock (Store Replies setLimit getLimit valueText)

variable {w w' : World} {id : Nat} {line : List UInt8} {before after : Stage} {deeds : List Deed}
  {events : List Event} {there : Bool} {timing : Timing} {wires : Wires} {o : ObjRef}
  {property : String} {v : Json} {s g : Nat}

/-- A property was set by one call, and another waits to be told its value. -/
structure SetThenGet (w : World) (events : List Event) (o : ObjRef) (property : String) (v : Json)
    (s g : Nat) : Prop where
  /-- Between the two no request about the object begins, and none after them. -/
  order : ∃ older others, Log.begun (w.log events) = older ++ s :: others ++ [g] ∧
    ∀ q ∈ others, ∃ r : Request,
      (w.run events).callLine q = Text.Utf8.bytes r.line ∧ r.target? ≠ some o
  /-- The one asks to set the property. -/
  set : (w.run events).callLine s = Text.Utf8.bytes (Request.set o property v).line
  /-- It has succeeded. -/
  done : ∃ result, (w.run events).callResult? s = some result ∧
    Reply.ofResult .set result = .ok .assigned
  /-- The other asks to get the property, and waits. -/
  get : ∃ deadline graceEnd, (w.run events).task? g =
    some (.call (Text.Utf8.bytes (Request.get o property).line) (.awaiting deadline graceEnd))

/-- The kernel has received everything, and it has said all that it has to say to that. -/
structure Settled (w : World) (events : List Event) (there : Bool) : Prop where
  /-- It has not closed its input. -/
  reading : (w.run events).wires.input.reading = true
  /-- It has received everything. -/
  heard : (w.run events).wires.input.bytes = []
  /-- It has said everything. -/
  spoken : Log.spoken (w.log events) =
    Text.Utf8.bytes (Mock.Transcript.of (Mock.onLines there .empty (w.heardLines events))).output

/-- A call that gets a property was told the value, and the link can be used. -/
structure Tells (w : World) (id : Nat) (v : Json) : Prop where
  /-- It has the value. -/
  result : ∃ result, w.callResult? id = some result ∧ Reply.ofResult .get result = .ok (.got v)
  /-- The conversation goes on. -/
  phase : w.phase = .ready
  /-- Nobody has a turn. -/
  holder : w.holder = none

/-- A call could not read its reply, and that has ended the conversation. -/
structure Chokes (w : World) (id : Nat) (text : String) : Prop where
  /-- It has failed. -/
  result : w.callResult? id = some (.error (.poisoned (Desync.unparseable text).reason))
  /-- The conversation is over. -/
  phase : w.phase = .poisoned (.unparseable text)

/-- A call that chokes on a reply does not tell the value, as the link is poisoned then and ready
otherwise. -/
theorem Chokes.not_tells {text : String} (h : w.Chokes id text) : ¬ w.Tells id v := by
  intro htells
  have hphase := h.phase
  rw [htells.phase] at hphase
  exact Phase.noConfusion hphase

/-- The end of a call that gets a property whose value is `v`. -/
structure Concludes (w : World) (id : Nat) (v : Json) : Prop where
  /-- It is told the value if that is not nested too deep. -/
  tells : v.depth ≤ getLimit → w.Tells id v
  /-- Otherwise the conversation is over. -/
  chokes : getLimit < v.depth → w.Chokes id (valueText v)

/-! ## What the kernel has to say -/

/-- If the reply to setting a property is a success, the value was not nested too deep, and the
property has it. -/
theorem set_of_reply {st : Store} {text : String} {payload : Json} (hv : v.whole = true)
    (hn : v.normal = v)
    (hone : Mock.outs (Mock.onLine there st (.line (Request.set o property v).toJson.text)).1 =
      [Mock.lineOf text])
    (hreply : replyTo (.line text) = .ok payload) :
    v.depth ≤ setLimit ∧ (Mock.onLine there st
      (.line (Request.set o property v).toJson.text)).2.property? o.id property = some v := by
  by_cases halive : v.depth ≤ setLimit ∧ ∃ object, st.find? o.id = some object
  · obtain ⟨hd, object, hobject⟩ := halive
    rw [Mock.onLine_set hv hn hd hobject]
    exact ⟨hd, Store.property?_assign hobject property v⟩
  · obtain ⟨message, hfault⟩ := @Mock.onLine_set_refused there st o property v hv fun hd => by
      rw [Option.eq_none_iff_forall_not_mem]
      exact fun object hobject => halive ⟨hd, object, hobject⟩
    rw [hfault, Mock.outs_fault] at hone
    obtain rfl := Mock.lineOf_inj (List.cons.inj hone).1
    obtain ⟨stack, hstack⟩ := Mock.decodeLine_fault message
    rw [replyTo_of_ok hstack] at hreply
    exact absurd hreply (by simp [Envelope.payload])

/-- The requests that have begun, around those that set and get the property. -/
theorem SetThenGet.asked (h : w.SetThenGet events o property v s g) :
    ∃ older others : List Delivery,
      w.asked events = older ++ .line (Request.set o property v).toJson.text :: others ++
        [.line (Request.get o property).toJson.text] ∧
      (∀ d ∈ others, ∃ r : Request, d = .line r.toJson.text ∧ r.target? ≠ some o) ∧
      (Log.begun (w.log events))[older.length]? = some s := by
  obtain ⟨older, others, hbegun, hothers⟩ := h.order
  obtain ⟨deadline, graceEnd, hget⟩ := h.get
  let read : Nat → Delivery := Host.lineOf ∘ (w.run events).callLine
  refine ⟨older.map read, others.map read, ?_, fun d hd => ?_, ?_⟩
  · have hs : read s = .line (Request.set o property v).toJson.text := by
      show Host.lineOf ((w.run events).callLine s) = _
      rw [h.set, Request.lineOf_line]
    have hg : read g = .line (Request.get o property).toJson.text := by
      show Host.lineOf ((w.run events).callLine g) = _
      rw [callLine_eq hget, Request.lineOf_line]
    unfold World.asked sent
    rw [List.map_map, hbegun, ← hs, ← hg]
    simp [read]
  · obtain ⟨q, hq, rfl⟩ := List.mem_map.mp hd
    obtain ⟨r, hr, htarget⟩ := hothers q hq
    refine ⟨r, ?_, htarget⟩
    show Host.lineOf ((w.run events).callLine q) = _
    rw [hr, Request.lineOf_line]
  · rw [hbegun, List.length_map, List.append_assoc, List.getElem?_append_right (Nat.le_refl _),
      Nat.sub_self]
    rfl

/-- The value was not nested too deep to be set, and what the kernel has to say to the call that
waits is that value. -/
theorem SetThenGet.reply (h : (World.new timing wires).StandIn events there) (hv : v.whole = true)
    (hn : v.normal = v) (hr : (World.new timing wires).SetThenGet events o property v s g) :
    v.depth ≤ setLimit ∧ Replies there .empty ((World.new timing wires).asked events)
      (Log.taken ((World.new timing wires).log events)).length (valueText v) := by
  have hc := h.attended.conversing
  obtain ⟨older, others, hasked, hothers, hset⟩ := hr.asked
  obtain ⟨deadline, graceEnd, hget⟩ := hr.get
  -- the line that made the result of the first call is what the kernel said to its request
  obtain ⟨payload, hresult⟩ : ∃ payload, ((World.new timing wires).run events).callResult? s =
      some (.ok payload) := by
    obtain ⟨result, hresult, htyped⟩ := hr.done
    cases result with
    | ok payload => exact ⟨payload, hresult⟩
    | error e => exact absurd htyped (by simp [Reply.ofResult])
  obtain ⟨i, d, hbegun, htaken, hmade⟩ := hc.matched.replies hresult rfl
  have hi : i = older.length := by
    obtain ⟨hlt, -⟩ := List.getElem?_eq_some_iff.mp hbegun
    exact (List.getElem?_inj hlt hc.tally.distinct).mp (hbegun.trans hset.symm)
  subst hi
  obtain ⟨text, rfl, d', hd', hone, -⟩ := h.taken htaken
  rw [hasked, List.append_assoc, List.getElem?_append_right (Nat.le_refl _), Nat.sub_self] at hd'
  obtain rfl := Option.some.inj hd'
  rw [hasked, List.append_assoc, List.take_left] at hone
  rw [hresult, Option.some.injEq] at hmade
  obtain ⟨hdepth, hproperty⟩ := set_of_reply hv hn hone hmade.symm
  refine ⟨hdepth, .line (Request.get o property).toJson.text, ?_, ?_, Mock.isReply_obj _⟩
  all_goals
    have hlen : (Log.taken ((World.new timing wires).log events)).length =
        (older ++ .line (Request.set o property v).toJson.text :: others).length := by
      obtain ⟨hdue, -⟩ := hc.tally.own hget rfl
      rw [← length_asked, hasked, List.length_append, List.length_singleton] at hdue
      omega
    rw [hlen, hasked]
  · rw [List.getElem?_append_right (Nat.le_refl _), Nat.sub_self]
    rfl
  · have hnamed : (Mock.storeAfter there .empty older).Named :=
      Mock.named_storeAfter Store.named_empty older
    rw [List.take_left, Mock.storeAfter_append, Mock.storeAfter_cons,
      Mock.onLine_get (Mock.property?_storeAfter (Mock.named_onLine hnamed _) hothers hproperty)]
    rfl

/-! ## A call that waits -/

/-- What becomes of a call that waits and takes the line that tells the value. -/
theorem CallStep.concludes {deadline : Nat} {graceEnd : Option Nat}
    (h : CallStep w id line (.awaiting deadline graceEnd) after w' deeds) (hw : w.Orderly)
    (ht : w.task? id = some (.call line (.awaiting deadline graceEnd))) (hv : v.whole = true)
    (hn : v.normal = v) (hm : .took id (.line (valueText v)) ∈ deeds) :
    w'.Concludes id v := by
  have hself := h.self ht
  have hturn := h.turn hw ht
  have hready : w.phase = .ready := hw.fits ht
  cases h with
  | reply going read inked decoded =>
    obtain rfl := Delivery.line.inj (Deed.took.inj (List.mem_singleton.mp hm)).2
    refine ⟨fun hd => ?_, fun hd => ?_⟩
    · rw [Mock.decodeLine_got hv hn hd, Except.ok.injEq] at decoded
      subst decoded
      exact ⟨⟨_, callResult?_eq_some.mpr ⟨line, hself⟩, by
        rw [Envelope.payload, Reply.ofResult, Mock.only, Reply.ofPayload_got hn]; rfl⟩,
        hready, hturn⟩
    · obtain ⟨e, he⟩ := Mock.decodeLine_got_tooDeep hd
      rw [he] at decoded
      exact absurd decoded (by simp)
  | garbled going read inked undecoded =>
    obtain rfl := Delivery.line.inj (Deed.took.inj (List.mem_singleton.mp hm)).2
    refine ⟨fun hd => ?_, fun hd => ⟨callResult?_eq_some.mpr ⟨line, hself⟩, rfl⟩⟩
    rw [Mock.decodeLine_got hv hn hd] at undecoded
    exact absurd undecoded (by simp)
  | _ => exact absurd hm (by simp)

/-- A poll that takes the reply with a value concludes the call; whatever the poll is, its rule is
the one for such a line. -/
theorem Orderly.concludes {deadline : Nat} {graceEnd : Option Nat} (hw : w.Orderly)
    (ht : w.task? id = some (.call line (.awaiting deadline graceEnd))) (hv : v.whole = true)
    (hn : v.normal = v) (hm : .took id (.line (valueText v)) ∈ w.deeds (.poll id)) :
    (w.apply (.poll id)).Concludes id v := by
  obtain ⟨l, before, after, task, poll⟩ := hw.poll_of_deed hm rfl
  obtain ⟨rfl, rfl⟩ := call_inj ht task
  exact poll.concludes hw task hv hn hm

/-- The kernel has something to say to every request: it says one line for each, and the two calls
are answered by theirs. -/
theorem SetThenGet.replies (h : (World.new timing wires).StandIn events there)
    (hv : v.whole = true) (hn : v.normal = v)
    (hr : (World.new timing wires).SetThenGet events o property v s g) :
    (Mock.outs (Mock.onLines there .empty ((World.new timing wires).asked events))).length =
      ((World.new timing wires).asked events).length := by
  obtain ⟨-, hreply⟩ := hr.reply h hv hn
  obtain ⟨deadline, graceEnd, hget⟩ := hr.get
  obtain ⟨hdue, -⟩ := h.attended.conversing.tally.own hget rfl
  rw [← length_asked] at hdue
  refine Mock.length_outs_eq fun i hi => ?_
  -- what it said to all requests but the last was taken
  rcases Nat.lt_or_ge i (Log.taken ((World.new timing wires).log events)).length with hlt | hge
  · obtain ⟨text, -, htext⟩ := h.taken (List.getElem?_eq_getElem hlt)
    exact ⟨text, htext⟩
  · obtain rfl : i = (Log.taken ((World.new timing wires).log events)).length := by omega
    exact ⟨_, hreply⟩

/-- Once the kernel has received everything and said all that it has to say, the pipe holds the line
that tells the value. -/
theorem SetThenGet.held (h : (World.new timing wires).StandIn events there) (hv : v.whole = true)
    (hn : v.normal = v) (hr : (World.new timing wires).SetThenGet events o property v s g)
    (hs : (World.new timing wires).Settled events there) :
    ((World.new timing wires).run events).wires.output.held ++
      ((World.new timing wires).run events).wires.output.bytes =
        Text.Utf8.bytes (Mock.lineOf (valueText v)) := by
  have ha := h.attended
  have hall := hr.replies h hv hn
  obtain ⟨-, hreply⟩ := hr.reply h hv hn
  obtain ⟨deadline, graceEnd, hget⟩ := hr.get
  obtain ⟨hdue, -⟩ := ha.conversing.tally.own hget rfl
  rw [← length_asked] at hdue
  have hheard := ha.heard_all hget rfl hs.reading hs.heard
  generalize htaken : (Log.taken ((World.new timing wires).log events)).length = t at hreply hdue
  -- the kernel has said a line to each request, the last of which tells the value
  obtain ⟨text, htext, hlast⟩ := Mock.outs_getElem? hall (i := t) (by omega)
  obtain rfl := hreply.unique htext
  have hlines : (World.new timing wires).replyLines events there =
      ((World.new timing wires).replyLines events there).take t ++
        [Text.Utf8.bytes (Mock.lineOf (valueText v))] := by
    unfold replyLines
    rw [hheard, ← List.map_take, ← List.map_singleton, ← List.map_append,
      ← Option.toList_some, ← hlast, ← List.take_add_one, List.take_of_length_le (by omega)]
  have hlength : (((World.new timing wires).replyLines events there).take t).length = t := by
    rw [List.length_take, replyLines, List.length_map, hheard, hall]
    omega
  have hout := ha.conversing.ledger.output
  rw [h.fresh.2.1, List.nil_append, hs.spoken, Mock.bytes_output] at hout
  replace hout : ((World.new timing wires).run events).wires.output.Accounts
      ((World.new timing wires).replyLines events there).flatten
      ((Log.taken ((World.new timing wires).log events)).map Prod.snd) := hout
  have hinked : ∀ m ∈ (World.new timing wires).replyLines events there,
      IsLine m ∧ (Host.lineOf m).isBlank = false := fun m hm => inked_replyLines hm
  rw [hlines] at hout hinked
  refine hout.last hinked ?_
  rw [List.length_map, htaken, hlength]

/-- Then the call comes to take that line when it is polled, unless the link is closed. -/
theorem SetThenGet.comes (h : (World.new timing wires).StandIn events there) (hv : v.whole = true)
    (hn : v.normal = v) (hr : (World.new timing wires).SetThenGet events o property v s g)
    (hgoing : ((World.new timing wires).run events).cancelled = false)
    (hs : (World.new timing wires).Settled events there) :
    ∃ n, (((World.new timing wires).run events).run
      (List.replicate (n + 1) (.poll g))).Concludes g v := by
  have hvalue : Mock.IsReply (valueText v) := Mock.isReply_obj [("ok", Mock.only "value" v)]
  have hinked : (Host.lineOf (Text.Utf8.bytes (Mock.lineOf (valueText v)))).isBlank = false := by
    rw [hvalue.lineOf_bytes]
    exact hvalue.inked
  obtain ⟨deadline, graceEnd, hget⟩ := hr.get
  have hone : Host.textLines (!((World.new timing wires).run events).wires.output.writing)
      (((World.new timing wires).run events).wires.output.held ++
        ((World.new timing wires).run events).wires.output.bytes) = [.line (valueText v)] := by
    rw [hr.held h hv hn hs, Host.textLines_of_line _ hvalue.isLine hinked, hvalue.lineOf_bytes]
  obtain ⟨n, ht, hm⟩ := reaches_line hget rfl hgoing hone
  refine ⟨n, ?_⟩
  rw [List.replicate_succ', run_concat]
  exact (h.attended.conversing.orderly.run _).concludes ht hv hn hm

/-! ## Setting, then getting -/

/-- A property was set, no other request about the object came between, and a call waits to be told
the value. The value was not nested too deep to be set. When the call takes a line, it is told the
value, or it chokes on it if the value is nested deeper than a reply can hold; and it comes to take
a line if the kernel has said all that it has to say and nobody closes the link. -/
theorem set_then_get (timing : Timing) (wires : Wires) (events : List Event) (there : Bool)
    (h : (World.new timing wires).StandIn events there) (hv : v.whole = true) (hn : v.normal = v)
    (hr : (World.new timing wires).SetThenGet events o property v s g) :
    v.depth ≤ setLimit ∧
    (∀ d, .took g d ∈ ((World.new timing wires).run events).deeds (.poll g) →
      (((World.new timing wires).run events).apply (.poll g)).Concludes g v) ∧
    (((World.new timing wires).run events).cancelled = false →
      (World.new timing wires).Settled events there →
      ∃ n, (((World.new timing wires).run events).run
        (List.replicate (n + 1) (.poll g))).Concludes g v) := by
  obtain ⟨hdepth, hreply⟩ := hr.reply h hv hn
  refine ⟨hdepth, fun d hm => ?_, hr.comes h hv hn⟩
  obtain ⟨deadline, graceEnd, hget⟩ := hr.get
  obtain ⟨text, rfl, hnext⟩ := h.attended.took hm
  obtain rfl := hreply.unique hnext
  exact h.attended.conversing.orderly.concludes hget hv hn hm

/-! ## Values at the limits -/

/-- A value in `n` sequences. -/
def nested : Nat → Json
  | 0 => .null
  | n + 1 => .arr [nested n]

theorem whole_nested (n : Nat) : (nested n).whole = true := by
  induction n with
  | zero => rfl
  | succ n ih =>
    unfold nested
    simp only [Json.whole, Json.wholeItems, ih, Bool.and_true]

theorem normal_nested (n : Nat) : (nested n).normal = nested n := by
  induction n with
  | zero => rfl
  | succ n ih => rw [nested, Json.normal, Json.normalItems, ih, Json.normalItems]

theorem depth_nested (n : Nat) : (nested n).depth = n := by
  induction n with
  | zero => rfl
  | succ n ih =>
    rw [nested, Json.depth, Json.depthItems, ih, Json.depthItems]
    omega

/-- The first object of a kernel, if it is one of class `C`. -/
def firstObject : ObjRef := ⟨"C@10001"⟩

/-- The object is created, its property is set to a value in `n` sequences, and it is asked for. -/
def nestedRequest (n : Nat) : Nat → Request
  | 0 => .create "C" []
  | 1 => .set firstObject "p" (nested n)
  | _ => .get firstObject "p"

/-- What the stand-in kernel says to that. -/
def nestedReply (n : Nat) : Nat → Json
  | 0 => .obj [("ok", Mock.only Mock.idKey (.str firstObject.id))]
  | 1 => .obj [("ok", .obj [])]
  | _ => .obj [("ok", Mock.only "value" (nested n))]

/-- It says so as long as the value is not nested too deep to be set. -/
theorem outs_nestedRequest {n k : Nat} (hn : n ≤ setLimit) (hk : k < 3) :
    Mock.outs (Mock.onLines true .empty
      (((List.range (k + 1)).map (nestedRequest n)).map fun r => .line r.toJson.text)) =
        ((List.range (k + 1)).map (nestedReply n)).map fun v => Mock.lineOf v.text := by
  have hcreate : Mock.onLine true .empty (.line (Request.create "C" []).toJson.text) =
      ((Mock.ok (Mock.only Mock.idKey (.str firstObject.id))).effects,
        (Store.empty.create "C" []).2) := by
    rw [Mock.onLine_request, Mock.answer_whole rfl (by decide)]
    rfl
  have hset := @Mock.onLine_set true (Store.empty.create "C" []).2 firstObject "p" (nested n) []
    (whole_nested n) (normal_nested n) (by rw [depth_nested]; exact hn) rfl
  have hproperty := @Store.property?_assign (Store.empty.create "C" []).2 firstObject.id [] rfl "p"
    (nested n)
  have hget := @Mock.onLine_get true _ firstObject "p" (nested n) hproperty
  have hgoes : ∀ payload, Mock.goesOn (Mock.ok payload).effects = true := fun _ => rfl
  have hend : ∀ s, Mock.outs (Mock.onLines true s []) = [] := fun _ => rfl
  match k, hk with
  | 0, _ | 1, _ | 2, _ =>
    simp only [List.range_succ, List.range_zero, List.nil_append, List.cons_append, List.map_cons,
      List.map_nil, nestedRequest, nestedReply, Mock.outs_onLines_cons, hcreate, hset, hget, hgoes,
      hend, Mock.outs_ok, if_true, List.append_nil]
    rfl

/-- A call is made, and the kernel receives its request. -/
def asking (id : Nat) (r : Request) : List Event :=
  [.call id r.toJson.lineBytes, .poll id, .poll id, .poll id, .kernelTakes 1000]

/-- Call after call is made, each when the one before has taken its reply, until the kernel has
received the request of call `k`. -/
def nestedRun (n : Nat) : (k : Nat) → List Event
  | 0 => asking 0 (nestedRequest n 0)
  | k + 1 =>
    nestedRun n k ++ [.kernelWrites (nestedReply n k).lineBytes] ++ [.poll k, .poll k] ++
      asking (k + 1) (nestedRequest n (k + 1))

/-- The kernel has also replied to call `k`, which has not taken its reply yet. -/
def repliedRun (n k : Nat) : List Event :=
  nestedRun n k ++ [.kernelWrites (nestedReply n k).lineBytes]

/-- A link to a kernel that has not been told anything. -/
def fresh : World := .new ⟨1, 1, 0, 1, 1⟩ (.new 0 1)

/-- Does a call wait for its reply? -/
def awaits (w : World) (id : Nat) : Bool :=
  match w.task? id with
  | some (.call _ (.awaiting _ _)) => true
  | _ => false

/-- What an onlooker sees of this, and where it leaves the link. -/
def Plays (n : Nat) : Prop :=
  (∀ k < 3,
    Log.heard (fresh.log (nestedRun n k)) =
      (((List.range (k + 1)).map (nestedRequest n)).map fun r => r.toJson.lineBytes).flatten ∧
    Log.spoken (fresh.log (repliedRun n k)) =
      (((List.range (k + 1)).map (nestedReply n)).map Json.lineBytes).flatten ∧
    (fresh.run (repliedRun n 2)).callLine k = (nestedRequest n k).toJson.lineBytes) ∧
  Log.heard (fresh.log (repliedRun n 2)) = Log.heard (fresh.log (nestedRun n 2)) ∧
  Log.begun (fresh.log (repliedRun n 2)) = [0, 1, 2] ∧
  (fresh.run (repliedRun n 2)).callResult? 1 = some (.ok (.obj [])) ∧
  awaits (fresh.run (repliedRun n 2)) 2 = true ∧
  (fresh.run (repliedRun n 2)).cancelled = false ∧
  (fresh.run (repliedRun n 2)).wires.input.reading = true ∧
  (fresh.run (repliedRun n 2)).wires.input.bytes = []

/-- Asking the stand-in for one thing more is one more request of a run with it. -/
theorem StandIn.asking (h : w.StandIn events there) (id : Nat) (r : Request) :
    w.StandIn (events ++ asking id r) there := by
  refine h.append (fun i line hm => ⟨r, ?_⟩) (by simp [World.asking]) (by simp [World.asking])
    (by simp [World.asking])
  rw [r.bytes_line_eq]
  simp only [World.asking, List.mem_cons, Event.call.injEq, reduceCtorEq, List.not_mem_nil,
    or_false] at hm
  exact hm.2

/-- The kernel of such a run is the stand-in kernel. -/
theorem standIn_repliedRun {n k : Nat} (hn : n ≤ setLimit) (h : Plays n) (hk : k < 3) :
    fresh.StandIn (repliedRun n k) true := by
  have hsay : ∀ k < 3, fresh.StandIn (nestedRun n k) true → fresh.StandIn (repliedRun n k) true :=
    fun k hk hasked => hasked.say
      ((h.1 k hk).2.1.trans (output_of_heard (h.1 k hk).1 (outs_nestedRequest hn hk)).symm)
  refine hsay k hk ?_
  induction k with
  | zero => exact (StandIn.new _ _ _ true).asking 0 _
  | succ k ih =>
    have hreplied := hsay k (by omega) (ih (by omega))
    exact (hreplied.append (by simp) (by simp) (by simp) (by simp)).asking (k + 1) _

/-- In the played run a value is set first, and then asked for. -/
theorem setThenGet_repliedRun {n : Nat} (h : Plays n) :
    fresh.SetThenGet (repliedRun n 2) firstObject "p" (nested n) 1 2 := by
  obtain ⟨hruns, -, hbegun, hdone, hwaits, -⟩ := h
  have hline : ∀ k < 3, (fresh.run (repliedRun n 2)).callLine k =
      Text.Utf8.bytes (nestedRequest n k).line := by
    intro k hk
    rw [(hruns k hk).2.2, Request.bytes_line_eq]
  refine ⟨⟨[0], [], hbegun, by simp⟩, hline 1 (by decide), ⟨_, hdone, rfl⟩, ?_⟩
  unfold awaits at hwaits
  split at hwaits
  · next line deadline graceEnd ht =>
    have hget := hline 2 (by decide)
    rw [callLine_eq ht] at hget
    exact ⟨deadline, graceEnd, by rw [ht, hget]; rfl⟩
  · exact absurd hwaits Bool.false_ne_true

/-- After it the kernel has answered everything that it was asked, and waits. -/
theorem settled_repliedRun {n : Nat} (hn : n ≤ setLimit) (h : Plays n) :
    fresh.Settled (repliedRun n 2) true := by
  obtain ⟨hruns, hheard, -, -, -, -, hreading, hreceived⟩ := h
  obtain ⟨hasked, hspoken, -⟩ := hruns 2 (by decide)
  exact ⟨hreading, hreceived, hspoken.trans
    (output_of_heard (hheard.trans hasked) (outs_nestedRequest hn (by decide))).symm⟩

theorem plays_one : Plays 1 := by
  unfold Plays
  decide +kernel

/-- A value in one sequence is told as it was set, which is far below the depth at which it would
not be. -/
theorem shallow_value_told :
    fresh.StandIn (repliedRun 1 2) true ∧ (nested 1).whole = true ∧ (nested 1).normal = nested 1 ∧
    fresh.SetThenGet (repliedRun 1 2) firstObject "p" (nested 1) 1 2 ∧
    ∃ n, ((fresh.run (repliedRun 1 2)).run (List.replicate (n + 1) (.poll 2))).Tells 2
      (nested 1) := by
  have hn : 1 ≤ setLimit := by decide
  have hd : (nested 1).depth ≤ getLimit := by rw [depth_nested]; decide
  have h := standIn_repliedRun hn plays_one (by decide : 2 < 3)
  have hr := setThenGet_repliedRun plays_one
  obtain ⟨-, -, hcomes⟩ :=
    set_then_get _ _ _ true h (whole_nested 1) (normal_nested 1) hr
  obtain ⟨n, hends⟩ := hcomes plays_one.2.2.2.2.2.1 (settled_repliedRun hn plays_one)
  exact ⟨h, whole_nested 1, normal_nested 1, hr, n, hends.tells hd⟩

theorem plays_setLimit : Plays setLimit := by
  unfold Plays
  decide +kernel

/-- A value that is nested as deep as can be set is not told, and the link cannot be used any
more. -/
theorem deepest_value_chokes :
    fresh.StandIn (repliedRun setLimit 2) true ∧ (nested setLimit).whole = true ∧
    (nested setLimit).normal = nested setLimit ∧
    fresh.SetThenGet (repliedRun setLimit 2) firstObject "p" (nested setLimit) 1 2 ∧
    ∃ n, ((fresh.run (repliedRun setLimit 2)).run (List.replicate (n + 1) (.poll 2))).Chokes 2
        (valueText (nested setLimit)) ∧
      ¬ ((fresh.run (repliedRun setLimit 2)).run (List.replicate (n + 1) (.poll 2))).Tells 2
        (nested setLimit) := by
  have hd : getLimit < (nested setLimit).depth := by rw [depth_nested]; decide
  have h := standIn_repliedRun (Nat.le_refl _) plays_setLimit (by decide : 2 < 3)
  have hr := setThenGet_repliedRun plays_setLimit
  obtain ⟨n, hends⟩ := hr.comes h (whole_nested _) (normal_nested _) plays_setLimit.2.2.2.2.2.1
    (settled_repliedRun (Nat.le_refl _) plays_setLimit)
  exact ⟨h, whole_nested _, normal_nested _, hr, n, hends.chokes hd, (hends.chokes hd).not_tells⟩

end KernelLink.Session.World
