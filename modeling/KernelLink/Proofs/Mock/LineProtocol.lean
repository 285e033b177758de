import KernelLink.Proofs.Mock.Answers
/-!
# The stand-in kernel keeps the line protocol

With a manifest that it accepts, the program greets, unless it is told not to, and then puts out one
line for each line of its input that is not blank and leads to a reply or to garbage, in their
order, until an outcome ends it. Nothing else is in its output. Each reply is one line, whatever
texts it repeats, and it is read as a success or as a fault.

Main definitions:
* `putOut`: the lines that are put out.
* `KeepsProtocol`: what is put out, and what the replies are.

Main results:
* `keeps_line_protocol`: for every manifest and all lines.
-/
namespace KernelLink.Mock

open Json (nestingLimit)

variable {lines : List (Bool × String)}

/-! ## What is put out -/

/-- The line that the program greets with, if it does. -/
def Manifest.greetingLine (m : Manifest) : Option String :=
  if m.skipGreeting then none
  else some (only "hello" (.str (m.greeting.getD Manifest.usualGreeting))).text

/-- The lines that the program puts out: the greeting, and one for each outcome that has one. -/
def putOut (m : Manifest) (lines : List (Bool × String)) : List String :=
  m.greetingLine.toList ++ (outcomes .empty lines).filterMap Outcome.line?

/-- What comes out of a manifest is its greeting, and then what comes out of what follows. -/
theorem outs_effects_manifest (m : Manifest) (es : List Effect) :
    outs (m.effects ++ es) = m.greetingLine.toList.map lineOf ++ outs es := by
  obtain ⟨greeting, skip, startup⟩ := m
  cases startup <;> cases skip <;> rfl

/-- Every outcome of a run is proper, since every line is answered properly. -/
theorem proper_of_mem_outcomes {s : Store} {o : Outcome} (h : o ∈ outcomes s lines) : o.Proper :=
  of_mem_outcomes (fun s there line => proper_answer there s line) h

/-- The line of a proper outcome is a reply: an object as text, or the text that the program puts
out as it is. -/
theorem Outcome.Proper.isReply {o : Outcome} (h : o.Proper) {text : String}
    (ho : o.line? = some text) : IsReply text := by
  cases o with
  | reply document | warned _ _ document =>
    obtain ⟨members, rfl⟩ := h
    exact Option.some.inj ho ▸ isReply_obj members
  | raw text => exact Option.some.inj ho ▸ h
  | complaint | silent | crash | overflow => exact nomatch ho

/-- All lines that are put out are replies, the greeting among them. -/
theorem isReply_of_mem_putOut {m : Manifest} {text : String} (h : text ∈ putOut m lines) :
    IsReply text := by
  rcases List.mem_append.mp h with h | h
  · have hgreeting : m.greetingLine = some text := Option.mem_toList.mp h
    unfold Manifest.greetingLine at hgreeting
    split at hgreeting
    · exact nomatch hgreeting
    · exact Option.some.inj hgreeting ▸ isReply_obj _
  · obtain ⟨o, ho, hline⟩ := List.mem_filterMap.mp h
    exact (proper_of_mem_outcomes ho).isReply hline

/-- A manifest that is accepted decides what the program puts out first. -/
theorem outs_begin {path : String} {bytes : List UInt8} {m : Manifest}
    (hm : Manifest.read bytes = .ok m) :
    outs (begin (some (path, .ok bytes)) ++ serveLines .empty lines) =
      (putOut m lines).map lineOf := by
  have hbegin : begin (some (path, .ok bytes)) = m.effects := by
    unfold begin
    simp only [hm]
  rw [hbegin, outs_effects_manifest, outs_serveLines, putOut, List.map_append]

/-! ## The protocol -/

/-- What the program does for some lines keeps the line protocol. -/
structure KeepsProtocol (m : Manifest) (begun : List Effect) (lines : List (Bool × String)) :
    Prop where
  /-- It puts out the greeting, and then one line for each outcome that has one, in their order. -/
  output : outs (begun ++ serveLines .empty lines) = (putOut m lines).map lineOf
  /-- These are the lines of its output, and there is nothing else in it. -/
  whole : Host.splitLines
      (Text.Utf8.bytes (Transcript.of (begun ++ serveLines .empty lines)).output) =
    ((putOut m lines).map fun text => Text.Utf8.bytes (lineOf text), [])
  /-- No reply has a line feed in it. -/
  unbroken : ∀ o ∈ outcomes .empty lines, ∀ v, o.document? = some v → '\n' ∉ v.text.toList
  /-- A reply that is not nested too deep is read as a success or as a fault, as long as the number
  of the objects fits a machine word. -/
  classified : ∀ i < 2 ^ 64, ∀ o v, (outcomes .empty lines)[i]? = some o → o.document? = some v →
    v.depth ≤ nestingLimit →
    ∃ e, Envelope.decodeLine v.text = .ok e ∧ ∀ payload, e ≠ .bare payload

/-- A program that begins with a manifest keeps the protocol: the greeting comes first, and then one
line for each request that is answered. -/
theorem keepsProtocol_begin {path : String} {bytes : List UInt8} {m : Manifest}
    (hm : Manifest.read bytes = .ok m) (lines : List (Bool × String)) :
    KeepsProtocol m (begin (some (path, .ok bytes))) lines := by
  -- each document that comes out is a reply, and so a line without controls
  have hreply : ∀ o ∈ outcomes .empty lines, ∀ v, o.document? = some v → IsReply v.text := by
    intro o ho v hv
    refine (proper_of_mem_outcomes ho).isReply ?_
    cases o with
    | reply | warned => exact congrArg (Option.map Json.text) hv
    | raw | complaint | silent | crash | overflow => exact nomatch hv
  constructor
  case output => exact outs_begin hm
  case whole =>
    have hlines : ∀ l ∈ (putOut m lines).map fun text => Text.Utf8.bytes (lineOf text),
        Host.IsLine l := by
      rintro l hl
      obtain ⟨text, htext, rfl⟩ := List.mem_map.mp hl
      exact (isReply_of_mem_putOut htext).isLine
    rw [bytes_output, outs_begin hm, List.flatMap_map]
    exact Host.splitLines_eq hlines
  case unbroken =>
    intro o ho v hv hmem
    exact absurd ((hreply o ho v hv).plain _ hmem) (by decide)
  case classified =>
    intro i hi o v ho hv hdepth
    exact (answers_outcomes Store.holds_empty (by omega) ho v hv).decodeLine hdepth

/-- With a manifest that it accepts, the program keeps the line protocol, whatever the lines are and
whenever its artifact is there: the greeting comes out, unless it is told not to greet, and then one
line for each line that is not blank and leads to a reply or to garbage, in their order; blank
lines, complaints and silence add nothing, and behind an outcome that ends the program nothing comes
out. No reply has a line feed in it, and every reply that is not nested too deep is read as a
success or as a fault. A line that is not blank and is no document, or a document without a member
that names an operation, is answered with one fault, and the objects stay as they are. -/
theorem keeps_line_protocol {path : String} {bytes : List UInt8} {m : Manifest}
    (hm : Manifest.read bytes = .ok m) :
    (∀ lines, KeepsProtocol m (begin (some (path, .ok bytes))) lines) ∧
    (∀ there s line, ¬ Text.isBlankText line = true →
      (∀ request, Json.readValue (Text.Utf8.bytes line) = .ok request → Unnamed request) →
      ∃ message stack, serve there s line = ([.out (lineOf (faultText message))], s) ∧
        Envelope.decodeLine (faultText message) = .ok (.fault message stack)) ∧
    ∀ (input : List UInt8) (texts : List String), Host.linesOf input = texts.map .line →
      run (some (path, .ok bytes)) input = Transcript.of
        (begin (some (path, .ok bytes)) ++ serveLines .empty (texts.map fun t => (true, t))) := by
  refine ⟨keepsProtocol_begin hm, fun there s line => serve_unnamed, ?_⟩
  intro input texts htexts
  rw [run, htexts, serveLines_map]

/-- The usual kernel is given what is no document, a blank line, and requests to create an object,
to talk garbage, to be mute and to crash; the line behind them is not served. -/
theorem usual_keeps_line_protocol :
    let invoke (method : String) : String := (Json.obj [("api", .str "invoke"),
      ("objref", .obj [(idKey, .str "Object@10001")]), ("method", .str method)]).text
    let lines := ["nonsense", " ", (Json.obj [("api", .str "create")]).text, invoke "garbage",
      invoke "mute", invoke "crash", "\x7b\x7d"].map fun line => (true, line)
    Manifest.read [] = .ok .usual ∧
    KeepsProtocol .usual (begin (some ("kernel.json", .ok []))) lines ∧
    (outcomes .empty lines).map Outcome.line? =
      [some (faultText "invalid request: expected ident at line 1 column 2"),
        some (okText (only idKey (.str "Object@10001"))), some "this is not json", none, none] :=
  ⟨rfl, (keeps_line_protocol rfl).1 _, by decide +kernel⟩

end KernelLink.Mock
