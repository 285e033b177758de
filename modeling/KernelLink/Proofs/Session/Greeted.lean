import KernelLink.Proofs.Session.Launching
import KernelLink.Proofs.Session.Listening
import KernelLink.Proofs.Wire.Greetings
/-!
# When a kernel is greeted

The first line of a kernel that is not blank decides, if it comes in time: the kernel has greeted if
the line is a document and no fault, its payload is a greeting record, and the greeting has a
version. If only the version is missing the launch fails because of it; in every other case it fails
because of the handshake. The lines behind the greeting are left for the first call.

Main definitions:
* `Handshake.Greets`: a line with a greeting.
* `Handshake.InTime`, `Handshake.Punctual`: a line in time, and waiting that is not overslept.
* `Handshake.Acceptance`: when a kernel has greeted.

Main results:
* `Handshake.judgment`: what is made of a line.
* `Handshake.greeting_decides`: every handshake is as described.
-/
namespace KernelLink.Session.Handshake

open Host (Delivery)
open Envelope (Kind)
open Greeting (Around HasVersion)
open Json (Document nestingLimit)

variable {timing : Timing} {w : Wires} {events past early : List Event} {d : Delivery}
  {text hello : String}

/-! ## What a line is -/

/-- The line is a document that is no fault, and its payload, from which at most one envelope is
taken off, is a greeting record around `hello`. -/
def Greets (text hello : String) : Prop :=
  ∃ v payload, Document (Text.trim text.toList) v ∧ v.depth ≤ nestingLimit ∧
    (Kind v (.ok payload) ∨ Kind v (.bare payload)) ∧ Around hello payload

/-- A line greets exactly if it can be decoded, its payload is no fault, and that is a greeting
record. -/
theorem greets_iff :
    Greets text hello ↔ ∃ envelope payload, Envelope.decodeLine text = .ok envelope ∧
      envelope.payload = .ok payload ∧ Greeting.ofPayload payload = .ok hello := by
  constructor
  · rintro ⟨v, payload, hdocument, hdepth, hkind | hkind, haround⟩
    · exact ⟨_, payload, Envelope.decodeLine_iff.mpr ⟨v, hdocument, hdepth, hkind⟩, rfl,
        Greeting.ofPayload_iff.mpr haround⟩
    · exact ⟨_, payload, Envelope.decodeLine_iff.mpr ⟨v, hdocument, hdepth, hkind⟩, rfl,
        Greeting.ofPayload_iff.mpr haround⟩
  · rintro ⟨envelope, payload, hdecode, hpayload, hrecord⟩
    obtain ⟨v, hdocument, hdepth, hkind⟩ := Envelope.decodeLine_iff.mp hdecode
    refine ⟨v, payload, hdocument, hdepth, ?_, Greeting.ofPayload_iff.mp hrecord⟩
    cases envelope with
    | ok p =>
      obtain rfl := Except.ok.inj hpayload
      exact Or.inl hkind
    | bare p =>
      obtain rfl := Except.ok.inj hpayload
      exact Or.inr hkind
    | fault message stack => exact nomatch hpayload

/-- A line with a greeting is judged by its version and nothing else, which is where `judge` looks
last. -/
theorem judge_of_greets (h : Greets text hello) :
    judge text = (Greeting.version hello).map fun version => ⟨hello, version⟩ := by
  obtain ⟨envelope, payload, hdecode, hpayload, hrecord⟩ := greets_iff.mp h
  simp only [judge, hdecode, hpayload, hrecord]

/-- What a line is judged to be. -/
inductive Judgment (text : String) : Except LinkError Hello → Prop where
  /-- A greeting with its version. -/
  | greeted {hello : Hello} (greets : Greets text hello.greeting)
      (version : HasVersion hello.greeting hello.version) : Judgment text (.ok hello)
  /-- A greeting without a version. -/
  | unversioned {hello : String} (greets : Greets text hello)
      (none : ∀ version, ¬ HasVersion hello version) :
      Judgment text (.error (.versionParse hello))
  /-- No greeting. -/
  | refused (none : ∀ hello, ¬ Greets text hello) (why : String) :
      Judgment text (.error (.handshake why))

/-- Every line is what it is judged to be; the cases are those of `judge`, from the outside of the
line inwards. -/
theorem judgment (text : String) : Judgment text (judge text) := by
  by_cases hgreets : ∃ hello, Greets text hello
  · obtain ⟨hello, hgreets⟩ := hgreets
    rw [judge_of_greets hgreets]
    cases hversion : Greeting.version hello with
    | error e =>
      obtain ⟨rfl, hnone⟩ := Greeting.version_error_iff.mp hversion
      exact .unversioned hgreets hnone
    | ok version => exact .greeted hgreets (Greeting.version_iff.mp hversion)
  · -- one of the steps of reading it fails
    have hnone : ∀ hello, ¬ Greets text hello := fun hello h => hgreets ⟨hello, h⟩
    unfold judge
    split
    · exact .refused hnone _
    · next envelope hdecode =>
      split
      · exact .refused hnone _
      · next payload hpayload =>
        split
        · exact .refused hnone _
        · next hello hrecord =>
          exact absurd (greets_iff.mpr ⟨envelope, payload, hdecode, hpayload, hrecord⟩)
            (hnone hello)

/-- The lines that are greetings: those that greet, with a version in the greeting. -/
theorem judge_iff {hello : Hello} :
    judge text = .ok hello ↔
      Greets text hello.greeting ∧ HasVersion hello.greeting hello.version := by
  constructor
  · intro h
    have hjudgment := judgment text
    rw [h] at hjudgment
    cases hjudgment with
    | greeted greets version => exact ⟨greets, version⟩
  · rintro ⟨hgreets, hversion⟩
    rw [judge_of_greets hgreets, Greeting.version_iff.mpr hversion]
    rfl

/-- The lines that lack nothing but a version: they greet, and no text between the last at sign and
the end is one. -/
theorem judge_versionParse_iff :
    judge text = .error (.versionParse hello) ↔
      Greets text hello ∧ ∀ version, ¬ HasVersion hello version := by
  constructor
  · intro h
    have hjudgment := judgment text
    rw [h] at hjudgment
    cases hjudgment with
    | unversioned greets none => exact ⟨greets, none⟩
  · rintro ⟨hgreets, hnone⟩
    rw [judge_of_greets hgreets, Greeting.version_error_iff.mpr ⟨rfl, hnone⟩]
    rfl

/-- The errors of a handshake. -/
def Refusal (e : LinkError) : Prop := (∃ hello, e = .versionParse hello) ∨ ∃ why, e = .handshake why

/-- A line that is no greeting is refused as such, for one of two reasons. -/
theorem verdict_error {e : LinkError} (h : verdict d = .error e) : Refusal e := by
  cases d with
  | line text =>
    have hjudgment := judgment text
    rw [show judge text = .error e from h] at hjudgment
    cases hjudgment with
    | unversioned => exact Or.inl ⟨_, rfl⟩
    | refused none why => exact Or.inr ⟨why, rfl⟩
  | unreadable fault => exact Or.inr ⟨_, (Except.error.inj h).symm⟩
  | ended => exact Or.inr ⟨_, (Except.error.inj h).symm⟩

/-- What is no error of the handshake was made of a text. -/
theorem verdict_iff {result : Except LinkError Hello}
    (hr : ∀ why, result ≠ .error (.handshake why)) :
    verdict d = result ↔ ∃ text, d = .line text ∧ judge text = result := by
  cases d with
  | line text =>
    constructor
    · exact fun h => ⟨text, rfl, h⟩
    · rintro ⟨_, hline, h⟩
      obtain rfl := Delivery.line.inj hline
      exact h
  | unreadable fault =>
    refine ⟨fun h => absurd h.symm (hr _), ?_⟩
    rintro ⟨_, hline, -⟩
    exact nomatch hline
  | ended =>
    refine ⟨fun h => absurd h.symm (hr _), ?_⟩
    rintro ⟨_, hline, -⟩
    exact nomatch hline

/-! ## Lines in time -/

/-- Behind `early` the line `d` has come, the first that is not blank, and the time has not run
out. -/
structure InTime (timing : Timing) (w : Wires) (early : List Event) (d : Delivery) : Prop where
  /-- It is the first line. -/
  first : (heard timing w early).head? = some d
  /-- The deadline has not passed. -/
  deadline : (after timing w early).2.now < expiry timing w

/-- Once the deadline has come, the waiting is polled until it has ended, before anything else
happens. -/
def Punctual (timing : Timing) (w : Wires) (events : List Event) : Prop :=
  ∀ past e rest, events = past ++ e :: rest → (∀ i, e ≠ .poll i) →
    expiry timing w ≤ (after timing w past).2.now → (after timing w past).1.Over

theorem Punctual.of_append {more : List Event} (h : Punctual timing w (past ++ more)) :
    Punctual timing w past := by
  rintro before e rest rfl hother
  exact h before e (rest ++ more) (by simp) hother

/-- A poll takes no time, so it may come at any moment of a punctual run. -/
theorem Punctual.poll (h : Punctual timing w past) (i : Nat) :
    Punctual timing w (past ++ [.poll i]) := by
  intro before e rest hsplit hother
  rcases List.eq_nil_or_concat rest with rfl | ⟨rest', e', rfl⟩
  · obtain ⟨-, he⟩ := List.append_inj' hsplit rfl
    exact absurd (List.cons.inj he).1.symm (hother i)
  · rw [List.concat_eq_append, ← List.cons_append, ← List.append_assoc] at hsplit
    obtain ⟨hpast, -⟩ := List.append_inj' hsplit rfl
    exact h before e rest' hpast hother

theorem Punctual.polls (h : Punctual timing w past) (n : Nat) :
    Punctual timing w (past ++ List.replicate n (.poll 0)) := by
  induction n with
  | zero =>
    rw [List.replicate_zero, List.append_nil]
    exact h
  | succ n ih =>
    rw [List.replicate_succ', ← List.append_assoc]
    exact ih.poll 0

/-- Before the deadline the waiting cannot be overslept, since the clock never goes back. -/
theorem punctual_of_early (h : (after timing w events).2.now < expiry timing w) :
    Punctual timing w events := by
  rintro past e rest rfl - hlate
  have hnow := now_le timing w past (e :: rest)
  exact absurd (Nat.le_trans hlate hnow) (Nat.not_le_of_lt h)

/-- The first line of a kernel whose waiting goes on has come in time, if the waiting is not
overslept. -/
theorem Punctual.inTime (htimeout : 0 < timing.handshakeTimeout) (h : Punctual timing w past)
    (hgoing : ¬ (after timing w past).1.Over) (hd : (heard timing w past).head? = some d) :
    ∃ early, early <+: past ∧ InTime timing w early d := by
  induction past using List.reverseRecOn with
  | nil => exact ⟨[], List.prefix_rfl, hd, Nat.lt_add_of_pos_right htimeout⟩
  | append_singleton before e ih =>
    have hstep := apply_cases timing (after timing w before) e
    rw [← after_concat] at hstep
    have hopen : ¬ (after timing w before).1.Over := by
      rintro ⟨result, hresult⟩
      exact hgoing ⟨result, hstep.finished hresult⟩
    cases hfirst : (heard timing w before).head? with
    | some d' =>
      have hboth := World.head?_of_prefix (heard_concat w before e) hfirst
      obtain rfl := Option.some.inj (hboth.symm.trans hd)
      obtain ⟨early, hearly, hin⟩ := ih h.of_append hopen hfirst
      exact ⟨early, hearly.trans (List.prefix_append _ _), hin⟩
    | none =>
      -- the line comes with this event, which is no poll, so the deadline has not come
      have hnew : heard timing w (before ++ [e]) ≠ heard timing w before := by
        intro hsame
        rw [hsame, hfirst] at hd
        exact nomatch hd
      have hother : ∀ i, e ≠ .poll i := by
        rintro i rfl
        exact hnew (after_poll timing w before i).1
      have hearly : (after timing w before).2.now < expiry timing w :=
        Nat.lt_of_not_le fun hlate => hopen (h before e [] rfl hother hlate)
      rcases hstep.instant with hnow | ⟨houtput, hnone⟩
      · exact ⟨before ++ [e], List.prefix_rfl, hd, hnow ▸ hearly⟩
      · exact absurd (heard_concat_of_silent (by rw [houtput]) hnone) hnew

/-- A line that has come in time before some polls has come in time without them. -/
theorem InTime.without_polls {n : Nat}
    (hearly : early <+: past ++ List.replicate n (.poll 0)) (h : InTime timing w early d) :
    ∃ early', early' <+: past ∧ InTime timing w early' d := by
  induction n generalizing early with
  | zero =>
    rw [List.replicate_zero, List.append_nil] at hearly
    exact ⟨early, hearly, h⟩
  | succ n ih =>
    rw [List.replicate_succ', ← List.append_assoc, List.prefix_concat_iff] at hearly
    rcases hearly with rfl | hearly
    · obtain ⟨hsame, hnow⟩ := after_poll timing w
        (past ++ List.replicate n (.poll 0)) 0
      exact ih List.prefix_rfl ⟨hsame ▸ h.first, hnow ▸ h.deadline⟩
    · exact ih hearly h

/-! ## How the waiting ends -/

/-- The waiting ends with nothing but what is made of a line in time. -/
theorem InTime.result {result : Except LinkError Hello} (h : InTime timing w early d)
    (hearly : early <+: events) (hr : (after timing w events).1 = .finished result) :
    result = verdict d := by
  obtain ⟨past, i, rest, rfl, -, hending⟩ := after_ended hr
  have hpast : past <+: past ++ .poll i :: rest := List.prefix_append _ _
  have hgrows : ∀ {front : List Event}, front <+: past ++ .poll i :: rest →
      heard timing w front <+: heard timing w (past ++ .poll i :: rest) := by
    rintro front ⟨more, hmore⟩
    rw [← hmore]
    exact heard_grows w front more
  cases hending with
  | heard first =>
    have hboth := World.head?_of_prefix (hgrows hpast) first
    rw [World.head?_of_prefix (hgrows hearly) h.first] at hboth
    rw [Option.some.inj hboth]
  | silent why none expired =>
    exfalso
    -- either the line had come by then, or it came only after the waiting had ended
    rcases List.prefix_or_prefix_of_prefix hearly hpast with ⟨more, rfl⟩ | ⟨more, rfl⟩
    · have hfirst := World.head?_of_prefix (heard_grows w early more) h.first
      rw [none] at hfirst
      exact nomatch hfirst
    · rcases expired with hlate | hshut
      · exact absurd (Nat.le_trans hlate (now_le timing w past more)) (Nat.not_le_of_lt h.deadline)
      · have hfirst := h.first
        rw [(heard_of_shut hshut more).1, none] at hfirst
        exact nomatch hfirst

/-- A line in time decides, as soon as the waiting is polled often enough. -/
theorem InTime.decides (h : InTime timing w early d) (hearly : early <+: events) :
    ∃ n, (after timing w (events ++ List.replicate n (.poll 0))).1 = .finished (verdict d) := by
  by_cases hover : (after timing w events).1.Over
  · obtain ⟨result, hr⟩ := hover
    rw [h.result hearly hr] at hr
    refine ⟨0, ?_⟩
    rw [List.replicate_zero, List.append_nil]
    exact hr
  · obtain ⟨more, rfl⟩ := hearly
    have hfirst := World.head?_of_prefix (heard_grows w early more) h.first
    exact hears_out hover hfirst

/-- If the waiting is not overslept, it ends with a line exactly if that has come in time. -/
theorem Punctual.verdict_iff {result : Except LinkError Hello}
    (htimeout : 0 < timing.handshakeTimeout) (h : Punctual timing w events)
    (hr : ∀ why, result ≠ .error (.handshake why)) :
    (∃ n, (after timing w (events ++ List.replicate n (.poll 0))).1 = .finished result) ↔
      ∃ early text, early <+: events ∧ InTime timing w early (.line text) ∧
        judge text = result := by
  constructor
  · rintro ⟨n, hn⟩
    obtain ⟨past, i, rest, hsplit, hgoing, hending⟩ := after_ended hn
    -- the polls that are added do not oversleep it either
    have hpast : Punctual timing w past := by
      have hall := h.polls n
      rw [hsplit] at hall
      exact hall.of_append
    cases hending with
    | silent why => exact absurd rfl (hr why)
    | heard first =>
      obtain ⟨text, rfl, hjudge⟩ := (Handshake.verdict_iff hr).mp rfl
      obtain ⟨early, hearly, hin⟩ := hpast.inTime htimeout hgoing first
      have hprefix : early <+: events ++ List.replicate n (.poll 0) :=
        hearly.trans ⟨.poll i :: rest, hsplit.symm⟩
      obtain ⟨early', hearly', hin'⟩ := hin.without_polls hprefix
      exact ⟨early', text, hearly', hin', hjudge⟩
  · rintro ⟨early, text, hearly, hin, rfl⟩
    exact hin.decides hearly

/-! ## Every handshake -/

/-- A configuration that is not refused gives the kernel time to greet. -/
theorem handshakeTimeout_pos {c : LaunchConfig} (h : c.validate = .ok ()) :
    0 < c.timing.handshakeTimeout := by
  have htiming : c.timing.validate = .ok () := by
    unfold LaunchConfig.validate at h
    split at h
    · exact nomatch h
    · split at h
      · exact nomatch h
      · exact h
  unfold Timing.validate at htiming
  split at htiming
  · exact nomatch htiming
  · next hpos => exact Nat.pos_of_ne_zero hpos

/-- When a kernel is greeted that is launched as configured, if the waiting for its greeting begins
over the wires `w`, and `events` is what happens then. -/
structure Acceptance (c : LaunchConfig) (w : Wires) (events : List Event) : Prop where
  /-- The kernel has greeted exactly if the first line that is not blank comes in time, is a
  document and no fault, and its payload is a greeting record around a greeting with a version. -/
  greets : Punctual c.timing w events → ∀ hello : Hello,
    (∃ n, (after c.timing w (events ++ List.replicate n (.poll 0))).1 = .finished (.ok hello)) ↔
      ∃ early text, early <+: events ∧ InTime c.timing w early (.line text) ∧
        Greets text hello.greeting ∧ HasVersion hello.greeting hello.version
  /-- The version is at fault exactly if nothing else is. -/
  unversioned : Punctual c.timing w events → ∀ hello : String,
    (∃ n, (after c.timing w (events ++ List.replicate n (.poll 0))).1 =
        .finished (.error (.versionParse hello))) ↔
      ∃ early text, early <+: events ∧ InTime c.timing w early (.line text) ∧
        Greets text hello ∧ ∀ version, ¬ HasVersion hello version
  /-- However the waiting is polled, the line that the kernel has greeted with came while the
  waiting went on. -/
  came : ∀ hello, (after c.timing w events).1 = .finished (.ok hello) →
    ∃ early text, early <+: events ∧ ¬ (after c.timing w early).1.Over ∧
      (heard c.timing w early).head? = some (.line text) ∧ judge text = .ok hello
  /-- There are no errors but these and those of the handshake. -/
  refused : ∀ e, (after c.timing w events).1 = .finished (.error e) → Refusal e
  /-- The waiting ends once the first line has come, or the deadline. -/
  ends : heard c.timing w events ≠ [] ∨ expiry c.timing w ≤ (after c.timing w events).2.now →
    ∃ n, (after c.timing w (events ++ List.replicate n (.poll 0))).1.Over
  /-- The first line alone decides, if it comes in time, whatever comes behind it. -/
  decides : ∀ early d, early <+: events → InTime c.timing w early d →
    ∃ n, (after c.timing w (events ++ List.replicate n (.poll 0))).1 = .finished (verdict d)
  /-- The conversation begins with no reply due, and with all lines unread but that of the
  greeting. -/
  hands : ∀ hello, (after c.timing w events).1 = .finished (.ok hello) →
    (World.new c.timing (after c.timing w events).2).phase = .ready ∧
      ∃ text, judge text = .ok hello ∧
        (after c.timing w events).2.output.Accounts (written c.timing w events) [.line text] ∧
        heard c.timing w events =
          .line text :: (World.new c.timing (after c.timing w events).2).unread
  /-- The launch gives what the waiting has ended with. -/
  launches : ∀ es result greeting, (after c.timing w events).1 = .finished greeting →
    (launch c).Runs es result → ⟨.greet, greeting⟩ ∈ es → result = greeting

/-- A waiting that has succeeded has read one line, which was the greeting, and left the rest of the
output unread. -/
theorem hands_over {hello : Hello}
    (h : (after timing w events).1 = .finished (.ok hello)) :
    ∃ text, judge text = .ok hello ∧
      (after timing w events).2.output.Accounts (written timing w events) [.line text] := by
  obtain ⟨read, hstands, haccount⟩ := standing_after timing w events
  rw [h] at hstands
  generalize hresult : Except.ok hello = result at hstands
  cases hstands with
  | judged d =>
    obtain ⟨text, rfl, -⟩ := (verdict_iff fun why => by simp).mp hresult.symm
    exact ⟨text, rfl, haccount⟩
  | silent why => exact nomatch hresult

/-- Every handshake of a launch that is not refused is as described. -/
theorem greeting_decides (c : LaunchConfig) (hvalid : c.validate = .ok ()) (w : Wires)
    (events : List Event) : Acceptance c w events where
  greets hpunctual hello := by
    rw [hpunctual.verdict_iff (handshakeTimeout_pos hvalid) fun why => by simp]
    simp only [judge_iff]
  unversioned hpunctual hello := by
    rw [hpunctual.verdict_iff (handshakeTimeout_pos hvalid) fun why => by simp]
    simp only [judge_versionParse_iff]
  came hello h := by
    -- what ended the waiting was a poll, at which a line was heard or there was none any more
    obtain ⟨past, i, rest, rfl, hgoing, hending⟩ := after_ended h
    generalize hresult : Except.ok hello = result at hending
    cases hending with
    | heard first =>
      obtain ⟨text, rfl, -⟩ := (verdict_iff fun why => by simp).mp hresult.symm
      exact ⟨past, text, List.prefix_append _ _, hgoing, first, rfl⟩
    | silent why => exact nomatch hresult
  refused e he := by
    obtain ⟨past, i, rest, -, -, hending⟩ := after_ended he
    generalize hresult : Except.error e = result at hending
    cases hending with
    | heard first => exact verdict_error hresult.symm
    | silent why => exact Or.inr ⟨why, Except.error.inj hresult⟩
  ends hcause := by
    -- it has ended already, or there is something to hear, or the deadline has come
    by_cases hover : (after c.timing w events).1.Over
    · refine ⟨0, ?_⟩
      rw [List.replicate_zero, List.append_nil]
      exact hover
    · rcases hcause with hline | hlate
      · obtain ⟨d, hd⟩ := Option.ne_none_iff_exists'.mp fun hnone =>
          hline (List.head?_eq_none_iff.mp hnone)
        obtain ⟨n, hn⟩ := hears_out hover hd
        exact ⟨n, verdict d, hn⟩
      · exact expires hover hlate
  decides early d hearly hin := hin.decides hearly
  hands hello h := by
    obtain ⟨text, hjudge, haccount⟩ := hands_over h
    exact ⟨rfl, text, hjudge, haccount, heard_eq haccount⟩
  launches es result greeting _ hruns hm := Launch.launch_gives hruns hm

/-! ## One handshake -/

/-- A kernel from an embedded artifact that has five milliseconds to greet. -/
def smallLaunch : LaunchConfig :=
  ⟨"k", "node", [], [], .embedded [123, 125] ".js", none, ⟨5, 9, 3, 1, 9⟩⟩

/-- The line of a greeting. -/
def smallGreeting : String := "\x7b\"hello\":\"@k@1\"\x7d"

/-- A blank line comes, then the greeting in two pieces, and the beginning of another line. -/
def smallHandshake : List Event :=
  [.kernelWrites [10, 123, 34], .poll 0, .pass 2, .poll 0,
    .kernelWrites ((Text.Utf8.bytes smallGreeting).drop 2 ++ [10, 120])]

/-- The kernel has greeted, although its greeting stands behind a blank line. -/
theorem greeted_behind_blank_line :
    smallLaunch.validate = .ok () ∧
    InTime smallLaunch.timing (.new 0 9) smallHandshake (.line smallGreeting) ∧
    ∃ n, (after smallLaunch.timing (.new 0 9)
      (smallHandshake ++ List.replicate n (.poll 0))).1 = .finished (.ok ⟨"@k@1", "1"⟩) := by
  have hin : InTime smallLaunch.timing (.new 0 9) smallHandshake (.line smallGreeting) :=
    ⟨by decide +kernel, by decide +kernel⟩
  have hjudge : judge smallGreeting = .ok ⟨"@k@1", "1"⟩ := by decide +kernel
  have haccepted := greeting_decides smallLaunch rfl (.new 0 9) smallHandshake
  have hpunctual : Punctual smallLaunch.timing (.new 0 9) smallHandshake :=
    punctual_of_early (by decide +kernel)
  exact ⟨rfl, hin, (haccepted.greets hpunctual _).mpr
    ⟨_, _, List.prefix_rfl, hin, judge_iff.mp hjudge⟩⟩

end KernelLink.Session.Handshake
