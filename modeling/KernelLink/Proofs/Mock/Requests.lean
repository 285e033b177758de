import KernelLink.Proofs.Mock.Objects
import KernelLink.Proofs.Mock.Replies
import KernelLink.Proofs.Wire.Decoded
import KernelLink.Wire.Request
/-!
# What the stand-in kernel does with a request

The kernel reads the line of a request as a document like the one that was written, so it sees the
operation and the object that the request names. A request about another object, or about none,
leaves the properties of an object as they are. Setting a property is refused exactly if the object
is not alive or the line is nested too deep; getting it gives its value in a reply that is nested
two levels deeper than the value.

Main definitions:
* `Request.target?`: the object that a request is about.
* `Mock.setLimit`, `Mock.getLimit`: how deep a value may be nested to be set, and to be got.

Main results:
* `Mock.property?_onLine`: requests about other objects change nothing.
* `Mock.onLine_set`, `Mock.onLine_get`: setting and getting a property.
* `Mock.decodeLine_fault`, `Mock.decodeLine_got`, `Mock.decodeLine_got_tooDeep`: the replies.
-/
namespace KernelLink

open Json (Alike AlikeMembers nestingLimit)

/-! ## Requests as documents -/

namespace Request

/-- The object that a request is about, if it is about one. -/
def target? : Request → Option ObjRef
  | .get target _ | .set target _ _ | .invoke target _ _ | .del target => some target
  | .load _ _ _ | .create _ _ | .staticInvoke _ _ _ => none

/-- The members of a request as a document. -/
def members (r : Request) : List (String × Json) :=
  ("api", .str r.api.name) :: (r.api.shape.fields.map (·.name)).zip r.values

/-- A request is written as an object of its members, with the tag in front. -/
theorem toJson_eq (r : Request) : r.toJson = .obj r.members := by
  unfold members
  rw [← Api.tag_eq_name]
  rfl

/-- No two members of a request have the same name, so each is found under its name. -/
theorem nodup_members (r : Request) : (r.members.map Prod.fst).Nodup := by
  cases r <;> simp [members, api, Api.shape, values, Json.Field.required, Json.Field.defaulted,
    Api.target, Api.arguments]

theorem lookup_api (r : Request) : r.members.lookup "api" = some (.str r.api.name) := rfl

/-- The object of a request stands under its name exactly if the operation has one. -/
theorem lookup_objref (r : Request) :
    r.members.lookup "objref" = r.target?.map ObjRef.toJson := by
  cases r <;> rfl

end Request

theorem ObjRef.whole_toJson (o : ObjRef) : o.toJson.whole = true := rfl

theorem ObjRef.normal_toJson (o : ObjRef) : o.toJson.normal = o.toJson := rfl

namespace Mock

open Host (Delivery)

/-! ## What the kernel sees -/

variable {r : Request} {w : Json} {there : Bool} {s : Store}

/-- The kernel sees a member as it was written, but for its normal form. -/
theorem member_seen (h : Alike r.toJson w) {key : String} {v : Option Json}
    (hv : r.members.lookup key = v) (hwhole : ∀ u, v = some u → u.whole = true) :
    w.normal.member key = (v.map Json.normal).getD .null := by
  rw [r.toJson_eq] at h
  cases h with
  | @obj _ ns h =>
    have hnodup : (ns.map Prod.fst).Nodup := by
      rw [h.keys]
      exact r.nodup_members
    rw [Json.member_normal hnodup]
    rcases h.lookup key with ⟨hnone, hw⟩ | ⟨u, u', hu, hw, halike⟩
    · rw [hw, ← hv, hnone]
    · rw [hu] at hv
      rw [hw, ← hv, halike.eq (hwhole u hv.symm)]

/-- The kernel finds in what it has read the operation that was requested. -/
theorem textOf_api (h : Alike r.toJson w) : textOf "api" w.normal = r.api.name := by
  unfold textOf
  rw [member_seen h r.lookup_api]
  · rfl
  · rintro u hu
    rw [← Option.some.inj hu]
    rfl

/-- The kernel finds in what it has read the object that the request is about, if it is about one.
-/
theorem objectOf_request (h : Alike r.toJson w) :
    objectOf w.normal = r.target?.map ObjRef.id := by
  unfold objectOf
  rw [member_seen h r.lookup_objref]
  · cases r.target? with
    | none => rfl
    | some o => rw [Option.map_some, Option.map_some, o.normal_toJson]; rfl
  · rintro u hu
    obtain ⟨o, -, rfl⟩ := Option.map_eq_some_iff.mp hu
    exact o.whole_toJson

theorem bytes_text (v : Json) : Text.Utf8.bytes v.text = Text.Utf8.encode v.chars := by
  unfold Text.Utf8.bytes Json.text
  rw [String.toList_ofList]

/-- The kernel reads the line of a request and does what it asks for. -/
theorem onLine_request (there : Bool) (s : Store) (r : Request) :
    onLine there s (.line r.toJson.text) =
      ((answer there s r.toJson.text).1.effects, (answer there s r.toJson.text).2) := by
  have hinked : ¬ Text.isBlankText r.toJson.text = true := by
    rw [r.toJson_eq, (isReply_obj r.members).inked]
    exact Bool.false_ne_true
  show serve there s r.toJson.text = _
  unfold serve
  rw [if_neg hinked]

/-- A line that can be read is answered by what its document asks for. -/
theorem answer_of_ok (h : Json.read (Text.Utf8.encode r.toJson.chars) = .ok w) :
    answer there s r.toJson.text = dispatch there s w.normal := by
  unfold answer Json.readValue
  rw [bytes_text, h]
  rfl

/-- A line that cannot be read is answered by an error that says why, and the store stays. -/
theorem answer_of_error {e : Json.ReadError}
    (h : Json.read (Text.Utf8.encode r.toJson.chars) = .error e) :
    answer there s r.toJson.text = (fault ("invalid request: " ++ e.message), s) := by
  unfold answer Json.readValue
  rw [bytes_text, h]
  rfl

/-! ## Requests about other objects -/

/-- Of a request about another object, or about none, an object notices nothing. -/
theorem dispatch_other {request v : Json} {id property : String} (hs : s.Named)
    (hid : objectOf request ≠ some id) (hv : s.property? id property = some v) :
    (dispatch there s request).2.property? id property = some v := by
  -- what is done to the object that was asked about leaves this one alone
  have hother : ∀ {f : String → Object → Outcome × Store},
      (∀ id' object, id' ≠ id → (f id' object).2.property? id property = some v) →
      (onObject s request f).2.property? id property = some v := fun hf =>
    onObject_rule (P := fun r => r.2.property? id property = some v) (fun _ => hv)
      fun id' object hid' _ => hf id' object fun heq => hid (heq ▸ hid')
  unfold dispatch
  split
  · exact hv
  · exact Store.property?_create_other hs _ _ hv
  · refine hother fun id' object _ => ?_
    split
    · exact hv
    · exact hv
  · refine hother fun id' object hne => ?_
    rw [Store.property?_assign_other s (Ne.symm hne)]
    exact hv
  · exact hother fun id' object _ => hv
  · exact hv
  · refine hother fun id' object hne => ?_
    rw [Store.property?_release_other s (Ne.symm hne)]
    exact hv
  · exact hv

/-- Whatever is asked, every object keeps the name that its number gives it. -/
theorem named_dispatch {request : Json} (hs : s.Named) : (dispatch there s request).2.Named := by
  have hobject : ∀ {f : String → Object → Outcome × Store},
      (∀ id object, (f id object).2.Named) → (onObject s request f).2.Named := fun hf =>
    onObject_rule (P := fun r => r.2.Named) (fun _ => hs) fun id object _ _ => hf id object
  unfold dispatch
  split
  · exact hs
  · exact hs.create _ _
  · refine hobject fun id object => ?_
    split
    · exact hs
    · exact hs
  · exact hobject fun id object => hs.assign _ _ _
  · exact hobject fun id object => hs
  · exact hs
  · exact hobject fun id object => hs.release _
  · exact hs

/-- No line changes that every object has the name of its number, since a line that is not a request
changes no object. -/
theorem named_onLine (hs : s.Named) (d : Delivery) : (onLine there s d).2.Named := by
  cases d with
  | line text =>
    simp only [onLine, serve]
    split
    · exact hs
    · show (answer there s text).2.Named
      unfold answer
      split
      · exact named_dispatch hs
      · exact hs
  | unreadable fault => exact hs
  | ended => exact hs

/-- Nor do many lines. Induction on the lines, one after the other. -/
theorem named_storeAfter (hs : s.Named) (ds : List Delivery) : (storeAfter there s ds).Named := by
  induction ds generalizing s with
  | nil => exact hs
  | cons d ds ih => exact ih (named_onLine hs d)

/-- Of the line of a request about another object, or about none, an object notices nothing. -/
theorem property?_onLine {o : ObjRef} {property : String} {v : Json} (hs : s.Named)
    (hr : r.target? ≠ some o) (hv : s.property? o.id property = some v) :
    (onLine there s (.line r.toJson.text)).2.property? o.id property = some v := by
  have hread := Json.read_chars r.toJson
  rw [onLine_request]
  cases hw : Json.read (Text.Utf8.encode r.toJson.chars) with
  | error e =>
    rw [answer_of_error hw]
    exact hv
  | ok w =>
    rw [hw] at hread
    have hid : objectOf w.normal ≠ some o.id := by
      rw [objectOf_request hread.1]
      intro heq
      obtain ⟨⟨id⟩, ho, rfl⟩ := Option.map_eq_some_iff.mp heq
      exact hr ho
    rw [answer_of_ok hw]
    exact dispatch_other hs hid hv

/-- Nor does it of many such lines, by induction on them: what is not about an object leaves its
properties. -/
theorem property?_storeAfter {o : ObjRef} {property : String} {v : Json} {ds : List Delivery}
    (hs : s.Named)
    (hds : ∀ d ∈ ds, ∃ r : Request, d = .line r.toJson.text ∧ r.target? ≠ some o)
    (hv : s.property? o.id property = some v) :
    (storeAfter there s ds).property? o.id property = some v := by
  induction ds generalizing s with
  | nil => exact hv
  | cons d ds ih =>
    obtain ⟨r, rfl, hr⟩ := hds d List.mem_cons_self
    rw [storeAfter_cons]
    exact ih (named_onLine hs _) (fun d' hd' => hds d' (List.mem_cons_of_mem _ hd'))
      (property?_onLine hs hr hv)

/-! ## Setting and getting a property -/

/-- How deep a value may be nested to be set: around it there is the request. -/
def setLimit : Nat := nestingLimit - 1

/-- How deep a value may be nested to be got: around it there are the payload and the reply. -/
def getLimit : Nat := nestingLimit - 2

/-- A request whose numbers all fit and that is not nested too deep is answered by what it asks for.
-/
theorem answer_whole (hw : r.toJson.whole = true) (hd : r.toJson.depth ≤ nestingLimit) :
    answer there s r.toJson.text = dispatch there s r.toJson.normal :=
  answer_of_ok (Json.read_chars_whole hw hd)

/-- A request that is nested too deep is answered by an error, and the store stays. -/
theorem answer_tooDeep (hd : nestingLimit < r.toJson.depth) :
    ∃ message, answer there s r.toJson.text = (fault message, s) := by
  obtain ⟨e, he⟩ := Json.read_chars_tooDeep hd
  exact ⟨_, answer_of_error he⟩

/-- A request to set a property is nested one level deeper than the value that it carries, so the
value may have one level less than a document. -/
theorem depth_set (o : ObjRef) (property : String) (v : Json) :
    (Request.set o property v).toJson.depth ≤ nestingLimit ↔ v.depth ≤ setLimit := by
  have hdepth : (Request.set o property v).toJson.depth = max 1 v.depth + 1 := by
    show (Json.obj [("api", _), ("objref", .obj [("$jsii.byref", .str o.id)]), ("property", _),
      ("value", v)]).depth = _
    simp only [Json.depth, Json.depthMembers]
    omega
  have hlimit : nestingLimit = 127 := rfl
  have hset : setLimit = 126 := rfl
  omega

/-- The numbers in a request to set a property are those of its value. -/
theorem whole_set {o : ObjRef} {property : String} {v : Json} (hw : v.whole = true) :
    (Request.set o property v).toJson.whole = true := by
  show Json.wholeMembers [("api", _), ("objref", o.toJson), ("property", _), ("value", v)] = true
  simp only [Json.wholeMembers, hw, o.whole_toJson]
  rfl

/-- The kernel sees the property, and the value in normal form, since it reads documents in that
form. -/
theorem seen_set (o : ObjRef) (property : String) (v : Json) :
    textOf "property" (Request.set o property v).toJson.normal = property ∧
      (Request.set o property v).toJson.normal.member "value" = v.normal := by
  have hlook := Json.member_normal (Request.set o property v).nodup_members
  unfold textOf
  rw [Request.toJson_eq, hlook, hlook]
  exact ⟨rfl, rfl⟩

theorem seen_get (o : ObjRef) (property : String) :
    textOf "property" (Request.get o property).toJson.normal = property := by
  unfold textOf
  rw [Request.toJson_eq, Json.member_normal (Request.get o property).nodup_members]
  rfl

/-- What the kernel does to set a property: if the object is there, the value is stored and an empty
answer is given. -/
theorem dispatch_set {request : Json} (h : textOf "api" request = "set") :
    dispatch there s request = onObject s request fun id _ =>
      (ok (.obj []), s.assign id (textOf "property" request) (request.member "value")) := by
  unfold dispatch
  rw [h]
  rfl

/-- What the kernel does to get a property: if the object is there, the value is given, or an empty
answer if it was never set. -/
theorem dispatch_get {request : Json} (h : textOf "api" request = "get") :
    dispatch there s request = onObject s request fun _ object =>
      match object.lookup (textOf "property" request) with
      | some value => (ok (only "value" value), s)
      | none => (ok (.obj []), s) := by
  unfold dispatch
  rw [h]
  rfl

variable {request : Json} {id : String} {f : String → Object → Outcome × Store}

/-- What is asked of an object that is there is done with it. -/
theorem onObject_alive {object : Object} (hid : objectOf request = some id)
    (h : s.find? id = some object) : onObject s request f = f id object := by
  unfold onObject
  rw [hid]
  simp only [h]

/-- What is asked of an object that is not there is answered by an error, whatever it was. -/
theorem onObject_missing (hid : objectOf request = some id) (h : s.find? id = none) :
    onObject s request f = (notFound id, s) := by
  unfold onObject
  rw [hid]
  simp only [h]

/-- Setting a property succeeds if the object is alive and the value is not nested too deep. -/
theorem onLine_set {o : ObjRef} {property : String} {v : Json} {object : Object}
    (hw : v.whole = true) (hn : v.normal = v) (hd : v.depth ≤ setLimit)
    (ho : s.find? o.id = some object) :
    onLine there s (.line (Request.set o property v).toJson.text) =
      ((ok (.obj [])).effects, s.assign o.id property v) := by
  have hself := Alike.refl (Request.set o property v).toJson
  obtain ⟨hproperty, hvalue⟩ := seen_set o property v
  rw [onLine_request, answer_whole (whole_set hw) ((depth_set o property v).mpr hd),
    dispatch_set (textOf_api hself), hproperty, hvalue, hn,
    onObject_alive (objectOf_request hself) ho]

/-- If the object is not there or the value is nested too deep, the kernel answers with an error and
stores nothing. -/
theorem onLine_set_refused {o : ObjRef} {property : String} {v : Json} (hw : v.whole = true)
    (h : v.depth ≤ setLimit → s.find? o.id = none) :
    ∃ message, onLine there s (.line (Request.set o property v).toJson.text) =
      ((fault message).effects, s) := by
  rw [onLine_request]
  by_cases hd : v.depth ≤ setLimit
  · have hself := Alike.refl (Request.set o property v).toJson
    rw [answer_whole (whole_set hw) ((depth_set o property v).mpr hd),
      dispatch_set (textOf_api hself), onObject_missing (objectOf_request hself) (h hd)]
    exact ⟨_, rfl⟩
  · obtain ⟨message, hm⟩ := @answer_tooDeep _ there s
      (Nat.lt_of_not_le (mt (depth_set o property v).mp hd))
    exact ⟨message, by rw [hm]⟩

/-- Getting a property that an object has gives its value, in an answer of its own. -/
theorem onLine_get {o : ObjRef} {property : String} {v : Json}
    (hv : s.property? o.id property = some v) :
    onLine there s (.line (Request.get o property).toJson.text) =
      ((ok (only "value" v)).effects, s) := by
  have hself := Alike.refl (Request.get o property).toJson
  have hdepth : (Request.get o property).toJson.depth ≤ nestingLimit := by
    show max 0 (max 1 (max 0 0)) + 1 ≤ nestingLimit
    decide
  have hwhole : (Request.get o property).toJson.whole = true := rfl
  obtain ⟨object, hfind, hlook⟩ := Option.bind_eq_some_iff.mp hv
  rw [onLine_request, answer_whole hwhole hdepth, dispatch_get (textOf_api hself),
    onObject_alive (objectOf_request hself) hfind, seen_get]
  simp only [hlook]

/-! ## Replies as lines -/

/-- The text of a reply with a payload. -/
def okText (payload : Json) : String := (Json.obj [("ok", payload)]).text

/-- The text of the reply that tells a value. -/
def valueText (v : Json) : String := okText (only "value" v)

/-- The text of a reply with an error. -/
def faultText (message : String) : String :=
  (Json.obj [("error", .str message), ("stack", .str "at MockKernel.dispatch")]).text

theorem outs_ok (payload : Json) : outs (ok payload).effects = [lineOf (okText payload)] := rfl

theorem outs_fault (message : String) :
    outs (fault message).effects = [lineOf (faultText message)] := rfl

/-- An error of the kernel is told as such: its line is decoded as a fault with the same message. -/
theorem decodeLine_fault (message : String) :
    ∃ stack, Envelope.decodeLine (faultText message) = .ok (.fault message stack) := by
  have hdepth : (Json.obj [("error", .str message),
      ("stack", .str "at MockKernel.dispatch")]).depth ≤ nestingLimit := by
    simp only [Json.depth, Json.depthMembers]
    decide
  refine ⟨some "at MockKernel.dispatch", ?_⟩
  unfold faultText
  rw [Envelope.decodeLine_obj rfl hdepth]
  rfl

/-- The reply to getting a property is a document if the value is not nested too deep. -/
theorem decodeLine_got {v : Json} (hw : v.whole = true) (hn : v.normal = v)
    (hd : v.depth ≤ getLimit) :
    Envelope.decodeLine (valueText v) = .ok (.ok (only "value" v)) := by
  have hwhole : (Json.obj [("ok", only "value" v)]).whole = true := by
    simp only [Json.whole, Json.wholeMembers, only, hw, Bool.and_true]
  have hdepth : (Json.obj [("ok", only "value" v)]).depth ≤ nestingLimit := by
    have hlimit : getLimit = nestingLimit - 2 := rfl
    have hpos : nestingLimit = 127 := rfl
    simp only [Json.depth, Json.depthMembers, only]
    omega
  unfold valueText okText
  rw [Envelope.decodeLine_obj hwhole hdepth]
  show Except.ok (Envelope.ok (only "value" v).normal) = _
  have hnormal : (only "value" v).normal = .obj [("value", v.normal)] := by
    unfold only
    simp only [Json.normal, Json.normalMembers]
    rfl
  rw [hnormal, hn]
  rfl

/-- Otherwise it is none: the reply adds two levels to the value, and no reader admits what is
nested too deep. -/
theorem decodeLine_got_tooDeep {v : Json} (hd : getLimit < v.depth) :
    ∃ e, Envelope.decodeLine (valueText v) = .error e := by
  refine Envelope.decodeLine_tooDeep ?_
  have hlimit : getLimit = nestingLimit - 2 := rfl
  have hpos : nestingLimit = 127 := rfl
  simp only [Json.depth, Json.depthMembers, only]
  omega

end Mock
end KernelLink
