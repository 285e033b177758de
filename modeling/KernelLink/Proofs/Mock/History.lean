import KernelLink.Proofs.Mock.Requests
/-!
# The stand-in kernel as a store of objects

What the kernel answers is a matter of the requests that succeeded before, as those who asked can
tell: which names were given, what was set, and what was released. Its own table of objects is
nowhere mentioned in that.

Histories are lists, the newest first.

Main definitions:
* `Mock.Deed`, `Mock.deeds`: what the requests of a history did to the objects.
* `Mock.Alive`, `Mock.value?`: what a history says of an object.
* `Mock.Refines`: the next answer is the one that the history asks for.

Main results:
* `Mock.Agrees.dispatch`: the table of objects agrees with the history after every request.
* `Mock.refines`: `Refines` holds of every history and every next request.
-/
namespace KernelLink.Mock

/-- What a request that succeeded did to the objects. -/
inductive Deed where
  /-- An object was created and got this name; this was the first argument. -/
  | made (id : String) (first : Option Json)
  /-- A property was set. -/
  | wrote (id property : String) (value : Json)
  /-- An object was released. -/
  | freed (id : String)

/-- The name that a reply gives to a new object. -/
def nameGiven? : Outcome → Option String
  | .reply document => ((document.member "ok").member idKey).text?
  | _ => none

/-- What a request did, by its reply. -/
def deed? (request : Json) (outcome : Outcome) : Option Deed :=
  match textOf "api" request with
  | "create" => (nameGiven? outcome).map fun id => .made id (request.member "args").first?
  | "set" =>
    if outcome = ok (.obj []) then
      (objectOf request).map fun id =>
        .wrote id (textOf "property" request) (request.member "value")
    else none
  | "del" => if outcome = ok (.obj []) then (objectOf request).map .freed else none
  | _ => none

/-- The objects after requests, each with whether the artifact is there. -/
def held : List (Bool × Json) → Store
  | [] => .empty
  | (there, request) :: past => (dispatch there (held past) request).2

/-- What requests did. -/
def deeds : List (Bool × Json) → List Deed
  | [] => []
  | (there, request) :: past =>
    (deed? request (dispatch there (held past) request).1).toList ++ deeds past

/-! ## What a history says -/

/-- The names that were given. -/
def made : List Deed → List String := List.filterMap fun | .made id _ => some id | _ => none

/-- The names of the objects that were released. -/
def freed : List Deed → List String := List.filterMap fun | .freed id => some id | _ => none

/-- The object was created and not released. -/
def Alive (log : List Deed) (id : String) : Prop := id ∈ made log ∧ id ∉ freed log

/-- What a property was last set to; if it was not, the first argument for the property `value`. -/
def value? (id property : String) : List Deed → Option Json
  | [] => none
  | .wrote i p v :: past => if i = id ∧ p = property then some v else value? id property past
  | .made i first :: past =>
    if i = id then (if property = "value" then first else none) else value? id property past
  | .freed _ :: past => value? id property past

/-! ## The table agrees with the history -/

/-- The table of objects is what the history says. -/
structure Agrees (s : Store) (log : List Deed) : Prop where
  -- the names that were given have the numbers up to the last one
  named : ∀ id ∈ made log, ∃ c n, id = Store.nameOf c n ∧ n ≤ s.created
  made : ∀ id ∈ freed log, id ∈ made log
  alive : ∀ id, (s.find? id).isSome = true ↔ Alive log id
  value : ∀ id property, Alive log id → s.property? id property = value? id property log
  keys : (s.objects.map Prod.fst).Nodup
  count : s.count + (freed log).length = (Mock.made log).length

/-- A kernel that was asked nothing has no objects, as the empty record says. -/
theorem agrees_empty : Agrees .empty [] where
  named _ h := nomatch h
  made _ h := nomatch h
  alive id := by simp [Store.find?, Store.empty, Alive, Mock.made]
  value _ _ h := nomatch h.1
  keys := List.nodup_nil
  count := rfl

variable {s : Store} {log : List Deed} {id : String}

/-- The name of the next object was given to none before: a name tells its number, and numbers go
up. -/
theorem Agrees.fresh (h : Agrees s log) (c : String) :
    Store.nameOf c (s.created + 1) ∉ Mock.made log := by
  intro hmem
  obtain ⟨c', n, hname, hn⟩ := h.named _ hmem
  -- a name tells its number, and this number is still to come
  have hsame := Store.nameOf_number hname
  omega

/-- Creating an object keeps the store and the record together. The new name is not among those that
were made or freed, so what is said of the other objects stays as it was. -/
theorem Agrees.create (h : Agrees s log) (c : String) (first : Option Json) :
    Agrees (s.create c (first.map fun v => ("value", v)).toList).2
      (.made (Store.nameOf c (s.created + 1)) first :: log) := by
  -- the count in the name is new, so no object made before has this name, nor one that was released
  have hfresh := h.fresh c
  have hnew : Store.nameOf c (s.created + 1) ∉ freed log := fun hmem => hfresh (h.made _ hmem)
  have hmade : Mock.made (.made (Store.nameOf c (s.created + 1)) first :: log) =
      Store.nameOf c (s.created + 1) :: Mock.made log := rfl
  have hfreed : freed (.made (Store.nameOf c (s.created + 1)) first :: log) = freed log := rfl
  refine ⟨?_, ?_, ?_, ?_, ?_, ?_⟩
  · intro id hid
    rw [hmade, List.mem_cons] at hid
    rcases hid with rfl | hid
    · exact ⟨c, s.created + 1, rfl, Nat.le_refl _⟩
    · obtain ⟨c', n, hname, hn⟩ := h.named id hid
      exact ⟨c', n, hname, Nat.le_succ_of_le hn⟩
  · intro id hid
    rw [hfreed] at hid
    rw [hmade]
    exact List.mem_cons_of_mem _ (h.made id hid)
  · intro id
    rw [Store.find?_create]
    unfold Alive
    rw [hmade, hfreed, List.mem_cons]
    by_cases hid : id = Store.nameOf c (s.created + 1)
    · rw [if_pos hid, hid]
      simp [hnew]
    · rw [if_neg hid, h.alive id]
      simp [hid, Alive]
  · rintro id property ⟨hid, hgone⟩
    rw [hmade, List.mem_cons] at hid
    unfold Store.property? value?
    rw [Store.find?_create]
    by_cases heq : id = Store.nameOf c (s.created + 1)
    · rw [if_pos heq, if_pos heq.symm, Option.bind_some]
      cases first with
      | none => simp
      | some v =>
        by_cases hp : property = "value"
        · simp [hp]
        · have hb : (property == "value") = false := by simpa using hp
          simp [hp, hb, List.lookup_cons]
    · rw [if_neg heq, if_neg (Ne.symm heq)]
      exact h.value id property ⟨hid.resolve_left heq, hgone⟩
  · show (Store.nameOf c (s.created + 1) :: s.objects.map Prod.fst).Nodup
    refine List.nodup_cons.mpr ⟨fun hmem => ?_, h.keys⟩
    exact hfresh ((h.alive _).mp (Store.mem_keys_iff.mp hmem)).1
  · rw [hmade, hfreed, List.length_cons, ← h.count]
    show s.objects.length + 1 + _ = s.objects.length + _ + 1
    omega

/-- So does setting a property of an object that is there: under this name the new value is found,
and under all others what was found before. -/
theorem Agrees.assign (h : Agrees s log) (hid : Alive log id) (property : String) (v : Json) :
    Agrees (s.assign id property v) (.wrote id property v :: log) := by
  obtain ⟨object, hobject⟩ := Option.isSome_iff_exists.mp ((h.alive id).mpr hid)
  refine ⟨h.named, h.made, ?_, ?_, ?_, ?_⟩
  · intro i
    rw [Store.find?_assign, Option.isSome_map]
    exact h.alive i
  · intro i p hi
    unfold value?
    by_cases hi' : i = id
    · subst hi'
      by_cases hp : p = property
      · rw [if_pos ⟨rfl, hp.symm⟩, hp]
        exact Store.property?_assign hobject property v
      · -- another property of the same object, which the new member leaves alone
        rw [if_neg (fun hboth => hp hboth.2.symm), ← h.value i p hi]
        unfold Store.property?
        rw [Store.find?_assign, hobject, Option.map_some, if_pos rfl, Option.bind_some,
          Option.bind_some, Json.lookup_insertMember, if_neg hp]
    · rw [if_neg (fun hboth => hi' hboth.1.symm), Store.property?_assign_other s hi']
      exact h.value i p hi
  · rw [Store.keys_assign]
    exact h.keys
  · have hcount : (s.assign id property v).count = s.count := List.length_map _
    rw [hcount]
    exact h.count

/-- And deleting one: it is not found any more, and the record says that it was freed. -/
theorem Agrees.release (h : Agrees s log) (hid : Alive log id) :
    Agrees (s.release id) (.freed id :: log) := by
  have hmade : Mock.made (.freed id :: log) = Mock.made log := rfl
  have hfreed : freed (.freed id :: log) = id :: freed log := rfl
  refine ⟨h.named, ?_, ?_, ?_, ?_, ?_⟩
  · intro i hi
    rw [hfreed, List.mem_cons] at hi
    rcases hi with rfl | hi
    · exact hid.1
    · exact h.made i hi
  · intro i
    rw [Store.find?_release]
    unfold Alive
    rw [hmade, hfreed, List.mem_cons, not_or]
    by_cases hi : i = id
    · simp [hi]
    · rw [if_neg hi, h.alive i]
      simp [hi, Alive]
  · rintro i p ⟨hi, hgone⟩
    rw [hfreed, List.mem_cons, not_or] at hgone
    rw [Store.property?_release_other s hgone.1]
    exact h.value i p ⟨hi, hgone.2⟩
  · rw [Store.keys_release]
    exact h.keys.filter _
  · -- one object less in the table, and one more that was released
    have hless := Store.count_release h.keys ((h.alive id).mpr hid)
    have hcount := h.count
    rw [hmade, hfreed, List.length_cons]
    omega

/-! ## What one request can do -/

/-- Is this one of the requests about one object? -/
def IsAbout (request : Json) : Prop :=
  textOf "api" request ∈ ["get", "set", "invoke", "del"]

/-- What one request does, one rule for each way it can go: `Serves there s request o s'` answers
with `o` and leads from `s` to `s'`. -/
inductive Serves (there : Bool) (s : Store) (request : Json) : Outcome → Store → Prop where
  /-- An object is created. -/
  | create {c : String} (api : textOf "api" request = "create")
      (class_ : (request.member "fqn").text?.getD "Object" = c) :
      Serves there s request (ok (only idKey (.str (Store.nameOf c (s.created + 1)))))
        (s.create c ((request.member "args").first?.map fun v => ("value", v)).toList).2
  /-- A property is told. -/
  | get {id : String} (api : textOf "api" request = "get") (names : objectOf request = some id)
      (alive : (s.find? id).isSome = true) :
      Serves there s request
        (ok ((s.property? id (textOf "property" request)).elim (.obj []) (only "value"))) s
  /-- A property is set. -/
  | set {id : String} (api : textOf "api" request = "set") (names : objectOf request = some id)
      (alive : (s.find? id).isSome = true) :
      Serves there s request (ok (.obj []))
        (s.assign id (textOf "property" request) (request.member "value"))
  /-- A method is called. -/
  | invoke {id : String} {o : Outcome} (api : textOf "api" request = "invoke")
      (names : objectOf request = some id) (alive : (s.find? id).isSome = true) :
      Serves there s request o s
  /-- An object is released. -/
  | del {id : String} (api : textOf "api" request = "del") (names : objectOf request = some id)
      (alive : (s.find? id).isSome = true) :
      Serves there s request (ok (.obj [])) (s.release id)
  /-- The request is about no object that is alive. -/
  | refuse {message : String} (about : IsAbout request)
      (dead : ∀ id, objectOf request = some id → s.find? id = none) :
      Serves there s request (fault message) s
  /-- A method of no object is called. -/
  | static (api : textOf "api" request = "sinvoke") :
      Serves there s request
        (invokeStatic there s (textOf "method" request) (request.member "args")) s
  /-- Anything else. -/
  | other {o : Outcome} (api : textOf "api" request ∉
      ["create", "get", "set", "invoke", "del", "sinvoke"]) : Serves there s request o s

variable {there : Bool} {request : Json} {s' : Store} {o : Outcome}

/-- What the kernel does when asked for a new object: it gives it the next name and, as its first
property, the first of the arguments. -/
theorem create_eq (s : Store) (request : Json) :
    create s request =
      (ok (only idKey (.str (Store.nameOf ((request.member "fqn").text?.getD "Object")
        (s.created + 1)))),
      (s.create ((request.member "fqn").text?.getD "Object")
        ((request.member "args").first?.map fun v => ("value", v)).toList).2) := by
  unfold create
  cases (request.member "args").first? with
  | none => rfl
  | some v => rfl

/-- A request about an object is refused, or does what it does with an object that is alive. -/
theorem Serves.of_object {f : String → Object → Outcome × Store} (about : IsAbout request)
    (h : ∀ id object, objectOf request = some id → s.find? id = some object →
      Serves there s request (f id object).1 (f id object).2) :
    Serves there s request (onObject s request f).1 (onObject s request f).2 := by
  cases hid : objectOf request with
  | none =>
    have hnone : onObject s request f = (fault "request has no objref", s) := by
      unfold onObject
      rw [hid]
    rw [hnone]
    exact .refuse about fun id hnames => by rw [hid] at hnames; exact nomatch hnames
  | some id =>
    cases hfind : s.find? id with
    | none =>
      rw [onObject_missing hid hfind]
      refine .refuse about fun i hnames => ?_
      obtain rfl := Option.some.inj (hid.symm.trans hnames)
      exact hfind
    | some object =>
      rw [onObject_alive hid hfind]
      exact h id object hid hfind

/-- Whatever a request does follows one of the rules. The operation, the object and whether that is
alive make the cases, in the order in which the kernel asks for them. -/
theorem dispatch_cases (there : Bool) (s : Store) (request : Json) :
    Serves there s request (dispatch there s request).1 (dispatch there s request).2 := by
  have halive : ∀ {id object}, s.find? id = some object → (s.find? id).isSome = true := by
    intro id object hfind
    rw [hfind]
    rfl
  unfold dispatch
  split
  · next api => exact .other (by simp [api])
  · next api =>
    show Serves there s request (create s request).1 (create s request).2
    rw [create_eq]
    exact .create api rfl
  · next api =>
    refine .of_object (by simp [IsAbout, api]) fun id object hid hfind => ?_
    -- a property that was never set is told as null, which is what the table gives for it too
    have hproperty : s.property? id (textOf "property" request) =
        object.lookup (textOf "property" request) := by
      unfold Store.property?
      rw [hfind, Option.bind_some]
    have hget : Serves there s request _ s := .get api hid (halive hfind)
    rw [hproperty] at hget
    cases hv : object.lookup (textOf "property" request) with
    | some v =>
      rw [hv] at hget
      exact hget
    | none =>
      rw [hv] at hget
      exact hget
  · next api =>
    exact .of_object (by simp [IsAbout, api]) fun id object hid hfind =>
      .set api hid (halive hfind)
  · next api =>
    exact .of_object (by simp [IsAbout, api]) fun id object hid hfind =>
      .invoke api hid (halive hfind)
  · next api => exact .static api
  · next api =>
    exact .of_object (by simp [IsAbout, api]) fun id object hid hfind =>
      .del api hid (halive hfind)
  · next hload hcreate hget hset hinvoke hsinvoke hdel =>
    exact .other (by simpa using ⟨hcreate, hget, hset, hinvoke, hdel, hsinvoke⟩)

/-! ## The table agrees with every history -/

theorem fault_ne_ok (message : String) (payload : Json) : fault message ≠ ok payload := by
  simp [fault, ok]

/-- A new object whose name was told was made, with the first of the arguments. -/
theorem deed?_create (api : textOf "api" request = "create") (id : String) :
    deed? request (ok (only idKey (.str id))) =
      some (.made id (request.member "args").first?) := by
  unfold deed?
  rw [api]
  rfl

theorem deed?_set (api : textOf "api" request = "set") (names : objectOf request = some id) :
    deed? request (ok (.obj [])) =
      some (.wrote id (textOf "property" request) (request.member "value")) := by
  unfold deed?
  rw [api, names]
  rfl

theorem deed?_del (api : textOf "api" request = "del") (names : objectOf request = some id) :
    deed? request (ok (.obj [])) = some (.freed id) := by
  unfold deed?
  rw [api, names]
  rfl

/-- What was refused is no deed, so an error leaves no trace in the record. -/
theorem deed?_fault (about : IsAbout request) (message : String) :
    deed? request (fault message) = none := by
  unfold deed?
  split
  · next api => simp [IsAbout, api] at about
  · exact if_neg (fault_ne_ok message _)
  · exact if_neg (fault_ne_ok message _)
  · rfl

/-- Nor is what is no creation, no assignment and no release, whatever was answered to it. -/
theorem deed?_still (h : textOf "api" request ∉ ["create", "set", "del"]) :
    deed? request o = none := by
  simp only [List.mem_cons, List.not_mem_nil, or_false, not_or] at h
  unfold deed?
  split
  · next api => exact absurd api h.1
  · next api => exact absurd api h.2.1
  · next api => exact absurd api h.2.2
  · rfl

/-- After a request the table agrees with what the request did, rule by rule; a refused request has
done nothing. -/
theorem Agrees.serves (h : Agrees s log) (hs : Serves there s request o s') :
    Agrees s' ((deed? request o).toList ++ log) := by
  cases hs with
  | @create c api =>
    rw [deed?_create api]
    exact h.create c _
  | @set id api names alive =>
    rw [deed?_set api names]
    exact h.assign ((h.alive id).mp alive) _ _
  | @del id api names alive =>
    rw [deed?_del api names]
    exact h.release ((h.alive id).mp alive)
  | refuse about dead =>
    rw [deed?_fault about]
    exact h
  | get api | invoke api | static api =>
    rw [deed?_still (by simp [api])]
    exact h
  | other api =>
    simp only [List.mem_cons, List.not_mem_nil, or_false, not_or] at api
    rw [deed?_still (by simp [api])]
    exact h

/-- After all requests of a history the store agrees with the record of the deeds. Induction on the
history, the last request first. -/
theorem agrees (past : List (Bool × Json)) : Agrees (held past) (deeds past) := by
  induction past with
  | nil => exact agrees_empty
  | cons asked past ih =>
    obtain ⟨there, request⟩ := asked
    exact ih.serves (dispatch_cases there (held past) request)

/-! ## The rules by the operation -/

/-- A request for a new object always succeeds, and tells the name with the next number. -/
theorem Serves.of_create (hs : Serves there s request o s')
    (api : textOf "api" request = "create") :
    ∃ c, o = ok (only idKey (.str (Store.nameOf c (s.created + 1)))) := by
  cases hs with
  | @create c => exact ⟨c, rfl⟩
  | get api' | set api' | invoke api' | del api' | static api' =>
    exact absurd (api.symm.trans api') (by simp)
  | refuse about => simp [IsAbout, api] at about
  | other api' => exact absurd (by simp [api]) api'

/-- A property of an object that is there is answered with its value, or with nothing if it was
never set. -/
theorem Serves.of_get (hs : Serves there s request o s') (api : textOf "api" request = "get")
    (names : objectOf request = some id) (alive : (s.find? id).isSome = true) :
    o = ok ((s.property? id (textOf "property" request)).elim (.obj []) (only "value")) := by
  cases hs with
  | get _ names' =>
    obtain rfl := Option.some.inj (names'.symm.trans names)
    rfl
  | create api' | set api' | invoke api' | del api' | static api' =>
    exact absurd (api.symm.trans api') (by simp)
  | refuse about dead =>
    rw [dead id names] at alive
    exact nomatch alive
  | other api' => exact absurd (by simp [api]) api'

/-- Setting a property and releasing an object succeed if the object is alive. -/
theorem Serves.of_change (hs : Serves there s request o s')
    (api : textOf "api" request = "set" ∨ textOf "api" request = "del")
    (names : objectOf request = some id) (alive : (s.find? id).isSome = true) :
    o = ok (.obj []) := by
  cases hs with
  | set | del => rfl
  | create api' | get api' | invoke api' | static api' =>
    rw [api'] at api
    exact absurd api (by simp)
  | refuse about dead =>
    rw [dead id names] at alive
    exact nomatch alive
  | other api' =>
    refine absurd ?_ api'
    rcases api with h | h
    · simp [h]
    · simp [h]

/-- Whatever is asked of an object that is not there, or of none, is answered by an error, and the
store stays. -/
theorem Serves.of_dead (hs : Serves there s request o s') (about : IsAbout request)
    (dead : ∀ id, objectOf request = some id → s.find? id = none) :
    (∃ message, o = fault message) ∧ s' = s := by
  have hno : ∀ {id}, objectOf request = some id → (s.find? id).isSome ≠ true := by
    intro id names alive
    rw [dead id names] at alive
    exact nomatch alive
  cases hs with
  | get _ names alive | set _ names alive | invoke _ names alive | del _ names alive =>
    exact absurd alive (hno names)
  | refuse => exact ⟨⟨_, rfl⟩, rfl⟩
  | create api | static api => simp [IsAbout, api] at about
  | other api =>
    simp only [List.mem_cons, List.not_mem_nil, or_false, not_or] at api
    exact absurd about (by simp [IsAbout, api])

theorem Serves.still (hs : Serves there s request o s')
    (h : textOf "api" request ∉ ["create", "set", "del"]) : s' = s := by
  cases hs with
  | create api | set api | del api => exact absurd (by simp [api]) h
  | _ => rfl

/-- Asked how many objects there are, the kernel counts those that are in its store. -/
theorem Serves.of_count (hs : Serves there s request o s')
    (api : textOf "api" request = "sinvoke") (method : textOf "method" request = "objectCount") :
    o = result (.ofNat s.count) := by
  cases hs with
  | static =>
    rw [method]
    rfl
  | create api' | get api' | set api' | invoke api' | del api' =>
    exact absurd (api.symm.trans api') (by simp)
  | refuse about => simp [IsAbout, api] at about
  | other api' => exact absurd (by simp [api]) api'

/-! ## All of it -/

/-- The object that a request is about: the one that it creates, or the one that it names. -/
def subject? (request : Json) (outcome : Outcome) : Option String :=
  if textOf "api" request = "create" then nameGiven? outcome else objectOf request

/-- At most the subject of a request changes: the object that it names, or the one that it has
created. -/
theorem Serves.alone (hs : Serves there s request o s') (hid : subject? request o ≠ some id) :
    s'.find? id = s.find? id := by
  unfold subject? at hid
  cases hs with
  | @create c api =>
    rw [if_pos api] at hid
    have hne : id ≠ Store.nameOf c (s.created + 1) := by
      rintro rfl
      exact hid rfl
    rw [Store.find?_create, if_neg hne]
  -- an object that is not the one asked about is none of those that the request changes
  | @set id' api names =>
    rw [if_neg (by simp [api]), names] at hid
    have hne : id ≠ id' := by
      rintro rfl
      exact hid rfl
    rw [Store.find?_assign]
    simp only [if_neg hne, Option.map_id']
  | @del id' api names =>
    rw [if_neg (by simp [api]), names] at hid
    have hne : id ≠ id' := by
      rintro rfl
      exact hid rfl
    rw [Store.find?_release, if_neg hne]
  | _ => rfl

/-- The answer to a request is the one that the history before it asks for. -/
structure Refines (past : List (Bool × Json)) (there : Bool) (request : Json) : Prop where
  /-- A creation gives a name that was never given before. -/
  created : textOf "api" request = "create" →
    ∃ id, (dispatch there (held past) request).1 = ok (only idKey (.str id)) ∧
      id ∉ made (deeds past) ∧
      deeds ((there, request) :: past) = .made id (request.member "args").first? :: deeds past
  /-- A property of an object that is alive is told as the history has it. -/
  got : textOf "api" request = "get" → ∀ id, objectOf request = some id →
    Alive (deeds past) id →
    (dispatch there (held past) request).1 =
      ok ((value? id (textOf "property" request) (deeds past)).elim (.obj []) (only "value"))
  /-- A property of an object that is alive can be set. -/
  set : textOf "api" request = "set" → ∀ id, objectOf request = some id →
    Alive (deeds past) id →
    (dispatch there (held past) request).1 = ok (.obj []) ∧
      deeds ((there, request) :: past) =
        .wrote id (textOf "property" request) (request.member "value") :: deeds past
  /-- An object that is alive can be released. -/
  released : textOf "api" request = "del" → ∀ id, objectOf request = some id →
    Alive (deeds past) id →
    (dispatch there (held past) request).1 = ok (.obj []) ∧
      deeds ((there, request) :: past) = .freed id :: deeds past
  /-- A request about no object, or about one that was never created or has been released, is
  answered with an error and changes nothing. -/
  refused : IsAbout request → (∀ id, objectOf request = some id → ¬ Alive (deeds past) id) →
    (∃ message, (dispatch there (held past) request).1 = fault message) ∧
      held ((there, request) :: past) = held past ∧
      deeds ((there, request) :: past) = deeds past
  /-- At most the one object changes that the request is about. -/
  alone : ∀ id, subject? request (dispatch there (held past) request).1 ≠ some id →
    (held ((there, request) :: past)).find? id = (held past).find? id
  /-- And it changes only when it is created, set or released. -/
  still : textOf "api" request ∉ ["create", "set", "del"] →
    held ((there, request) :: past) = held past ∧
      deeds ((there, request) :: past) = deeds past
  /-- The number of objects is the number of creations less that of releases. -/
  counted : textOf "api" request = "sinvoke" → textOf "method" request = "objectCount" →
    ∃ n, (dispatch there (held past) request).1 = result (.ofNat n) ∧
      n + (freed (deeds past)).length = (made (deeds past)).length

/-- For any requests, however ill-typed: the table of objects cannot be told from a history of what
was created, set and released. -/
theorem refines (past : List (Bool × Json)) (there : Bool) (request : Json) :
    Refines past there request := by
  have h := agrees past
  have hs := dispatch_cases there (held past) request
  -- what the record calls alive is held in the table, and each clause is then one of `Serves`
  have halive : ∀ {id}, Alive (deeds past) id → ((held past).find? id).isSome = true :=
    fun {id} => (h.alive id).mpr
  have hdeeds : ∀ {d}, deed? request (dispatch there (held past) request).1 = d →
      deeds ((there, request) :: past) = d.toList ++ deeds past := by
    rintro d rfl
    rfl
  refine ⟨?_, ?_, ?_, ?_, ?_, ?_, ?_, ?_⟩
  · intro api
    obtain ⟨c, hc⟩ := hs.of_create api
    refine ⟨_, hc, h.fresh c, hdeeds (d := some _) ?_⟩
    rw [hc]
    exact deed?_create api _
  · intro api id names alive
    rw [← h.value id _ alive]
    exact hs.of_get api names (halive alive)
  · intro api id names alive
    have hok := hs.of_change (.inl api) names (halive alive)
    refine ⟨hok, hdeeds (d := some _) ?_⟩
    rw [hok]
    exact deed?_set api names
  · intro api id names alive
    have hok := hs.of_change (.inr api) names (halive alive)
    refine ⟨hok, hdeeds (d := some _) ?_⟩
    rw [hok]
    exact deed?_del api names
  · intro about dead
    obtain ⟨⟨message, hfault⟩, hsame⟩ := hs.of_dead about fun id names => by
      have hno := dead id names
      rw [← h.alive id, Bool.not_eq_true, Option.isSome_eq_false_iff, Option.isNone_iff_eq_none]
        at hno
      exact hno
    refine ⟨⟨message, hfault⟩, hsame, hdeeds (d := none) ?_⟩
    rw [hfault]
    exact deed?_fault about message
  · intro id hid
    exact hs.alone hid
  · intro api
    exact ⟨hs.still api, hdeeds (d := none) (deed?_still api)⟩
  · intro api method
    exact ⟨_, hs.of_count api method, h.count⟩

end KernelLink.Mock
