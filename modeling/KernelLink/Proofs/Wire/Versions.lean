import KernelLink.Proofs.Wire.Greetings
/-!
# Names and versions

A greeting such as `@scope/kernel@1.2.3` is meant to be a name, an `@` and a version. What stands
behind the last `@` is taken for the version whether there is a name in front of it or not, so a
greeting that begins with its only `@` has a version, which is all the rest of it. Every other
greeting has a version exactly if it has a name and a version.

Main definitions:
* `Greeting.Named`: a name and a version.
* `Greeting.Unnamed`: the only `@` comes first.
* `Greeting.Versioned`: which version a greeting has.

Main results:
* `Greeting.hasVersion_iff`: with a name or without.
* `Greeting.versioned`: every greeting is as described.
* `Greeting.scope_taken_for_version`: a greeting without a name.
-/
namespace KernelLink.Greeting

variable {greeting version : String}

/-- The greeting is a name that is not empty, an `@`, and the version, but for blanks around it. -/
def Named (greeting version : String) : Prop :=
  ∃ name tail, greeting.toList = name ++ '@' :: tail ∧ '@' ∉ tail ∧ name ≠ [] ∧
    Text.trim tail ≠ [] ∧ version = String.ofList (Text.trim tail)

/-- The greeting begins with its only `@`, and `version` is all the rest, but for blanks around
it. -/
def Unnamed (greeting version : String) : Prop :=
  ∃ tail, greeting.toList = '@' :: tail ∧ '@' ∉ tail ∧ Text.trim tail ≠ [] ∧
    version = String.ofList (Text.trim tail)

/-- Whatever has a version has a name or begins with its only `@`. -/
theorem hasVersion_iff :
    HasVersion greeting version ↔ Named greeting version ∨ Unnamed greeting version := by
  constructor
  · rintro ⟨front, tail, hsplit, hlast, hinked, rfl⟩
    by_cases hfront : front = []
    · rw [hfront, List.nil_append] at hsplit
      exact Or.inr ⟨tail, hsplit, hlast, hinked, rfl⟩
    · exact Or.inl ⟨front, tail, hsplit, hlast, hfront, hinked, rfl⟩
  · rintro (⟨name, tail, hsplit, hlast, -, hinked, rfl⟩ | ⟨tail, hsplit, hlast, hinked, rfl⟩)
    · exact ⟨name, tail, hsplit, hlast, hinked, rfl⟩
    · exact ⟨[], tail, hsplit, hlast, hinked, rfl⟩

/-- A greeting that begins with its only at sign has no name, for a name would stand in front of it.
-/
theorem Unnamed.not_named (h : Unnamed greeting version) (other : String) :
    ¬ Named greeting other := by
  obtain ⟨rest, hrest, honly, -⟩ := h
  rintro ⟨name, tail, hsplit, -, hname, -⟩
  rw [hrest] at hsplit
  cases name with
  | nil => exact hname rfl
  | cons c name =>
    -- the `@` in front of the version would be a second one
    obtain rfl := (List.cons.inj hsplit).2
    exact honly (List.mem_append_right name List.mem_cons_self)

/-- A name, an `@` and a version without blanks around it have that version. -/
theorem hasVersion_join (name : String) (hne : version ≠ "")
    (htrim : Text.trimmed version = version) (hnone : '@' ∉ version.toList) :
    HasVersion (name ++ "@" ++ version) version := by
  have hsame : Text.trim version.toList = version.toList := by
    rw [← String.toList_ofList (l := Text.trim version.toList)]
    exact congrArg String.toList htrim
  refine ⟨name.toList, version.toList, ?_, hnone, ?_, ?_⟩
  · rw [String.toList_append, String.toList_append, List.append_assoc]
    rfl
  · rw [hsame, Ne, String.toList_eq_nil_iff]
    exact hne
  · rw [hsame, String.ofList_toList]

/-- Which version a greeting has. -/
structure Versioned (greeting : String) : Prop where
  /-- It is what stands behind the last `@`, without blanks around it, and is not empty. -/
  accepted : ∀ version, Greeting.version greeting = .ok version ↔ HasVersion greeting version
  /-- A greeting without one is refused, and the error shows all of it as it was. -/
  refused : ∀ e, Greeting.version greeting = .error e ↔
    e = .versionParse greeting ∧ ∀ version, ¬ HasVersion greeting version
  /-- A name is asked for exactly unless the greeting begins with its only `@`. -/
  named : (∀ version, Greeting.version greeting = .ok version ↔ Named greeting version) ↔
    ∀ version, ¬ Unnamed greeting version
  /-- Then all the rest is taken for the version, though there is no name. -/
  unnamed : ∀ version, Unnamed greeting version → Greeting.version greeting = .ok version ∧
    ∀ other, ¬ Named greeting other
  /-- A version that is put behind a name and an `@` is found again. -/
  joined : ∀ name version, greeting = name ++ "@" ++ version → version ≠ "" →
    Text.trimmed version = version → '@' ∉ version.toList →
    Greeting.version greeting = .ok version

/-- Every greeting is as described: it has a version as `HasVersion` says, and behind a name or
without one. -/
theorem versioned (greeting : String) : Versioned greeting := by
  have hunnamed : ∀ version, Unnamed greeting version → Greeting.version greeting = .ok version :=
    fun version h => version_iff.mpr (hasVersion_iff.mpr (Or.inr h))
  refine ⟨fun version => version_iff, fun e => version_error_iff, ⟨?_, ?_⟩, ?_, ?_⟩
  · intro hnamed version h
    exact h.not_named version ((hnamed version).mp (hunnamed version h))
  · intro hnone version
    rw [version_iff, hasVersion_iff, or_iff_left (hnone version)]
  · exact fun version h => ⟨hunnamed version h, h.not_named⟩
  · rintro name version rfl hne htrim hnone
    exact version_iff.mpr (hasVersion_join name hne htrim hnone)

/-- A scope without an `@` between name and version is taken for a version. -/
theorem scope_taken_for_version :
    Greeting.version "@jsii/runtime1.2.3" = .ok "jsii/runtime1.2.3" ∧
      ∀ version, ¬ Named "@jsii/runtime1.2.3" version := by
  have hunnamed : Unnamed "@jsii/runtime1.2.3" "jsii/runtime1.2.3" :=
    ⟨"jsii/runtime1.2.3".toList, by decide, by decide, by decide, by decide⟩
  exact ⟨by decide +kernel, hunnamed.not_named⟩

end KernelLink.Greeting
