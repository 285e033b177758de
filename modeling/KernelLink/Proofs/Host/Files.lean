import KernelLink.Host.Standard
import Mathlib.Algebra.Group.Nat.Defs
import Mathlib.Data.List.SplitBy
/-!
# What changing files changes

What a path names is decided by where the links lead and by what is listed at each place, and every
change lists something else at one place only. So a file that is made holds what was written to it,
a file that is removed is not there by any path, and a file that was made, written and removed has
left no trace. The names that are made up for such files are all different.

Main definitions:
* `Files.Alike`: two file systems in which every path names the same.

Main results:
* `Path.parts_text`: the names of a place stand in its path.
* `Files.look_alike`: what is listed decides what a path names.
* `Files.lookup_add`, `Files.lookup_append`, `Files.lookup_remove`: what each change does.
* `Files.contents?_remove`: a file that is removed is not there by any path.
* `Files.staged_contents`, `Files.staged_alike`: a file for an artifact, from its making to its
  removal.
* `Files.create_injective`: no two of them have one name.
-/
namespace KernelLink.Host

/-! ## Paths -/

namespace Path

/-- A name that can stand in a path: it is not empty, and nothing in it divides names. -/
def IsName (name : List UInt8) : Prop := name ≠ [] ∧ slash ∉ name

/-- Slashes and names take turns in the path of a place: by induction on the place, where the first
name ends at the next slash. -/
theorem splitBy_text {place : Place} (h : ∀ name ∈ place, IsName name) :
    (place.flatMap (slash :: ·)).splitBy (fun a b => (a == slash) == (b == slash)) =
      place.flatMap fun name => [[slash], name] := by
  induction place with
  | nil => rfl
  | cons name rest ih =>
    obtain ⟨hne, hslash⟩ := h name List.mem_cons_self
    have hother : ∀ x ∈ name, (x == slash) = false := by
      intro x hx
      refine beq_false_of_ne fun heq => hslash ?_
      rw [← heq]
      exact hx
    -- a name holds no slash, and the next one begins behind a slash
    have hname : name.IsChain fun a b => ((a == slash) == (b == slash)) = true := by
      refine List.Pairwise.isChain (List.pairwise_of_forall_mem_list fun a ha b hb => ?_)
      rw [hother a ha, hother b hb]
      rfl
    have hnext : ∀ x ∈ name.getLast?, ∀ y ∈ (rest.flatMap (slash :: ·)).head?,
        ((x == slash) == (y == slash)) = false := by
      intro x hx y hy
      have hy' : y = slash := by
        cases rest with
        | nil => exact nomatch hy
        | cons next rest => exact (Option.some.inj hy).symm
      rw [hother x (List.mem_of_mem_getLast? hx), hy']
      rfl
    have hfirst : ∀ x ∈ [slash].getLast?, ∀ y ∈ (name ++ rest.flatMap (slash :: ·)).head?,
        ((x == slash) == (y == slash)) = false := by
      intro x hx y hy
      have hx' : x = slash := (Option.some.inj hx).symm
      rw [List.head?_append_of_ne_nil name hne] at hy
      rw [hother y (List.mem_of_mem_head? hy), hx']
      rfl
    show ([slash] ++ (name ++ rest.flatMap (slash :: ·))).splitBy _ = _
    rw [List.splitBy_append hfirst, List.splitBy_append hnext, List.splitBy_of_isChain hne hname,
      ih fun other hmem => h other (List.mem_cons_of_mem _ hmem)]
    rfl

/-- So the names in the path of a place are the names of the place. -/
theorem parts_text {place : Place} (h : ∀ name ∈ place, IsName name) (hplace : place ≠ []) :
    parts (text place) = place := by
  have htext : text place = place.flatMap (slash :: ·) := by
    cases place with
    | nil => exact absurd rfl hplace
    | cons name rest => rfl
  unfold parts
  rw [htext, splitBy_text h]
  clear hplace htext
  induction place with
  | nil => rfl
  | cons name rest ih =>
    obtain ⟨hne, hslash⟩ := h name List.mem_cons_self
    have hkept : (name.head? != some slash) = true := by
      refine bne_iff_ne.mpr fun heq => hslash ?_
      exact List.mem_of_mem_head? heq
    show List.filter _ ([slash] :: name :: rest.flatMap _) = _
    rw [List.filter_cons_of_neg (by decide), List.filter_cons_of_pos (by simpa using hkept),
      ih fun other hother => h other (List.mem_cons_of_mem _ hother)]

/-- Nor does such a path end at a slash, so nothing more is to be walked. -/
theorem steps_text {place : Place} (h : ∀ name ∈ place, IsName name) (hplace : place ≠ []) :
    steps (text place) = place := by
  have hlast : (text place).getLast? ≠ some slash := by
    obtain ⟨init, name, rfl⟩ := (List.eq_nil_or_concat place).resolve_left hplace
    obtain ⟨hne, hslash⟩ := h name (by simp)
    have htext : text (init.concat name) = init.flatMap (slash :: ·) ++ [slash] ++ name := by
      cases init <;> simp [text]
    rw [htext, List.getLast?_append_of_ne_nil _ hne]
    intro hend
    exact hslash (List.mem_of_mem_getLast? hend)
  unfold steps
  rw [parts_text h hplace, if_neg hlast, List.append_nil]

end Path

/-- With more bytes at its end, a file holds what it held and then those. -/
def Node.append (bytes : List UInt8) : Node → Node
  | .file old x => .file (old ++ bytes) x
  | .directory => .directory

namespace Files

open KernelLink.Host.Path (ascii slash IsName)

variable {files : Files}

/-! ## What decides what a path names -/

/-- The same links lead from the same places to the same ones, and the same is listed at each. -/
structure Alike (f g : Files) : Prop where
  /-- Where links lead. -/
  links : f.links = g.links
  /-- What is listed at each place. -/
  listed : ∀ place, f.entries.lookup place = g.entries.lookup place

/-- Walking down looks at nothing but the links and what is listed, one name after the other; so by
induction on the names it leads to the same place. -/
theorem walk_alike {f g : Files} (h : f.Alike g) (above : Place) (names : List (List UInt8)) :
    f.walk above names = g.walk above names := by
  induction names generalizing above with
  | nil => rfl
  | cons name rest ih =>
    have hlinked : f.linked (above ++ [name]) = g.linked (above ++ [name]) := by
      unfold linked
      rw [h.links]
    rw [walk, walk, hlinked]
    simp only [ih, h.listed]

/-- So in such file systems every path names the same, be it a file, a directory or nothing. -/
theorem look_alike {f g : Files} (h : f.Alike g) (path : List UInt8) :
    f.look path = g.look path := by
  unfold look lookFrom locate
  rw [walk_alike h]

/-- Whoever comes to a place by walking has gone where the names lead. -/
theorem walk_place {above place : Place} {names : List (List UInt8)} {node : Node}
    (h : files.walk above names = .ok (place, node)) : files.follow above names = place := by
  induction names generalizing above with
  | nil =>
    cases h
    rfl
  | cons name rest ih =>
    rw [walk] at h
    rw [follow]
    split at h
    · next hstay =>
      rw [if_pos hstay]
      exact ih h
    · next hstay =>
      rw [if_neg hstay]
      split at h
      · next hup =>
        rw [if_pos hup]
        exact ih h
      · next hup =>
        rw [if_neg hup]
        split at h
        · exact nomatch h
        · dsimp only at h
          split at h
          · exact nomatch h
          · cases h
            rfl
          · exact nomatch h
          · exact ih h

/-- A file that is come to by walking is listed there; only a directory need not be, since the root
is not. -/
theorem walk_file {above place : Place} {names : List (List UInt8)} {bytes : List UInt8} {x : Bool}
    (h : files.walk above names = .ok (place, .file bytes x)) :
    files.entries.lookup place = some (.file bytes x) := by
  induction names generalizing above with
  | nil => exact nomatch h
  | cons name rest ih =>
    rw [walk] at h
    split at h
    · exact ih h
    · split at h
      · exact ih h
      · split at h
        · exact nomatch h
        · dsimp only at h
          split at h
          · exact nomatch h
          · next hlisted =>
            cases h
            exact hlisted
          · exact nomatch h
          · exact ih h

/-- A dot at the end leads nowhere else. It matters for what may stand there, not for where it is,
and only the latter is asked here. -/
theorem follow_steps (above : Place) (path : List UInt8) :
    files.follow above (Path.steps path) = files.follow above (Path.parts path) := by
  have hstay : ∀ names : List (List UInt8),
      files.follow above (names ++ [Path.stay]) = files.follow above names := by
    intro names
    induction names generalizing above with
    | nil => rfl
    | cons name rest ih =>
      show files.follow above (name :: (rest ++ [Path.stay])) = _
      rw [follow, follow, ih, ih, ih]
  unfold Path.steps
  split
  · exact hstay _
  · rw [List.append_nil]

/-- The contents of a file are those that are listed at the place that its path means. -/
theorem listed_of_contents? {path bytes : List UInt8} (h : files.contents? path = some bytes) :
    ∃ x, files.entries.lookup (files.placeOf path) = some (.file bytes x) := by
  unfold contents? look lookFrom at h
  split at h
  · next found x hlook =>
    cases h
    refine ⟨x, ?_⟩
    cases hlocate : files.locate working path with
    | error fault =>
      rw [hlocate] at hlook
      exact nomatch hlook
    | ok located =>
      obtain ⟨place, node⟩ := located
      rw [hlocate] at hlook
      cases hlook
      unfold locate at hlocate
      split at hlocate
      · exact nomatch hlocate
      · split at hlocate
        · exact nomatch hlocate
        · split at hlocate
          · exact nomatch hlocate
          · have hplace := walk_place hlocate
            rw [follow_steps] at hplace
            rw [placeOf, hplace]
            exact walk_file hlocate
  · exact nomatch h

/-! ## Changes -/

/-- A file is made at one place, the one that its path leads to, and every other place lists what it
did. -/
theorem lookup_add (path bytes : List UInt8) (place : Place) :
    (files.add path bytes).entries.lookup place =
      if place = files.placeOf path then some (.file bytes false)
      else files.entries.lookup place := by
  show ((files.placeOf path, Node.file bytes false) :: files.entries).lookup place = _
  rw [List.lookup_cons]
  by_cases h : place = files.placeOf path
  · simp [h]
  · rw [if_neg h, beq_false_of_ne h]

/-- Appending to a file changes what is listed at its place, and only if that is a file. -/
theorem entries_append (path bytes : List UInt8) :
    (files.append path bytes).entries = files.entries.map fun entry =>
      (entry.1, if entry.1 = files.placeOf path then entry.2.append bytes else entry.2) := by
  refine List.map_congr_left fun entry _ => ?_
  obtain ⟨here, node⟩ := entry
  cases node with
  | file old x => by_cases h : here = files.placeOf path <;> simp [h, Node.append]
  | directory => simp [Node.append]

/-- More bytes come to the file at one place, if there is one. -/
theorem lookup_append (path bytes : List UInt8) (place : Place) :
    (files.append path bytes).entries.lookup place =
      if place = files.placeOf path then (files.entries.lookup place).map (Node.append bytes)
      else files.entries.lookup place := by
  rw [entries_append]
  generalize files.placeOf path = target
  induction files.entries with
  | nil => simp
  | cons entry rest ih =>
    rw [List.map_cons, List.lookup_cons, List.lookup_cons, ih]
    by_cases h : place = entry.1
    · by_cases ht : entry.1 = target <;> simp [h, ht]
    · simp only [beq_false_of_ne h]

/-- The directories, with their places. -/
def directoriesOf (files : Files) : List (Place × Node) :=
  files.entries.filter fun entry => entry.2 == .directory

/-- Neither making a file nor writing to one makes or removes a directory. -/
theorem directoriesOf_add (path bytes : List UInt8) :
    (files.add path bytes).directoriesOf = files.directoriesOf := rfl

theorem directoriesOf_append (path bytes : List UInt8) :
    (files.append path bytes).directoriesOf = files.directoriesOf := by
  unfold directoriesOf
  rw [entries_append]
  generalize files.placeOf path = target
  induction files.entries with
  | nil => rfl
  | cons entry rest ih =>
    obtain ⟨here, node⟩ := entry
    rw [List.map_cons, List.filter_cons, List.filter_cons, ih]
    cases node with
    | directory => simp [Node.append]
    | file old x => by_cases h : here = target <;> simp [h, Node.append]

/-- A file is removed at one place, where nothing but directories is listed then. -/
theorem lookup_remove (path : List UInt8) (place : Place) :
    (files.remove path).entries.lookup place =
      if place = files.placeOf path then files.directoriesOf.lookup place
      else files.entries.lookup place := by
  unfold directoriesOf
  unfold remove
  dsimp only
  generalize files.placeOf path = target
  induction files.entries with
  | nil => simp
  | cons entry rest ih =>
    obtain ⟨here, node⟩ := entry
    rw [List.filter_cons, List.filter_cons, List.lookup_cons]
    by_cases hplace : place = here
    · subst hplace
      by_cases ht : place = target
      · subst ht
        cases node <;> simp [ih]
      · simp [ht]
    · -- what is listed elsewhere is passed over, kept or not
      have hskip : ∀ (kept : Bool) (others : List (Place × Node)),
          List.lookup place (if kept = true then (here, node) :: others else others) =
            others.lookup place := by
        intro kept others
        cases kept with
        | true => rw [if_pos rfl, List.lookup_cons, beq_false_of_ne hplace]
        | false => rfl
      rw [hskip, hskip, beq_false_of_ne hplace]
      exact ih

/-- Where names lead is decided by the links alone, and no change touches them. -/
theorem follow_links {f g : Files} (h : f.links = g.links) (above : Place)
    (names : List (List UInt8)) : f.follow above names = g.follow above names := by
  induction names generalizing above with
  | nil => rfl
  | cons name rest ih =>
    have hlinked : f.linked (above ++ [name]) = g.linked (above ++ [name]) := by
      unfold linked
      rw [h]
    rw [follow, follow, hlinked, ih, ih, ih]

theorem placeOf_links {f g : Files} (h : f.links = g.links) (path : List UInt8) :
    f.placeOf path = g.placeOf path := follow_links h _ _

/-- A file that is removed is not there any more, by no path that means its place. -/
theorem contents?_remove {path other : List UInt8}
    (h : files.placeOf other = files.placeOf path) :
    (files.remove path).contents? other = none := by
  by_contra hsome
  obtain ⟨bytes, hbytes⟩ := Option.ne_none_iff_exists'.mp hsome
  obtain ⟨x, hlisted⟩ := listed_of_contents? hbytes
  rw [placeOf_links (f := files.remove path) (g := files) rfl, lookup_remove, if_pos h] at hlisted
  -- what is left at the place are directories
  obtain ⟨before, after, hentries, -⟩ := List.lookup_eq_some_iff.mp hlisted
  have hmem : (files.placeOf other, Node.file bytes x) ∈ files.directoriesOf := by
    rw [hentries]
    exact List.mem_append_right _ List.mem_cons_self
  have hdirectory := (List.mem_filter.mp hmem).2
  exact nomatch eq_of_beq hdirectory

/-! ## Files for embedded artifacts -/

/-- A number is known by its digits: by induction on how many there are, since the last ones are
what is left when it is divided by a power of the base. -/
theorem eq_of_digits {base k m n : Nat} (hm : m < base ^ k) (hn : n < base ^ k)
    (h : ∀ i < k, m / base ^ i % base = n / base ^ i % base) : m = n := by
  have hlast : ∀ j ≤ k, m % base ^ j = n % base ^ j := by
    intro j hj
    induction j with
    | zero => simp [Nat.mod_one]
    | succ j ih =>
      rw [Nat.mod_pow_succ, Nat.mod_pow_succ, ih (by omega), h j hj]
  have hall := hlast k (Nat.le_refl k)
  rwa [Nat.mod_eq_of_lt hm, Nat.mod_eq_of_lt hn] at hall

theorem toNat_letter (d : Nat) : (UInt8.ofNat (97 + d % 26)).toNat = 97 + d % 26 := by
  have hlt := Nat.mod_lt d (by decide : 26 > 0)
  rw [UInt8.toNat_ofNat']
  exact Nat.mod_eq_of_lt (by omega)

/-- The names that are made up for files are different, as long as there are enough letters. -/
theorem ownName_injective {m n : Nat} (hm : m < 26 ^ ownLength) (hn : n < 26 ^ ownLength)
    (h : ownName m = ownName n) : m = n := by
  refine eq_of_digits hm hn fun i hi => ?_
  have hletter := congrArg (·[ownLength - 1 - i]?) h
  have hback : ownLength - 1 - (ownLength - 1 - i) = i := by omega
  have hlt : ownLength - 1 - i < ownLength := by omega
  have hsame : UInt8.ofNat (97 + m / 26 ^ i % 26) = UInt8.ofNat (97 + n / 26 ^ i % 26) := by
    simpa [ownName, hback, hlt] using hletter
  have hvalues := congrArg UInt8.toNat hsame
  rw [toNat_letter, toNat_letter] at hvalues
  omega

/-- Every letter of such a name is a small one, so it is none of the marks that mean something in a
path. -/
theorem le_of_mem_ownName {n : Nat} {b : UInt8} (h : b ∈ ownName n) : 97 ≤ b.toNat := by
  obtain ⟨i, -, rfl⟩ := List.mem_map.mp h
  rw [toNat_letter]
  omega

/-- The directory in which files for artifacts are made. -/
def temporary : List UInt8 := ascii "tmp"

/-- The name of the next file for an artifact. -/
def nextName (files : Files) (suffix : String) : List UInt8 :=
  stagedPrefix ++ ownName files.made ++ ascii suffix

/-- What is neither in the beginning of all such names nor a small letter is in the name only if it
is in the suffix. -/
theorem mem_nextName {suffix : String} {b : UInt8} (h : b ∈ files.nextName suffix)
    (hstaged : b ∉ stagedPrefix) (hsmall : b.toNat < 97) : b ∈ ascii suffix := by
  rcases List.mem_append.mp h with hfirst | hlast
  · rcases List.mem_append.mp hfirst with hbegins | hown
    · exact absurd hbegins hstaged
    · exact absurd (le_of_mem_ownName hown) (Nat.not_le_of_lt hsmall)
  · exact hlast

theorem length_nextName (files : Files) (suffix : String) :
    (files.nextName suffix).length = 28 + (ascii suffix).length := by
  have hstaged : stagedPrefix.length = 22 := by decide
  simp only [nextName, ownName, List.length_append, List.length_map, List.length_range, hstaged,
    ownLength]

/-- A file that is made is an empty one with such a name in that directory; its suffix has passed
the checks of the operating system. -/
theorem create_cases {suffix : String} {path : List UInt8} {made : Files}
    (h : files.create suffix = .ok (path, made)) :
    0 ∉ ascii suffix ∧ slash ∉ ascii suffix ∧
      path = Path.text [temporary, files.nextName suffix] ∧
      made = { files.add path [] with made := files.made + 1 } := by
  unfold create at h
  dsimp only at h
  split at h
  · exact nomatch h
  · next hzero =>
    split at h
    · exact nomatch h
    · next hslash =>
      cases h
      refine ⟨by simpa using hzero, by simpa using hslash, ?_, rfl⟩
      have htmp : ascii "/tmp/" = slash :: temporary ++ [slash] := by decide
      rw [htmp]
      simp [Path.text, nextName]

/-- No two such files have one name, as long as there are enough letters, also if other files were
made and removed meanwhile. -/
theorem create_injective {f g f' g' : Files} {suffix suffix' : String} {path : List UInt8}
    (hf : f.create suffix = .ok (path, f')) (hg : g.create suffix' = .ok (path, g'))
    (hfmade : f.made < 26 ^ ownLength) (hgmade : g.made < 26 ^ ownLength) : f.made = g.made := by
  obtain ⟨-, -, hfpath, -⟩ := create_cases hf
  obtain ⟨-, -, hgpath, -⟩ := create_cases hg
  have hnames : f.nextName suffix = g.nextName suffix' := by
    have hsame := hfpath.symm.trans hgpath
    simpa [Path.text] using hsame
  refine ownName_injective hfmade hgmade ?_
  unfold nextName at hnames
  rw [List.append_assoc, List.append_assoc] at hnames
  have htails := List.append_cancel_left hnames
  exact (List.append_inj htails (by simp [ownName])).1

/-- The directory for such files is there, and no link begins in it. -/
structure HasTemporary (files : Files) : Prop where
  /-- It is there. -/
  directory : files.entries.lookup [temporary] = some .directory
  /-- No link leads from it, or from a place below it. -/
  plain : ∀ link ∈ files.links, link.1.head? ≠ some temporary

/-- Every system has it, as a directory of its own and not by a link. -/
theorem hasTemporary_standard : standard.HasTemporary := by
  constructor <;> decide

/-- A path in the directory for such files goes through no link, so its place is what it says. -/
theorem HasTemporary.linked (h : files.HasTemporary) (rest : List (List UInt8)) :
    files.linked (temporary :: rest) = temporary :: rest := by
  unfold Files.linked
  have hnone : files.links.lookup (temporary :: rest) = none := by
    refine List.lookup_eq_none_iff.mpr fun link hlink => ?_
    have hne : temporary :: rest ≠ link.1 := by
      intro heq
      refine h.plain link hlink ?_
      rw [← heq]
      rfl
    simpa using hne
  rw [hnone]
  rfl

/-- Such a name is neither a dot nor two dots, nor any other name that is shorter than what all of
them begin with. -/
theorem nextName_ne {suffix : String} {name : List UInt8} (h : name.length < 28) :
    files.nextName suffix ≠ name := by
  intro heq
  have hlength := files.length_nextName suffix
  rw [heq] at hlength
  omega

section Staged

variable {suffix : String} {path : List UInt8} {made : Files}

/-- The names from the root down to a file for an artifact. -/
theorem isName_staged (h : files.create suffix = .ok (path, made)) :
    ∀ name ∈ [temporary, files.nextName suffix], IsName name := by
  obtain ⟨-, hslash, -, -⟩ := create_cases h
  intro name hname
  rcases List.mem_cons.mp hname with rfl | hnext
  · exact ⟨by decide, by decide⟩
  · rw [List.mem_singleton.mp hnext]
    refine ⟨nextName_ne (by decide), fun hmem => hslash (mem_nextName hmem ?_ ?_)⟩
    · decide
    · decide

/-- A file for an artifact is at the place that its path spells out. -/
theorem placeOf_staged (hf : files.HasTemporary) (h : files.create suffix = .ok (path, made)) :
    files.placeOf path = [temporary, files.nextName suffix] := by
  obtain ⟨-, -, hpath, -⟩ := create_cases h
  have habsolute : Path.under working path = path := by
    rw [hpath]
    rfl
  have hnames : Path.parts path = [temporary, files.nextName suffix] := by
    rw [hpath]
    exact Path.parts_text (isName_staged h) (List.cons_ne_nil _ _)
  unfold placeOf
  rw [habsolute, hnames, follow, if_neg (by decide), if_neg (by decide), follow,
    if_neg (nextName_ne (by decide)), if_neg (nextName_ne (by decide)), follow]
  show files.linked (files.linked [temporary] ++ _) = _
  rw [hf.linked []]
  exact hf.linked [_]

/-- A file that was made, written and removed has left no trace, if nothing was at its place before:
every path names what it named then. -/
theorem staged_alike (h : files.create suffix = .ok (path, made))
    (hfree : files.entries.lookup (files.placeOf path) = none) (bytes : List UInt8) :
    ((made.append path bytes).remove path).Alike files := by
  obtain ⟨-, -, -, hmade⟩ := create_cases h
  have hlinks : made.links = files.links := by
    rw [hmade]
    rfl
  have hentries : made.entries = (files.add path []).entries := by
    rw [hmade]
  have hdirectories : made.directoriesOf = files.directoriesOf := by
    rw [hmade]
    rfl
  have hplace : made.placeOf path = files.placeOf path := placeOf_links hlinks path
  have hplace' : (made.append path bytes).placeOf path = files.placeOf path :=
    placeOf_links (f := made.append path bytes) hlinks path
  refine ⟨hlinks, fun place => ?_⟩
  rw [lookup_remove, hplace', directoriesOf_append, hdirectories, lookup_append, hplace, hentries,
    lookup_add]
  by_cases hsame : place = files.placeOf path
  · -- no directory was there, since nothing was
    rw [if_pos hsame, hsame, hfree]
    refine List.lookup_eq_none_iff.mpr fun entry hentry => ?_
    exact List.lookup_eq_none_iff.mp hfree entry (List.mem_of_mem_filter hentry)
  · rw [if_neg hsame, if_neg hsame, if_neg hsame]

/-- A file for an artifact holds what was written to it, and its path names it, as long as the
suffix does not make its name too long. -/
theorem staged_contents (hf : files.HasTemporary) (h : files.create suffix = .ok (path, made))
    (hsuffix : (ascii suffix).length ≤ 227) (bytes : List UInt8) :
    (made.append path bytes).contents? path = some bytes := by
  have hplaced := placeOf_staged hf h
  obtain ⟨hzero, -, hpath, hmade⟩ := create_cases h
  generalize hwritten : made.append path bytes = written
  have hlinks : written.links = files.links := by
    rw [← hwritten, hmade]
    rfl
  have hmadeplace : made.placeOf path = files.placeOf path := by
    refine placeOf_links ?_ path
    rw [hmade]
    rfl
  have hlisted : ∀ place, written.entries.lookup place =
      if place = [temporary, files.nextName suffix] then some (.file bytes false)
      else files.entries.lookup place := by
    intro place
    have hentries : made.entries = (files.add path []).entries := by
      rw [hmade]
    rw [← hwritten, lookup_append, hmadeplace, hentries, lookup_add, hplaced]
    split <;> rfl
  have hlinked : ∀ rest, written.linked (temporary :: rest) = temporary :: rest := by
    intro rest
    have hsame : written.linked (temporary :: rest) = files.linked (temporary :: rest) := by
      unfold linked
      rw [hlinks]
    exact hsame.trans (hf.linked rest)
  have hlength := files.length_nextName suffix
  have hshort : ¬ Path.longestName < (files.nextName suffix).length := by
    unfold Path.longestName
    omega
  -- down to the directory, and from there to the file
  have hfile : written.walk [temporary] [files.nextName suffix] =
      .ok ([temporary, files.nextName suffix], .file bytes false) := by
    have hhere := hlisted [temporary, files.nextName suffix]
    rw [if_pos rfl] at hhere
    rw [walk, if_neg (nextName_ne (by decide)), if_neg (nextName_ne (by decide)), if_neg hshort]
    dsimp only
    rw [show written.linked ([temporary] ++ [files.nextName suffix]) = _ from
      hlinked [files.nextName suffix], hhere]
  have hwalk : written.walk [] [temporary, files.nextName suffix] =
      .ok ([temporary, files.nextName suffix], .file bytes false) := by
    have habove := hlisted [temporary]
    rw [if_neg (by simp), hf.directory] at habove
    rw [walk, if_neg (by decide), if_neg (by decide), if_neg (by decide)]
    dsimp only
    rw [show written.linked ([] ++ [temporary]) = _ from hlinked [], habove]
    exact hfile
  have hsteps : Path.steps (Path.under working path) = [temporary, files.nextName suffix] := by
    rw [hpath]
    exact Path.steps_text (isName_staged h) (List.cons_ne_nil _ _)
  have hbytes : path = (slash :: temporary ++ [slash]) ++ files.nextName suffix := by
    rw [hpath]
    simp [Path.text]
  have hnul : path.contains 0 = false := by
    have hnone : (0 : UInt8) ∉ path := by
      rw [hbytes]
      intro hmem
      rcases List.mem_append.mp hmem with hfirst | hname
      · exact absurd hfirst (by decide)
      · exact hzero (mem_nextName hname (by decide) (by decide))
    simpa using hnone
  have hempty : path.isEmpty = false := by
    rw [hpath]
    rfl
  have hlong : ¬ Path.longest < path.length := by
    have hfirst : (slash :: temporary ++ [slash]).length = 5 := by decide
    rw [hbytes, List.length_append, hfirst]
    unfold Path.longest
    omega
  unfold contents? look lookFrom locate
  rw [hsteps, hwalk, hnul, hempty, if_neg Bool.false_ne_true, if_neg Bool.false_ne_true,
    if_neg hlong]
  rfl

end Staged

end Files
end KernelLink.Host
