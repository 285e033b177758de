import KernelLink.Number.Binary64
/-!
# Documents

A document as it is read: members keep their order and their duplicates. The *normal form*, which is
what an untyped value is, has the members of every object sorted by key, and of two members with one
key keeps the later.

Main definitions:
* `Number`, `Json`: numbers and documents, with decidable equality.
* `Json.normal`: the normal form.
* `Json.member?`, `Json.index?`: looking into a document; anything that is not there is `null` or
  `none`.
* `Json.depth`: how many arrays and objects are nested.
-/
namespace KernelLink

/-- A number: an integer that fits a signed or an unsigned machine word, or a finite double. -/
inductive Number where
  /-- An integer from `-2 ^ 63` up to, but not including, `2 ^ 64`. -/
  | int (value : Int)
  /-- A double. -/
  | float (value : Binary64)
  deriving Repr, DecidableEq

/-- A document. -/
inductive Json where
  /-- The empty value. -/
  | null
  /-- A truth value. -/
  | bool (value : Bool)
  /-- A number. -/
  | num (value : Number)
  /-- A text. -/
  | str (value : String)
  /-- A sequence. -/
  | arr (items : List Json)
  /-- Members in the order in which they were written. -/
  | obj (members : List (String × Json))
  deriving Repr, Inhabited

namespace Json

/-! ## Equality -/

mutual
/-- Equality of documents is decidable. -/
def decEq : (a b : Json) → Decidable (a = b)
  | .null, .null => isTrue rfl
  | .bool a, .bool b => if h : a = b then isTrue (h ▸ rfl) else isFalse (by simpa using h)
  | .num a, .num b => if h : a = b then isTrue (h ▸ rfl) else isFalse (by simpa using h)
  | .str a, .str b => if h : a = b then isTrue (h ▸ rfl) else isFalse (by simpa using h)
  | .arr a, .arr b =>
    match decEqItems a b with
    | isTrue h => isTrue (h ▸ rfl)
    | isFalse h => isFalse (by simpa using h)
  | .obj a, .obj b =>
    match decEqMembers a b with
    | isTrue h => isTrue (h ▸ rfl)
    | isFalse h => isFalse (by simpa using h)
  | .null, .bool _ | .null, .num _ | .null, .str _ | .null, .arr _ | .null, .obj _
  | .bool _, .null | .bool _, .num _ | .bool _, .str _ | .bool _, .arr _ | .bool _, .obj _
  | .num _, .null | .num _, .bool _ | .num _, .str _ | .num _, .arr _ | .num _, .obj _
  | .str _, .null | .str _, .bool _ | .str _, .num _ | .str _, .arr _ | .str _, .obj _
  | .arr _, .null | .arr _, .bool _ | .arr _, .num _ | .arr _, .str _ | .arr _, .obj _
  | .obj _, .null | .obj _, .bool _ | .obj _, .num _ | .obj _, .str _ | .obj _, .arr _ =>
    isFalse (by simp)

/-- Equality of sequences of documents is decidable. -/
def decEqItems : (a b : List Json) → Decidable (a = b)
  | [], [] => isTrue rfl
  | a :: as, b :: bs =>
    match decEq a b, decEqItems as bs with
    | isTrue h, isTrue hs => isTrue (h ▸ hs ▸ rfl)
    | isFalse h, _ => isFalse (by simp [h])
    | _, isFalse hs => isFalse (by simp [hs])
  | [], _ :: _ | _ :: _, [] => isFalse (by simp)

/-- Equality of lists of members is decidable. -/
def decEqMembers : (a b : List (String × Json)) → Decidable (a = b)
  | [], [] => isTrue rfl
  | (k, a) :: as, (l, b) :: bs =>
    if hk : k = l then
      match decEq a b, decEqMembers as bs with
      | isTrue h, isTrue hs => isTrue (hk ▸ h ▸ hs ▸ rfl)
      | isFalse h, _ => isFalse (by simp [h])
      | _, isFalse hs => isFalse (by simp [hs])
    else isFalse (by simp [hk])
  | [], _ :: _ | _ :: _, [] => isFalse (by simp)
end

instance : DecidableEq Json := decEq

/-! ## The normal form -/

/-- Puts a member into a list sorted by key, in the place of one that has its key. Keys are ordered
by their code points, which is the order of their bytes. -/
def insertMember (key : String) (value : Json) : List (String × Json) → List (String × Json)
  | [] => [(key, value)]
  | (k, v) :: rest =>
    if key < k then (key, value) :: (k, v) :: rest
    else if key = k then (key, value) :: rest
    else (k, v) :: insertMember key value rest

/-- The members of a list sorted by key, the last of each key. -/
def sortMembers (members : List (String × Json)) : List (String × Json) :=
  members.foldl (fun sorted m => insertMember m.1 m.2 sorted) []

mutual
/-- The document with the members of every object sorted and without earlier duplicates. -/
def normal : Json → Json
  | .arr items => .arr (normalItems items)
  | .obj members => .obj (sortMembers (normalMembers members))
  | .null => .null
  | .bool b => .bool b
  | .num n => .num n
  | .str s => .str s

/-- The normal form of each item. -/
def normalItems : List Json → List Json
  | [] => []
  | v :: vs => normal v :: normalItems vs

/-- The normal form of each member's value. -/
def normalMembers : List (String × Json) → List (String × Json)
  | [] => []
  | (k, v) :: ms => (k, normal v) :: normalMembers ms
end

/-! ## Looking in -/

/-- The value of a member of a normal object; `null` if there is none. -/
def member (key : String) : Json → Json
  | .obj members => (members.lookup key).getD .null
  | _ => .null

/-- The text that a document is. -/
def text? : Json → Option String
  | .str s => some s
  | _ => none

/-- The first item of a sequence. -/
def first? : Json → Option Json
  | .arr (v :: _) => some v
  | _ => none

/-- The integer that a document is, if it fits a signed machine word. -/
def int64? : Json → Option Int
  | .num (.int i) => if i < Nat.pow 2 63 then some i else none
  | _ => none

/-- A natural number as a document. -/
def ofNat (n : Nat) : Json := .num (.int n)

/-! ## Nesting -/

mutual
/-- How many arrays and objects are nested in one another. -/
def depth : Json → Nat
  | .arr items => depthItems items + 1
  | .obj members => depthMembers members + 1
  | .null | .bool _ | .num _ | .str _ => 0

/-- The greatest nesting of the items. -/
def depthItems : List Json → Nat
  | [] => 0
  | v :: vs => max (depth v) (depthItems vs)

/-- The greatest nesting of the members' values. -/
def depthMembers : List (String × Json) → Nat
  | [] => 0
  | (_, v) :: ms => max (depth v) (depthMembers ms)
end

end Json
end KernelLink
