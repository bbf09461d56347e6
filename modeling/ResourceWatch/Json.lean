import ResourceWatch.Double

/-!
# JSON values

Objects carry a payload that the engine keeps and hands on without looking into
it, and the cluster interface answers in JSON. A number is whole or in double
precision. The members of an object stand in the order of their names, each name
once, wherever a value has been read.
-/

namespace ResourceWatch

inductive Json where
  | null
  | bool (b : Bool)
  | int (n : Int)
  | float (x : Double)
  | str (s : String)
  | arr (items : List Json)
  | obj (members : List (String × Json))
deriving Repr, Inhabited

namespace Json

mutual

/-- Structural equality; members of objects compare in their order. -/
def same : Json → Json → Bool
  | .null, .null => true
  | .bool a, .bool b => a == b
  | .int a, .int b => a == b
  | .float a, .float b => a == b
  | .str a, .str b => a == b
  | .arr a, .arr b => sameItems a b
  | .obj a, .obj b => sameMembers a b
  | _, _ => false

def sameItems : List Json → List Json → Bool
  | [], [] => true
  | a :: as, b :: bs => same a b && sameItems as bs
  | _, _ => false

/-- Equality of two lists of members, name and value at each place. -/
def sameMembers : List (String × Json) → List (String × Json) → Bool
  | [], [] => true
  | (m, a) :: as, (n, b) :: bs => m == n && same a b && sameMembers as bs
  | _, _ => false

end

mutual

/-- Values that compare equal are equal. -/
theorem eq_of_same : (a b : Json) → same a b = true → a = b
  | .null, .null, _ => rfl
  | .bool a, .bool b, h => by simp_all [same]
  | .int a, .int b, h => by simp_all [same]
  | .float a, .float b, h => by simp_all [same]
  | .str a, .str b, h => by simp_all [same]
  | .arr a, .arr b, h => by rw [eq_of_sameItems a b (by simpa [same] using h)]
  | .obj a, .obj b, h => by rw [eq_of_sameMembers a b (by simpa [same] using h)]

/-- Lists of values that compare equal are equal. -/
theorem eq_of_sameItems : (a b : List Json) → sameItems a b = true → a = b
  | [], [], _ => rfl
  | a :: as, b :: bs, h => by
    simp only [sameItems, Bool.and_eq_true] at h
    rw [eq_of_same a b h.1, eq_of_sameItems as bs h.2]

theorem eq_of_sameMembers : (a b : List (String × Json)) → sameMembers a b = true → a = b
  | [], [], _ => rfl
  | (m, a) :: as, (n, b) :: bs, h => by
    simp only [sameMembers, Bool.and_eq_true, beq_iff_eq] at h
    rw [h.1.1, eq_of_same a b h.1.2, eq_of_sameMembers as bs h.2]

end

mutual

/-- Every value compares equal to itself. -/
theorem same_refl : (a : Json) → same a a = true
  | .null | .bool _ | .int _ | .float _ | .str _ => by simp [same]
  | .arr a => by simpa [same] using sameItems_refl a
  | .obj a => by simpa [same] using sameMembers_refl a

/-- Every list of values compares equal to itself. -/
theorem sameItems_refl : (a : List Json) → sameItems a a = true
  | [] => rfl
  | a :: as => by simp [sameItems, same_refl a, sameItems_refl as]

/-- Every list of members compares equal to itself. -/
theorem sameMembers_refl : (a : List (String × Json)) → sameMembers a a = true
  | [] => rfl
  | (_, a) :: as => by simp [sameMembers, same_refl a, sameMembers_refl as]

end

instance : DecidableEq Json := fun a b =>
  if h : same a b = true then .isTrue (eq_of_same a b h)
  else .isFalse fun e => h (e ▸ same_refl a)

/-- Keep of adjoining entries with one name the last one. -/
def lastOfEach {α : Type} : List (String × α) → List (String × α)
  | a :: b :: rest =>
    if a.1 = b.1 then lastOfEach (b :: rest) else a :: lastOfEach (b :: rest)
  | entries => entries

/-- Entries in the order of their names, each name once. Of two entries under one
name the last one counts. -/
def byName {α : Type} (entries : List (String × α)) : List (String × α) :=
  lastOfEach (entries.mergeSort fun a b => a.1 ≤ b.1)

/-- The object with these members, of which some may have one name. -/
def ofMembers (members : List (String × Json)) : Json := .obj (byName members)

def get? : Json → String → Option Json
  | .obj members, name => members.lookup name
  | _, _ => none

def str? : Json → Option String
  | .str s => some s
  | _ => none

def arr? : Json → Option (List Json)
  | .arr items => some items
  | _ => none

def int? : Json → Option Int
  | .int n => some n
  | _ => none

def bool? : Json → Option Bool
  | .bool b => some b
  | _ => none

end Json

end ResourceWatch
