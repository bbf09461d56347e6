import ResourceWatch.Selector

/-!
# Input sets

An input set says for each owner which resources it needs watched. Owners are
kept in the order of their names, so that everything that walks the set walks it
in one fixed order; an owner's selectors keep the order of their declaration.
Declaring an owner again replaces what it declared before.
-/

namespace ResourceWatch

/-- What one owner declared. -/
structure Declaration where
  /-- The owner's name. -/
  owner : String
  /-- Its selectors, in the order of declaration. -/
  selectors : List Selector
deriving DecidableEq, Repr, Inhabited

/-- Put a declaration at its place, in front of owners with greater names and in
the place of an owner with the same name. -/
def insertDeclaration (d : Declaration) : List Declaration → List Declaration
  | [] => [d]
  | e :: rest =>
    if d.owner < e.owner then d :: e :: rest
    else if d.owner = e.owner then d :: rest
    else e :: insertDeclaration d rest

theorem mem_insertDeclaration {d e : Declaration} {ds : List Declaration}
    (h : e ∈ insertDeclaration d ds) : e = d ∨ e ∈ ds := by
  induction ds with
  | nil => simpa [insertDeclaration] using h
  | cons f rest ih =>
    simp only [insertDeclaration] at h
    split at h
    · simpa using h
    · split at h
      · rcases List.mem_cons.1 h with h | h
        · exact .inl h
        · exact .inr (List.mem_cons_of_mem _ h)
      · rcases List.mem_cons.1 h with h | h
        · exact .inr (h ▸ List.mem_cons_self)
        · exact (ih h).imp_right (List.mem_cons_of_mem _)

theorem pairwise_insertDeclaration (d : Declaration) {ds : List Declaration}
    (h : ds.Pairwise fun a b => a.owner < b.owner) :
    (insertDeclaration d ds).Pairwise fun a b => a.owner < b.owner := by
  induction ds with
  | nil => simp [insertDeclaration]
  | cons e rest ih =>
    obtain ⟨he, hrest⟩ := List.pairwise_cons.1 h
    simp only [insertDeclaration]
    split
    · rename_i hlt
      refine List.pairwise_cons.2 ⟨fun f hf => ?_, h⟩
      rcases List.mem_cons.1 hf with rfl | hf
      · exact hlt
      · exact String.lt_trans hlt (he f hf)
    · split
      · rename_i heq
        exact List.pairwise_cons.2 ⟨fun f hf => heq ▸ he f hf, hrest⟩
      · rename_i hlt hne
        refine List.pairwise_cons.2 ⟨fun f hf => ?_, ih hrest⟩
        rcases mem_insertDeclaration hf with rfl | hf
        · exact Std.not_le.1 fun hle =>
            hne (String.le_antisymm hle (String.not_lt.1 hlt))
        · exact he f hf

/-- Declarations of distinct owners, ordered by owner. -/
structure InputSet where
  /-- The declarations. -/
  declarations : List Declaration := []
  /-- Names ascend, so no owner stands twice. -/
  ordered : declarations.Pairwise fun a b => a.owner < b.owner := by decide
deriving DecidableEq

instance : Inhabited InputSet := ⟨{}⟩

namespace InputSet

/-- The set with one more owner, or with an owner's selectors replaced. -/
def declare (set : InputSet) (owner : String) (selectors : List Selector) : InputSet where
  declarations := insertDeclaration ⟨owner, selectors⟩ set.declarations
  ordered := pairwise_insertDeclaration _ set.ordered

/-- The set of a list of declarations, of which the last one of an owner
counts. -/
def ofList (ds : List (String × List Selector)) : InputSet :=
  ds.foldl (fun set d => set.declare d.1 d.2) {}

/-- The owners in order. -/
def owners (set : InputSet) : List String := set.declarations.map (·.owner)

def selectorsOf? (set : InputSet) (owner : String) : Option (List Selector) :=
  (set.declarations.find? (·.owner == owner)).map (·.selectors)

/-- Every selector with its owner: owners in order, selectors in the order of
their declaration. -/
def entries (set : InputSet) : List (String × Selector) :=
  set.declarations.flatMap fun d => d.selectors.map fun s => (d.owner, s)

def size (set : InputSet) : Nat := set.entries.length

def isEmpty (set : InputSet) : Bool := set.size == 0

/-- The resources that the authentication operator reads when nothing else is
declared. -/
def builtin : InputSet :=
  let configmaps := ResourceId.core "v1" "configmaps"
  let kubeSystem := some "kube-system"
  InputSet.declare {} "cluster-authentication-operator" [
    .declare configmaps kubeSystem (some "kube-root-ca.crt"),
    .declare configmaps kubeSystem (some "kubeadm-config"),
    .declare (.core "v1" "secrets") kubeSystem (some "bootstrap-token-abcdef"),
    .declare (.core "v1" "nodes") none (some "kind-control-plane")]

end InputSet

end ResourceWatch
