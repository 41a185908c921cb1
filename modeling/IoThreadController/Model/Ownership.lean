/-
Restart-surviving VM ownership (`state.rs`): the registry, its validation, and the steps of an atomic save.

A save is four file-system operations in order; any of them may fail, and a failing write may leave part of the data in
the temporary file. `VmStateStore.save` returns the operations performed, so that a crash can stop between any two.
-/
import IoThreadController.Model.Base

namespace IoThreadController

inductive StateError where
  | io (text : String)
  | serdeJson (text : String)
  | vmError (text : String)
deriving DecidableEq, Repr

structure VmOwnership where
  managedVms : Finset VmId := ∅
  unmanagedVms : Finset VmId := ∅
deriving DecidableEq

namespace VmOwnership

def classification (o : VmOwnership) (id : VmId) : Option Bool :=
  if id ∈ o.managedVms then some true else if id ∈ o.unmanagedVms then some false else none

/-- record the immutable classification of one VM -/
def record (o : VmOwnership) (id : VmId) (managed : Bool) : Except StateError VmOwnership :=
  if (o.classification id).isSome then
    .error (.vmError ("VM " ++ id ++ " already has an ownership classification"))
  else if managed then .ok { o with managedVms := insert id o.managedVms }
  else .ok { o with unmanagedVms := insert id o.unmanagedVms }

/-- reject a registry that classifies one VM both ways -/
def validate (o : VmOwnership) : Except StateError Unit :=
  if Disjoint o.managedVms o.unmanagedVms then .ok ()
  else .error (.vmError "managed_vms and unmanaged_vms overlap")

end VmOwnership

/-! ## Store -/

/-- the JSON library over file contents `β`: writing a registry, and reading it back (`none` is a parse error) -/
structure Serde (β : Type) where
  toVecPretty : VmOwnership → β
  fromSlice : β → Option VmOwnership

/-- what the store relies on: a written registry reads back as itself -/
def Serde.RoundTrips {β : Type} (J : Serde β) : Prop := ∀ o, J.fromSlice (J.toVecPretty o) = some o

/-- `VmStateStore::load` of a file that may be absent -/
def VmStateStore.load {β : Type} (J : Serde β) : Option β → Except StateError VmOwnership
  | none => .ok {}
  | some data =>
    match J.fromSlice data with
    | none => .error (.serdeJson "malformed registry")
    | some o =>
      match o.validate with
      | .error e => .error e
      | .ok () => .ok o

/-- one file-system operation of a save -/
inductive FsOp where
  | createDirAll
  | writeTmp (state : VmOwnership)
  /-- a write that failed after part of the data -/
  | tornTmp
  | renameTmp
deriving DecidableEq

/-- the file-system failure a save runs into, if any -/
inductive SaveFault where
  | createDir (text : String)
  | write (text : String)
  | rename (text : String)
deriving DecidableEq, Repr

def SaveFault.text : SaveFault → String
  | .createDir text | .write text | .rename text => text

/-- `VmStateStore::save`: the operations performed and the result -/
def VmStateStore.save (fault : Option SaveFault) (state : VmOwnership) : List FsOp × Except StateError Unit :=
  match state.validate with
  | .error e => ([], .error e)
  | .ok () =>
    match fault with
    | some (.createDir text) => ([], .error (.io text))
    | some (.write text) => ([.createDirAll, .tornTmp], .error (.io text))
    | some (.rename text) => ([.createDirAll, .writeTmp state], .error (.io text))
    | none => ([.createDirAll, .writeTmp state, .renameTmp], .ok ())

/-! ## Registry facts -/

namespace VmOwnership

theorem validate_ok {o : VmOwnership} : o.validate = .ok () ↔ Disjoint o.managedVms o.unmanagedVms := by
  unfold validate; split_ifs with h <;> simp [h]

theorem classification_true {o : VmOwnership} {id : VmId} : o.classification id = some true ↔ id ∈ o.managedVms := by
  unfold classification; split_ifs with h1 h2 <;> simp [h1]

theorem classification_none {o : VmOwnership} {id : VmId} :
    o.classification id = none ↔ id ∉ o.managedVms ∧ id ∉ o.unmanagedVms := by
  unfold classification; split_ifs <;> simp_all

theorem classification_false {o : VmOwnership} (hd : Disjoint o.managedVms o.unmanagedVms) {id : VmId} :
    o.classification id = some false ↔ id ∈ o.unmanagedVms := by
  unfold classification
  split_ifs with h1 h2
  · simpa using Finset.disjoint_left.1 hd h1
  · simp [h2]
  · simp [h2]

/-- `t` extends `s`: no VM leaves either set -/
def Le (s t : VmOwnership) : Prop := s.managedVms ⊆ t.managedVms ∧ s.unmanagedVms ⊆ t.unmanagedVms

theorem Le.refl (s : VmOwnership) : Le s s := ⟨Finset.Subset.refl _, Finset.Subset.refl _⟩

theorem Le.trans {s t u : VmOwnership} (h1 : Le s t) (h2 : Le t u) : Le s u := ⟨h1.1.trans h2.1, h1.2.trans h2.2⟩

/-- recording a VM keeps the sets disjoint, extends the registry and classifies the VM as asked -/
theorem record_ok {o o' : VmOwnership} {id : VmId} {managed : Bool} (h : o.record id managed = .ok o')
    (hd : Disjoint o.managedVms o.unmanagedVms) :
    Disjoint o'.managedVms o'.unmanagedVms ∧ Le o o' ∧ o'.classification id = some managed ∧
      ∀ x, x ≠ id → o'.classification x = o.classification x := by
  unfold record at h
  split_ifs at h with hs hm
  · simp only [Except.ok.injEq] at h
    subst h hm
    simp only [Option.not_isSome_iff_eq_none, classification_none] at hs
    refine ⟨?_, ⟨Finset.subset_insert _ _, Finset.Subset.refl _⟩, by simp [classification], ?_⟩
    · simp [hd, hs.2]
    · intro x hx
      simp [classification, hx]
  · simp only [Except.ok.injEq] at h
    subst h
    have hm : managed = false := by simpa using hm
    subst hm
    simp only [Option.not_isSome_iff_eq_none, classification_none] at hs
    refine ⟨?_, ⟨Finset.Subset.refl _, Finset.subset_insert _ _⟩, by simp [classification, hs.1], ?_⟩
    · simp [hd, hs.1]
    · intro x hx
      simp [classification, hx]

end VmOwnership

end IoThreadController
