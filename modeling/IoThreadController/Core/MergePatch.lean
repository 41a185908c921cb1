/-
JSON documents and merge patches (RFC 7396), over any type of keys and of scalars.

- `merge`: the patch is applied member by member; a null member removes, an object member is merged, any other replaces.
- `merge_of_plain`: a patch without null members, merged into nothing, is the patch itself.
- `layers`: documents on top of each other, the first one outermost.
- `layers_inj`: which document lies where shows: two stacks of distinct documents that agree for every content are one
  stack.
-/
import Mathlib.Tactic

namespace IoThreadController.Core

/-- a JSON value; an object is the list of its members, a key standing once -/
inductive Json (κ α : Type*) where
  | null
  | scalar (value : α)
  | array (items : List (Json κ α))
  | object (members : List (κ × Json κ α))

namespace Json
variable {κ α β : Type*} [DecidableEq κ]

/-! ## Members -/

def members : Json κ α → List (κ × Json κ α)
  | .object members => members
  | _ => []

/-- the value under a key, null when there is none -/
def get (doc : List (κ × Json κ α)) (key : κ) : Json κ α := (doc.lookup key).getD .null

/-- replace the value under a key, or add it at the end -/
def put : List (κ × β) → κ → β → List (κ × β)
  | [], key, value => [(key, value)]
  | member :: doc, key, value =>
    if member.1 = key then (key, value) :: doc else member :: put doc key value

def remove (doc : List (κ × β)) (key : κ) : List (κ × β) := doc.filter fun member => member.1 ≠ key

@[simp] theorem lookup_put (doc : List (κ × β)) (key : κ) (value : β) :
    (put doc key value).lookup key = some value := by
  induction doc with
  | nil => simp [put]
  | cons member doc ih =>
    unfold put
    split_ifs with h
    · exact List.lookup_cons_self
    · rw [List.lookup_cons, beq_eq_false_iff_ne.2 (Ne.symm h)]
      exact ih

theorem put_of_not_mem {doc : List (κ × β)} {key : κ} (h : key ∉ doc.map Prod.fst) (value : β) :
    put doc key value = doc ++ [(key, value)] := by
  induction doc with
  | nil => rfl
  | cons member doc ih =>
    rw [List.map_cons, List.mem_cons, not_or] at h
    rw [put, if_neg (Ne.symm h.1), ih h.2, List.cons_append]

theorem get_of_not_mem {doc : List (κ × Json κ α)} {key : κ} (h : key ∉ doc.map Prod.fst) : get doc key = .null := by
  have hnone : doc.lookup key = none := by
    rw [List.lookup_eq_none_iff]
    intro member hmem
    have hne : key ≠ member.1 := by
      rintro rfl
      exact h (List.mem_map_of_mem hmem)
    exact bne_iff_ne.2 hne
  rw [get, hnone, Option.getD_none]

/-! ## Merging -/

mutual

/-- `MergePatch` of RFC 7396 -/
def merge (target : Json κ α) : Json κ α → Json κ α
  | .object patch => .object (mergeMembers target.members patch)
  | .null => .null
  | .scalar value => .scalar value
  | .array items => .array items

/-- the members of a patch, one after the other -/
def mergeMembers (doc : List (κ × Json κ α)) : List (κ × Json κ α) → List (κ × Json κ α)
  | [] => doc
  | (key, .null) :: patch => mergeMembers (remove doc key) patch
  | (key, value) :: patch => mergeMembers (put doc key (merge (get doc key) value)) patch

end

@[simp] theorem mergeMembers_nil (doc : List (κ × Json κ α)) : mergeMembers doc [] = doc := rfl

theorem mergeMembers_cons {value : Json κ α} (h : value ≠ .null) (doc : List (κ × Json κ α)) (key : κ)
    (patch : List (κ × Json κ α)) :
    mergeMembers doc ((key, value) :: patch) = mergeMembers (put doc key (merge (get doc key) value)) patch := by
  cases value with
  | null => exact absurd rfl h
  | scalar value => rfl
  | array items => rfl
  | object members => rfl

theorem mergeMembers_scalar (doc : List (κ × Json κ α)) (key : κ) (value : α) :
    mergeMembers doc [(key, .scalar value)] = put doc key (.scalar value) := rfl

/-! ## Patches without nulls -/

mutual

/-- no object in it has a null member or two members of one key; arrays are replaced as a whole -/
def Plain : Json κ α → Prop
  | .object members => PlainMembers members
  | _ => True

def PlainMembers : List (κ × Json κ α) → Prop
  | [] => True
  | (key, value) :: members =>
    value ≠ .null ∧ value.Plain ∧ key ∉ members.map Prod.fst ∧ PlainMembers members

end

mutual

theorem merge_of_plain {target : Json κ α} (ht : target.members = []) :
    ∀ {patch : Json κ α}, patch.Plain → merge target patch = patch
  | .object patch, h => by
    have hmembers : mergeMembers [] patch = [] ++ patch := mergeMembers_of_plain h fun _ _ => List.not_mem_nil
    rw [merge, ht, hmembers, List.nil_append]
  | .null, _ => rfl
  | .scalar _, _ => rfl
  | .array _, _ => rfl

theorem mergeMembers_of_plain {doc : List (κ × Json κ α)} : ∀ {patch : List (κ × Json κ α)}, PlainMembers patch →
    (∀ key ∈ patch.map Prod.fst, key ∉ doc.map Prod.fst) → mergeMembers doc patch = doc ++ patch
  | [], _, _ => (List.append_nil doc).symm
  | (key, value) :: patch, ⟨hvalue, hplain, hfresh, hrest⟩, hdisjoint => by
    have hkey : key ∉ doc.map Prod.fst := hdisjoint key List.mem_cons_self
    rw [mergeMembers_cons hvalue, get_of_not_mem hkey, merge_of_plain rfl hplain, put_of_not_mem hkey,
      mergeMembers_of_plain hrest ?_, List.append_assoc, List.singleton_append]
    intro key' hmem hmem'
    rw [List.map_append, List.mem_append, List.map_singleton, List.mem_singleton] at hmem'
    rcases hmem' with hdoc | rfl
    · exact hdisjoint key' (List.mem_cons_of_mem _ hmem) hdoc
    · exact hfresh hmem

end

/-! ## Documents on top of each other -/

/-- documents merged onto each other, the first one outermost -/
def layers : List (List (κ × Json κ α)) → List (κ × Json κ α)
  | [] => []
  | doc :: docs => mergeMembers (layers docs) doc

/-- a scalar in the outermost document shows -/
theorem lookup_layers {ι : Type*} {content : ι → List (κ × Json κ α)} {x : ι} {key : κ} {value : α}
    (hx : content x = [(key, .scalar value)]) (xs : List ι) :
    (layers ((x :: xs).map content)).lookup key = some (.scalar value) := by
  rw [List.map_cons, layers, hx, mergeMembers_scalar, lookup_put]

/-- two stacks of distinct places that look alike for every content are the same places in the same order -/
theorem layers_inj {ι : Type*} [Nonempty κ] {a b : α} (hab : a ≠ b) {places places' : List ι} (hp : places.Nodup)
    (hp' : places'.Nodup)
    (h : ∀ content : ι → List (κ × Json κ α), layers (places.map content) = layers (places'.map content)) :
    places = places' := by
  classical
  obtain ⟨key⟩ := ‹Nonempty κ›
  let mark (x : ι) (value : α) (content : ι → List (κ × Json κ α)) : ι → List (κ × Json κ α) :=
    Function.update content x [(key, .scalar value)]
  have hmark : ∀ x value content, mark x value content x = [(key, .scalar value)] := fun x value content =>
    Function.update_self ..
  induction places generalizing places' with
  | nil =>
    cases places' with
    | nil => rfl
    | cons y ys =>
      have hy := lookup_layers (hmark y a fun _ => []) ys
      rw [← h] at hy
      cases hy
  | cons x xs ih =>
    cases places' with
    | nil =>
      have hx := lookup_layers (hmark x a fun _ => []) xs
      rw [h] at hx
      cases hx
    | cons y ys =>
      obtain ⟨hx, hxs⟩ := List.nodup_cons.1 hp
      obtain ⟨hy, hys⟩ := List.nodup_cons.1 hp'
      obtain rfl : x = y := by
        by_contra hne
        -- the outermost documents, told apart by their scalars
        let content := mark x a (mark y b fun _ => [])
        have hcontent : content y = [(key, .scalar b)] := by
          rw [show content y = mark y b (fun _ => []) y from Function.update_of_ne (Ne.symm hne) _ _, hmark]
        have heq := lookup_layers (hmark x a (mark y b fun _ => [])) xs
        rw [h, lookup_layers hcontent, Option.some.injEq, Json.scalar.injEq] at heq
        exact hab heq.symm
      refine congrArg _ (ih hxs hys fun content => ?_)
      have hblank := h (Function.update content x [])
      have hdrop : ∀ zs : List ι, x ∉ zs → zs.map (Function.update content x []) = zs.map content := fun zs hz =>
        List.map_congr_left fun z hmem => Function.update_of_ne (ne_of_mem_of_not_mem hmem hz) _ _
      rwa [List.map_cons, List.map_cons, layers, layers, Function.update_self, hdrop xs hx, hdrop ys hy,
        mergeMembers_nil, mergeMembers_nil] at hblank

end Json

end IoThreadController.Core
