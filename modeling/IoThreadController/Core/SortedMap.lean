/-
Ordered maps.

- `insert_comm`, `insert_insert`: insertions at different keys commute, and at one key the later counts.
- `getElem?_foldl_insert_eq_some`: a map made of entries with distinct keys.
- `values_indexed_iff`: the values of a map with numeric keys, listed in key order, stand at their keys' positions exactly
  when no key is missing below another.
-/
import Mathlib.Tactic

namespace IoThreadController.Core

open Std (ExtTreeMap)

variable {κ α : Type*} [Ord κ] [Std.TransOrd κ] [Std.LawfulEqOrd κ]

theorem getElem?_insert_eq [DecidableEq κ] (m : ExtTreeMap κ α) (k k' : κ) (v : α) :
    (m.insert k v)[k']? = if k = k' then some v else m[k']? := by
  rw [ExtTreeMap.getElem?_insert]
  by_cases h : k = k'
  · rw [if_pos h, if_pos (Std.LawfulEqCmp.compare_eq_iff_eq.2 h)]
  · rw [if_neg h, if_neg fun hc => h (Std.LawfulEqCmp.compare_eq_iff_eq.1 hc)]

theorem insert_comm [DecidableEq κ] (m : ExtTreeMap κ α) {k k' : κ} (h : k ≠ k') (v v' : α) :
    (m.insert k v).insert k' v' = (m.insert k' v').insert k v := by
  refine ExtTreeMap.ext_getElem? fun x => ?_
  simp only [getElem?_insert_eq]
  split_ifs with h1 h2
  · exact absurd (h2.trans h1.symm) h
  · rfl
  · rfl
  · rfl

/-- of two insertions at one key the later counts -/
theorem insert_insert [DecidableEq κ] (m : ExtTreeMap κ α) (k : κ) (v v' : α) :
    (m.insert k v).insert k v' = m.insert k v' := by
  refine ExtTreeMap.ext_getElem? fun x => ?_
  simp only [getElem?_insert_eq]
  split_ifs <;> rfl

/-- a map made of entries with distinct keys has exactly these entries -/
theorem getElem?_foldl_insert_eq_some [DecidableEq κ] {l : List (κ × α)} (h : (l.map Prod.fst).Nodup) (k : κ) (v : α) :
    (l.foldl (fun (m : ExtTreeMap κ α) e => m.insert e.1 e.2) ∅)[k]? = some v ↔ (k, v) ∈ l := by
  induction l using List.reverseRecOn with
  | nil => simp
  | append_singleton l e ih =>
    rw [List.map_append, List.nodup_append] at h
    obtain ⟨hl, -, hdisjoint⟩ := h
    rw [List.foldl_append, List.foldl_cons, List.foldl_nil, getElem?_insert_eq, List.mem_append, List.mem_singleton]
    split_ifs with hk
    · have hnew : (k, v) ∉ l := fun hmem =>
        hdisjoint k (List.mem_map_of_mem hmem) e.1 (List.mem_singleton.2 rfl) hk.symm
      rw [Option.some.injEq]
      exact ⟨fun hv => Or.inr (Prod.ext hk.symm hv.symm), fun hmem => (hmem.resolve_left hnew) ▸ rfl⟩
    · rw [ih hl]
      exact ⟨Or.inl, fun hmem => hmem.resolve_right fun he => hk (he ▸ rfl)⟩

/-! ## Values in key order -/

/-- a downward closed finite set of numbers is an initial segment -/
theorem eq_range_of_downward_closed {s : Finset ℕ} (h : ∀ k ∈ s, ∀ i, i < k → i ∈ s) : s = Finset.range s.card := by
  have hsub : s ⊆ Finset.range s.card := by
    intro k hk
    have hbelow : Finset.range (k + 1) ⊆ s := by
      intro i hi
      rcases Nat.lt_succ_iff_lt_or_eq.1 (Finset.mem_range.1 hi) with hlt | rfl
      · exact h k hk i hlt
      · exact hk
    have hcard := Finset.card_le_card hbelow
    rw [Finset.card_range] at hcard
    exact Finset.mem_range.2 hcard
  exact Finset.eq_of_subset_of_card_le hsub (by rw [Finset.card_range])

/-- a strictly increasing list of numbers stands at its own positions when its members are an initial segment -/
theorem getElem_eq_self_of_range {l : List ℕ} (hl : l.Pairwise (· < ·)) (h : l.toFinset = Finset.range l.length) :
    l = List.range l.length := by
  have hperm : l.Perm (List.range l.length) := by
    refine (List.perm_ext_iff_of_nodup (hl.imp fun hab => hab.ne) List.nodup_range).2 fun k => ?_
    rw [← List.mem_toFinset, h, Finset.mem_range, List.mem_range]
  exact hperm.eq_of_pairwise (fun a b _ _ hab hba => absurd (hab.trans hba) (lt_irrefl a)) hl
    (List.pairwise_lt_range)

theorem values_indexed_iff (m : ExtTreeMap ℕ α) :
    (∀ (i : ℕ) (v : α), (m.toList.map Prod.snd)[i]? = some v → m[i]? = some v) ↔ ∀ k ∈ m, ∀ i, i < k → i ∈ m := by
  have hkeys : m.keys.Pairwise (· < ·) := m.ordered_keys.imp fun h => Nat.compare_eq_lt.1 h
  have hlength : m.keys.length = m.toList.length := by rw [← ExtTreeMap.map_fst_toList_eq_keys, List.length_map]
  have hnodup : m.keys.Nodup := hkeys.imp fun h => h.ne
  have hcard : m.keys.toFinset.card = m.keys.length := List.toFinset_card_of_nodup hnodup
  have hmem (k : ℕ) : k ∈ m.keys.toFinset ↔ k ∈ m := by rw [List.mem_toFinset, ExtTreeMap.mem_keys]
  have hclosed : (∀ k ∈ m, ∀ i, i < k → i ∈ m) ↔ m.keys.toFinset = Finset.range m.keys.length := by
    constructor
    · intro h
      rw [← hcard]
      refine eq_range_of_downward_closed fun k hk i hik => ?_
      exact (hmem i).2 (h k ((hmem k).1 hk) i hik)
    · intro h k hk i hik
      rw [← hmem, h, Finset.mem_range] at hk ⊢
      exact hik.trans hk
  rw [hclosed]
  constructor
  · intro h
    -- every position is a key, and there are as many positions as keys
    have hsub : Finset.range m.keys.length ⊆ m.keys.toFinset := by
      intro i hi
      rw [Finset.mem_range, hlength] at hi
      have hv := h i m.toList[i].2 (by rw [List.getElem?_map, List.getElem?_eq_getElem hi, Option.map_some])
      rw [hmem, ExtTreeMap.mem_iff_isSome_getElem?, hv]
      rfl
    exact (Finset.eq_of_subset_of_card_le hsub (by rw [hcard, Finset.card_range])).symm
  · intro h i v hv
    have hrange := getElem_eq_self_of_range hkeys h
    rw [List.getElem?_map, Option.map_eq_some_iff] at hv
    obtain ⟨⟨k, v'⟩, hentry, rfl⟩ := hv
    have hk : m.keys[i]? = some k := by
      rw [← ExtTreeMap.map_fst_toList_eq_keys, List.getElem?_map, hentry]
      rfl
    rw [hrange] at hk
    obtain ⟨hi, hik⟩ := List.getElem?_eq_some_iff.1 hk
    rw [List.getElem_range] at hik
    subst hik
    exact ExtTreeMap.mem_toList_iff_getElem?_eq_some.1 (List.mem_of_getElem? hentry)

end IoThreadController.Core
