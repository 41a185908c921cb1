/-
Lists whose elements have distinct keys, and means of lists.

- `find?_key_iff`: what is found under a key is the element with that key; `find?_key_perm`: whatever the order.
- `insertionSort_key_lt`: sorting by distinct keys gives strictly increasing keys.
- `mean_perm`, `mean_mem_unit`: means of numbers.
- `foldl_sum_count`: a loop that adds up and counts what it does not skip.
-/
import Mathlib.Tactic

namespace IoThreadController.Core

/-! ## Keys -/

section
variable {α κ : Type*} [DecidableEq κ] {key : α → κ}

theorem find?_key_iff {l : List α} (h : (l.map key).Nodup) {k : κ} {a : α} :
    (l.find? fun x => key x = k) = some a ↔ a ∈ l ∧ key a = k := by
  constructor
  · intro hfind
    exact ⟨List.mem_of_find?_eq_some hfind, by simpa using List.find?_some hfind⟩
  · rintro ⟨hmem, hkey⟩
    have hsome : ((l.find? fun x => key x = k)).isSome := List.find?_isSome.2 ⟨a, hmem, decide_eq_true hkey⟩
    obtain ⟨b, hb⟩ := Option.isSome_iff_exists.1 hsome
    have hbkey : key b = k := by simpa using List.find?_some hb
    rw [hb, List.inj_on_of_nodup_map h (List.mem_of_find?_eq_some hb) hmem (hbkey.trans hkey.symm)]

theorem find?_key_perm {l l' : List α} (h : (l.map key).Nodup) (hperm : l.Perm l') (k : κ) :
    (l.find? fun x => key x = k) = l'.find? fun x => key x = k := by
  have h' : (l'.map key).Nodup := (hperm.map key).nodup_iff.1 h
  refine Option.ext fun a => ?_
  rw [find?_key_iff h, find?_key_iff h', hperm.mem_iff]

end

/-- sorted by keys that are distinct, the keys increase -/
theorem insertionSort_key_lt {α κ : Type*} [LinearOrder κ] {key : α → κ} [DecidableRel fun a b => key a ≤ key b]
    {l : List α} (h : (l.map key).Nodup) :
    ((l.insertionSort fun a b => key a ≤ key b).map key).Pairwise (· < ·) := by
  have : Std.Total fun a b : α => key a ≤ key b := ⟨fun a b => le_total (key a) (key b)⟩
  have : IsTrans α fun a b => key a ≤ key b := ⟨fun _ _ _ hab hbc => le_trans hab hbc⟩
  have hsorted := List.pairwise_insertionSort (fun a b => key a ≤ key b) l
  have hperm := (List.perm_insertionSort (fun a b => key a ≤ key b) l).map key
  have hnodup : ((l.insertionSort fun a b => key a ≤ key b).map key).Pairwise (· ≠ ·) := hperm.nodup_iff.2 h
  exact ((List.pairwise_map.2 hsorted).and hnodup).imp fun hab => lt_of_le_of_ne hab.1 hab.2

/-! ## Means -/

/-- the mean of no numbers is zero -/
def mean (l : List ℚ) : ℚ := if l = [] then 0 else l.sum / l.length

theorem mean_perm {l l' : List ℚ} (h : l.Perm l') : mean l = mean l' := by
  by_cases hl : l = []
  · rw [hl] at h
    rw [hl, List.nil_perm.1 h]
  · have hl' : l' ≠ [] := fun hnil => hl (List.perm_nil.1 (hnil ▸ h))
    rw [mean, mean, if_neg hl, if_neg hl', h.sum_eq, h.length_eq]

theorem mean_mem_unit {l : List ℚ} (h : ∀ x ∈ l, 0 ≤ x ∧ x ≤ 1) : 0 ≤ mean l ∧ mean l ≤ 1 := by
  unfold mean
  split_ifs with hl
  · exact ⟨le_rfl, zero_le_one⟩
  · have hlength : (0 : ℚ) < l.length := Nat.cast_pos.2 (List.length_pos_iff.2 hl)
    have hsum : l.sum ≤ l.length := by
      have hle := List.sum_le_card_nsmul l 1 fun x hx => (h x hx).2
      simpa using hle
    exact ⟨div_nonneg (List.sum_nonneg fun x hx => (h x hx).1) hlength.le, (div_le_one hlength).2 hsum⟩

/-- a loop that adds up and counts -/
theorem foldl_sum_count {α : Type*} {f : α → Option ℚ} {step : ℚ × ℕ → α → ℚ × ℕ}
    (h : ∀ acc a, step acc a = (f a).elim acc fun x => (acc.1 + x, acc.2 + 1)) (l : List α) (acc : ℚ × ℕ) :
    l.foldl step acc = (acc.1 + (l.filterMap f).sum, acc.2 + (l.filterMap f).length) := by
  induction l generalizing acc with
  | nil => simp
  | cons a l ih =>
    rw [List.foldl_cons, ih, h]
    cases ha : f a with
    | none => rw [List.filterMap_cons_none ha, Option.elim_none]
    | some x =>
      rw [List.filterMap_cons_some ha, Option.elim_some, List.sum_cons, List.length_cons]
      refine Prod.ext ?_ ?_
      · exact add_assoc _ _ _
      · dsimp only
        omega

end IoThreadController.Core
