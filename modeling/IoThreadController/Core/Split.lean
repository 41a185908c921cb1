/-
Splitting lists at a separator and stripping their ends.

- `mem_splitOn`, `mem_intercalate`: a piece has the list's own elements and no separator; what is put together again has
  those of the pieces and the separator.
- `strip_eq_self`, `strip_of_forall`, `strip_bracketed`: what stripping leaves of a list that has nothing to strip, or one
  mark at each end.
-/
import Mathlib.Data.List.DropRight

namespace IoThreadController.Core

variable {α : Type*} {p : α → Bool}

theorem mem_splitOn [BEq α] [LawfulBEq α] {x c : α} {xs piece : List α} (hpiece : piece ∈ xs.splitOn x)
    (hc : c ∈ piece) : c ∈ xs ∧ c ≠ x := by
  induction xs generalizing piece with
  | nil =>
    rw [List.splitOn_nil, List.mem_singleton] at hpiece
    rw [hpiece] at hc
    cases hc
  | cons a xs ih =>
    rw [List.splitOn_cons_eq_if_modifyHead] at hpiece
    split_ifs at hpiece with ha
    · rcases List.mem_cons.1 hpiece with rfl | hpiece
      · cases hc
      · exact ⟨List.mem_cons_of_mem a (ih hpiece hc).1, (ih hpiece hc).2⟩
    · cases hxs : xs.splitOn x with
      | nil => exact absurd hxs (List.splitOn_ne_nil x xs)
      | cons first rest =>
        rw [hxs] at ih
        rw [hxs, List.modifyHead_cons] at hpiece
        rcases List.mem_cons.1 hpiece with rfl | hpiece
        · rcases List.mem_cons.1 hc with rfl | hc
          · exact ⟨List.mem_cons_self, fun h => ha (by rw [h]; exact BEq.rfl)⟩
          · exact ⟨List.mem_cons_of_mem a (ih List.mem_cons_self hc).1, (ih List.mem_cons_self hc).2⟩
        · have hmem := ih (List.mem_cons_of_mem first hpiece) hc
          exact ⟨List.mem_cons_of_mem a hmem.1, hmem.2⟩

theorem mem_intercalate {x c : α} {pieces : List (List α)} (h : c ∈ [x].intercalate pieces) :
    c = x ∨ ∃ piece ∈ pieces, c ∈ piece := by
  induction pieces with
  | nil => cases h
  | cons piece pieces ih =>
    cases pieces with
    | nil =>
      rw [List.intercalate_singleton] at h
      exact Or.inr ⟨piece, List.mem_cons_self, h⟩
    | cons next pieces =>
      rw [List.intercalate_cons_cons, List.mem_append, List.mem_append, List.mem_singleton] at h
      rcases h with (h | h) | h
      · exact Or.inr ⟨piece, List.mem_cons_self, h⟩
      · exact Or.inl h
      · rcases ih h with h | ⟨piece', hmem, hc⟩
        · exact Or.inl h
        · exact Or.inr ⟨piece', List.mem_cons_of_mem piece hmem, hc⟩

/-! ## Stripping -/

/-- both ends without the elements that `p` marks -/
def strip (p : α → Bool) (s : List α) : List α := (s.dropWhile p).rdropWhile p

theorem strip_sublist (s : List α) : (strip p s).Sublist s :=
  (List.rdropWhile_prefix p _).sublist.trans (List.dropWhile_suffix p).sublist

theorem mem_of_mem_strip {s : List α} {c : α} (h : c ∈ strip p s) : c ∈ s := (strip_sublist s).subset h

theorem strip_eq_self {a b : α} {s : List α} (hfirst : s.head? = some a) (hlast : s.getLast? = some b)
    (ha : p a = false) (hb : p b = false) : strip p s = s := by
  obtain ⟨t, rfl⟩ : ∃ t, s = a :: t := ⟨s.tail, (List.cons_head?_tail hfirst).symm⟩
  have hdrop : (a :: t).dropWhile p = a :: t := List.dropWhile_cons_of_neg (by rw [ha]; exact Bool.false_ne_true)
  unfold strip
  rw [hdrop, List.rdropWhile_eq_self_iff]
  intro hne
  rw [List.getLast?_eq_getLast_of_ne_nil hne, Option.some.injEq] at hlast
  rw [hlast, hb]
  exact Bool.false_ne_true

theorem rdropWhile_eq_self_of_forall {s : List α} (h : ∀ c ∈ s, p c = false) : s.rdropWhile p = s := by
  rw [List.rdropWhile_eq_self_iff]
  intro hne
  rw [h _ (List.getLast_mem hne)]
  exact Bool.false_ne_true

theorem strip_of_forall {s : List α} (h : ∀ c ∈ s, p c = false) : strip p s = s := by
  have hdrop : s.dropWhile p = s := by
    cases s with
    | nil => rfl
    | cons c t => exact List.dropWhile_cons_of_neg (by rw [h c List.mem_cons_self]; exact Bool.false_ne_true)
  unfold strip
  rw [hdrop, rdropWhile_eq_self_of_forall h]

/-- one mark at each end -/
theorem strip_bracketed {a b : α} {s : List α} (h : ∀ c ∈ s, p c = false) (ha : p a = true) (hb : p b = true) :
    strip p (a :: s ++ [b]) = s := by
  have hright : (s ++ [b]).rdropWhile p = s := by
    rw [List.rdropWhile_concat_pos p s b hb, rdropWhile_eq_self_of_forall h]
  unfold strip
  rw [List.cons_append, List.dropWhile_cons_of_pos ha]
  cases s with
  | nil =>
    rw [List.nil_append, List.dropWhile_cons_of_pos hb]
    rfl
  | cons c t =>
    rw [List.cons_append, List.dropWhile_cons_of_neg (by rw [h c List.mem_cons_self]; exact Bool.false_ne_true)]
    exact hright

end IoThreadController.Core
