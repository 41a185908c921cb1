/-
Sliding windows over a history of readings.

- `consecutive`: the pairs of neighbouring readings; `consecutive_pairwise`: along an ordered history each pair lies
  before the next.
- `telescope`: increases between neighbours add up to the increase over the whole history.
- `dropWhile_lt_eq_filter`: dropping from the front of an ordered list drops everything that is too old.
- `sum_length_le`: intervals that do not overlap cover no more than what they lie in.
-/
import Mathlib.Tactic

namespace IoThreadController.Core

variable {α : Type*}

/-! ## Neighbours -/

/-- the pairs of neighbouring readings, in order -/
def consecutive (l : List α) : List (α × α) := l.zip l.tail

@[simp] theorem consecutive_nil : consecutive ([] : List α) = [] := rfl

@[simp] theorem consecutive_singleton (a : α) : consecutive [a] = [] := rfl

@[simp] theorem consecutive_cons_cons (a b : α) (l : List α) :
    consecutive (a :: b :: l) = (a, b) :: consecutive (b :: l) := rfl

@[simp] theorem length_consecutive (l : List α) : (consecutive l).length = l.length - 1 := by
  simp [consecutive]

/-- a history splits at any of its readings -/
theorem consecutive_append (l : List α) (a : α) (r : List α) :
    consecutive (l ++ a :: r) = consecutive (l ++ [a]) ++ consecutive (a :: r) := by
  induction l with
  | nil => simp
  | cons b l ih =>
    cases l with
    | nil => simp
    | cons c l => simpa using ih

theorem consecutive_append_pair (l : List α) (a b : α) :
    consecutive (l ++ [a] ++ [b]) = consecutive (l ++ [a]) ++ [(a, b)] := by
  rw [List.append_assoc]
  exact consecutive_append l a [b]

theorem mem_of_mem_consecutive {l : List α} {p : α × α} (h : p ∈ consecutive l) : p.1 ∈ l ∧ p.2 ∈ l :=
  ⟨(List.of_mem_zip h).1, List.mem_of_mem_tail (List.of_mem_zip h).2⟩

theorem rel_of_mem_consecutive {R : α → α → Prop} {l : List α} (hl : l.IsChain R) {p : α × α}
    (h : p ∈ consecutive l) : R p.1 p.2 := by
  induction l with
  | nil => simp at h
  | cons a l ih =>
    cases l with
    | nil => simp at h
    | cons b l =>
      rw [List.isChain_cons_cons] at hl
      rcases List.mem_cons.1 h with rfl | h
      · exact hl.1
      · exact ih hl.2 h

theorem consecutive_pairwise {R : α → α → Prop} (hrefl : ∀ a, R a a) {l : List α} (hl : l.Pairwise R) :
    (consecutive l).Pairwise fun p q => R p.2 q.1 := by
  induction l with
  | nil => exact List.Pairwise.nil
  | cons a l ih =>
    cases l with
    | nil => exact List.Pairwise.nil
    | cons b l =>
      rw [List.pairwise_cons] at hl
      refine List.pairwise_cons.2 ⟨fun q hq => ?_, ih hl.2⟩
      rcases List.mem_cons.1 (mem_of_mem_consecutive hq).1 with h | h
      · rw [h]
        exact hrefl b
      · exact (List.pairwise_cons.1 hl.2).1 _ h

/-- the last pair ends with the last reading -/
theorem getLast?_consecutive (l : List α) (a b : α) (r : List α) :
    (consecutive (l ++ a :: b :: r)).getLast?.map Prod.snd = (b :: r).getLast? := by
  have htail : ∀ (a b : α) (r : List α), (consecutive (a :: b :: r)).getLast?.map Prod.snd = (b :: r).getLast? := by
    intro a b r
    induction r generalizing a b with
    | nil => rfl
    | cons c r ih =>
      rw [consecutive_cons_cons, List.getLast?_cons_cons, consecutive_cons_cons, List.getLast?_cons_cons,
        ← consecutive_cons_cons]
      exact ih b c
  rw [consecutive_append, List.getLast?_append_of_ne_nil _ (by simp)]
  exact htail a b r

/-- the two readings before the last `k` -/
theorem exists_pair_before {l : List α} {k : ℕ} (h : k < l.length - 1) :
    ∃ older a b rest, l = older ++ a :: b :: rest ∧ rest.length = k := by
  have hlen : (l.drop (l.length - 2 - k)).length = k + 2 := by
    rw [List.length_drop]
    omega
  have hsplit := (List.take_append_drop (l.length - 2 - k) l).symm
  match hdrop : l.drop (l.length - 2 - k), hlen with
  | a :: b :: rest, hlen =>
    rw [hdrop] at hsplit
    exact ⟨l.take (l.length - 2 - k), a, b, rest, hsplit, by simpa using hlen⟩

/-- increases between neighbours add up -/
theorem telescope (f : α → ℕ) (a : α) (l : List α) (h : (a :: l).IsChain fun x y => f x ≤ f y) :
    f a + ((consecutive (a :: l)).map fun p => f p.2 - f p.1).sum = f ((a :: l).getLast (List.cons_ne_nil a l)) := by
  induction l generalizing a with
  | nil => simp
  | cons b l ih =>
    obtain ⟨hab, hl⟩ := List.isChain_cons_cons.1 h
    have hrest := ih b hl
    rw [consecutive_cons_cons, List.map_cons, List.sum_cons, List.getLast_cons (List.cons_ne_nil b l), ← hrest]
    dsimp only
    omega

/-! ## Old readings -/

theorem dropWhile_lt_eq_filter (f : α → ℕ) (c : ℕ) {l : List α} (h : l.Pairwise fun x y => f x ≤ f y) :
    (l.dropWhile fun x => f x < c) = l.filter fun x => c ≤ f x := by
  induction l with
  | nil => rfl
  | cons a l ih =>
    obtain ⟨ha, hl⟩ := List.pairwise_cons.1 h
    by_cases hc : f a < c
    · rw [List.dropWhile_cons_of_pos (by simpa using hc), List.filter_cons_of_neg (by simpa using hc), ih hl]
    · rw [List.dropWhile_cons_of_neg (by simpa using hc), List.filter_eq_self.2]
      intro x hx
      rcases List.mem_cons.1 hx with rfl | hx
      · simpa using hc
      · simpa using (not_lt.1 hc).trans (ha x hx)

/-! ## Intervals -/

/-- intervals one after the other, all between `lo` and `hi`, are together no longer than what is between -/
theorem sum_length_le (start stop : α → ℕ) {l : List α} (hl : l.Pairwise fun x y => stop x ≤ start y)
    {lo hi : ℕ} (hle : ∀ x ∈ l, start x ≤ stop x) (hlo : ∀ x ∈ l, lo ≤ start x) (hhi : ∀ x ∈ l, stop x ≤ hi) :
    (l.map fun x => stop x - start x).sum ≤ hi - lo := by
  induction l generalizing lo with
  | nil => simp
  | cons a l ih =>
    obtain ⟨ha, hl⟩ := List.pairwise_cons.1 hl
    have hrest : (l.map fun x => stop x - start x).sum ≤ hi - stop a :=
      ih hl (fun x hx => hle x (List.mem_cons_of_mem a hx)) ha fun x hx => hhi x (List.mem_cons_of_mem a hx)
    have h1 := hle a List.mem_cons_self
    have h2 := hlo a List.mem_cons_self
    have h3 := hhi a List.mem_cons_self
    rw [List.map_cons, List.sum_cons]
    omega

end IoThreadController.Core
