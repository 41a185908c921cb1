/-
Keys that a limited number of misses forgets.

A history lists the readings with the newest one first, and `p` says whether a reading is a hit.

- `age`: how many misses ago the latest hit was, as long as that is within the limit.
- `age_cons`: one more reading only needs the age before it.
- `age_isSome`: there is an age exactly when one of the latest `limit + 1` readings is a hit, one more than the limit.
- `take_succ_iff`: when the window of `limit + 1` readings says the same as the window of `limit`.
-/
import Mathlib.Tactic

namespace IoThreadController.Core

variable {α : Type*} (limit : ℕ) (p : α → Bool)

/-- the misses since the latest hit, within the limit -/
def age (h : List α) : Option ℕ := (h.findIdx? p).filter (· ≤ limit)

/-- the age after one more reading -/
def nextAge (age : Option ℕ) (hit : Bool) : Option ℕ :=
  if hit then some 0 else (age.map (· + 1)).filter (· ≤ limit)

@[simp] theorem age_nil : age limit p [] = none := rfl

theorem age_cons (a : α) (h : List α) : age limit p (a :: h) = nextAge limit (age limit p h) (p a) := by
  unfold age nextAge
  rw [List.findIdx?_cons]
  cases p a with
  | true => simp
  | false =>
    cases h.findIdx? p with
    | none => simp
    | some n =>
      by_cases hn : n ≤ limit
      · simp [Option.filter_some, hn]
      · have hnext : ¬ n + 1 ≤ limit := by omega
        simp [Option.filter_some, hn, hnext]

theorem age_isSome (h : List α) : (age limit p h).isSome = true ↔ ∃ a ∈ h.take (limit + 1), p a = true := by
  unfold age
  rw [Option.isSome_iff_exists]
  constructor
  · rintro ⟨n, hage⟩
    obtain ⟨hfound, hn⟩ := Option.filter_eq_some_iff.1 hage
    obtain ⟨hlt, hp, -⟩ := List.findIdx?_eq_some_iff_getElem.1 hfound
    refine ⟨h[n], List.mem_take_iff_getElem.2 ⟨n, ?_, rfl⟩, hp⟩
    simp at hn
    omega
  · rintro ⟨a, hmem, hp⟩
    obtain ⟨i, hi, rfl⟩ := List.mem_take_iff_getElem.1 hmem
    have hsome : (h.findIdx? p).isSome = true := by
      rw [List.findIdx?_isSome, List.any_eq_true]
      exact ⟨h[i], List.getElem_mem _, hp⟩
    obtain ⟨n, hn⟩ := Option.isSome_iff_exists.1 hsome
    have hni : n ≤ i := by
      by_contra hlt
      exact (List.findIdx?_eq_some_iff_getElem.1 hn).2.2 i (by omega) hp
    refine ⟨n, Option.filter_eq_some_iff.2 ⟨hn, ?_⟩⟩
    simp
    omega

/-- the longer window says the same as the shorter one unless its oldest reading is the only hit -/
theorem take_succ_iff (h : List α) :
    ((∃ a ∈ h.take (limit + 1), p a = true) ↔ ∃ a ∈ h.take limit, p a = true) ↔
      ∀ a, h[limit]? = some a → p a = true → ∃ b ∈ h.take limit, p b = true := by
  rw [List.take_add_one]
  constructor
  · intro hiff a ha hp
    apply hiff.1
    exact ⟨a, List.mem_append_right _ (by simp [ha]), hp⟩
  · intro hoverdue
    constructor
    · rintro ⟨a, hmem, hp⟩
      rcases List.mem_append.1 hmem with hmem | hmem
      · exact ⟨a, hmem, hp⟩
      · exact hoverdue a (by simpa using hmem) hp
    · rintro ⟨a, hmem, hp⟩
      exact ⟨a, List.mem_append_left _ hmem, hp⟩

end IoThreadController.Core
