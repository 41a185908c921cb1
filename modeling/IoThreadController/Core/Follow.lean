/-
Following a partial function until it has no value.

- `EndsWithin`: at most `n` states are met, the last one without a successor.
- `EndsWithin.no_cycle`: a walk that ends meets no cycle.
- `endsWithin_of_labels`: a walk whose moving states carry labels of a finite list, none of them twice, ends within one
  more state than there are labels.
- `endsWithin_iff_acyclic`: over finitely many labels that determine the move, a walk ends exactly when it meets no
  cycle.
-/
import Mathlib.Logic.Relation
import Mathlib.Tactic

namespace IoThreadController.Core

open Relation

variable {σ τ : Type*} {next : σ → Option σ} {s t u : σ} {n m : ℕ}

/-- one move -/
def Move (next : σ → Option σ) (s t : σ) : Prop := next s = some t

theorem Move.unique (h1 : Move next s t) (h2 : Move next s u) : t = u := Option.some.inj (h1.symm.trans h2)

/-- the walk from `s` meets at most `n` states -/
def EndsWithin (next : σ → Option σ) : ℕ → σ → Prop
  | 0, _ => False
  | n + 1, s => ∀ t, Move next s t → EndsWithin next n t

theorem EndsWithin.mono (h : EndsWithin next n s) (hle : n ≤ m) : EndsWithin next m s := by
  induction n generalizing m s with
  | zero => exact h.elim
  | succ n ih =>
    obtain ⟨m, rfl⟩ := Nat.exists_eq_add_of_le' (Nat.le_of_add_left_le hle)
    exact fun t ht => ih (h t ht) (Nat.le_of_succ_le_succ hle)

/-- a later state of a walk that ends is met earlier in its own walk -/
theorem EndsWithin.of_reach (h : EndsWithin next n s) (hst : ReflTransGen (Move next) s t) :
    EndsWithin next n t := by
  induction hst with
  | refl => exact h
  | tail _ hmove ih =>
    cases n with
    | zero => exact ih.elim
    | succ n => exact (ih _ hmove).mono n.le_succ

theorem EndsWithin.not_self (h : EndsWithin next n s) : ¬ TransGen (Move next) s s := by
  induction n generalizing s with
  | zero => exact h.elim
  | succ n ih =>
    intro hcycle
    obtain ⟨t, hst, hts⟩ := TransGen.head'_iff.1 hcycle
    exact ih (h t hst) (.tail' hts hst)

/-- a walk that ends meets no cycle -/
theorem EndsWithin.no_cycle (h : EndsWithin next n s) :
    ¬ ∃ t, ReflTransGen (Move next) s t ∧ TransGen (Move next) t t := by
  rintro ⟨t, hst, hcycle⟩
  exact (h.of_reach hst).not_self hcycle

/-- a walk whose moving states carry distinct labels of a finite list ends -/
theorem endsWithin_of_labels (label : σ → τ) (labels : List τ)
    (hlabel : ∀ t u, ReflTransGen (Move next) s t → Move next t u → label t ∈ labels)
    (hfresh : ∀ t u v, ReflTransGen (Move next) s t → TransGen (Move next) t u → Move next u v → label t ≠ label u) :
    EndsWithin next (labels.length + 1) s := by
  classical
  induction hn : labels.length generalizing s labels with
  | zero =>
    intro t hst
    have hmem := hlabel s t .refl hst
    rw [List.length_eq_zero_iff.1 hn] at hmem
    exact absurd hmem List.not_mem_nil
  | succ n ih =>
    intro t hst
    have hmem := hlabel s t .refl hst
    refine ih (labels.erase (label s)) ?_ ?_ ?_
    · intro u v htu huv
      have hne : label s ≠ label u := hfresh s u v .refl (.head' hst htu) huv
      exact (List.mem_erase_of_ne hne.symm).2 (hlabel u v (.head hst htu) huv)
    · exact fun u v w htu huv => hfresh u v w (.head hst htu) huv
    · rw [List.length_erase_of_mem hmem, hn, Nat.succ_sub_one]

/-- labels that determine the move do not repeat along a walk that meets no cycle -/
theorem label_ne_of_no_cycle {label : σ → τ} (hnext : ∀ t u, label t = label u → next t = next u)
    (h : ¬ ∃ t, ReflTransGen (Move next) s t ∧ TransGen (Move next) t t) (hst : ReflTransGen (Move next) s t)
    (htu : TransGen (Move next) t u) : label t ≠ label u := by
  intro heq
  obtain ⟨w, htw, hwu⟩ := TransGen.head'_iff.1 htu
  -- both states move to the same one, which closes the cycle
  have huw : Move next u w := (hnext t u heq).symm.trans htw
  exact h ⟨w, hst.tail htw, .tail' hwu huw⟩

/-- with finitely many labels that determine the move, a walk ends exactly when it meets no cycle -/
theorem endsWithin_iff_acyclic (label : σ → τ) (labels : List τ) (hlabel : ∀ t u, Move next t u → label t ∈ labels)
    (hnext : ∀ t u, label t = label u → next t = next u) :
    EndsWithin next (labels.length + 1) s ↔ ¬ ∃ t, ReflTransGen (Move next) s t ∧ TransGen (Move next) t t := by
  refine ⟨EndsWithin.no_cycle, fun h => endsWithin_of_labels label labels (fun t u _ => hlabel t u) ?_⟩
  exact fun t u _ hst htu _ => label_ne_of_no_cycle hnext h hst htu

end IoThreadController.Core
