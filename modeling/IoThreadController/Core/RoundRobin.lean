/-
Jobs dealt round robin: job `j` goes to worker `j % workers`.

- `share`: the jobs of one worker, in order; `mem_share` and `share_nodup` say which they are.
- `length_share`, `share_even`: two shares differ by at most one job.
- `deal_getElem?`: a loop that hands out job after job leaves every worker exactly its share.
-/
import Mathlib.Tactic
import Mathlib.Data.Int.CardIntervalMod

namespace IoThreadController.Core

/-- the jobs among `0..jobs` of worker `k`, in order -/
def share (jobs workers k : ℕ) : List ℕ := (List.range jobs).filter fun j => j % workers = k

@[simp] theorem share_zero (workers k : ℕ) : share 0 workers k = [] := rfl

theorem share_succ (jobs workers k : ℕ) :
    share (jobs + 1) workers k = share jobs workers k ++ if jobs % workers = k then [jobs] else [] := by
  unfold share
  rw [List.range_succ, List.filter_append]
  split_ifs with h <;> simp [h]

@[simp] theorem mem_share {jobs workers k j : ℕ} : j ∈ share jobs workers k ↔ j < jobs ∧ j % workers = k := by
  simp [share]

theorem share_nodup (jobs workers k : ℕ) : (share jobs workers k).Nodup := List.nodup_range.filter _

theorem length_share (jobs : ℕ) {workers k : ℕ} (hk : k < workers) :
    (share jobs workers k).length = jobs / workers + if k < jobs % workers then 1 else 0 := by
  have hpos : 0 < workers := (Nat.zero_le k).trans_lt hk
  have hcount := Nat.count_modEq_card jobs hpos k
  rw [Nat.mod_eq_of_lt hk] at hcount
  rw [← hcount, Nat.count_eq_card_filter_range, share, ← List.toFinset_card_of_nodup (List.nodup_range.filter _)]
  congr 1
  ext j
  simp [Nat.ModEq, Nat.mod_eq_of_lt hk]

/-- shares are even: no worker has two jobs more than another -/
theorem share_even (jobs : ℕ) {workers a b : ℕ} (ha : a < workers) (hb : b < workers) :
    (share jobs workers a).length ≤ (share jobs workers b).length + 1 := by
  rw [length_share jobs ha, length_share jobs hb]
  split_ifs <;> omega

/-- the dealing loop: every worker has taken the jobs of its share, in order -/
theorem deal_getElem? {α : Type*} (take : ℕ → α → α) (jobs workers : ℕ) (hands : List α) (k : ℕ) :
    ((List.range jobs).foldl (fun hands j => hands.modify (j % workers) (take j)) hands)[k]? =
      hands[k]?.map fun hand => (share jobs workers k).foldl (fun hand j => take j hand) hand := by
  induction jobs with
  | zero => simp
  | succ jobs ih =>
    rw [List.range_succ, List.foldl_append, share_succ]
    simp only [List.foldl_cons, List.foldl_nil, List.getElem?_modify, ih, List.foldl_append]
    split_ifs with h <;> cases hands[k]? <;> simp

end IoThreadController.Core
