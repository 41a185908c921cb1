/-
Resources in a trace of effects. An effect may be on one resource (`key`), and `fin k` is the effect that disposes of
resource `k`.

- `uses`: the effects on one resource, in order.
- `Undisposed`: the trace does not dispose of the resource. `Disposed`: it does so once, with its last effect on it.
- `Undisposed.append`, `Undisposed.dispose`, `Disposed.append`: what another part of the trace makes of a resource.
- `uses_flatMap`: in a trace over distinct owners, the effects on a resource are those of its owner.
-/
import Mathlib.Tactic

namespace IoThreadController.Core

variable {ε κ α : Type*} (key : ε → Option κ) (fin : κ → ε)

/-- the trace does not dispose of `k` -/
def Undisposed (k : κ) (l : List ε) : Prop := fin k ∉ l

variable {key fin} {k : κ} {l l' : List ε}

theorem Undisposed.append (h : Undisposed fin k l) (h' : Undisposed fin k l') : Undisposed fin k (l ++ l') := by
  intro hmem
  rcases List.mem_append.1 hmem with hmem | hmem
  · exact h hmem
  · exact h' hmem

variable [DecidableEq κ]

variable (key) in
/-- the effects on resource `k` -/
def uses (k : κ) (l : List ε) : List ε := l.filter fun e => key e = some k

theorem uses_append : uses key k (l ++ l') = uses key k l ++ uses key k l' := List.filter_append _ _

theorem unused_append (h : uses key k l = []) (h' : uses key k l' = []) : uses key k (l ++ l') = [] := by
  rw [uses_append, h, h', List.append_nil]

theorem uses_eq_nil : uses key k l = [] ↔ ∀ e ∈ l, key e ≠ some k := by
  simp [uses, List.filter_eq_nil_iff]

theorem mem_uses {e : ε} : e ∈ uses key k l ↔ e ∈ l ∧ key e = some k := by
  simp [uses]

theorem undisposed_of_uses (hkey : key (fin k) = some k) (h : uses key k l = []) : Undisposed fin k l :=
  fun hmem => uses_eq_nil.1 h _ hmem hkey

variable (key fin) in
/-- the trace disposes of `k` once, and that is its last effect on `k` -/
def Disposed (k : κ) (l : List ε) : Prop := ∃ before, fin k ∉ before ∧ uses key k l = before ++ [fin k]

theorem Undisposed.dispose (h : Undisposed fin k l) (h' : Disposed key fin k l') : Disposed key fin k (l ++ l') := by
  obtain ⟨before, hbefore, huses⟩ := h'
  refine ⟨uses key k l ++ before, ?_, ?_⟩
  · intro hmem
    rcases List.mem_append.1 hmem with hmem | hmem
    · exact h (mem_uses.1 hmem).1
    · exact hbefore hmem
  · rw [uses_append, huses, List.append_assoc]

theorem Disposed.append (h : Disposed key fin k l) (h' : uses key k l' = []) : Disposed key fin k (l ++ l') := by
  obtain ⟨before, hbefore, huses⟩ := h
  exact ⟨before, hbefore, by rw [uses_append, huses, h', List.append_nil]⟩

/-- a disposed resource is disposed of exactly once -/
theorem Disposed.count [DecidableEq ε] (hkey : key (fin k) = some k) (h : Disposed key fin k l) :
    l.count (fin k) = 1 := by
  obtain ⟨before, hbefore, huses⟩ := h
  have hfilter : (uses key k l).count (fin k) = l.count (fin k) := List.count_filter (by simpa using hkey)
  rw [← hfilter, huses, List.count_append, List.count_eq_zero.2 hbefore]
  simp

/-- nothing happens to a resource after it is disposed of -/
theorem Disposed.final (hkey : key (fin k) = some k) (h : Disposed key fin k l) {first rest : List ε}
    (hl : l = first ++ fin k :: rest) : uses key k rest = [] := by
  obtain ⟨before, hbefore, huses⟩ := h
  have hfin : uses key k (fin k :: rest) = fin k :: uses key k rest := List.filter_cons_of_pos (by simpa using hkey)
  rw [hl, uses_append, hfin] at huses
  -- an effect after the disposal would put it among the effects before the last one
  rcases List.eq_nil_or_concat' (uses key k rest) with hnil | ⟨rest', e, hrest⟩
  · exact hnil
  · rw [hrest, ← List.cons_append, ← List.append_assoc] at huses
    have hsame : uses key k first ++ fin k :: rest' = before := (List.append_inj' huses rfl).1
    exact absurd (hsame ▸ List.mem_append_right _ List.mem_cons_self) hbefore

/-- in a trace over owners of distinct resources, the effects on a resource are those of its owner -/
theorem uses_flatMap {owner : α → κ} {f : α → List ε} {as : List α} (hn : (as.map owner).Nodup)
    (hf : ∀ a ∈ as, ∀ e ∈ f a, key e = some (owner a)) {a : α} (ha : a ∈ as) :
    uses key (owner a) (as.flatMap f) = f a := by
  induction as with
  | nil => simp at ha
  | cons b as ih =>
    rw [List.map_cons, List.nodup_cons] at hn
    rw [List.flatMap_cons, uses_append]
    have hown : uses key (owner b) (f b) = f b :=
      List.filter_eq_self.2 fun e he => by simpa using hf b List.mem_cons_self e he
    rcases List.mem_cons.1 ha with rfl | ha
    · have hrest : uses key (owner a) (as.flatMap f) = [] := by
        rw [uses_eq_nil]
        intro e he heq
        obtain ⟨b, hb, he⟩ := List.mem_flatMap.1 he
        rw [hf b (List.mem_cons_of_mem _ hb) e he, Option.some.injEq] at heq
        exact hn.1 (heq ▸ List.mem_map_of_mem hb)
      rw [hown, hrest, List.append_nil]
    · have hother : uses key (owner a) (f b) = [] := by
        rw [uses_eq_nil]
        intro e he heq
        rw [hf b List.mem_cons_self e he, Option.some.injEq] at heq
        exact hn.1 (heq ▸ List.mem_map_of_mem ha)
      rw [hother, List.nil_append]
      exact ih hn.2 (fun b hb => hf b (List.mem_cons_of_mem _ hb)) ha

end IoThreadController.Core
