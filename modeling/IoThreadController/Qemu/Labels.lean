/-
Metric lines as the text format writes them, and what the label parser makes of them.

- `captures_renderLine`: the patterns find the label list of a rendered line, up to the first closing brace in it.
- `parseQemuLabels_clean`: no value that comes out of a captured label list holds a comma or a closing brace.
- `labels_round_trip_iff`: labels survive exactly when no value holds either.
-/
import IoThreadController.Core.Run
import IoThreadController.Core.SortedMap
import IoThreadController.Core.Split
import IoThreadController.Model.Topology

namespace IoThreadController

open Std (ExtTreeMap)
open IoThreadController.Core (run_inv along_of_forall getElem?_insert_eq getElem?_foldl_insert_eq_some mem_splitOn
  mem_intercalate mem_of_mem_strip strip_eq_self strip_of_forall strip_bracketed)

/-! ## The text format -/

/-- `[a-zA-Z_][a-zA-Z0-9_]*` -/
def IsLabelName (name : String) : Prop :=
  name.toList.head?.any (fun c => c.isAlpha || c = '_') ∧ ∀ c ∈ name.toList, c.isAlphanum ∨ c = '_'

instance (name : String) : Decidable (IsLabelName name) :=
  have := List.decidableBAll (fun c : Char => c.isAlphanum ∨ c = '_') name.toList
  inferInstanceAs (Decidable (_ ∧ ∀ c ∈ name.toList, c.isAlphanum ∨ c = '_'))

/-- values without these characters are written as they are -/
def NeedsNoEscape (value : String) : Prop := ∀ c ∈ value.toList, c ≠ '"' ∧ c ≠ '\\' ∧ c ≠ '\n'

instance (value : String) : Decidable (NeedsNoEscape value) := List.decidableBAll _ value.toList

/-- `name="value"` -/
def renderLabel (label : String × String) : List Char := label.1.toList ++ '=' :: ('"' :: label.2.toList ++ ['"'])

def renderLabels (labels : List (String × String)) : List Char := [','].intercalate (labels.map renderLabel)

/-- `metric{labels} number` -/
def renderLine (metric : String) (labels : List (String × String)) (number : List Char) : List Char :=
  metric.toList ++ '{' :: (renderLabels labels ++ '}' :: ' ' :: number)

/-- the pattern matches, and the label part parses into exactly the labels that were rendered -/
def RoundTrips (metric : String) (labels : List (String × String)) (number : List Char) : Prop :=
  ∃ part, captures metric (renderLine metric labels number) = some (part, number) ∧
    ∀ name value, (parseQemuLabels part)[name]? = some value ↔ (name, value) ∈ labels

/-! ## One label -/

theorem labelChar_bounds {c : Char} (h : c.isAlphanum ∨ c = '_') :
    48 ≤ c.toNat ∧ c.toNat ≤ 57 ∨ 65 ≤ c.toNat ∧ c.toNat ≤ 90 ∨ c.toNat = 95 ∨ 97 ≤ c.toNat ∧ c.toNat ≤ 122 := by
  have hrange {lo hi : UInt32} (h : lo ≤ c.val ∧ c.val ≤ hi) : lo.toNat ≤ c.toNat ∧ c.toNat ≤ hi.toNat :=
    ⟨UInt32.le_iff_toNat_le.1 h.1, UInt32.le_iff_toNat_le.1 h.2⟩
  rcases h with h | rfl
  · rcases (Bool.or_eq_true _ _).mp h with halpha | hdigit
    · rcases (Bool.or_eq_true _ _).mp halpha with hupper | hlower
      · exact Or.inr (Or.inl (hrange (of_decide_eq_true hupper)))
      · obtain ⟨hlo, hhi⟩ := (Bool.and_eq_true _ _).mp hlower
        exact Or.inr (Or.inr (Or.inr (hrange ⟨of_decide_eq_true hlo, of_decide_eq_true hhi⟩)))
    · obtain ⟨hlo, hhi⟩ := (Bool.and_eq_true _ _).mp hdigit
      exact Or.inl (hrange ⟨of_decide_eq_true hlo, of_decide_eq_true hhi⟩)
  · decide

theorem labelChar_ne {c d : Char} (h : c.isAlphanum ∨ c = '_') (hd : d ∈ [',', '}', '=']) : c ≠ d := by
  have hbounds := labelChar_bounds h
  rintro rfl
  revert hbounds
  revert hd
  simp only [List.mem_cons, List.not_mem_nil, or_false]
  rintro (rfl | rfl | rfl) <;> decide

theorem labelChar_not_whitespace {c : Char} (h : c.isAlphanum ∨ c = '_') : isWhitespace c = false := by
  have hbounds := labelChar_bounds h
  simp only [isWhitespace, List.contains_eq_mem, List.mem_cons, List.not_mem_nil, or_false, Bool.or_eq_false_iff,
    Bool.and_eq_false_iff, decide_eq_false_iff_not]
  omega

theorem numberChar_not_whitespace {c : Char} (h : isNumberChar c = true) : isWhitespace c = false := by
  rcases Bool.or_eq_true _ _ |>.mp h with hdigit | hc
  · exact labelChar_not_whitespace (Or.inl (by rw [Char.isAlphanum, hdigit, Bool.or_true]))
  · simp only [List.contains_eq_mem, decide_eq_true_eq, List.mem_cons, List.not_mem_nil, or_false] at hc
    rcases hc with rfl | rfl | rfl | rfl | rfl <;> decide

theorem renderLabel_head {label : String × String} (h : IsLabelName label.1) :
    ∃ c, (renderLabel label).head? = some c ∧ isWhitespace c = false := by
  obtain ⟨hfirst, hall⟩ := h
  obtain ⟨c, hc, -⟩ := Option.any_eq_true _ _ |>.mp hfirst
  refine ⟨c, ?_, labelChar_not_whitespace (hall c (List.mem_of_mem_head? hc))⟩
  unfold renderLabel
  rw [List.head?_append, hc, Option.some_or]

theorem renderLabel_getLast (label : String × String) : (renderLabel label).getLast? = some '"' := by
  unfold renderLabel
  rw [List.getLast?_append_of_ne_nil _ (List.cons_ne_nil _ _), ← List.cons_append, List.getLast?_concat]

/-- a rendered label goes into the map as it was -/
theorem insertLabel_renderLabel (out : ExtTreeMap String String) {label : String × String} (hname : IsLabelName label.1)
    (hvalue : NeedsNoEscape label.2) : insertLabel out (renderLabel label) = out.insert label.1 label.2 := by
  obtain ⟨name, value⟩ := label
  have htrim : trim (renderLabel (name, value)) = renderLabel (name, value) := by
    obtain ⟨c, hc, hblank⟩ := renderLabel_head hname
    exact strip_eq_self hc (renderLabel_getLast _) hblank (by decide)
  have hname' : ∀ c ∈ name.toList, decide (c ≠ '=') = true := fun c hc =>
    decide_eq_true (labelChar_ne (hname.2 c hc) (by simp))
  have hdrop : (renderLabel (name, value)).dropWhile (· ≠ '=') = '=' :: ('"' :: value.toList ++ ['"']) := by
    unfold renderLabel
    rw [List.dropWhile_append_of_pos hname']
    rfl
  have htake : (renderLabel (name, value)).takeWhile (· ≠ '=') = name.toList := by
    unfold renderLabel
    rw [List.takeWhile_append_of_pos hname', List.takeWhile_cons_of_neg (by simp), List.append_nil]
  have htrimName : trim name.toList = name.toList :=
    strip_of_forall fun c hc => labelChar_not_whitespace (hname.2 c hc)
  have htrimValue : trim ('"' :: value.toList ++ ['"']) = '"' :: value.toList ++ ['"'] :=
    strip_eq_self rfl List.getLast?_concat (by decide) (by decide)
  have hquotes : trimMatches '"' ('"' :: value.toList ++ ['"']) = value.toList :=
    strip_bracketed (fun c hc => decide_eq_false (hvalue c hc).1) (by decide) (by decide)
  have hne : renderLabel (name, value) ≠ [] := by
    intro h
    rw [h] at hdrop
    cases hdrop
  unfold insertLabel
  dsimp only
  rw [htrim, if_neg hne, hdrop, htake]
  dsimp only
  rw [htrimName, htrimValue, hquotes, String.ofList_toList, String.ofList_toList]

/-! ## A whole line -/

/-- the characters that the parser takes for structure wherever they stand -/
def Clean (value : String) : Prop := ∀ c ∈ value.toList, c ≠ ',' ∧ c ≠ '}'

instance (value : String) : Decidable (Clean value) := List.decidableBAll _ value.toList

theorem renderLabel_clean {label : String × String} (hname : IsLabelName label.1) (hvalue : Clean label.2) :
    ∀ c ∈ renderLabel label, c ≠ ',' ∧ c ≠ '}' := by
  intro c hc
  unfold renderLabel at hc
  simp only [List.mem_append, List.mem_cons, List.not_mem_nil, or_false] at hc
  rcases hc with hc | rfl | (rfl | hc) | rfl
  · exact ⟨labelChar_ne (hname.2 c hc) (by simp), labelChar_ne (hname.2 c hc) (by simp)⟩
  · decide
  · decide
  · exact hvalue c hc
  · decide

theorem captures_renderLine (metric : String) (labels : List (String × String)) {number : List Char}
    (hnumber : number ≠ [] ∧ number.all isNumberChar) (h : ∀ c ∈ renderLabels labels, c ≠ '}') :
    captures metric (renderLine metric labels number) = some (renderLabels labels, number) := by
  have hmetric : (renderLine metric labels number).dropPrefix? (metric.toList ++ ['{']) =
      some (renderLabels labels ++ '}' :: ' ' :: number) := by
    refine List.dropPrefix?_eq_some_iff.2 ⟨metric.toList ++ ['{'], ?_, BEq.rfl⟩
    rw [List.append_assoc]
    rfl
  have hlabels : ∀ c ∈ renderLabels labels, decide (c ≠ '}') = true := fun c hc => decide_eq_true (h c hc)
  have hdrop : (renderLabels labels ++ '}' :: ' ' :: number).dropWhile (· ≠ '}') = '}' :: ' ' :: number := by
    rw [List.dropWhile_append_of_pos hlabels, List.dropWhile_cons_of_neg (by simp)]
  have htake : (renderLabels labels ++ '}' :: ' ' :: number).takeWhile (· ≠ '}') = renderLabels labels := by
    rw [List.takeWhile_append_of_pos hlabels, List.takeWhile_cons_of_neg (by simp), List.append_nil]
  have hblank : (' ' :: number).dropWhile isWhitespace = number := by
    obtain ⟨hne, hall⟩ := hnumber
    cases number with
    | nil => exact absurd rfl hne
    | cons c number =>
      have hc := numberChar_not_whitespace (List.all_eq_true.1 hall c List.mem_cons_self)
      rw [List.dropWhile_cons_of_pos (by decide), List.dropWhile_cons_of_neg (by rw [hc]; exact Bool.false_ne_true)]
  have hspace : (' ' :: number).takeWhile isWhitespace ≠ [] := by
    rw [List.takeWhile_cons_of_pos (by decide)]
    exact List.cons_ne_nil _ _
  have hall : number.takeWhile isNumberChar = number := List.takeWhile_eq_self_iff.2 (List.all_eq_true.1 hnumber.2)
  unfold captures
  rw [hmetric]
  dsimp only
  rw [hdrop, htake]
  dsimp only
  rw [hblank, hall]
  exact if_neg fun h => h.elim hspace hnumber.1

/-- what the patterns capture as labels has no closing brace -/
theorem captures_labels {metric : String} {line part number : List Char} (h : captures metric line = some (part, number)) :
    ∀ c ∈ part, c ≠ '}' := by
  unfold captures at h
  split at h
  · cases h
  · split at h
    · cases h
    · dsimp only at h
      split_ifs at h
      cases h
      exact fun c hc => by simpa using List.mem_takeWhile_imp hc

def ValuesClean (out : ExtTreeMap String String) : Prop := ∀ name value : String, out[name]? = some value → Clean value

theorem insertLabel_clean {out : ExtTreeMap String String} {piece : List Char} (hout : ValuesClean out)
    (hpiece : ∀ c ∈ piece, c ≠ ',' ∧ c ≠ '}') : ValuesClean (insertLabel out piece) := by
  intro name value h
  unfold insertLabel at h
  dsimp only at h
  split_ifs at h
  · exact hout name value h
  split at h
  · exact hout name value h
  · rename_i rest hrest
    rw [getElem?_insert_eq] at h
    split_ifs at h
    · cases h
      intro c hc
      rw [String.toList_ofList] at hc
      have hmem : c ∈ rest := mem_of_mem_strip (mem_of_mem_strip hc)
      have hpart : c ∈ trim piece :=
        (List.dropWhile_suffix _).subset (hrest ▸ List.mem_cons_of_mem _ hmem)
      exact hpiece c (mem_of_mem_strip hpart)
    · exact hout name value h

/-- no value that is parsed from a captured label list holds a comma or a closing brace -/
theorem parseQemuLabels_clean {part : List Char} (h : ∀ c ∈ part, c ≠ '}') : ValuesClean (parseQemuLabels part) := by
  have hpieces : ∀ piece ∈ part.splitOn ',', ∀ c ∈ piece, c ≠ ',' ∧ c ≠ '}' := fun piece hpiece c hc =>
    ⟨(mem_splitOn hpiece hc).2, h c (mem_splitOn hpiece hc).1⟩
  have hempty : ValuesClean ∅ := fun name value h => by simp at h
  exact run_inv ValuesClean (fun out piece hout hpiece => insertLabel_clean hout hpiece) hempty
    (along_of_forall insertLabel ∅ hpieces)

/-! ## The round trip -/

theorem parseQemuLabels_renderLabels {labels : List (String × String)} (hnames : ∀ label ∈ labels, IsLabelName label.1)
    (hvalues : ∀ label ∈ labels, NeedsNoEscape label.2) (hclean : ∀ label ∈ labels, Clean label.2) :
    parseQemuLabels (renderLabels labels) =
      labels.foldl (fun (m : ExtTreeMap String String) label => m.insert label.1 label.2) ∅ := by
  cases labels with
  | nil => rfl
  | cons first rest =>
    have hpieces : (renderLabels (first :: rest)).splitOn ',' = (first :: rest).map renderLabel := by
      refine List.splitOn_intercalate ',' (fun piece hpiece hcomma => ?_) (by simp)
      obtain ⟨label, hlabel, rfl⟩ := List.mem_map.1 hpiece
      exact (renderLabel_clean (hnames label hlabel) (hclean label hlabel) ',' hcomma).1 rfl
    unfold parseQemuLabels
    rw [hpieces, List.foldl_map]
    refine List.foldl_ext _ _ _ fun out label hlabel => ?_
    exact insertLabel_renderLabel out (hnames label hlabel) (hvalues label hlabel)

theorem roundTrips_of_clean (metric : String) {labels : List (String × String)} {number : List Char}
    (hdistinct : (labels.map Prod.fst).Nodup) (hnames : ∀ label ∈ labels, IsLabelName label.1)
    (hvalues : ∀ label ∈ labels, NeedsNoEscape label.2) (hnumber : number ≠ [] ∧ number.all isNumberChar)
    (hclean : ∀ label ∈ labels, Clean label.2) : RoundTrips metric labels number := by
  refine ⟨renderLabels labels, captures_renderLine metric labels hnumber ?_, fun name value => ?_⟩
  · intro c hc
    rcases mem_intercalate hc with rfl | ⟨piece, hpiece, hc⟩
    · decide
    · obtain ⟨label, hlabel, rfl⟩ := List.mem_map.1 hpiece
      exact (renderLabel_clean (hnames label hlabel) (hclean label hlabel) c hc).2
  · rw [parseQemuLabels_renderLabels hnames hvalues hclean]
    exact getElem?_foldl_insert_eq_some hdistinct name value

theorem labels_round_trip_iff (metric : String) {labels : List (String × String)} {number : List Char}
    (hdistinct : (labels.map Prod.fst).Nodup) (hnames : ∀ label ∈ labels, IsLabelName label.1)
    (hvalues : ∀ label ∈ labels, NeedsNoEscape label.2)
    (hnumber : number ≠ [] ∧ number.all isNumberChar) :
    RoundTrips metric labels number ↔ ∀ label ∈ labels, Clean label.2 := by
  constructor
  · rintro ⟨part, hpart, hparsed⟩ ⟨name, value⟩ hmem
    exact parseQemuLabels_clean (captures_labels hpart) name value ((hparsed name value).2 hmem)
  · exact roundTrips_of_clean metric hdistinct hnames hvalues hnumber

theorem labels_round_trip_blanks : RoundTrips iothreadInfo [("id", " iot0"), ("tid", "a=b")] ['1'] :=
  (labels_round_trip_iff iothreadInfo (by decide) (by decide) (by decide) (by decide)).2 (by decide)

theorem comma_lost : ¬ RoundTrips iothreadInfo [("id", "iot0,1"), ("tid", "7")] ['1'] := by
  rintro ⟨part, hpart, hparsed⟩
  have hclean := parseQemuLabels_clean (captures_labels hpart) "id" "iot0,1" ((hparsed "id" "iot0,1").2 (by simp))
  exact (hclean ',' (by decide)).1 rfl

end IoThreadController
