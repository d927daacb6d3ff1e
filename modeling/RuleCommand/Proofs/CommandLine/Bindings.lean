import Mathlib.Tactic.Lemma
import RuleCommand.CommandLine.ValueOption
import RuleCommand.Proofs.Template.Derivation

set_option autoImplicit false

/-!
# Bindings and groups of files

A word that binds a name is cut at its first equals sign, so each such word is written from one name
and one value, whatever the value holds. A group of files is such a word whose value is a list: the
list is cut at its commas, and of the fields that this gives the empty ones are dropped. So a group
is read back from the word that is written for it, and any word that is read as a group has the same
label and the same paths as the word that is written for what was read.

## Main definitions

* `RuleCommand.IsName`, `RuleCommand.IsItem` — the names and the items that can be read back.
* `RuleCommand.writeBinding`, `RuleCommand.writeFileGroup` — the word for a binding and for a group.
* `RuleCommand.SplitsInto` — the fields of a list, the empty ones included.

## Main results

* `RuleCommand.parseBinding_eq_ok_iff`, `RuleCommand.parseBinding_eq_error_iff` — which words bind a
  name to a value, and which do not.
* `RuleCommand.SplitsInto.splitItems_eq` — the items of a list are its fields but the empty ones.
* `RuleCommand.parseFileGroup_eq_ok_iff` — which words give a group.
* `RuleCommand.bindings_and_groups_round_trip` — writing and reading undo each other.
-/

namespace RuleCommand

/-! ## Bindings -/

/-- A name that is read back from a word: it is not empty, and ends at the first equals sign. -/
structure IsName (name : String) : Prop where
  /-- It is not empty. -/
  ne_empty : name ≠ ""
  /-- It holds no equals sign. -/
  noEquals : '=' ∉ name.toList

instance (name : String) : Decidable (IsName name) :=
  decidable_of_iff (name ≠ "" ∧ '=' ∉ name.toList) ⟨fun h => ⟨h.1, h.2⟩, fun h => ⟨h.1, h.2⟩⟩

/-- The word that binds a name to a value. -/
def writeBinding (name value : String) : String :=
  name ++ "=" ++ value

section

variable {text name value : String}

lemma toList_writeBinding (name value : String) :
    (writeBinding name value).toList = name.toList ++ '=' :: value.toList := by
  rw [writeBinding, String.toList_append, String.toList_append, List.append_assoc]
  rfl

/-- A binding is read back from its word. -/
lemma parseBinding_writeBinding (h : IsName name) (value : String) :
    parseBinding (writeBinding name value) = .ok (name, value) := by
  have hne : name.toList ≠ [] := by simpa using h.ne_empty
  obtain ⟨htake, hdrop⟩ := takeWhile_ne_append h.noEquals ('=' :: value.toList) (by simp)
  unfold parseBinding
  simp only [toList_writeBinding, htake, hdrop, if_neg hne, String.ofList_toList]

/-- What is read from a word is the binding that the word is written for. -/
lemma eq_writeBinding_of_parseBinding (h : parseBinding text = .ok (name, value)) :
    IsName name ∧ text = writeBinding name value := by
  have hcut := List.takeWhile_append_dropWhile (p := (· != '=')) (l := text.toList)
  have hequals := @eq_of_mem_head?_dropWhile_ne '=' text.toList
  rw [parseBinding] at h
  split at h
  · cases h
  · next c rest hdrop =>
    rw [hdrop] at hcut hequals
    obtain rfl : c = '=' := hequals c rfl
    split at h
    · cases h
    · next hne =>
      cases h
      refine ⟨⟨by simpa using hne, ?_⟩, ?_⟩
      · rw [String.toList_ofList]
        exact not_mem_takeWhile_ne '=' text.toList
      · apply String.toList_injective
        rw [toList_writeBinding, String.toList_ofList, String.toList_ofList, hcut]

/-- **The words that bind a name to a value** are those that are written for it. -/
theorem parseBinding_eq_ok_iff :
    parseBinding text = .ok (name, value) ↔ IsName name ∧ text = writeBinding name value := by
  refine ⟨eq_writeBinding_of_parseBinding, ?_⟩
  rintro ⟨hname, rfl⟩
  exact parseBinding_writeBinding hname value

/-- A word that binds no name is the one told in the error. -/
lemma eq_of_parseBinding_eq_error {error : BindingError} (h : parseBinding text = .error error) :
    error = ⟨text⟩ := by
  rw [parseBinding] at h
  split at h
  · cases h
    rfl
  · split at h
    · cases h
      rfl
    · cases h

/-- The words that bind no name are those that are written for no binding. The error tells the
word. -/
theorem parseBinding_eq_error_iff {error : BindingError} :
    parseBinding text = .error error ↔
      error = ⟨text⟩ ∧ ∀ name value, IsName name → text ≠ writeBinding name value := by
  constructor
  · intro h
    refine ⟨eq_of_parseBinding_eq_error h, fun name value hname htext => ?_⟩
    rw [parseBinding_eq_ok_iff.mpr ⟨hname, htext⟩] at h
    cases h
  · rintro ⟨rfl, hnone⟩
    cases h : parseBinding text with
    | ok found =>
      obtain ⟨hname, htext⟩ := parseBinding_eq_ok_iff.mp h
      exact absurd htext (hnone _ _ hname)
    | error found => rw [eq_of_parseBinding_eq_error h]

end

/-! ## Lists -/

/-- An item that is read back from a list: it is not empty, and ends at the first comma. -/
structure IsItem (item : String) : Prop where
  /-- It is not empty. -/
  ne_empty : item ≠ ""
  /-- It holds no comma. -/
  noComma : ',' ∉ item.toList

instance (item : String) : Decidable (IsItem item) :=
  decidable_of_iff (item ≠ "" ∧ ',' ∉ item.toList) ⟨fun h => ⟨h.1, h.2⟩, fun h => ⟨h.1, h.2⟩⟩

/-- The fields of a list, the empty ones included: what stands before, between and behind its
commas. -/
structure SplitsInto (list : String) (fields : List String) : Prop where
  /-- The list is put together from its fields. -/
  text : list = ",".intercalate fields
  /-- There is a field even in an empty list. -/
  ne_nil : fields ≠ []
  /-- No field holds a comma. -/
  noComma : ∀ field ∈ fields, ',' ∉ field.toList

section

variable {list : String} {fields items : List String}

/-- No part of a text that is cut at a character holds the character. -/
lemma not_mem_of_mem_splitOn {c : Char} {text : List Char} :
    ∀ part ∈ text.splitOn c, c ∉ part := by
  induction text with
  | nil => simp
  | cons d text ih =>
    rw [List.splitOn_cons_eq_if_modifyHead]
    split
    · simpa using ih
    · next hd =>
      obtain ⟨first, others, hsplit⟩ := List.exists_cons_of_ne_nil (List.splitOn_ne_nil c text)
      rw [hsplit, List.forall_mem_cons] at ih
      rw [beq_iff_eq] at hd
      rw [hsplit, List.modifyHead_cons, List.forall_mem_cons]
      exact ⟨List.not_mem_cons_of_ne_of_not_mem (Ne.symm hd) ih.1, ih.2⟩

lemma toList_intercalate_comma (fields : List String) :
    (",".intercalate fields).toList = [','].intercalate (fields.map String.toList) := by
  rw [String.toList_intercalate]
  rfl

/-- The fields of a list are found at its commas. -/
lemma SplitsInto.splitOn_eq (h : SplitsInto list fields) :
    list.toList.splitOn ',' = fields.map String.toList := by
  rw [h.text, toList_intercalate_comma]
  apply List.splitOn_intercalate
  · simpa using h.noComma
  · simpa using h.ne_nil

/-- Each list has fields. -/
lemma exists_splitsInto (list : String) : ∃ fields, SplitsInto list fields := by
  refine ⟨(list.toList.splitOn ',').map String.ofList, ?_, ?_, ?_⟩
  · apply String.toList_injective
    rw [toList_intercalate_comma, List.map_map]
    simp [Function.comp_def, List.intercalate_splitOn]
  · simp
  · rw [List.forall_mem_map]
    intro part hpart
    rw [String.toList_ofList]
    exact not_mem_of_mem_splitOn part hpart

/-- **The items of a list** are its fields but the empty ones. -/
theorem SplitsInto.splitItems_eq (h : SplitsInto list fields) :
    splitItems list = fields.filter (· ≠ "") := by
  have hempty : ∀ field : String, decide (field.toList ≠ []) = decide (field ≠ "") := by simp
  rw [splitItems, h.splitOn_eq, List.filter_map, List.map_map]
  simp only [Function.comp_def, hempty, String.ofList_toList, List.map_id']

/-- Items are the fields of the list that they are put together to, unless there are none. -/
lemma splitItems_intercalate (h : ∀ item ∈ items, IsItem item) :
    splitItems (",".intercalate items) = items := by
  by_cases hnil : items = []
  · subst hnil
    rfl
  · have hsplit : SplitsInto (",".intercalate items) items :=
      ⟨rfl, hnil, fun item hitem => (h item hitem).noComma⟩
    rw [hsplit.splitItems_eq, List.filter_eq_self]
    exact fun item hitem => decide_eq_true (h item hitem).ne_empty

end

/-! ## Groups of files -/

/-- The word that gives a label to a group of files. -/
def writeFileGroup (label : String) (paths : List String) : String :=
  writeBinding label (",".intercalate paths)

section

variable {text label : String} {paths : List String}

/-- A group is read back from its word. -/
lemma parseFileGroup_writeFileGroup (hlabel : IsName label) (hpaths : ∀ path ∈ paths, IsItem path) :
    parseFileGroup (writeFileGroup label paths) = .ok (label, paths) := by
  rw [parseFileGroup, writeFileGroup, parseBinding_writeBinding hlabel]
  simp only [Except.map, splitItems_intercalate hpaths]

/-- **The words that give a group** bind its label to a list, of which the paths are the fields but
the empty ones. -/
theorem parseFileGroup_eq_ok_iff :
    parseFileGroup text = .ok (label, paths) ↔
      IsName label ∧ ∃ list fields, text = writeBinding label list ∧ SplitsInto list fields ∧
        paths = fields.filter (· ≠ "") := by
  constructor
  · intro h
    rw [parseFileGroup] at h
    cases hbinding : parseBinding text with
    | error error =>
      rw [hbinding] at h
      cases h
    | ok binding =>
      rw [hbinding] at h
      cases h
      obtain ⟨hlabel, htext⟩ := parseBinding_eq_ok_iff.mp hbinding
      obtain ⟨fields, hfields⟩ := exists_splitsInto binding.2
      exact ⟨hlabel, binding.2, fields, htext, hfields, hfields.splitItems_eq⟩
  · rintro ⟨hlabel, list, fields, rfl, hfields, rfl⟩
    rw [parseFileGroup, parseBinding_writeBinding hlabel]
    simp only [Except.map, hfields.splitItems_eq]

/-- A word that gives no group of files is the one told in the error. -/
lemma eq_of_parseFileGroup_eq_error {error : BindingError}
    (h : parseFileGroup text = .error error) : error = ⟨text⟩ := by
  rw [parseFileGroup] at h
  cases hbinding : parseBinding text with
  | error found =>
    rw [hbinding] at h
    cases h
    exact eq_of_parseBinding_eq_error hbinding
  | ok binding =>
    rw [hbinding] at h
    cases h

/-- The paths that are read can be written in a list. -/
lemma SplitsInto.isItem {list : String} {fields : List String} (h : SplitsInto list fields) :
    ∀ item ∈ fields.filter (· ≠ ""), IsItem item := by
  intro item hitem
  obtain ⟨hfield, hne⟩ := List.mem_filter.mp hitem
  exact ⟨of_decide_eq_true hne, h.noComma item hfield⟩

end

/-! ## Round trips -/

/-- **Bindings and groups of files round-trip.** A word binds a name to a value just if it is
written for them, and any other word is told in the error. A group of files is read back from the
word that is written for it, with any number of paths. And what is read as a group from any word can
be written: the label is a name, the paths are the fields of the list behind the first equals sign
but the empty ones, in their order, and writing them gives a word that is read as the same group. -/
theorem bindings_and_groups_round_trip :
    (∀ text name value, parseBinding text = .ok (name, value) ↔
      IsName name ∧ text = writeBinding name value) ∧
    (∀ text error, parseBinding text = .error error ↔
      error = ⟨text⟩ ∧ ∀ name value, IsName name → text ≠ writeBinding name value) ∧
    (∀ label paths, IsName label → (∀ path ∈ paths, IsItem path) →
      parseFileGroup (writeFileGroup label paths) = .ok (label, paths)) ∧
    (∀ text label paths, parseFileGroup text = .ok (label, paths) ↔
      IsName label ∧ ∃ list fields, text = writeBinding label list ∧ SplitsInto list fields ∧
        paths = fields.filter (· ≠ "")) ∧
    ∀ text label paths, parseFileGroup text = .ok (label, paths) →
      IsName label ∧ (∀ path ∈ paths, IsItem path) ∧
        parseFileGroup (writeFileGroup label paths) = .ok (label, paths) := by
  refine ⟨fun _ _ _ => parseBinding_eq_ok_iff, fun _ _ => parseBinding_eq_error_iff,
    fun _ _ => parseFileGroup_writeFileGroup, fun _ _ _ => parseFileGroup_eq_ok_iff, ?_⟩
  intro text label paths h
  obtain ⟨hlabel, list, fields, -, hfields, rfl⟩ := parseFileGroup_eq_ok_iff.mp h
  exact ⟨hlabel, hfields.isItem, parseFileGroup_writeFileGroup hlabel hfields.isItem⟩

/-- A value with equals signs of its own, a word that starts with one, and a list with commas at
both ends and next to each other, in which a path stands twice. -/
theorem bindings_and_groups_round_trip_of_commas :
    parseBinding "é==v=" = .ok ("é", "=v=") ∧
      (∀ name value, IsName name → "=v" ≠ writeBinding name value) ∧
      parseFileGroup ":g=a,é,a" = .ok (":g", ["a", "é", "a"]) ∧
      parseFileGroup ":g=,a,,é,a," = .ok (":g", ["a", "é", "a"]) ∧
      parseFileGroup (writeFileGroup ":g" ["a", "é", "a"]) = .ok (":g", ["a", "é", "a"]) := by
  obtain ⟨hbinding, herror, hgroup, hread, hback⟩ := bindings_and_groups_round_trip
  have hsplit : SplitsInto ",a,,é,a," ["", "a", "", "é", "a", ""] := ⟨rfl, by decide, by decide⟩
  have hcommas : parseFileGroup ":g=,a,,é,a," = .ok (":g", ["a", "é", "a"]) :=
    (hread _ _ _).mpr ⟨by decide, _, _, rfl, hsplit, rfl⟩
  exact ⟨(hbinding _ _ _).mpr ⟨by decide, rfl⟩, ((herror _ _).mp rfl).2,
    hgroup ":g" ["a", "é", "a"] (by decide) (by decide), hcommas, (hback _ _ _ hcommas).2.2⟩

end RuleCommand
