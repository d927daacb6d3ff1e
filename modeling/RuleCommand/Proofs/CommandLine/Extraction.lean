import Mathlib.Tactic.Lemma
import RuleCommand.CommandLine.Arguments
import RuleCommand.Proofs.Outcome

set_option autoImplicit false

/-!
# Taking words out of a command line

What one step of reading a command line takes out, told by where the words stand: a flag is its
first occurrence, an option is the first occurrence of the first of its spellings that occurs, and
its value is the next word.

## Main results

* `RuleCommand.cutAt_eq_some_iff`, `RuleCommand.cutAt_eq_none_iff` — the first occurrence of a word.
* `RuleCommand.takeFlag_eq` — a flag is taken out by erasing its first occurrence.
* `RuleCommand.takeValue_eq_some_iff`, `RuleCommand.takeValue_eq_none_iff` — when an option is
  found, and what is left.
* `RuleCommand.takeValues_of_none`, `RuleCommand.takeValues_of_error`,
  `RuleCommand.takeValues_of_some` — the rounds of an option that may be repeated.
-/

namespace RuleCommand

variable {key value : String} {keys words before behind rest : List String}

/-! ## Words -/

/-- If some entry of a list has a property, there is a first one. -/
lemma exists_first {α : Type} {p : α → Prop} {xs : List α} (h : ∃ x ∈ xs, p x) :
    ∃ before x after, xs = before ++ x :: after ∧ (∀ y ∈ before, ¬p y) ∧ p x := by
  classical
  obtain ⟨x, hx, hp⟩ := h
  obtain ⟨first, before, after, hbefore, hfirst, hsplit, -⟩ :=
    List.exists_of_eraseP (p := fun x => decide (p x)) hx (decide_eq_true hp)
  exact ⟨before, first, after, hsplit, by simpa using hbefore, of_decide_eq_true hfirst⟩

/-- The words before and behind the first occurrence of a word. -/
lemma cutAt_eq_some_iff :
    cutAt key words = some (before, behind) ↔ words = before ++ key :: behind ∧ key ∉ before := by
  induction words generalizing before with
  | nil => simp [cutAt]
  | cons word words ih =>
    rw [cutAt]
    by_cases hword : word = key
    · subst hword
      cases before with
      | nil => simp [eq_comm]
      | cons first before => simp +contextual [eq_comm]
    · rw [if_neg hword, Option.map_eq_some_iff]
      constructor
      · rintro ⟨⟨front, back⟩, hcut, hparts⟩
        cases hparts
        obtain ⟨rfl, hfront⟩ := ih.mp hcut
        exact ⟨rfl, List.not_mem_cons_of_ne_of_not_mem (Ne.symm hword) hfront⟩
      · rintro ⟨hwords, hbefore⟩
        cases before with
        | nil => exact absurd (List.cons.inj hwords).1 hword
        | cons first before =>
          obtain ⟨rfl, hrest⟩ := List.cons.inj hwords
          exact ⟨(before, behind), ih.mpr ⟨hrest, List.not_mem_of_not_mem_cons hbefore⟩, rfl⟩

/-- A word that does not occur is not found. -/
lemma cutAt_eq_none_iff : cutAt key words = none ↔ key ∉ words := by
  constructor
  · intro hnone hmem
    obtain ⟨before, behind, hsplit, hbefore⟩ := List.eq_append_cons_of_mem hmem
    rw [cutAt_eq_some_iff.mpr ⟨hsplit, hbefore⟩] at hnone
    cases hnone
  · intro hmem
    refine Option.eq_none_iff_forall_ne_some.mpr fun parts hcut => hmem ?_
    rw [(cutAt_eq_some_iff.mp hcut).1]
    simp

/-! ## Flags -/

/-- A flag is taken out by erasing its first occurrence. -/
lemma takeFlag_eq : takeFlag key words = if key ∈ words then some (words.erase key) else none := by
  rw [takeFlag]
  split
  · next hmem =>
    obtain ⟨before, behind, rfl, hbefore⟩ := List.eq_append_cons_of_mem hmem
    rw [cutAt_eq_some_iff.mpr ⟨rfl, hbefore⟩, List.erase_append_right _ hbefore,
      List.erase_cons_head]
    rfl
  · next hmem =>
    rw [cutAt_eq_none_iff.mpr hmem]
    rfl

/-! ## Options -/

/-- An option is not found exactly if none of its spellings occurs. -/
lemma takeValue_eq_none_iff : takeValue keys words = .ok none ↔ ∀ key ∈ keys, key ∉ words := by
  have hnone : (keys.findSome? fun key => (cutAt key words).map (key, ·)) = none ↔
      ∀ key ∈ keys, key ∉ words := by
    simp only [List.findSome?_eq_none_iff, Option.map_eq_none_iff, cutAt_eq_none_iff]
  rw [← hnone, takeValue]
  split
  · next h => simp [h]
  · next h => simp [h]
  · next h => simp [h]

/-- The first spelling of an option that occurs, at its first occurrence. -/
lemma findSome?_cutAt_eq_some_iff :
    (keys.findSome? fun key => (cutAt key words).map (key, ·)) = some (key, before, behind) ↔
      (∃ earlier later, keys = earlier ++ key :: later ∧ ∀ other ∈ earlier, other ∉ words) ∧
        words = before ++ key :: behind ∧ key ∉ before := by
  simp only [List.findSome?_eq_some_iff, Option.map_eq_some_iff, Option.map_eq_none_iff,
    cutAt_eq_none_iff, Prod.mk.injEq]
  constructor
  · rintro ⟨earlier, other, later, hkeys, ⟨parts, hcut, rfl, rfl⟩, hearlier⟩
    exact ⟨⟨earlier, later, hkeys, hearlier⟩, cutAt_eq_some_iff.mp hcut⟩
  · rintro ⟨⟨earlier, later, hkeys, hearlier⟩, hwords⟩
    exact ⟨earlier, key, later, hkeys, ⟨_, cutAt_eq_some_iff.mpr hwords, rfl, rfl⟩, hearlier⟩

/-- An option is found exactly if one of its spellings occurs and a word stands behind the first
occurrence of the first such spelling. That word is the value, and both are taken out. -/
lemma takeValue_eq_some_iff :
    takeValue keys words = .ok (some (value, rest)) ↔
      ∃ key before behind,
        (∃ earlier later, keys = earlier ++ key :: later ∧ ∀ other ∈ earlier, other ∉ words) ∧
          words = before ++ key :: value :: behind ∧ key ∉ before ∧ rest = before ++ behind := by
  constructor
  · intro h
    rw [takeValue] at h
    split at h
    · cases h
    · next key before _ behind hfound =>
      cases h
      obtain ⟨hkeys, hwords, hbefore⟩ := findSome?_cutAt_eq_some_iff.mp hfound
      exact ⟨key, before, behind, hkeys, hwords, hbefore, rfl⟩
    · cases h
  · rintro ⟨key, before, behind, hkeys, hwords, hbefore, rfl⟩
    rw [takeValue, findSome?_cutAt_eq_some_iff.mpr ⟨hkeys, hwords, hbefore⟩]

/-! ## Rounds -/

section

variable {α : Type} {read : String → Except ArgumentError α}

/-- The rounds of an option end when none of its spellings occurs. -/
lemma takeValues_of_none (h : takeValue keys words = .ok none) :
    takeValues keys read words = .ok ([], words) := by
  rw [takeValues]
  split
  · next heq => simp [h] at heq
  · rfl
  · next heq => simp [h] at heq

/-- The rounds of an option fail at a spelling without a word behind it. -/
lemma takeValues_of_error {error : ArgumentError} (h : takeValue keys words = .error error) :
    takeValues keys read words = .error error := by
  rw [takeValues]
  split
  · next heq =>
    rw [h] at heq
    cases heq
    rfl
  · next heq => simp [h] at heq
  · next heq => simp [h] at heq

/-- In each round a value is taken out and read before the next round. -/
lemma takeValues_of_some (h : takeValue keys words = .ok (some (value, rest))) :
    takeValues keys read words = do
      let first ← read value
      let (values, left) ← takeValues keys read rest
      return (first :: values, left) := by
  rw [takeValues]
  split
  · next heq => simp [h] at heq
  · next heq => simp [h] at heq
  · next heq =>
    rw [h] at heq
    cases heq
    rfl

end

end RuleCommand
