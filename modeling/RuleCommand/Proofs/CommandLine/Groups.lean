import Mathlib.Data.List.Basic
import RuleCommand.Proofs.CommandLine.Extraction

set_option autoImplicit false

/-!
# Command lines made of groups

A command line is usually written in groups: an option with its value, the flag for a dependency
file, or a word that means nothing to the program. Options are taken out one after the other. A step
that takes out a group leaves the words of the others where they belong, whatever their order, so
each step can be told by the groups that are there before it and after it.

## Main definitions

* `RuleCommand.PlainWord` — a word that means something only by its place.
* `RuleCommand.Group` — a group of words on a command line.
* `RuleCommand.Group.commandLine` — the words of groups.
* `RuleCommand.Group.values` — the values that groups give to an option.

## Main results

* `RuleCommand.Group.cutAt_words` — a key is found in the first group that has it.
* `RuleCommand.Group.exists_takeValue` — what one step takes out.
* `RuleCommand.Group.takeValues_words` — what all steps on an option that may be repeated take out.
* `RuleCommand.Group.value?_words`, `RuleCommand.Group.command_words`,
  `RuleCommand.Group.flag_words` — the steps on the name, the command and the flag.
-/

namespace RuleCommand

/-! ## Keys -/

namespace ValueOption

/-- The spellings of an option differ. -/
lemma nodup_spellings (option : ValueOption) : option.spellings.Nodup := by
  cases option <;> decide

/-- A spelling belongs to one option only. -/
lemma eq_of_mem_spellings {option other : ValueOption} {key : String}
    (hoption : key ∈ option.spellings) (hother : key ∈ other.spellings) : option = other := by
  have hall : ∀ option ∈ all, ∀ other ∈ all, ∀ key ∈ option.spellings,
      key ∈ other.spellings → option = other := by
    decide
  exact hall option (mem_all option) other (mem_all other) key hoption hother

/-- The flag for a dependency file is no spelling of an option. -/
lemma depfileFlag_not_mem_spellings (option : ValueOption) : depfileFlag ∉ option.spellings := by
  cases option <;> decide

end ValueOption

/-- The words that mean something to the program wherever they stand. -/
def keyWords : List String :=
  ValueOption.all.flatMap ValueOption.spellings ++ [depfileFlag]

/-- A spelling of an option means something wherever it stands. -/
lemma mem_keyWords_of_mem_spellings {option : ValueOption} {key : String}
    (h : key ∈ option.spellings) : key ∈ keyWords :=
  List.mem_append_left _ (List.mem_flatMap.mpr ⟨option, option.mem_all, h⟩)

/-- The flag for a dependency file means something wherever it stands. -/
lemma depfileFlag_mem_keyWords : depfileFlag ∈ keyWords :=
  List.mem_append_right _ (List.mem_singleton_self _)

/-! ## Groups -/

/-- A word that means something only by its place. -/
abbrev PlainWord := { word : String // word ∉ keyWords }

/-- A group of words that belong together on a command line. -/
inductive Group where
  /-- An option, in one of its spellings, with its value. -/
  | pair (option : ValueOption) (key : { key // key ∈ option.spellings }) (value : PlainWord)
  /-- The flag for a dependency file. -/
  | depfile
  /-- A word that means nothing to the program. -/
  | stray (word : PlainWord)
deriving DecidableEq

namespace Group

/-- The words of a group. -/
def words : Group → List String
  | pair _ key value => [key, value]
  | depfile => [depfileFlag]
  | stray word => [word]

/-- The word by which a group is found. -/
def key? : Group → Option String
  | pair _ key _ => some key
  | depfile => some depfileFlag
  | stray _ => none

/-- Whether a group gives a value to an option. -/
def gives (option : ValueOption) : Group → Bool
  | pair other _ _ => other = option
  | _ => false

/-- The value that a group gives under a key. -/
def valueUnder? (key : String) : Group → Option String
  | pair _ other value => if other = key then some value else none
  | _ => none

/-- The words of a command line made of groups. -/
def commandLine (groups : List Group) : List String :=
  groups.flatMap words

/-- The values that groups give under a key, in order. -/
def valuesUnder (groups : List Group) (key : String) : List String :=
  groups.filterMap (valueUnder? key)

/-- The values of an option: first those under its first spelling, then those under the next. -/
def values (option : ValueOption) (groups : List Group) : List String :=
  option.spellings.flatMap (valuesUnder groups)

variable {key : String} {option : ValueOption} {group : Group} {groups before after : List Group}

lemma commandLine_append :
    commandLine (before ++ after) = commandLine before ++ commandLine after :=
  List.flatMap_append

lemma commandLine_cons : commandLine (group :: groups) = group.words ++ commandLine groups :=
  List.flatMap_cons

/-! ## Groups by their keys -/

/-- Of the words of a group only its key means something wherever it stands. -/
lemma mem_words_iff (hkey : key ∈ keyWords) : key ∈ group.words ↔ group.key? = some key := by
  cases group with
  | pair option other value =>
    have hvalue : key ≠ value := fun h => value.property (h ▸ hkey)
    simp [words, key?, hvalue, eq_comm]
  | depfile => simp [words, key?, eq_comm]
  | stray word =>
    have hword : key ≠ word := fun h => word.property (h ▸ hkey)
    simp [words, key?, hword]

/-- A group starts with its key. -/
lemma words_eq_cons (h : group.key? = some key) : group.words = key :: group.words.tail := by
  cases group <;> simp_all [words, key?]

/-- A group with a spelling of an option as its key gives a value to the option. -/
lemma exists_eq_pair (hkey : key ∈ option.spellings) (h : group.key? = some key) :
    ∃ value, group = pair option ⟨key, hkey⟩ value := by
  cases group with
  | pair other found value =>
    cases h
    obtain rfl := ValueOption.eq_of_mem_spellings hkey found.property
    exact ⟨value, rfl⟩
  | depfile =>
    cases h
    exact absurd hkey option.depfileFlag_not_mem_spellings
  | stray word => cases h

/-- A key occurs in a command line exactly if a group has it. -/
lemma mem_commandLine_iff (hkey : key ∈ keyWords) :
    key ∈ commandLine groups ↔ ∃ group ∈ groups, group.key? = some key := by
  simp only [commandLine, List.mem_flatMap, mem_words_iff hkey]

/-- A key is found in the first group that has it. -/
lemma cutAt_words (hkey : key ∈ keyWords) (hbefore : ∀ group ∈ before, group.key? ≠ some key)
    (hgroup : group.key? = some key) :
    cutAt key (commandLine (before ++ group :: after)) =
      some (commandLine before, group.words.tail ++ commandLine after) := by
  refine cutAt_eq_some_iff.mpr ⟨?_, fun hmem => ?_⟩
  · rw [commandLine_append, commandLine_cons, words_eq_cons hgroup]
    rfl
  · obtain ⟨other, hother, hsame⟩ := (mem_commandLine_iff hkey).mp hmem
    exact hbefore other hother hsame

/-! ## Values -/

@[simp] lemma gives_pair {found : { key // key ∈ option.spellings }} {value : PlainWord} :
    (pair option found value).gives option = true :=
  decide_eq_true rfl

/-- A group gives a value to an option exactly if its key is a spelling of the option. -/
lemma gives_iff : group.gives option = true ↔ ∃ key ∈ option.spellings, group.key? = some key := by
  constructor
  · cases group with
    | pair other found value =>
      intro h
      obtain rfl := of_decide_eq_true h
      exact ⟨found, found.property, rfl⟩
    | depfile => intro h; cases h
    | stray word => intro h; cases h
  · rintro ⟨key, hkey, h⟩
    obtain ⟨value, rfl⟩ := exists_eq_pair hkey h
    exact gives_pair

/-- A group that gives no value to an option has none of its spellings as its key. -/
lemma key?_ne_of_gives_eq_false (hkey : key ∈ option.spellings)
    (h : group.gives option = false) : group.key? ≠ some key := by
  intro hsame
  have hgives : group.gives option = true := gives_iff.mpr ⟨key, hkey, hsame⟩
  rw [h] at hgives
  cases hgives

lemma valueUnder?_of_ne (h : group.key? ≠ some key) : group.valueUnder? key = none := by
  cases group with
  | pair option other value => exact if_neg fun heq => h (congrArg some heq)
  | depfile | stray => rfl

/-- Groups without a key give no values under it. -/
lemma valuesUnder_eq_nil (h : ∀ group ∈ groups, group.key? ≠ some key) :
    valuesUnder groups key = [] :=
  List.filterMap_eq_nil_iff.mpr fun group hgroup => valueUnder?_of_ne (h group hgroup)

/-- Without a group, the values under other keys stay as they are. -/
lemma valuesUnder_of_ne (h : group.key? ≠ some key) :
    valuesUnder (before ++ group :: after) key = valuesUnder (before ++ after) key := by
  rw [valuesUnder, valuesUnder, List.filterMap_append, List.filterMap_append,
    List.filterMap_cons_none (valueUnder?_of_ne h)]

/-- The first group with a key gives the first value under it. -/
lemma valuesUnder_first {value : String} (hbefore : ∀ group ∈ before, group.key? ≠ some key)
    (hvalue : group.valueUnder? key = some value) :
    valuesUnder (before ++ group :: after) key = value :: valuesUnder (before ++ after) key := by
  have hnil := valuesUnder_eq_nil hbefore
  rw [valuesUnder] at hnil
  rw [valuesUnder, valuesUnder, List.filterMap_append, List.filterMap_append, hnil,
    List.filterMap_cons_some hvalue]
  rfl

/-- Groups of which none gives a value to an option give no values to it. -/
lemma values_eq_nil (h : ∀ group ∈ groups, group.gives option = false) :
    values option groups = [] := by
  rw [values, List.flatMap_eq_nil_iff]
  intro key hkey
  exact valuesUnder_eq_nil fun group hgroup => key?_ne_of_gives_eq_false hkey (h group hgroup)

/-- Where a value is the first of an option, the others are those of the other groups. -/
lemma values_first {value : String} {earlier later : List String}
    (hkeys : option.spellings = earlier ++ key :: later)
    (hearlier : ∀ other ∈ earlier, ∀ member ∈ before ++ group :: after, member.key? ≠ some other)
    (hbefore : ∀ member ∈ before, member.key? ≠ some key) (hkey : group.key? = some key)
    (hvalue : group.valueUnder? key = some value) :
    values option (before ++ group :: after) = value :: values option (before ++ after) := by
  have hnodup := option.nodup_spellings
  rw [hkeys, List.nodup_append, List.nodup_cons] at hnodup
  have hothers : ∀ other ∈ earlier ++ later, valuesUnder (before ++ group :: after) other =
      valuesUnder (before ++ after) other := by
    intro other hother
    refine valuesUnder_of_ne fun hsame => ?_
    obtain rfl : key = other := Option.some.inj (hkey.symm.trans hsame)
    rcases List.mem_append.mp hother with hearly | hlate
    · exact hearlier key hearly group (by simp) hkey
    · exact hnodup.2.1.1 hlate
  have hlater : later.flatMap (valuesUnder (before ++ group :: after)) =
      later.flatMap (valuesUnder (before ++ after)) :=
    List.flatMap_congr fun other hother => hothers other (List.mem_append_right _ hother)
  have hearly : earlier.flatMap (valuesUnder (before ++ group :: after)) =
      earlier.flatMap (valuesUnder (before ++ after)) :=
    List.flatMap_congr fun other hother => hothers other (List.mem_append_left _ hother)
  have hnone : earlier.flatMap (valuesUnder (before ++ group :: after)) = [] :=
    List.flatMap_eq_nil_iff.mpr fun other hother => valuesUnder_eq_nil (hearlier other hother)
  rw [values, values, hkeys, List.flatMap_append, List.flatMap_append, List.flatMap_cons,
    List.flatMap_cons, ← hearly, hnone, hlater, valuesUnder_first hbefore hvalue]
  rfl

/-! ## Steps -/

/-- An option that no group gives a value to is not found. -/
lemma takeValue_of_not_gives (h : ∀ group ∈ groups, group.gives option = false) :
    takeValue option.spellings (commandLine groups) = .ok none := by
  refine takeValue_eq_none_iff.mpr fun key hkey hmem => ?_
  obtain ⟨group, hgroup, hsame⟩ :=
    (mem_commandLine_iff (mem_keyWords_of_mem_spellings hkey)).mp hmem
  exact key?_ne_of_gives_eq_false hkey (h group hgroup) hsame

/-- **A step on groups**: an option takes its first value and leaves the other groups as they
were. -/
lemma exists_takeValue (h : ∃ group ∈ groups, group.gives option = true) :
    ∃ before key value after, groups = before ++ pair option key value :: after ∧
      (∀ group ∈ before, group.key? ≠ some key.val) ∧
      takeValue option.spellings (commandLine groups) =
        .ok (some (value.val, commandLine (before ++ after))) ∧
      values option groups = value.val :: values option (before ++ after) := by
  obtain ⟨group, hgroup, hgives⟩ := h
  obtain ⟨key, hkey, hsame⟩ := gives_iff.mp hgives
  -- The first spelling that occurs, and then the first group that has it.
  obtain ⟨earlier, first, later, hkeys, hearlier, hmem⟩ :=
    exists_first (p := fun key => key ∈ commandLine groups) ⟨key, hkey,
      (mem_commandLine_iff (mem_keyWords_of_mem_spellings hkey)).mpr ⟨group, hgroup, hsame⟩⟩
  have hfirst : first ∈ option.spellings := by simp [hkeys]
  have hword := mem_keyWords_of_mem_spellings hfirst
  obtain ⟨before, group, after, rfl, hbefore, hsame⟩ :=
    exists_first ((mem_commandLine_iff hword).mp hmem)
  obtain ⟨value, rfl⟩ := exists_eq_pair hfirst hsame
  refine ⟨before, ⟨first, hfirst⟩, value, after, rfl, hbefore, ?_, ?_⟩
  · obtain ⟨hwords, hnot⟩ := cutAt_eq_some_iff.mp (@cutAt_words _ _ _ after hword hbefore hsame)
    exact takeValue_eq_some_iff.mpr ⟨first, commandLine before, commandLine after,
      ⟨earlier, later, hkeys, hearlier⟩, hwords, hnot, commandLine_append⟩
  · refine values_first hkeys (fun other hother group hgroup hsame => ?_) hbefore hsame (if_pos rfl)
    have hspelling : other ∈ option.spellings := by simp [hkeys, hother]
    exact hearlier other hother
      ((mem_commandLine_iff (mem_keyWords_of_mem_spellings hspelling)).mpr ⟨group, hgroup, hsame⟩)

/-- An option that may be repeated takes all its values, each read when it is taken, and leaves the
groups of other options as they were. -/
lemma takeValues_words {α : Type} (option : ValueOption) (read : String → Except ArgumentError α)
    (groups : List Group) :
    takeValues option.spellings read (commandLine groups) = do
      let found ← (values option groups).mapM read
      return (found, commandLine (groups.filter fun group => !group.gives option)) := by
  -- The induction is on the number of groups: each round takes out one of them.
  induction hlength : groups.length using Nat.strongRecOn generalizing groups with
  | ind count ih =>
    by_cases hgives : ∃ group ∈ groups, group.gives option = true
    · obtain ⟨before, key, value, after, rfl, -, htake, hvalues⟩ := exists_takeValue hgives
      have hshort : (before ++ after).length < count := by
        rw [← hlength, List.length_append, List.length_append, List.length_cons]
        omega
      have hfilter : (before ++ pair option key value :: after).filter (!gives option ·) =
          (before ++ after).filter (!gives option ·) := by
        simp
      rw [takeValues_of_some htake, ih _ hshort _ rfl, hvalues, List.mapM_cons, hfilter]
      cases read value with
      | error error => rfl
      | ok first => cases (values option (before ++ after)).mapM read <;> rfl
    · simp only [not_exists, not_and, Bool.not_eq_true] at hgives
      have hfilter : groups.filter (!gives option ·) = groups :=
        List.filter_eq_self.mpr fun group hgroup => by simp [hgives group hgroup]
      rw [takeValues_of_none (takeValue_of_not_gives hgives), values_eq_nil hgives, hfilter]
      rfl

/-- An option of one spelling takes its first value, if it has one, and leaves the other groups as
they were. -/
lemma value?_words {key : String} (hkey : option.spellings = [key]) :
    Extraction.value? option (commandLine groups) =
      .ok ((values option groups).head?, commandLine (groups.eraseP (gives option))) := by
  by_cases hgives : ∃ group ∈ groups, group.gives option = true
  · obtain ⟨before, found, value, after, rfl, hbefore, htake, hvalues⟩ := exists_takeValue hgives
    have hfound : found.val = key := by simpa [hkey] using found.property
    have hnone : ∀ group ∈ before, ¬group.gives option = true := by
      intro group hgroup hgives
      obtain ⟨other, hother, hsame⟩ := gives_iff.mp hgives
      rw [hkey, List.mem_singleton] at hother
      exact hbefore group hgroup (by rw [hsame, hother, hfound])
    have herase : (before ++ pair option found value :: after).eraseP (gives option) =
        before ++ after := by
      rw [List.eraseP_append_right _ hnone, List.eraseP_cons_of_pos gives_pair]
    rw [Extraction.value?, htake, hvalues, herase]
    rfl
  · simp only [not_exists, not_and, Bool.not_eq_true] at hgives
    have herase : groups.eraseP (gives option) = groups :=
      List.eraseP_of_forall_not fun group hgroup => by simp [hgives group hgroup]
    rw [Extraction.value?, takeValue_of_not_gives hgives, values_eq_nil hgives, herase]
    rfl

/-- The command is the first value of its option, which has to be given. -/
lemma command_words :
    Extraction.command (commandLine groups) =
      match (values .command groups).head? with
      | some template => .ok (template, commandLine (groups.eraseP (gives .command)))
      | none => .error .missingCommand := by
  change (Extraction.value? .command (commandLine groups) >>= fun found => _) = _
  rw [value?_words rfl]
  cases (values .command groups).head? <;> rfl

/-- A group has the flag as its key exactly if it is the flag. -/
lemma key?_eq_depfileFlag_iff : group.key? = some depfileFlag ↔ group = depfile := by
  cases group with
  | pair option key value =>
    have hkey : key.val ≠ depfileFlag := fun h =>
      option.depfileFlag_not_mem_spellings (h ▸ key.property)
    simp [key?, hkey]
  | depfile => simp [key?]
  | stray word => simp [key?]

/-- The flag for a dependency file is taken out once and leaves the other groups as they were. -/
lemma flag_words :
    Extraction.flag depfileFlag (commandLine groups) =
      .ok (decide (depfile ∈ groups), commandLine (groups.erase depfile)) := by
  by_cases hflag : depfile ∈ groups
  · obtain ⟨before, after, rfl, hbefore⟩ := List.eq_append_cons_of_mem hflag
    have hnone : ∀ group ∈ before, group.key? ≠ some depfileFlag := by
      intro group hgroup hkey
      obtain rfl := key?_eq_depfileFlag_iff.mp hkey
      exact hbefore hgroup
    rw [Extraction.flag, takeFlag, cutAt_words depfileFlag_mem_keyWords hnone rfl,
      decide_eq_true hflag, List.erase_append_right _ hbefore, List.erase_cons_head,
      @commandLine_append _ after]
    rfl
  · have hnone : depfileFlag ∉ commandLine groups := by
      rw [mem_commandLine_iff depfileFlag_mem_keyWords]
      rintro ⟨group, hgroup, hkey⟩
      obtain rfl := key?_eq_depfileFlag_iff.mp hkey
      exact hflag hgroup
    rw [Extraction.flag, takeFlag, cutAt_eq_none_iff.mpr hnone, decide_eq_false hflag,
      List.erase_of_not_mem hflag]
    rfl

/-! ## What a step leaves -/

/-- Without groups that do not give values to an option, its values stay as they are. -/
lemma values_filter {p : Group → Bool}
    (hp : ∀ group, p group = false → group.gives option = false) :
    values option (groups.filter p) = values option groups := by
  refine List.flatMap_congr fun key hkey => ?_
  rw [valuesUnder, valuesUnder, List.filterMap_filter]
  refine List.filterMap_congr fun group _ => ?_
  split
  · rfl
  · next hnot =>
    have hgives : group.gives option = false := hp group (Bool.eq_false_iff.mpr hnot)
    exact (valueUnder?_of_ne (key?_ne_of_gives_eq_false hkey hgives)).symm

/-- Without one group that does not give a value to an option, its values stay as they are. -/
lemma values_eraseP {p : Group → Bool}
    (hp : ∀ group, p group = true → group.gives option = false) :
    values option (groups.eraseP p) = values option groups := by
  rcases List.exists_or_eq_self_of_eraseP p groups with hsame |
    ⟨group, before, after, -, hgroup, hsplit, herase⟩
  · rw [hsame]
  · rw [herase, hsplit]
    refine List.flatMap_congr fun key hkey => ?_
    exact (valuesUnder_of_ne (key?_ne_of_gives_eq_false hkey (hp group hgroup))).symm

end Group

end RuleCommand
