import RuleCommand.Proofs.Template.Canonical

set_option autoImplicit false

/-!
# How directives are spelled

Which directive a body spells is told by its text without the blanks around it: five words stand for
themselves, two words take a label, and whatever is none of these is the name of a variable. So it
does not matter how many blanks, or which ones, are put around a body or between one of the two
words and its label. A template in which directives are spaced anew is read as before, in other
places. A fault of it stays, but for the name that it may show, which reaches up to the next blank.

## Main definitions

* `RuleCommand.Directive.Spells` — the directive that a text spells.
* `RuleCommand.Respaced` — bodies that differ in their blanks only.
* `RuleCommand.RespacedTemplate` — templates that differ in the blanks of their directives only.
* `RuleCommand.Fault.SameUpToName` — faults that differ at most in the name that they show.

## Main results

* `RuleCommand.Directive.ofBody_eq_ok_iff_spells` — the directive that is read of a body is the one
  that it spells.
* `RuleCommand.Respaced.ofBody_eq` — bodies that differ in their blanks only are read alike.
* `RuleCommand.RespacedTemplate.ofChars` — what is read of a template that is spaced anew.
-/

namespace RuleCommand

namespace Directive

/-! ## Spellings -/

/-- The directive that a text without blanks around it spells. -/
inductive Spells : List Char → Directive → Prop
  /-- A word that stands for itself. -/
  | word {word : String} {kind : Kind} :
      (word, kind) ∈ ownWords → Spells word.toList ⟨kind, none⟩
  /-- A word that takes a label, with more text behind a blank: that text without the blanks around
  it is the label. -/
  | label {word : String} {kind : Kind} {c : Char} (more : List Char) :
      (word, kind) ∈ labelWords → isBlank c = true →
        Spells (word.toList ++ c :: more) ⟨kind, some (String.ofList (trim more))⟩
  /-- Any other text but the word that cannot do without a label is a name as a whole. -/
  | var {text : List Char} :
      text ≠ [] → text ≠ "locations".toList →
        (∀ entry ∈ ownWords, text ≠ entry.1.toList) →
          (∀ entry ∈ labelWords, ∀ c more, isBlank c = true → text ≠ entry.1.toList ++ c :: more) →
            Spells text ⟨.var, some (String.ofList text)⟩

variable {text : List Char} {d : Directive}

/-- A word that takes a label holds no blank. -/
lemma isBlank_of_mem_labelWords {entry : String × Kind} (h : entry ∈ labelWords) :
    ∀ c ∈ entry.1.toList, isBlank c = false := by
  rcases List.mem_pair.mp h with rfl | rfl
  · exact List.all_iff_forall_prop.mp rfl
  · exact List.all_iff_forall_prop.mp rfl

lemma ne_nil_of_mem_labelWords {entry : String × Kind} (h : entry ∈ labelWords) :
    entry.1.toList ≠ [] := by
  have hall : ∀ entry ∈ labelWords, entry.1.toList ≠ [] := by decide
  exact hall entry h

/-- A word that takes a label is the first word of what it stands before. -/
lemma firstWord_of_mem_labelWords {entry : String × Kind} (h : entry ∈ labelWords) {c : Char}
    (hblank : isBlank c = true) (more : List Char) :
    firstWord (entry.1.toList ++ c :: more) = entry.1.toList ∧
      afterWord (entry.1.toList ++ c :: more) = c :: more :=
  firstWord_append (isBlank_of_mem_labelWords h) (by simpa using hblank)

/-- A single word spells what is read of it. -/
lemma spells_iff_ofWord (hne : text ≠ []) (hword : afterWord text = []) :
    Spells text d ↔ ofWord (String.ofList text) = .ok d := by
  have hsame : ∀ word : String, String.ofList text = word ↔ text = word.toList := fun word => by
    rw [← String.toList_inj, String.toList_ofList]
  simp only [ofWord_eq_ok_iff, ne_eq, hsame]
  constructor
  · intro h
    cases h with
    | @word word kind hkind => exact .inl ⟨kind, by rwa [String.ofList_toList], rfl⟩
    | label more hkind hblank =>
      rw [(firstWord_of_mem_labelWords hkind hblank more).2] at hword
      cases hword
    | var _ hlocations hown _ => exact .inr ⟨hlocations, hown, rfl⟩
  · rintro (⟨kind, hkind, rfl⟩ | ⟨hlocations, hown, rfl⟩)
    · have h := Spells.word hkind
      rwa [String.toList_ofList] at h
    · refine .var hne hlocations hown fun entry hentry c more hblank heq => ?_
      rw [heq, (firstWord_of_mem_labelWords hentry hblank more).2] at hword
      cases hword

/-- Several words spell what is read of them. -/
lemma spells_iff_ofPhrase (hword : afterWord text ≠ []) :
    Spells text d ↔ ofPhrase (String.ofList (firstWord text))
      (String.ofList (trim (afterWord text))) (String.ofList text) = d := by
  obtain ⟨c, more, hafter⟩ := List.exists_cons_of_ne_nil hword
  have hblank : isBlank c = true := isBlank_head?_afterWord text c (by simp [hafter])
  have hsplit : text = firstWord text ++ c :: more := by rw [← hafter, firstWord_append_afterWord]
  have htrim : trim (c :: more) = trim more :=
    trim_append_of_isBlank (List.forall_mem_singleton.mpr hblank) more
  rw [ofPhrase_eq_iff, hafter, htrim]
  constructor
  · intro h
    cases h with
    | @word word kind hkind =>
      have hnone : ∀ entry ∈ ownWords, afterWord entry.1.toList = [] := by decide
      exact absurd (hnone _ hkind) hword
    | @label word kind c' more' hkind hblank' =>
      obtain ⟨hfirst, hmore⟩ := firstWord_of_mem_labelWords hkind hblank' more'
      obtain ⟨rfl, rfl⟩ := List.cons.inj (hmore.symm.trans hafter)
      exact .inl ⟨kind, by rwa [hfirst, String.ofList_toList], rfl⟩
    | var _ _ _ hlabel =>
      refine .inr ⟨fun entry hentry heq => hlabel entry hentry c more hblank ?_, rfl⟩
      rwa [← heq, String.toList_ofList]
  · rintro (⟨kind, hkind, rfl⟩ | ⟨hlabel, rfl⟩)
    · have h := Spells.label more hkind hblank
      rwa [String.toList_ofList, ← hsplit] at h
    · have hnoWord : ∀ word : String, afterWord word.toList = [] → text ≠ word.toList := by
        rintro word hnone rfl
        exact hword hnone
      have hown : ∀ entry ∈ ownWords, afterWord entry.1.toList = [] := by decide
      refine .var (by rw [hsplit]; simp) (hnoWord _ (by decide))
        (fun entry hentry => hnoWord _ (hown entry hentry)) ?_
      intro entry hentry c' more' hblank' heq
      refine hlabel entry hentry ?_
      rw [heq, (firstWord_of_mem_labelWords hentry hblank' more').1, String.ofList_toList]

/-- Nothing spells no directive. -/
lemma not_spells_nil : ¬Spells [] d := by
  generalize hnil : ([] : List Char) = text
  intro h
  cases h with
  | word hkind =>
    have hne : ∀ entry ∈ ownWords, [] ≠ entry.1.toList := by decide
    exact hne _ hkind hnil
  | label more _ _ => simp at hnil
  | var hne _ _ _ => exact hne hnil.symm

/-- **The directive that is read of a body** is the one that its text without the blanks around it
spells. -/
theorem ofBody_eq_ok_iff_spells {body : List Char} :
    ofBody body = .ok d ↔ Spells (trim body) d := by
  by_cases hempty : trim body = []
  · rw [ofBody_of_trim_eq_nil hempty, hempty]
    exact iff_of_false (by simp) not_spells_nil
  by_cases hword : afterWord (trim body) = []
  · rw [ofBody_of_word hempty hword, spells_iff_ofWord hempty hword]
  · rw [ofBody_of_phrase hempty hword, spells_iff_ofPhrase hword, Except.ok.injEq]

end Directive

/-! ## Blanks -/

/-- A run of blanks. -/
abbrev Blanks := { run : List Char // ∀ c ∈ run, isBlank c = true }

/-- Bodies that differ in their blanks only: in those around them, and in those between a word that
takes a label and what is behind it. -/
inductive Respaced : List Char → List Char → Prop
  /-- Blanks are put around a body. -/
  | pad (before after : Blanks) (body : List Char) :
      Respaced body (before.val ++ (body ++ after.val))
  /-- The blanks behind a word that takes a label are exchanged for others. -/
  | gap {entry : String × Directive.Kind} {blanks others : Blanks} (label : List Char) :
      entry ∈ Directive.labelWords → blanks.val ≠ [] → others.val ≠ [] →
        Respaced (entry.1.toList ++ (blanks.val ++ label)) (entry.1.toList ++ (others.val ++ label))
  /-- What was done is undone. -/
  | symm {body other : List Char} : Respaced body other → Respaced other body
  /-- One thing is done after the other. -/
  | trans {body middle other : List Char} :
      Respaced body middle → Respaced middle other → Respaced body other

/-- A closing parenthesis is no blank. -/
lemma Blanks.not_mem (blanks : Blanks) : ')' ∉ blanks.val := fun h =>
  Bool.false_ne_true (blanks.property ')' h)

/-- Blanks around a body do not count. -/
lemma Directive.ofBody_padded (before after : Blanks) (body : List Char) :
    ofBody (before.val ++ (body ++ after.val)) = ofBody body := by
  rw [ofBody, trim_padded before.property after.property]
  rfl

/-- A body behind a word that takes a label is read by that word and its label. -/
lemma Directive.ofBody_gap {entry : String × Kind} (hentry : entry ∈ labelWords) {blanks : Blanks}
    (hne : blanks.val ≠ []) (label : List Char) :
    ofBody (entry.1.toList ++ (blanks.val ++ label)) =
      if trim label = [] then ofWord entry.1
      else .ok ⟨entry.2, some (String.ofList (trim label))⟩ := by
  have hword := isBlank_of_mem_labelWords hentry
  have hwordne := ne_nil_of_mem_labelWords hentry
  obtain ⟨front, back, hlabel, hfront, hback⟩ := exists_eq_append_trim label
  split
  · next hnil =>
    have htrim : trim (entry.1.toList ++ (blanks.val ++ label)) = entry.1.toList := by
      have htrimmed : IsTrimmed entry.1.toList :=
        ⟨fun c hc => hword c (List.mem_of_mem_head? hc),
          fun c hc => hword c (List.mem_of_getLast? hc)⟩
      refine trim_between (List.forall_mem_nil _) htrimmed fun c hc => ?_
      exact (List.mem_append.mp hc).elim (blanks.property c) (trim_eq_nil_iff.mp hnil c)
    have hsingle : afterWord entry.1.toList = [] := by
      have hafter : ∀ c ∈ ([] : List Char).head?, isBlank c = true := by simp
      have h := (firstWord_append hword hafter).2
      rwa [List.append_nil] at h
    rw [ofBody_of_word (by rwa [htrim]) (by rwa [htrim]), htrim, String.ofList_toList]
  · next hlabelne =>
    have hblank : ∀ c ∈ blanks.val ++ front, isBlank c = true := fun c hc =>
      (List.mem_append.mp hc).elim (blanks.property c) (hfront c)
    have hread := ofBody_append hwordne hword (by simp [hne]) hblank hlabelne (isTrimmed_trim label)
    have hphrase : ∀ whole, ofPhrase (String.ofList entry.1.toList) (String.ofList (trim label))
        whole = ⟨entry.2, some (String.ofList (trim label))⟩ := fun whole => by
      rw [String.ofList_toList, ofPhrase_eq_iff]
      exact .inl ⟨entry.2, hentry, rfl⟩
    have hwhole : entry.1.toList ++ (blanks.val ++ label) =
        entry.1.toList ++ (blanks.val ++ front ++ trim label) ++ back := by
      rw [List.append_assoc, List.append_assoc, List.append_assoc, ← List.append_assoc front,
        ← hlabel]
    calc ofBody (entry.1.toList ++ (blanks.val ++ label))
        = ofBody (entry.1.toList ++ (blanks.val ++ front ++ trim label) ++ back) := by rw [hwhole]
      _ = ofBody (entry.1.toList ++ (blanks.val ++ front ++ trim label)) :=
        ofBody_padded ⟨[], by simp⟩ ⟨back, hback⟩ _
      _ = .ok ⟨entry.2, some (String.ofList (trim label))⟩ := by rw [hread, hphrase]

namespace Respaced

variable {body other : List Char}

/-- **Bodies that differ in their blanks only are read alike.** -/
theorem ofBody_eq (h : Respaced body other) : Directive.ofBody other = Directive.ofBody body := by
  induction h with
  | pad before after body => exact Directive.ofBody_padded before after body
  | gap label hentry hblanks hothers =>
    rw [Directive.ofBody_gap hentry hothers, Directive.ofBody_gap hentry hblanks]
  | symm _ ih => exact ih.symm
  | trans _ _ ih ih' => exact ih'.trans ih

/-- Blanks do not close a directive. -/
lemma paren_mem_iff (h : Respaced body other) : ')' ∈ other ↔ ')' ∈ body := by
  induction h with
  | pad before after body => simp [before.not_mem, after.not_mem]
  | @gap _ blanks others _ _ _ _ => simp [blanks.not_mem, others.not_mem]
  | symm _ ih => exact ih.symm
  | trans _ _ ih ih' => exact ih'.trans ih

/-- Bodies that differ in their blanks only spell the same directive, if any. -/
theorem spells_iff (h : Respaced body other) (d : Directive) :
    Directive.Spells (trim other) d ↔ Directive.Spells (trim body) d := by
  rw [← Directive.ofBody_eq_ok_iff_spells, ← Directive.ofBody_eq_ok_iff_spells, h.ofBody_eq]

end Respaced

/-! ## Templates -/

/-- Templates that differ in the blanks of their directives only. A body in parentheses may be
spaced anew whether or not it spells a directive, and whether or not it is read. -/
inductive RespacedTemplate : List Char → List Char → Prop
  /-- What is left of a template stays. -/
  | refl (text : List Char) : RespacedTemplate text text
  /-- Plain text stays, up to a dollar sign or the end. -/
  | plain {run rest other : List Char} :
      run ≠ [] → '$' ∉ run → (∀ c ∈ rest.head?, c = '$') → RespacedTemplate rest other →
        RespacedTemplate (run ++ rest) (run ++ other)
  /-- A doubled dollar sign stays. -/
  | dollar {rest other : List Char} :
      RespacedTemplate rest other → RespacedTemplate ('$' :: '$' :: rest) ('$' :: '$' :: other)
  /-- A dollar sign before another character stays. It is a fault, so what is behind it is not
  read. -/
  | stray {c : Char} {rest other : List Char} :
      c ≠ '$' → c ≠ '(' → RespacedTemplate rest other →
        RespacedTemplate ('$' :: c :: rest) ('$' :: c :: other)
  /-- A body is spaced anew. -/
  | directive {body respaced rest other : List Char} :
      ')' ∉ body → Respaced body respaced → RespacedTemplate rest other →
        RespacedTemplate ('$' :: '(' :: (body ++ ')' :: rest))
          ('$' :: '(' :: (respaced ++ ')' :: other))

/-- Faults that differ at most in the name that they show. -/
inductive Fault.SameUpToName : Fault → Fault → Prop
  /-- The faults are the same. -/
  | refl (fault : Fault) : SameUpToName fault fault
  /-- A name is not in parentheses, and ends elsewhere. -/
  | name (name other : String) : SameUpToName (.missingOpenParen name) (.missingOpenParen other)

namespace RespacedTemplate

variable {text other : List Char}

/-- Templates that differ in the blanks of their directives only start alike. -/
lemma head?_eq (h : RespacedTemplate text other) : other.head? = text.head? := by
  cases h with
  | refl | dollar _ | stray _ _ _ | directive _ _ _ => rfl
  | plain hne _ _ _ => rw [List.head?_append_of_ne_nil _ hne, List.head?_append_of_ne_nil _ hne]

/-- **A template that is spaced anew is read as the same lexemes**, with the same fault, if any, up
to the name that it shows.

**Proof sketch.** Induction on what stays and what is spaced anew. A body is read alike whatever its
blanks are (`Respaced.ofBody_eq`), so it is followed by what is read behind it, or it is at fault in
both templates. -/
theorem ofChars (h : RespacedTemplate text other) :
    (Reading.ofChars other).lexemes = (Reading.ofChars text).lexemes ∧
      Option.Rel Fault.SameUpToName (Reading.ofChars text).fault?
        (Reading.ofChars other).fault? := by
  simp only [Reading.lexemes_eq]
  induction h with
  | refl text =>
    refine ⟨rfl, ?_⟩
    cases (Reading.ofChars text).fault? with
    | none => exact .none
    | some fault => exact .some (.refl fault)
  | @plain run rest other hne hdollar hrest h ih =>
    have written : (Piece.plain run).IsWritten := .plain hne hdollar
    have hread := Reading.ofChars_append written fun _ => hrest
    have hreadOther := Reading.ofChars_append written fun _ => by rwa [h.head?_eq]
    rw [Piece.plain] at hread hreadOther
    rw [hread, hreadOther]
    simpa using ih
  | dollar _ ih =>
    rw [Reading.ofChars_dollar, Reading.ofChars_dollar, pieceAfterDollar_dollar,
      pieceAfterDollar_dollar]
    simpa using ih
  | @stray c rest other hdollar hparen _ _ =>
    -- A blank behind the dollar sign is shown itself, a word up to the next blank.
    rw [Reading.ofChars_dollar, Reading.ofChars_dollar, pieceAfterDollar_other hdollar hparen,
      pieceAfterDollar_other hdollar hparen]
    by_cases hblank : isBlank c = true
    · rw [if_pos hblank, if_pos hblank]
      exact ⟨rfl, .some (.refl _)⟩
    · rw [if_neg hblank, if_neg hblank]
      exact ⟨rfl, .some (.name _ _)⟩
  | @directive body respaced rest other hbody hspace _ ih =>
    have hrespaced : ')' ∉ respaced := fun hmem => hbody (hspace.paren_mem_iff.mp hmem)
    rw [Reading.ofChars_dollar, Reading.ofChars_dollar, pieceAfterDollar_closed hbody,
      pieceAfterDollar_closed hrespaced, hspace.ofBody_eq]
    cases Directive.ofBody body with
    | error fault => exact ⟨rfl, .some (.refl fault)⟩
    | ok d => simpa [Except.map, Piece.ofDirective] using ih

end RespacedTemplate

end RuleCommand
