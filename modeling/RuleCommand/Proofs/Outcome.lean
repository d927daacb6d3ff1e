import Mathlib.Tactic.Lemma

set_option autoImplicit false

/-!
# Computations that may fail

When a computation in steps succeeds and with which result, and with which error it fails.

## Main definitions

* `RuleCommand.FirstBad` — the error of the first entry of a list that has one.

## Main results

* `RuleCommand.bind_eq_ok_iff`, `RuleCommand.bind_eq_error_iff` — two steps succeed if the first
  does and then the second.
* `RuleCommand.mapM_eq_ok_iff`, `RuleCommand.mapM_eq_error_iff` — a step for each entry of a list
  succeeds if each of them does, and fails at the first that fails.
-/

namespace RuleCommand

variable {ε α β : Type}

/-- Two steps succeed exactly if the first does, and the second does with what it gave. -/
lemma bind_eq_ok_iff {x : Except ε α} {f : α → Except ε β} {b : β} :
    (x >>= f) = .ok b ↔ ∃ a, x = .ok a ∧ f a = .ok b := by
  cases x with
  | error e => simp [bind, Except.bind]
  | ok a => simp [bind, Except.bind]

/-- Two steps fail exactly if the first does, or it succeeds and the second fails with what it
gave. -/
lemma bind_eq_error_iff {x : Except ε α} {f : α → Except ε β} {e : ε} :
    (x >>= f) = .error e ↔ x = .error e ∨ ∃ a, x = .ok a ∧ f a = .error e := by
  cases x with
  | error e' => simp [bind, Except.bind]
  | ok a => simp [bind, Except.bind]

/-! ## Lists of steps -/

/-- A step for each entry of a list gives the list of what the steps give. -/
lemma mapM_eq_ok_map {f : α → Except ε β} {g : α → β} {xs : List α}
    (h : ∀ x ∈ xs, f x = .ok (g x)) : xs.mapM f = .ok (xs.map g) := by
  induction xs with
  | nil => rfl
  | cons x xs ih =>
    have htail := ih fun y hy => h y (List.mem_cons_of_mem x hy)
    rw [List.mapM_cons, h x List.mem_cons_self, htail]
    rfl

/-- Steps that agree on each entry of a list agree on the list. -/
lemma mapM_congr {f g : α → Except ε β} {xs : List α} (h : ∀ x ∈ xs, f x = g x) :
    xs.mapM f = xs.mapM g := by
  induction xs with
  | nil => rfl
  | cons x xs ih =>
    rw [List.forall_mem_cons] at h
    rw [List.mapM_cons, List.mapM_cons, h.1, ih h.2]

/-- Steps that can only give the values of a function succeed exactly if each of them does. -/
theorem mapM_eq_ok_iff {f : α → Except ε β} {g : α → β} {xs : List α} {ys : List β}
    (hg : ∀ x y, f x = .ok y → y = g x) :
    xs.mapM f = .ok ys ↔ (∀ x ∈ xs, ∃ y, f x = .ok y) ∧ ys = xs.map g := by
  constructor
  · intro h
    induction xs generalizing ys with
    | nil =>
      cases h
      exact ⟨by simp, rfl⟩
    | cons x xs ih =>
      rw [List.mapM_cons, bind_eq_ok_iff] at h
      obtain ⟨y, hy, h⟩ := h
      obtain ⟨zs, hzs, hys⟩ := bind_eq_ok_iff.mp h
      cases hys
      obtain ⟨hall, rfl⟩ := ih hzs
      refine ⟨?_, by rw [hg x y hy, List.map_cons]⟩
      intro a ha
      rcases List.mem_cons.mp ha with rfl | ha
      · exact ⟨y, hy⟩
      · exact hall a ha
  · rintro ⟨hall, rfl⟩
    refine mapM_eq_ok_map fun x hx => ?_
    obtain ⟨y, hy⟩ := hall x hx
    rw [hy, hg x y hy]

/-- Steps succeed with the entries of a list exactly if each of them gives its entry. It does not
matter which errors they would have had. -/
lemma mapM_eq_ok_iff_map {ε' : Type} {f : α → Except ε β} {g : α → Except ε' β}
    (h : ∀ x y, f x = .ok y ↔ g x = .ok y) {xs : List α} {ys : List β} :
    xs.mapM f = .ok ys ↔ xs.map g = ys.map .ok := by
  induction xs generalizing ys with
  | nil => cases ys <;> simp [pure, Except.pure]
  | cons x xs ih =>
    rw [List.mapM_cons, bind_eq_ok_iff, List.map_cons]
    simp only [bind_eq_ok_iff, ih, h]
    cases ys with
    | nil => simp [pure, Except.pure]
    | cons y ys =>
      rw [List.map_cons, List.cons.injEq]
      constructor
      · rintro ⟨z, hz, zs, hzs, heq⟩
        cases heq
        exact ⟨hz, hzs⟩
      · rintro ⟨hy, hys⟩
        exact ⟨y, hy, ys, hys, rfl⟩

/-! ## The first error -/

/-- The error of the first entry of a list that has one. -/
def FirstBad (bad : α → ε → Prop) (xs : List α) (e : ε) : Prop :=
  ∃ before x after, xs = before ++ x :: after ∧ (∀ y ∈ before, ∀ e', ¬bad y e') ∧ bad x e

section

variable {bad : α → ε → Prop} {e : ε}

lemma firstBad_nil : ¬FirstBad bad [] e := by
  rintro ⟨before, x, after, h, -⟩
  simp at h

/-- The first error of a list is that of its first entry or, if that has none, of the others. -/
lemma firstBad_cons {x : α} {xs : List α} :
    FirstBad bad (x :: xs) e ↔ bad x e ∨ (∀ e', ¬bad x e') ∧ FirstBad bad xs e := by
  constructor
  · rintro ⟨before, y, after, h, hbefore, hy⟩
    cases before with
    | nil =>
      obtain ⟨rfl, -⟩ := List.cons.inj h
      exact .inl hy
    | cons z before =>
      obtain ⟨rfl, hxs⟩ := List.cons.inj h
      exact .inr ⟨hbefore _ List.mem_cons_self, before, y, after, hxs,
        fun w hw => hbefore w (List.mem_cons_of_mem _ hw), hy⟩
  · rintro (hx | ⟨hx, before, y, after, rfl, hbefore, hy⟩)
    · exact ⟨[], x, xs, rfl, by simp, hx⟩
    · refine ⟨x :: before, y, after, rfl, ?_, hy⟩
      intro z hz
      rcases List.mem_cons.mp hz with rfl | hz
      · exact hx
      · exact hbefore z hz

/-- The first error of a concatenation is that of its first part or, if that has none, of its
second. -/
lemma firstBad_append {xs ys : List α} :
    FirstBad bad (xs ++ ys) e ↔
      FirstBad bad xs e ∨ (∀ x ∈ xs, ∀ e', ¬bad x e') ∧ FirstBad bad ys e := by
  induction xs with
  | nil => simp [firstBad_nil]
  | cons x xs ih =>
    rw [List.cons_append, firstBad_cons, firstBad_cons, ih, List.forall_mem_cons,
      and_or_left, ← or_assoc, and_assoc]

/-- An entry that stands in a list already is not the first that has an error where it is
repeated. -/
lemma firstBad_insert {before after : List α} {x : α} (hx : x ∈ before) :
    FirstBad bad (before ++ x :: after) e ↔ FirstBad bad (before ++ after) e := by
  rw [firstBad_append, firstBad_append, firstBad_cons]
  refine or_congr_right (and_congr_right fun hbefore => ?_)
  constructor
  · rintro (hbad | ⟨-, hafter⟩)
    · exact absurd hbad (hbefore x hx e)
    · exact hafter
  · exact fun hafter => .inr ⟨hbefore x hx, hafter⟩

lemma firstBad_map {γ : Type} {f : γ → α} {xs : List γ} :
    FirstBad bad (xs.map f) e ↔ FirstBad (fun x => bad (f x)) xs e := by
  induction xs with
  | nil => simp [firstBad_nil]
  | cons x xs ih => rw [List.map_cons, firstBad_cons, firstBad_cons, ih]

end

/-- A step for each entry of a list fails with the error of the first entry that has one. -/
theorem mapM_eq_error_iff {f : α → Except ε β} {xs : List α} {e : ε} :
    xs.mapM f = .error e ↔ FirstBad (fun x e => f x = .error e) xs e := by
  induction xs with
  | nil => simp [firstBad_nil, pure, Except.pure]
  | cons x xs ih =>
    rw [List.mapM_cons, firstBad_cons, ← ih]
    cases f x with
    | error e' => simp [bind, Except.bind]
    | ok y => cases xs.mapM f <;> simp [bind, Except.bind, pure, Except.pure]

/-- A step for each entry of a list succeeds exactly if none of them has an error. -/
lemma exists_mapM_eq_ok_iff {f : α → Except ε β} {xs : List α} :
    (∃ ys, xs.mapM f = .ok ys) ↔ ∀ x ∈ xs, ∀ e, f x ≠ .error e := by
  induction xs with
  | nil => simp [pure, Except.pure]
  | cons x xs ih =>
    rw [List.mapM_cons, List.forall_mem_cons, ← ih]
    cases f x with
    | error e' => simp [bind, Except.bind]
    | ok y => cases xs.mapM f <;> simp [bind, Except.bind, pure, Except.pure]

/-- If what follows a step for each entry of a list fails in the same way whatever the steps gave,
the error is the first of the list or, if that has none, the one that follows. -/
lemma mapM_bind_eq_error_iff {γ : Type} {f : α → Except ε β} {bad : α → ε → Prop}
    {next : List β → Except ε γ} {later : Prop} {xs : List α} {e : ε}
    (hf : ∀ x e, f x = .error e ↔ bad x e) (hnext : ∀ ys, next ys = .error e ↔ later) :
    (xs.mapM f >>= next) = .error e ↔
      FirstBad bad xs e ∨ (∀ x ∈ xs, ∀ e', ¬bad x e') ∧ later := by
  simp only [bind_eq_error_iff, mapM_eq_error_iff, hf, hnext, exists_and_right,
    exists_mapM_eq_ok_iff, ne_eq]

end RuleCommand
