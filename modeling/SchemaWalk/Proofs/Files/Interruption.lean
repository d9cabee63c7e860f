import SchemaWalk.Proofs.Files.Paths

/-! # Plans that are broken off

A plan ends early when one of its actions fails or the program dies. What came before is done then,
and of the action itself a part may be. As long as the actions are about the file of one path, every
other place holds what it held. -/

namespace SchemaWalk.Files

/-- The actions that fill the file of a path. -/
inductive FileAction.Fills (path : String) : FileAction → Prop where
  | startFile : Fills path (.startFile path)
  | append (content : ByteArray) : Fills path (.append path content)
  | flush : Fills path (.flush path)

namespace FileTree

/-- What may be left of an action that was begun. A rename is done as a whole or not at all. -/
inductive BrokenOff (t : FileTree) : FileAction → FileTree → Prop where
  | untouched (a : FileAction) : BrokenOff t a t
  | directories {path : String} {t' : FileTree} : Grows t t' →
      Grows t' (t.createDirectories path).tree → BrokenOff t (.createDirectories path) t'
  | bytes (path : String) (content : ByteArray) (n : Nat) :
      BrokenOff t (.append path content) (t.append path (content.extract 0 n)).tree

/-- The actions of a plan that were done, and the tree in which it ended. -/
inductive Stops : FileTree → List FileAction → List FileAction → FileTree → Prop where
  | through (t : FileTree) : Stops t [] [] t
  | during {t t' : FileTree} {a : FileAction} {plan : List FileAction} :
      BrokenOff t a t' → Stops t (a :: plan) [] t'
  | after {t t' : FileTree} {a : FileAction} {plan completed : List FileAction} :
      (t.perform a).succeeded = true → Stops (t.perform a).tree plan completed t' →
      Stops t (a :: plan) (a :: completed) t'

variable {t t' t'' : FileTree} {path : String} {a : FileAction}
variable {plan others completed : List FileAction}

/-! ## Actions that fail -/

theorem perform_tree_of_failed (hother : ∀ path, a ≠ .createDirectories path)
    (h : (t.perform a).succeeded = false) : (t.perform a).tree = t := by
  have hundone : ∀ u : FileTree, t.perform a ≠ u.done := by
    intro u hdone
    rw [hdone] at h
    cases h
  cases a with
  | createDirectories path => exact absurd rfl (hother path)
  | startFile path =>
    obtain heq | ⟨place, -, -, hdone⟩ := t.startFile_cases path
    · rw [perform, heq, failed]
    · exact absurd hdone (hundone _)
  | ensureFile path =>
    obtain heq | ⟨place, content, -, -, hdone⟩ | ⟨place, -, -, hdone⟩ := t.ensureFile_cases path
    · rw [perform, heq, failed]
    · exact absurd hdone (hundone _)
    · exact absurd hdone (hundone _)
  | append path content =>
    obtain heq | ⟨place, before, -, -, hdone⟩ := t.append_cases path content
    · rw [perform, heq, failed]
    · exact absurd hdone (hundone _)
  | flush path => cases h
  | rename source target =>
    obtain heq | ⟨here, there, content, -, -, -, -, hdone⟩ := t.rename_cases source target
    · rw [perform, heq, failed]
    · exact absurd hdone (hundone _)

theorem brokenOff_of_failed (h : (t.perform a).succeeded = false) :
    BrokenOff t a (t.perform a).tree := by
  cases a with
  | createDirectories path => exact .directories (grows_createDirectories t path) (.refl _)
  | _ =>
    rw [perform_tree_of_failed (by simp) h]
    exact .untouched _

/-! ## Plans -/

/-- Where a plan ends when nothing interferes. -/
theorem stops_performAll (t : FileTree) (plan : List FileAction) :
    ∃ completed, Stops t plan completed (t.performAll plan).tree ∧
      ((t.performAll plan).succeeded = true ↔ completed = plan) := by
  induction plan generalizing t with
  | nil => exact ⟨[], .through t, by simp [performAll, done]⟩
  | cons a plan ih =>
    rw [performAll]
    cases ha : (t.perform a).succeeded with
    | false => exact ⟨[], .during (brokenOff_of_failed ha), by simp [ha]⟩
    | true =>
      obtain ⟨completed, hstop, hthrough⟩ := ih (t.perform a).tree
      exact ⟨a :: completed, .after ha hstop, by simp [hthrough]⟩

theorem Stops.performAll_eq (h : Stops t plan plan t') : t.performAll plan = ⟨t', true⟩ := by
  induction plan generalizing t with
  | nil =>
    cases h
    rfl
  | cons a plan ih =>
    cases h with
    | after ha hrest => rw [performAll, if_pos ha, ih hrest]

theorem Stops.completed_prefix (h : Stops t plan completed t') : completed <+: plan := by
  induction h with
  | through => exact List.prefix_rfl
  | during => exact List.nil_prefix
  | after _ _ ih => exact List.cons_prefix_cons.mpr ⟨rfl, ih⟩

/-- A plan in two parts is broken off in the first, or in the second once the first is done. -/
theorem Stops.append_cases (h : Stops t (plan ++ others) completed t') :
    Stops t plan completed t' ∨
      ∃ u rest, Stops t plan plan u ∧ Stops u others rest t' ∧ completed = plan ++ rest := by
  induction plan generalizing t completed with
  | nil => exact .inr ⟨t, completed, .through t, h, rfl⟩
  | cons a plan ih =>
    cases h with
    | during ha => exact .inl (.during ha)
    | after ha hrest =>
      rcases ih hrest with hfirst | ⟨u, rest, hfirst, hsecond, rfl⟩
      · exact .inl (.after ha hfirst)
      · exact .inr ⟨u, rest, .after ha hfirst, hsecond, rfl⟩

/-! ## One file -/

/-- At most the file that a path leads to is another one. -/
structure OnlyAt (path : String) (t t' : FileTree) : Prop where
  same : SameDirectories t t'
  others : ∀ place, t.resolve path ≠ some place → t'.at? place = t.at? place

theorem OnlyAt.refl (path : String) (t : FileTree) : OnlyAt path t t :=
  ⟨⟨fun _ => rfl, rfl, rfl⟩, fun _ _ => rfl⟩

theorem OnlyAt.trans (h : OnlyAt path t t') (h' : OnlyAt path t' t'') : OnlyAt path t t'' where
  same := h.same.trans h'.same
  others place hplace := by
    rw [h'.others place (h.same.resolve_eq path ▸ hplace), h.others place hplace]

theorem onlyAt_put {place : Route} (h : t.resolve path = some place)
    (hfree : t.isDirectory place = false) (content : ByteArray) :
    OnlyAt path t (t.put place (.file content)) where
  same := sameDirectories_put hfree content
  others other hother := by
    apply at?_put_of_ne
    rintro rfl
    exact hother h

theorem onlyAt_perform (h : a.Fills path) : OnlyAt path t (t.perform a).tree := by
  cases h with
  | startFile =>
    obtain heq | ⟨place, hplace, hfree, heq⟩ := t.startFile_cases path
    · rw [perform, heq]
      exact .refl path t
    · rw [perform, heq]
      exact onlyAt_put hplace hfree .empty
  | append content =>
    obtain heq | ⟨place, before, hplace, hat, heq⟩ := t.append_cases path content
    · rw [perform, heq]
      exact .refl path t
    · rw [perform, heq]
      exact onlyAt_put hplace (not_isDirectory_of_file hat) _
  | flush => exact .refl path t

theorem onlyAt_brokenOff (h : a.Fills path) (hbroken : BrokenOff t a t') : OnlyAt path t t' := by
  cases hbroken with
  | untouched => exact .refl path t
  | directories => cases h
  | bytes other content n =>
    cases h
    exact onlyAt_perform (.append _)

theorem Stops.onlyAt (h : Stops t plan completed t') (hplan : ∀ a ∈ plan, a.Fills path) :
    OnlyAt path t t' := by
  induction h with
  | through t => exact .refl path t
  | during hbroken => exact onlyAt_brokenOff (hplan _ List.mem_cons_self) hbroken
  | after _ _ ih =>
    obtain ⟨ha, hrest⟩ := List.forall_mem_cons.mp hplan
    exact (onlyAt_perform ha).trans (ih hrest)

theorem OnlyAt.lookup_eq (h : OnlyAt path t t') {other : String} (hapart : Apart path other) :
    t'.lookup other = t.lookup other := by
  rw [lookup, lookup, h.same.resolve_eq]
  cases hother : t.resolve other with
  | none => rfl
  | some place =>
    have hne : t.resolve path ≠ some place := fun hpath => hapart.places t place hpath hother
    rw [Option.bind_some, Option.bind_some, h.others place hne]

end FileTree

end SchemaWalk.Files
