import SchemaWalk.Files.Action

/-! # Directories that stay

Where a path leads depends on the directories alone. So it leads to the same place after files have
come and gone, and directories once made need not be made again. -/

namespace SchemaWalk.Files

namespace FileTree

variable {t t' : FileTree} {place : Route}

/-- Two trees with the same directories and the same limits. -/
structure SameDirectories (t t' : FileTree) : Prop where
  directories : ∀ place, t'.isDirectory place = t.isDirectory place
  nameLimit : t'.nameLimit = t.nameLimit
  pathLimit : t'.pathLimit = t.pathLimit

theorem SameDirectories.trans {t'' : FileTree} (h : SameDirectories t t')
    (h' : SameDirectories t' t'') : SameDirectories t t'' where
  directories place := (h'.directories place).trans (h.directories place)
  nameLimit := h'.nameLimit.trans h.nameLimit
  pathLimit := h'.pathLimit.trans h.pathLimit

theorem SameDirectories.allows_eq (h : SameDirectories t t') (name : String) :
    t'.allows name = t.allows name := by
  rw [allows, allows, h.nameLimit]

theorem SameDirectories.accepts_eq (h : SameDirectories t t') (path : String) :
    t'.accepts path = t.accepts path := by
  rw [accepts, accepts, h.pathLimit]

theorem SameDirectories.follow_eq (h : SameDirectories t t') (place : Route) (r : Route) :
    t'.follow place r = t.follow place r := by
  induction r generalizing place with
  | nil => rfl
  | cons name rest ih => simp only [follow, h.directories, h.allows_eq, ih]

theorem SameDirectories.resolve_eq (h : SameDirectories t t') (path : String) :
    t'.resolve path = t.resolve path := by
  rw [resolve, resolve, h.accepts_eq, h.follow_eq]

/-! ## Files that come and go -/

theorem isDirectory_eq_true_iff : t.isDirectory place = true ↔ t.at? place = some .directory := by
  unfold isDirectory
  cases t.at? place with
  | none => simp
  | some e => cases e <;> simp [Entry.isDirectory]

theorem not_isDirectory_of_file {content : ByteArray} (h : t.at? place = some (.file content)) :
    t.isDirectory place = false := by
  rw [isDirectory, h]
  rfl

theorem not_isDirectory_of_none (h : t.at? place = none) : t.isDirectory place = false := by
  rw [isDirectory, h]
  rfl

theorem ne_top_of_not_isDirectory (h : t.isDirectory place = false) :
    place ≠ [] ∧ place ≠ ["/"] := by
  constructor <;> rintro rfl <;> simp [isDirectory, at?, Entry.isDirectory] at h

theorem at?_put_file (h : t.isDirectory place = false) (content : ByteArray) :
    (t.put place (.file content)).at? place = some (.file content) :=
  at?_put_self (ne_top_of_not_isDirectory h).1 (ne_top_of_not_isDirectory h).2 _

theorem at?_remove_self (h : t.isDirectory place = false) : (t.remove place).at? place = none := by
  obtain ⟨hne, hroot⟩ := ne_top_of_not_isDirectory h
  simp [at?, remove, hne, hroot]

theorem at?_remove_of_ne {other : Route} (h : other ≠ place) :
    (t.remove place).at? other = t.at? other := by
  simp only [at?, remove, Table.get?_erase_of_ne t.entries h]

theorem sameDirectories_put (h : t.isDirectory place = false) (content : ByteArray) :
    SameDirectories t (t.put place (.file content)) where
  directories other := by
    by_cases hother : other = place
    · subst hother
      rw [h, isDirectory, at?_put_file h]
      rfl
    · rw [isDirectory, at?_put_of_ne hother, isDirectory]
  nameLimit := rfl
  pathLimit := rfl

theorem sameDirectories_remove (h : t.isDirectory place = false) :
    SameDirectories t (t.remove place) where
  directories other := by
    by_cases hother : other = place
    · subst hother
      rw [h, isDirectory, at?_remove_self h]
      rfl
    · rw [isDirectory, at?_remove_of_ne hother, isDirectory]
  nameLimit := rfl
  pathLimit := rfl

/-! ## Directories that are made -/

/-- What is there stays there, and the limits are the same. -/
structure Grows (t t' : FileTree) : Prop where
  kept : ∀ place e, t.at? place = some e → t'.at? place = some e
  nameLimit : t'.nameLimit = t.nameLimit
  pathLimit : t'.pathLimit = t.pathLimit

theorem Grows.refl (t : FileTree) : Grows t t := ⟨fun _ _ h => h, rfl, rfl⟩

theorem Grows.trans {t'' : FileTree} (h : Grows t t') (h' : Grows t' t'') : Grows t t'' where
  kept place e he := h'.kept place e (h.kept place e he)
  nameLimit := h'.nameLimit.trans h.nameLimit
  pathLimit := h'.pathLimit.trans h.pathLimit

theorem Grows.isDirectory (h : Grows t t') (hplace : t.isDirectory place = true) :
    t'.isDirectory place = true := by
  rw [isDirectory_eq_true_iff] at hplace ⊢
  exact h.kept place .directory hplace

theorem Grows.allows_eq (h : Grows t t') (name : String) : t'.allows name = t.allows name := by
  rw [allows, allows, h.nameLimit]

theorem Grows.accepts_eq (h : Grows t t') (path : String) : t'.accepts path = t.accepts path := by
  rw [accepts, accepts, h.pathLimit]

theorem grows_put (h : t.at? place = none) (e : Entry) : Grows t (t.put place e) where
  kept other e' he := by
    by_cases hother : other = place
    · subst hother
      rw [h] at he
      cases he
    · rw [at?_put_of_ne hother, he]
  nameLimit := rfl
  pathLimit := rfl

theorem Grows.put (h : Grows t t') {e : Entry} (hnone : t.at? place = none)
    (he : t'.at? place = some e) : Grows (t.put place e) t' where
  kept other e' he' := by
    by_cases hother : other = place
    · subst hother
      obtain ⟨hne, hroot⟩ := ne_top_of_not_isDirectory (not_isDirectory_of_none hnone)
      rw [at?_put_self hne hroot] at he'
      rw [he, he']
    · rw [at?_put_of_ne hother] at he'
      exact h.kept other e' he'
  nameLimit := h.nameLimit
  pathLimit := h.pathLimit

theorem at?_put_directory (t : FileTree) (place : Route) :
    (t.put place .directory).at? place = some .directory := by
  simp only [at?, put, Table.get?_insert_self, ite_self]

theorem isDirectory_put_self (t : FileTree) (place : Route) :
    (t.put place .directory).isDirectory place = true :=
  isDirectory_eq_true_iff.mpr (at?_put_directory t place)

/-- A directory is made only where nothing is. -/
theorem grows_createAlong (t : FileTree) (place : Route) (r : Route) :
    Grows t (t.createAlong place r).tree := by
  induction r generalizing t place with
  | nil => exact .refl t
  | cons name rest ih =>
    unfold createAlong
    split
    · exact ih t place
    split
    · exact ih t (parent place)
    split
    · exact .refl t
    split
    · exact ih t _
    · exact .refl t
    · next hnone =>
      split
      · exact .refl t
      · exact (grows_put hnone .directory).trans (ih _ _)

theorem grows_createDirectories (t : FileTree) (path : String) :
    Grows t (t.createDirectories path).tree := by
  unfold createDirectories
  split
  · exact grows_createAlong t [] _
  · exact .refl t

theorem createDirectories_succeeded {path : String}
    (h : (t.createDirectories path).succeeded = true) :
    t.accepts path = true ∧ t.createDirectories path = t.createAlong [] (route path) := by
  unfold createDirectories at h ⊢
  split at h
  · next haccepts => exact ⟨haccepts, if_pos haccepts⟩
  · cases h

theorem createAlong_dot (t : FileTree) (place rest : Route) :
    t.createAlong place ("." :: rest) = t.createAlong place rest := by
  rw [createAlong, if_pos rfl]

theorem createAlong_dots (t : FileTree) (place rest : Route) :
    t.createAlong place (".." :: rest) = t.createAlong (parent place) rest := by
  rw [createAlong, if_neg (by decide), if_pos rfl]

theorem createAlong_enter {name : String} (hdot : name ≠ ".") (hdots : name ≠ "..")
    (hallows : t.allows name = true) (h : t.isDirectory (place ++ [name]) = true) (rest : Route) :
    t.createAlong place (name :: rest) = t.createAlong (place ++ [name]) rest := by
  rw [createAlong, if_neg hdot, if_neg hdots, hallows, isDirectory_eq_true_iff.mp h]
  rfl

theorem createAlong_make {name : String} (hdot : name ≠ ".") (hdots : name ≠ "..")
    (hallows : t.allows name = true) (h : t.at? (place ++ [name]) = none) {rest : Route}
    (hrest : endsInDots rest = false) :
    t.createAlong place (name :: rest) =
      (t.put (place ++ [name]) .directory).createAlong (place ++ [name]) rest := by
  rw [createAlong, if_neg hdot, if_neg hdots, hallows, h]
  simp only [hrest, Bool.not_true, Bool.false_eq_true, if_false]

/-- Only a name that is allowed leads on, into the directory of that name or into a new one. -/
theorem createAlong_succeeded_cases {name : String} (hdot : name ≠ ".") (hdots : name ≠ "..")
    {rest : Route} (h : (t.createAlong place (name :: rest)).succeeded = true) :
    t.allows name = true ∧
      ((t.at? (place ++ [name]) = some .directory ∧
        t.createAlong place (name :: rest) = t.createAlong (place ++ [name]) rest) ∨
      (t.at? (place ++ [name]) = none ∧ endsInDots rest = false ∧
        t.createAlong place (name :: rest) =
          (t.put (place ++ [name]) .directory).createAlong (place ++ [name]) rest)) := by
  cases hallows : t.allows name with
  | false => simp [createAlong, hdot, hdots, hallows, failed] at h
  | true =>
    refine ⟨rfl, ?_⟩
    cases hat : t.at? (place ++ [name]) with
    | none =>
      cases hrest : endsInDots rest with
      | true => simp [createAlong, hdot, hdots, hallows, hat, hrest, failed] at h
      | false => exact .inr ⟨rfl, rfl, createAlong_make hdot hdots hallows hat hrest⟩
    | some e =>
      cases e with
      | directory =>
        have hthere := isDirectory_eq_true_iff.mpr hat
        exact .inl ⟨rfl, createAlong_enter hdot hdots hallows hthere rest⟩
      | file content => simp [createAlong, hdot, hdots, hallows, hat, failed] at h

/-- There is a directory of that name afterwards. -/
theorem createAlong_succeeded {name : String} (hdot : name ≠ ".") (hdots : name ≠ "..")
    {rest : Route} (h : (t.createAlong place (name :: rest)).succeeded = true) :
    t.allows name = true ∧ ∃ u : FileTree, Grows t u ∧ u.isDirectory (place ++ [name]) = true ∧
      t.createAlong place (name :: rest) = u.createAlong (place ++ [name]) rest := by
  obtain ⟨hallows, ⟨hat, heq⟩ | ⟨hnone, -, heq⟩⟩ := createAlong_succeeded_cases hdot hdots h
  · exact ⟨hallows, t, .refl t, isDirectory_eq_true_iff.mpr hat, heq⟩
  · exact ⟨hallows, _, grows_put hnone .directory, isDirectory_put_self t _, heq⟩

/-- Where directories were made along a route, there is nothing to make a second time. -/
theorem createAlong_again {r : Route} (h : (t.createAlong place r).succeeded = true)
    (hsame : SameDirectories (t.createAlong place r).tree t') :
    t'.createAlong place r = ⟨t', true⟩ := by
  induction r generalizing t place with
  | nil =>
    have hplace : t'.isDirectory place = true := (hsame.directories place).trans h
    rw [createAlong, hplace]
  | cons name rest ih =>
    by_cases hdot : name = "."
    · subst hdot
      rw [createAlong_dot] at h hsame ⊢
      exact ih h hsame
    by_cases hdots : name = ".."
    · subst hdots
      rw [createAlong_dots] at h hsame ⊢
      exact ih h hsame
    obtain ⟨hallows, u, -, hu, heq⟩ := createAlong_succeeded hdot hdots h
    have hallows' : t'.allows name = true := by
      rw [hsame.allows_eq, (grows_createAlong t place _).allows_eq, hallows]
    rw [heq] at h hsame
    have hplace : t'.isDirectory (place ++ [name]) = true := by
      rw [hsame.directories]
      exact (grows_createAlong u _ rest).isDirectory hu
    rw [createAlong_enter hdot hdots hallows' hplace]
    exact ih h hsame

theorem createDirectories_again {path : String} (h : (t.createDirectories path).succeeded = true)
    (hsame : SameDirectories (t.createDirectories path).tree t') :
    t'.createDirectories path = ⟨t', true⟩ := by
  have haccepts' := (hsame.accepts_eq path).trans ((grows_createDirectories t path).accepts_eq path)
  obtain ⟨haccepts, halong⟩ := createDirectories_succeeded h
  rw [halong] at h hsame
  rw [createDirectories, if_pos (haccepts'.trans haccepts)]
  exact createAlong_again h hsame

/-- Where some of the directories were made before, the others are made now. -/
theorem createAlong_resumed {r : Route} (h : (t.createAlong place r).succeeded = true)
    (hgrows : Grows t t') (hwithin : Grows t' (t.createAlong place r).tree) :
    ∃ u, t'.createAlong place r = ⟨u, true⟩ ∧ Grows (t.createAlong place r).tree u ∧
      Grows u (t.createAlong place r).tree := by
  induction r generalizing t t' place with
  | nil =>
    refine ⟨t', ?_, hgrows, hwithin⟩
    rw [createAlong, hgrows.isDirectory h]
  | cons name rest ih =>
    by_cases hdot : name = "."
    · subst hdot
      rw [createAlong_dot] at h hwithin ⊢
      rw [createAlong_dot]
      exact ih h hgrows hwithin
    by_cases hdots : name = ".."
    · subst hdots
      rw [createAlong_dots] at h hwithin ⊢
      rw [createAlong_dots]
      exact ih h hgrows hwithin
    obtain ⟨hallows, ⟨hat, heq⟩ | ⟨hnone, hrest, heq⟩⟩ := createAlong_succeeded_cases hdot hdots h
    · have hthere := hgrows.isDirectory (isDirectory_eq_true_iff.mpr hat)
      rw [heq] at h hwithin ⊢
      rw [createAlong_enter hdot hdots ((hgrows.allows_eq name).trans hallows) hthere]
      exact ih h hgrows hwithin
    · rw [heq] at h hwithin ⊢
      have hmade := (grows_createAlong _ (place ++ [name]) rest).kept _ _
        (at?_put_directory t (place ++ [name]))
      cases hat' : t'.at? (place ++ [name]) with
      | none =>
        have hput := at?_put_directory t' (place ++ [name])
        rw [createAlong_make hdot hdots ((hgrows.allows_eq name).trans hallows) hat' hrest]
        exact ih h ((hgrows.trans (grows_put hat' .directory)).put hnone hput)
          (hwithin.put hat' hmade)
      | some e =>
        obtain rfl : e = .directory := Option.some.inj ((hwithin.kept _ e hat').symm.trans hmade)
        rw [createAlong_enter hdot hdots ((hgrows.allows_eq name).trans hallows)
          (isDirectory_eq_true_iff.mpr hat')]
        exact ih h (hgrows.put hnone hat') hwithin

theorem createDirectories_resumed {path : String} (h : (t.createDirectories path).succeeded = true)
    (hgrows : Grows t t') (hwithin : Grows t' (t.createDirectories path).tree) :
    ∃ u, t'.createDirectories path = ⟨u, true⟩ ∧ Grows (t.createDirectories path).tree u ∧
      Grows u (t.createDirectories path).tree := by
  obtain ⟨haccepts, halong⟩ := createDirectories_succeeded h
  rw [halong] at h hwithin ⊢
  rw [createDirectories, if_pos ((hgrows.accepts_eq path).trans haccepts)]
  exact createAlong_resumed h hgrows hwithin

/-- Trees that have the same in every place. -/
theorem Grows.sameDirectories (h : Grows t t') (h' : Grows t' t) : SameDirectories t t' where
  directories place := by
    rw [Bool.eq_iff_iff]
    exact ⟨h'.isDirectory, h.isDirectory⟩
  nameLimit := h.nameLimit
  pathLimit := h.pathLimit

/-! ## Single actions -/

theorem startFile_eq {path : String} (h : t.resolve path = some place)
    (hplace : t.isDirectory place = false) :
    t.startFile path = ⟨t.put place (.file .empty), true⟩ := by
  simp only [startFile, h, hplace, Bool.false_eq_true, if_false, done]

theorem startFile_cases (t : FileTree) (path : String) :
    t.startFile path = t.failed ∨
    ∃ place, t.resolve path = some place ∧ t.isDirectory place = false ∧
      t.startFile path = (t.put place (.file .empty)).done := by
  unfold startFile
  cases hplace : t.resolve path with
  | none => exact .inl rfl
  | some place =>
    cases hfree : t.isDirectory place with
    | true => exact .inl (by simp [hfree])
    | false => exact .inr ⟨place, rfl, hfree, by simp [hfree]⟩

theorem startFile_succeeded {path : String} (h : (t.startFile path).succeeded = true) :
    ∃ place, t.resolve path = some place ∧ t.isDirectory place = false := by
  obtain heq | ⟨place, hplace, hfree, -⟩ := t.startFile_cases path
  · rw [heq] at h
    cases h
  · exact ⟨place, hplace, hfree⟩

theorem ensureFile_cases (t : FileTree) (path : String) :
    t.ensureFile path = t.failed ∨
    (∃ place content, t.resolve path = some place ∧ t.at? place = some (.file content) ∧
      t.ensureFile path = t.done) ∨
    ∃ place, t.resolve path = some place ∧ t.at? place = none ∧
      t.ensureFile path = (t.put place (.file .empty)).done := by
  unfold ensureFile
  cases hplace : t.resolve path with
  | none => exact .inl rfl
  | some place =>
    cases hat : t.at? place with
    | none => exact .inr (.inr ⟨place, rfl, hat, by simp [hat]⟩)
    | some e =>
      cases e with
      | directory => exact .inl (by simp [hat])
      | file content => exact .inr (.inl ⟨place, content, rfl, hat, by simp [hat]⟩)

theorem ensureFile_succeeded {path : String} (h : (t.ensureFile path).succeeded = true) :
    ∃ place, t.resolve path = some place ∧ t.isDirectory place = false := by
  obtain heq | ⟨place, content, hplace, hat, -⟩ | ⟨place, hplace, hat, -⟩ :=
    t.ensureFile_cases path
  · rw [heq] at h
    cases h
  · exact ⟨place, hplace, not_isDirectory_of_file hat⟩
  · exact ⟨place, hplace, not_isDirectory_of_none hat⟩

theorem append_eq {path : String} {before : ByteArray} (h : t.resolve path = some place)
    (hplace : t.at? place = some (.file before)) (content : ByteArray) :
    t.append path content = ⟨t.put place (.file (before ++ content)), true⟩ := by
  simp only [append, h, hplace, done]

theorem append_cases (t : FileTree) (path : String) (content : ByteArray) :
    t.append path content = t.failed ∨
    ∃ place before, t.resolve path = some place ∧ t.at? place = some (.file before) ∧
      t.append path content = (t.put place (.file (before ++ content))).done := by
  unfold append
  cases hplace : t.resolve path with
  | none => exact .inl rfl
  | some place =>
    cases hat : t.at? place with
    | none => exact .inl (by simp [hat])
    | some e =>
      cases e with
      | directory => exact .inl (by simp [hat])
      | file before => exact .inr ⟨place, before, rfl, hat, by simp [hat]⟩

theorem rename_eq {source target : String} {here there : Route} {content : ByteArray}
    (hsource : t.resolve source = some here) (htarget : t.resolve target = some there)
    (hhere : t.at? here = some (.file content)) (hthere : t.isDirectory there = false) :
    t.rename source target = ⟨(t.remove here).put there (.file content), true⟩ := by
  simp only [rename, hsource, htarget, hhere, hthere, Bool.false_eq_true, if_false, done]

theorem rename_cases (t : FileTree) (source target : String) :
    t.rename source target = t.failed ∨
    ∃ here there content, t.resolve source = some here ∧ t.resolve target = some there ∧
      t.at? here = some (.file content) ∧ t.isDirectory there = false ∧
      t.rename source target = ((t.remove here).put there (.file content)).done := by
  unfold rename
  cases hsource : t.resolve source with
  | none => exact .inl rfl
  | some here =>
    cases htarget : t.resolve target with
    | none => exact .inl rfl
    | some there =>
      cases hat : t.at? here with
      | none => exact .inl (by simp [hat])
      | some e =>
        cases e with
        | directory => exact .inl (by simp [hat])
        | file content =>
          cases hfree : t.isDirectory there with
          | true => exact .inl (by simp [hat, hfree])
          | false => exact .inr ⟨here, there, content, rfl, rfl, hat, hfree, by simp [hat, hfree]⟩

theorem rename_succeeded {source target : String} (h : (t.rename source target).succeeded = true) :
    ∃ there, t.resolve target = some there ∧ t.isDirectory there = false := by
  obtain heq | ⟨here, there, content, -, htarget, -, hfree, -⟩ := t.rename_cases source target
  · rw [heq] at h
    cases h
  · exact ⟨there, htarget, hfree⟩

theorem performAll_cons_succeeded {a : FileAction} {rest : List FileAction}
    (h : (t.performAll (a :: rest)).succeeded = true) :
    (t.perform a).succeeded = true ∧ ((t.perform a).tree.performAll rest).succeeded = true := by
  rw [performAll] at h
  split at h
  · next ha => exact ⟨ha, h⟩
  · next ha => exact absurd h ha

end FileTree

end SchemaWalk.Files
