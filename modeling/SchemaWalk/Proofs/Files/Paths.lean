import SchemaWalk.Proofs.Files.Directories

/-! # Paths into a directory

A path made of a base and a plain name leads to that name in the directory that the base leads to.
Making directories takes no path off its way, and it makes a way for those that had none. -/

namespace SchemaWalk.Files

/-! ## Names and routes -/

/-- A name that leads one directory deeper. -/
structure PlainName (name : String) : Prop where
  nonempty : name ≠ ""
  noSlash : '/' ∉ name.toList
  notDot : name ≠ "."
  notDots : name ≠ ".."

theorem splitSlashes_ne_nil (cs : List Char) : splitSlashes cs ≠ [] := by
  cases cs with
  | nil => simp [splitSlashes]
  | cons c cs =>
    rw [splitSlashes]
    split
    · simp
    · split <;> simp

theorem splitSlashes_of_not_mem {cs : List Char} (h : '/' ∉ cs) : splitSlashes cs = [cs] := by
  induction cs with
  | nil => rfl
  | cons c cs ih =>
    have hc : c ≠ '/' := (List.ne_of_not_mem_cons h).symm
    rw [splitSlashes, if_neg hc, ih (List.not_mem_of_not_mem_cons h)]

theorem splitSlashes_append (xs ys : List Char) :
    splitSlashes (xs ++ '/' :: ys) = splitSlashes xs ++ splitSlashes ys := by
  induction xs with
  | nil => rfl
  | cons c xs ih =>
    rw [List.cons_append, splitSlashes, splitSlashes, ih]
    split
    · rfl
    · cases hxs : splitSlashes xs with
      | nil => exact absurd hxs (splitSlashes_ne_nil xs)
      | cons name names => rfl

/-- The names of a text with slashes. -/
def namesOf (cs : List Char) : List String :=
  ((splitSlashes cs).filter (· ≠ [])).map String.ofList

theorem namesOf_append (xs ys : List Char) :
    namesOf (xs ++ '/' :: ys) = namesOf xs ++ namesOf ys := by
  simp only [namesOf, splitSlashes_append, List.filter_append, List.map_append]

theorem namesOf_plain {name : String} (h : PlainName name) : namesOf name.toList = [name] := by
  have hne : name.toList ≠ [] := by simpa using h.nonempty
  simp [namesOf, splitSlashes_of_not_mem h.noSlash, hne]

theorem isAbsolute_append {base : String} (h : base ≠ "") (part : String) :
    isAbsolute (base ++ part) = isAbsolute base := by
  rw [isAbsolute, isAbsolute, String.toList_append]
  cases hbase : base.toList with
  | nil => exact absurd (String.toList_eq_nil_iff.mp hbase) h
  | cons c cs => rfl

theorem not_isAbsolute_plain {name : String} (h : PlainName name) : isAbsolute name = false := by
  rw [isAbsolute, beq_eq_false_iff_ne]
  intro hhead
  exact h.noSlash (List.mem_of_mem_head? hhead)

theorem join_append {part : String} (h : part ≠ "") (base suffix : String) :
    join base (part ++ suffix) = join base part ++ suffix := by
  unfold join
  rw [isAbsolute_append h]
  split
  · rfl
  split
  · exact (String.append_assoc ..).symm
  · exact (String.append_assoc ..).symm

theorem route_eq (path : String) :
    route path = (if isAbsolute path then ["/"] else []) ++ namesOf path.toList := by
  unfold route namesOf
  split <;> rfl

theorem namesOf_join {base name : String} (hbase : base ≠ "") (h : PlainName name) :
    namesOf (join base name).toList = namesOf base.toList ++ [name] := by
  have hjoin : join base name =
      if endsInSlash base then base ++ name else base ++ "/" ++ name := by
    simp [join, not_isAbsolute_plain h, hbase]
  rw [hjoin]
  split
  · next hend =>
    obtain ⟨xs, hxs⟩ := List.getLast?_eq_some_iff.mp (by simpa [endsInSlash] using hend)
    have hnil : namesOf [] = [] := rfl
    rw [String.toList_append, hxs, List.append_assoc, List.singleton_append, namesOf_append,
      namesOf_append, hnil, List.append_nil, namesOf_plain h]
  · have hlist : (base ++ "/" ++ name).toList = base.toList ++ '/' :: name.toList := by simp
    rw [hlist, namesOf_append, namesOf_plain h]

theorem route_join (base : String) {name : String} (h : PlainName name) :
    route (join base name) = route base ++ [name] := by
  by_cases hbase : base = ""
  · subst hbase
    have hjoin : join "" name = name := by simp [join]
    rw [hjoin, route_eq, not_isAbsolute_plain h, namesOf_plain h]
    rfl
  · have habsolute : isAbsolute (join base name) = isAbsolute base := by
      simp only [join, not_isAbsolute_plain h]
      split
      · simp_all
      split
      · exact isAbsolute_append hbase name
      · rw [String.append_assoc, isAbsolute_append hbase]
    rw [route_eq, route_eq, habsolute, namesOf_join hbase h, List.append_assoc]

theorem not_endsInSlash_join (base : String) {name : String} (h : PlainName name) :
    endsInSlash (join base name) = false := by
  have hne : name.toList ≠ [] := by simpa using h.nonempty
  have hlast : name.toList.getLast hne ≠ '/' := by
    intro hlast
    exact h.noSlash (hlast ▸ List.getLast_mem hne)
  have hjoin : ∃ front, (join base name).toList = front ++ name.toList := by
    unfold join
    split
    · exact ⟨[], rfl⟩
    split
    · exact ⟨base.toList, String.toList_append⟩
    · exact ⟨(base ++ "/").toList, String.toList_append⟩
  obtain ⟨front, hfront⟩ := hjoin
  rw [endsInSlash, hfront, List.getLast?_append, List.getLast?_eq_some_getLast hne]
  simpa using hlast

/-! ## Following -/

namespace FileTree

variable {t t' : FileTree} {place : Route}

theorem follow_append (t : FileTree) (place r r' : Route) :
    t.follow place (r ++ r') = (t.follow place r).bind fun inside => t.follow inside r' := by
  induction r generalizing place with
  | nil => rfl
  | cons name rest ih =>
    rw [List.cons_append, follow, follow]
    simp only [ih]
    split
    · rfl
    split
    · rfl
    split
    · rfl
    split
    · rfl
    · rfl

theorem follow_plain {name : String} (h : PlainName name) (t : FileTree) (place : Route) :
    t.follow place [name] =
      if t.isDirectory place && t.allows name then some (place ++ [name]) else none := by
  simp only [follow, h.notDot, h.notDots, if_false]
  cases t.isDirectory place <;> cases t.allows name <;> rfl

theorem resolve_join_eq {base name : String} (h : PlainName name) :
    t.resolve (join base name) =
      if t.accepts (join base name) then t.follow [] (route base ++ [name]) else none := by
  rw [resolve, route_join base h, not_endsInSlash_join base h]
  simp only [Bool.false_eq_true, if_false, List.append_nil]

theorem resolve_join {base name : String} (h : PlainName name) :
    t.resolve (join base name) = some place ↔
      t.accepts (join base name) = true ∧ ∃ inside, t.follow [] (route base) = some inside ∧
        t.isDirectory inside = true ∧ t.allows name = true ∧ inside ++ [name] = place := by
  rw [resolve_join_eq h]
  simp only [follow_append, Option.ite_none_right_eq_some, Option.bind_eq_some_iff, follow_plain h,
    Bool.and_eq_true, Option.some.injEq, and_assoc]

/-- Two paths that are never one file: they differ, and no tree leads both to one place. -/
structure Apart (path other : String) : Prop where
  paths : path ≠ other
  places : ∀ (t : FileTree) (place : Route),
    t.resolve path = some place → t.resolve other ≠ some place

theorem Apart.symm {path other : String} (h : Apart path other) : Apart other path where
  paths := h.paths.symm
  places t place hother hpath := h.places t place hpath hother

/-- Two names in one directory lead to two places. -/
theorem apart_join {name other : String} (h : PlainName name) (h' : PlainName other)
    (hne : name ≠ other) (base : String) : Apart (join base name) (join base other) where
  paths hpaths := by
    have hroutes := congrArg route hpaths
    rw [route_join base h, route_join base h'] at hroutes
    exact hne (by simpa using hroutes)
  places t place hname hother := by
    obtain ⟨-, inside, -, -, -, hplace⟩ := (resolve_join h).mp hname
    obtain ⟨-, inside', -, -, -, hplace'⟩ := (resolve_join h').mp hother
    have hlast := congrArg List.getLast? (hplace.trans hplace'.symm)
    exact hne (by simpa using hlast)

/-! ## Limits -/

theorem limit_of_append {limit : Option Nat} {text suffix : String}
    (h : limit.all (fun most => (text ++ suffix).utf8ByteSize ≤ most) = true) :
    limit.all (fun most => text.utf8ByteSize ≤ most) = true := by
  rw [Option.all_eq_true] at h ⊢
  intro most hmost
  have hsize := h most hmost
  simp only [String.utf8ByteSize_append, decide_eq_true_eq] at hsize ⊢
  omega

theorem allows_of_append {name suffix : String} (h : t.allows (name ++ suffix) = true) :
    t.allows name = true :=
  limit_of_append h

theorem accepts_of_append {path suffix : String} (h : t.accepts (path ++ suffix) = true) :
    t.accepts path = true := by
  unfold accepts at h ⊢
  rw [Bool.and_eq_true] at h ⊢
  constructor
  · simp_all
  · exact limit_of_append h.2

theorem accepts_of_join {base name : String} (hname : PlainName name)
    (h : t.accepts (join base name) = true) : t.accepts base = true := by
  unfold join at h
  rw [not_isAbsolute_plain hname, Bool.false_or] at h
  split at h
  · next hempty =>
    rw [String.isEmpty_iff.mp hempty]
    rw [← String.empty_append (s := name)] at h
    exact accepts_of_append h
  split at h
  · exact accepts_of_append h
  · rw [String.append_assoc] at h
    exact accepts_of_append h

/-! ## Trees that grow -/

theorem Grows.follow_eq_some {r there : Route} (h : Grows t t')
    (hfollow : t.follow place r = some there) : t'.follow place r = some there := by
  induction r generalizing place with
  | nil => exact hfollow
  | cons name rest ih =>
    cases hplace : t.isDirectory place with
    | false => simp [follow, hplace] at hfollow
    | true =>
      simp only [follow, hplace, h.isDirectory hplace, h.allows_eq, Bool.not_true,
        Bool.false_eq_true, if_false] at hfollow ⊢
      by_cases hdot : name = "."
      · rw [if_pos hdot] at hfollow ⊢
        exact ih hfollow
      by_cases hdots : name = ".."
      · rw [if_neg hdot, if_pos hdots] at hfollow ⊢
        exact ih hfollow
      cases hallows : t.allows name with
      | false => simp [hdot, hdots, hallows] at hfollow
      | true =>
        simp only [hdot, hdots, hallows, if_false, if_true] at hfollow ⊢
        exact ih hfollow

theorem Grows.resolve_eq_some {path : String} {there : Route} (h : Grows t t')
    (hresolve : t.resolve path = some there) : t'.resolve path = some there := by
  unfold resolve at hresolve ⊢
  obtain ⟨haccepts, hfollow⟩ := Option.ite_none_right_eq_some.mp hresolve
  rw [h.accepts_eq, if_pos haccepts]
  exact h.follow_eq_some hfollow

theorem Grows.lookup_eq_some {path : String} {e : Entry} (h : Grows t t')
    (hlookup : t.lookup path = some e) : t'.lookup path = some e := by
  obtain ⟨place, hplace, hat⟩ := Option.bind_eq_some_iff.mp hlookup
  rw [lookup, h.resolve_eq_some hplace, Option.bind_some, h.kept place e hat]

theorem Grows.lookup_eq_none {path : String} (h : Grows t t') (hnone : t'.lookup path = none) :
    t.lookup path = none := by
  rw [Option.eq_none_iff_forall_ne_some]
  intro e he
  rw [h.lookup_eq_some he] at hnone
  cases hnone

/-- Half-way there is what there was before, or what there will be. -/
theorem lookup_between {t'' : FileTree} (h : Grows t t') (h' : Grows t' t'') (path : String) :
    t'.lookup path = t.lookup path ∨ t'.lookup path = t''.lookup path := by
  cases hlookup : t'.lookup path with
  | none => exact .inl (h.lookup_eq_none hlookup).symm
  | some e => exact .inr (h'.lookup_eq_some hlookup).symm

/-! ## Made directories -/

/-- Every directory on the way to a place is there. -/
def Standing (t : FileTree) (place : Route) : Prop :=
  ∀ front, front <+: place → t.isDirectory front = true

theorem standing_nil (t : FileTree) : Standing t [] := by
  intro front hfront
  rw [List.prefix_nil.mp hfront]
  rfl

theorem Standing.parent (h : Standing t place) : Standing t (parent place) := by
  unfold FileTree.parent
  split
  · exact h
  · intro front hfront
    exact h front (hfront.trans (List.dropLast_prefix place))

theorem Standing.enter (h : Standing t place) (hgrows : Grows t t') {name : String}
    (hname : t'.isDirectory (place ++ [name]) = true) : Standing t' (place ++ [name]) := by
  intro front hfront
  rcases List.prefix_concat_iff.mp hfront with rfl | hfront
  · exact hname
  · exact hgrows.isDirectory (h front hfront)

theorem isDirectory_of_follow {r inside : Route} (h : t.follow place r = some inside)
    (hinside : t.isDirectory inside = true) : t.isDirectory place = true := by
  cases r with
  | nil =>
    cases h
    exact hinside
  | cons name rest =>
    cases hplace : t.isDirectory place with
    | true => rfl
    | false => simp [follow, hplace] at h

theorem createAlong_of_follow {r inside : Route} (h : t.follow place r = some inside)
    (hinside : t.isDirectory inside = true) : t.createAlong place r = ⟨t, true⟩ := by
  induction r generalizing place with
  | nil =>
    cases h
    rw [createAlong, hinside]
  | cons name rest ih =>
    have hplace := isDirectory_of_follow h hinside
    simp only [follow, hplace, Bool.not_true, Bool.false_eq_true, if_false] at h
    by_cases hdot : name = "."
    · subst hdot
      rw [createAlong_dot]
      exact ih (by simpa using h)
    by_cases hdots : name = ".."
    · subst hdots
      rw [createAlong_dots]
      exact ih (by simpa using h)
    rw [if_neg hdot, if_neg hdots, Option.ite_none_right_eq_some] at h
    obtain ⟨hallows, hfollow⟩ := h
    rw [createAlong_enter hdot hdots hallows (isDirectory_of_follow hfollow hinside)]
    exact ih hfollow

theorem createDirectories_of_lookup {path : String} (h : t.lookup path = some .directory) :
    t.createDirectories path = ⟨t, true⟩ := by
  obtain ⟨place, hplace, hat⟩ := Option.bind_eq_some_iff.mp h
  obtain ⟨haccepts, hfollow⟩ := Option.ite_none_right_eq_some.mp hplace
  rw [follow_append, Option.bind_eq_some_iff] at hfollow
  obtain ⟨inside, hinside, hend⟩ := hfollow
  have hdirectory : t.isDirectory inside = true :=
    isDirectory_of_follow hend (isDirectory_eq_true_iff.mpr hat)
  rw [createDirectories, if_pos haccepts, createAlong_of_follow hinside hdirectory]

theorem follow_of_not_isDirectory (h : t.isDirectory place = false) {r : Route} (hne : r ≠ []) :
    t.follow place r = none := by
  cases r with
  | nil => exact absurd rfl hne
  | cons name rest => simp [follow, h]

theorem follow_cons_eq_none {name : String} {rest : Route} (hdot : name ≠ ".") (hdots : name ≠ "..")
    (h : t.allows name = true → t.follow (place ++ [name]) rest = none) :
    t.follow place (name :: rest) = none := by
  rw [follow, if_neg hdot, if_neg hdots]
  split
  · rfl
  split
  · next hallows => exact h hallows
  · rfl

/-- Where the directories cannot be made, nothing can be followed through them. -/
theorem follow_of_createAlong_failed {r : Route} (h : (t.createAlong place r).succeeded = false)
    (name : String) : (t.createAlong place r).tree.follow place (r ++ [name]) = none := by
  induction r generalizing t place with
  | nil => exact follow_of_not_isDirectory h (by simp)
  | cons first rest ih =>
    by_cases hdot : first = "."
    · subst hdot
      rw [createAlong_dot] at h ⊢
      rw [List.cons_append, follow, if_pos rfl, ih h, ite_self]
    by_cases hdots : first = ".."
    · subst hdots
      rw [createAlong_dots] at h ⊢
      rw [List.cons_append, follow, if_neg hdot, if_pos rfl, ih h, ite_self]
    rw [List.cons_append]
    apply follow_cons_eq_none hdot hdots
    intro hallows
    rw [(grows_createAlong t place (first :: rest)).allows_eq] at hallows
    have hblocked : t.isDirectory (place ++ [first]) = false →
        t.follow (place ++ [first]) (rest ++ [name]) = none := fun hplace =>
      follow_of_not_isDirectory hplace (by simp)
    cases hat : t.at? (place ++ [first]) with
    | none =>
      cases hrest : endsInDots rest with
      | true =>
        have hstuck : t.createAlong place (first :: rest) = t.failed := by
          simp [createAlong, hdot, hdots, hallows, hat, hrest]
        rw [hstuck]
        exact hblocked (not_isDirectory_of_none hat)
      | false =>
        rw [createAlong_make hdot hdots hallows hat hrest] at h ⊢
        exact ih h
    | some e =>
      cases e with
      | directory =>
        rw [createAlong_enter hdot hdots hallows (isDirectory_eq_true_iff.mpr hat)] at h ⊢
        exact ih h
      | file content =>
        have hstuck : t.createAlong place (first :: rest) = t.failed := by
          simp [createAlong, hdot, hdots, hallows, hat]
        rw [hstuck]
        exact hblocked (not_isDirectory_of_file hat)

/-- The route along which directories were made can be followed, and it leads to a directory. -/
theorem follow_createAlong {r : Route} (h : Standing t place)
    (hmade : (t.createAlong place r).succeeded = true) :
    ∃ inside, (t.createAlong place r).tree.follow place r = some inside ∧
      (t.createAlong place r).tree.isDirectory inside = true := by
  induction r generalizing t place with
  | nil => exact ⟨place, rfl, hmade⟩
  | cons name rest ih =>
    have hplace := (grows_createAlong t place (name :: rest)).isDirectory
      (h place List.prefix_rfl)
    have hfollow : (t.createAlong place (name :: rest)).tree.follow place (name :: rest) =
        if name = "." then (t.createAlong place (name :: rest)).tree.follow place rest
        else if name = ".." then
          (t.createAlong place (name :: rest)).tree.follow (FileTree.parent place) rest
        else if t.allows name then
          (t.createAlong place (name :: rest)).tree.follow (place ++ [name]) rest
        else none := by
      rw [follow, hplace, (grows_createAlong t place (name :: rest)).allows_eq]
      rfl
    rw [hfollow]
    by_cases hdot : name = "."
    · subst hdot
      rw [createAlong_dot] at hmade ⊢
      exact ih h hmade
    by_cases hdots : name = ".."
    · subst hdots
      rw [createAlong_dots] at hmade ⊢
      exact ih h.parent hmade
    obtain ⟨hallows, u, hgrows, hu, heq⟩ := createAlong_succeeded hdot hdots hmade
    rw [if_neg hdot, if_neg hdots, if_pos hallows, heq]
    exact ih (h.enter hgrows hu) (heq ▸ hmade)

theorem follow_createDirectories {path : String}
    (h : (t.createDirectories path).succeeded = true) :
    ∃ inside, (t.createDirectories path).tree.follow [] (route path) = some inside ∧
      (t.createDirectories path).tree.isDirectory inside = true := by
  obtain ⟨-, halong⟩ := createDirectories_succeeded h
  rw [halong] at h ⊢
  exact follow_createAlong (standing_nil t) h

theorem resolve_createDirectories {path : String} {inside : Route}
    (h : (t.createDirectories path).succeeded = true)
    (hfollow : (t.createDirectories path).tree.follow [] (route path) = some inside)
    (hinside : (t.createDirectories path).tree.isDirectory inside = true) :
    (t.createDirectories path).tree.resolve path = some inside := by
  rw [resolve, (grows_createDirectories t path).accepts_eq,
    if_pos (createDirectories_succeeded h).1, follow_append, hfollow, Option.bind_some]
  split
  · simp [follow, hinside]
  · rfl

theorem at?_below (t : FileTree) (inside : Route) {name : String} (h : PlainName name) :
    t.at? (inside ++ [name]) = t.entries.get? (inside ++ [name]) := by
  have hroot : inside ++ [name] ≠ ["/"] := by
    intro hroot
    have hname : name = "/" := by simpa using congrArg List.getLast? hroot
    exact h.noSlash (by simp [hname])
  rw [at?, if_neg (by simp [hroot])]

/-- In an empty directory there is nothing under any name. -/
theorem at?_of_listing {path name : String} {inside : Route} (h : t.listing path = [])
    (hresolve : t.resolve path = some inside) (hname : PlainName name) :
    t.at? (inside ++ [name]) = none := by
  rw [at?_below t inside hname]
  cases hentry : t.entries.get? (inside ++ [name]) with
  | none => rfl
  | some e =>
    have hlisted : ∃ text, listed inside (inside ++ [name], e) = some text := by
      simp [listed]
    obtain ⟨text, htext⟩ := hlisted
    have hmem : text ∈ t.listing path := by
      simp only [listing, hresolve, List.mem_mergeSort, List.mem_filterMap]
      exact ⟨_, Table.mem_of_get? hentry, htext⟩
    rw [h] at hmem
    cases hmem

/-- Where the directory cannot be made, no path into it leads to anything. -/
theorem lookup_join_of_failed {path name : String} (hname : PlainName name)
    (h : (t.createDirectories path).succeeded = false) :
    (t.createDirectories path).tree.lookup (join path name) = none := by
  have hresolve : (t.createDirectories path).tree.resolve (join path name) = none := by
    rw [resolve_join_eq hname, (grows_createDirectories t path).accepts_eq]
    split
    · next haccepts =>
      rw [createDirectories, if_pos (accepts_of_join hname haccepts)] at h ⊢
      exact follow_of_createAlong_failed h name
    · rfl
  rw [lookup, hresolve, Option.bind_none]

/-- A directory that is empty once it is made: no path into it leads to anything. -/
theorem lookup_join_of_made {path name : String} (hname : PlainName name)
    (hmade : (t.createDirectories path).succeeded = true)
    (h : (t.createDirectories path).tree.listing path = []) :
    (t.createDirectories path).tree.lookup (join path name) = none := by
  obtain ⟨inside, hfollow, hinside⟩ := follow_createDirectories hmade
  have hresolve := resolve_createDirectories hmade hfollow hinside
  rw [Option.eq_none_iff_forall_ne_some]
  intro e he
  obtain ⟨place, hplace, hat⟩ := Option.bind_eq_some_iff.mp he
  obtain ⟨-, inside', hfollow', -, -, rfl⟩ := (resolve_join hname).mp hplace
  obtain rfl : inside = inside' := Option.some.inj (hfollow.symm.trans hfollow')
  rw [at?_of_listing h hresolve hname] at hat
  cases hat

end FileTree

end SchemaWalk.Files
