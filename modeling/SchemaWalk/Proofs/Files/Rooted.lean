import SchemaWalk.Proofs.Files.Paths
import SchemaWalk.Proofs.Table.Contents

/-! # Rooted trees

Everything is in a directory, and no action changes that. So there is nothing in a directory that
was just made, unless the path to it climbs and comes to an old directory through a new one. -/

namespace SchemaWalk.Files.FileTree

variable {t t' : FileTree} {place : Route} {path : String}

/-- A place that is in a directory. -/
def Housed (t : FileTree) (place : Route) : Prop :=
  ∀ front name, place = front ++ [name] → t.isDirectory front = true

/-- Everything is in a directory. -/
def Rooted (t : FileTree) : Prop := ∀ place e, t.at? place = some e → t.Housed place

theorem housed_top (t : FileTree) : t.Housed [] := by
  intro front name heq
  simp at heq

theorem housed_below (h : t.isDirectory place = true) (name : String) :
    t.Housed (place ++ [name]) := by
  intro front last heq
  obtain ⟨rfl, -⟩ := List.append_inj' heq rfl
  exact h

theorem Rooted.housed (h : t.Rooted) (hplace : t.isDirectory place = true) : t.Housed place :=
  h place .directory (isDirectory_eq_true_iff.mp hplace)

theorem Housed.of_grows (h : t.Housed place) (hgrows : Grows t t') : t'.Housed place :=
  fun front name heq => hgrows.isDirectory (h front name heq)

theorem Housed.of_same (h : t.Housed place) (hsame : SameDirectories t t') : t'.Housed place :=
  fun front name heq => (hsame.directories front).trans (h front name heq)

/-! ## Every action keeps a tree rooted -/

theorem rooted_empty : empty.Rooted := by
  intro place e he front name heq
  subst heq
  rw [at?] at he
  split at he
  · next htop =>
    obtain ⟨rfl, -⟩ : front = [] ∧ name = "/" := by simpa [List.append_eq_singleton_iff] using htop
    rfl
  · cases he

theorem Rooted.put_file (h : t.Rooted) (hplace : t.Housed place)
    (hfree : t.isDirectory place = false) (content : ByteArray) :
    (t.put place (.file content)).Rooted := by
  intro other e he
  by_cases hother : other = place
  · subst hother
    exact hplace.of_same (sameDirectories_put hfree content)
  · rw [at?_put_of_ne hother] at he
    exact (h other e he).of_same (sameDirectories_put hfree content)

theorem Rooted.put_directory (h : t.Rooted) (hplace : t.Housed place) (hnone : t.at? place = none) :
    (t.put place .directory).Rooted := by
  intro other e he
  by_cases hother : other = place
  · subst hother
    exact hplace.of_grows (grows_put hnone .directory)
  · rw [at?_put_of_ne hother] at he
    exact (h other e he).of_grows (grows_put hnone .directory)

theorem Rooted.remove (h : t.Rooted) (hfree : t.isDirectory place = false) :
    (t.remove place).Rooted := by
  intro other e he
  by_cases hother : other = place
  · rw [hother, at?_remove_self hfree] at he
    cases he
  · rw [at?_remove_of_ne hother] at he
    exact (h other e he).of_same (sameDirectories_remove hfree)

theorem Rooted.isDirectory_parent (h : t.Rooted) (hplace : t.isDirectory place = true) :
    t.isDirectory (parent place) = true := by
  unfold parent
  split
  · exact hplace
  · by_cases hne : place = []
    · rw [hne]
      rfl
    · exact h.housed hplace _ _ (List.dropLast_concat_getLast hne).symm

theorem Rooted.housed_follow {r inside : Route} (h : t.Rooted) (hplace : t.Housed place)
    (hfollow : t.follow place r = some inside) : t.Housed inside := by
  induction r generalizing place with
  | nil =>
    cases hfollow
    exact hplace
  | cons name rest ih =>
    rw [follow, Option.ite_none_left_eq_some] at hfollow
    obtain ⟨hdirectory, hfollow⟩ := hfollow
    have hdirectory : t.isDirectory place = true := by simpa using hdirectory
    split at hfollow
    · exact ih hplace hfollow
    split at hfollow
    · exact ih (h.housed (h.isDirectory_parent hdirectory)) hfollow
    · exact ih (housed_below hdirectory name) (Option.ite_none_right_eq_some.mp hfollow).2

/-- A path leads into a directory, whether anything is there or not. -/
theorem Rooted.housed_resolve (h : t.Rooted) (hpath : t.resolve path = some place) :
    t.Housed place :=
  h.housed_follow (housed_top t) (Option.ite_none_right_eq_some.mp hpath).2

theorem Rooted.createAlong {r : Route} (h : t.Rooted) (hplace : t.isDirectory place = true) :
    (t.createAlong place r).tree.Rooted := by
  induction r generalizing t place with
  | nil => exact h
  | cons name rest ih =>
    unfold FileTree.createAlong
    split
    · exact ih h hplace
    split
    · exact ih h (h.isDirectory_parent hplace)
    split
    · exact h
    split
    · next hat => exact ih h (isDirectory_eq_true_iff.mpr hat)
    · exact h
    · next hnone =>
      split
      · exact h
      · exact ih (h.put_directory (housed_below hplace name) hnone) (isDirectory_put_self t _)

theorem Rooted.perform (h : t.Rooted) (a : FileAction) : (t.perform a).tree.Rooted := by
  cases a with
  | createDirectories path =>
    simp only [FileTree.perform, createDirectories]
    split
    · exact h.createAlong rfl
    · exact h
  | startFile path =>
    obtain heq | ⟨place, hplace, hfree, heq⟩ := t.startFile_cases path
    · rw [FileTree.perform, heq]
      exact h
    · rw [FileTree.perform, heq]
      exact h.put_file (h.housed_resolve hplace) hfree _
  | ensureFile path =>
    obtain heq | ⟨place, content, -, -, heq⟩ | ⟨place, hplace, hnone, heq⟩ :=
      t.ensureFile_cases path
    · rw [FileTree.perform, heq]
      exact h
    · rw [FileTree.perform, heq]
      exact h
    · rw [FileTree.perform, heq]
      exact h.put_file (h.housed_resolve hplace) (not_isDirectory_of_none hnone) _
  | append path content =>
    obtain heq | ⟨place, before, hplace, hat, heq⟩ := t.append_cases path content
    · rw [FileTree.perform, heq]
      exact h
    · rw [FileTree.perform, heq]
      exact h.put_file (h.housed_resolve hplace) (not_isDirectory_of_file hat) _
  | flush path => exact h
  | rename source target =>
    obtain heq | ⟨here, there, content, -, hthere, hat, hfree, heq⟩ := t.rename_cases source target
    · rw [FileTree.perform, heq]
      exact h
    · have hsame := sameDirectories_remove (not_isDirectory_of_file hat)
      rw [FileTree.perform, heq]
      exact (h.remove (not_isDirectory_of_file hat)).put_file
        ((h.housed_resolve hthere).of_same hsame) ((hsame.directories there).trans hfree) _

theorem Rooted.performAll (h : t.Rooted) (plan : List FileAction) :
    (t.performAll plan).tree.Rooted := by
  induction plan generalizing t with
  | nil => exact h
  | cons a plan ih =>
    rw [FileTree.performAll]
    split
    · exact ih (h.perform a)
    · exact h.perform a

/-! ## New directories -/

/-- There is nothing below a place. -/
def Bare (t : FileTree) (place : Route) : Prop :=
  ∀ name rest, t.at? (place ++ name :: rest) = none

theorem Bare.enter (h : t.Bare place) (name : String) : t.Bare (place ++ [name]) := by
  intro next rest
  rw [List.append_assoc]
  exact h name (next :: rest)

theorem Bare.put (h : t.Bare place) (e : Entry) : (t.put place e).Bare place := by
  intro name rest
  rw [at?_put_of_ne (by simp), h name rest]

theorem Rooted.at?_eq_none (h : t.Rooted) (hplace : t.at? place = none) (name : String) :
    t.at? (place ++ [name]) = none := by
  rw [Option.eq_none_iff_forall_ne_some]
  intro e he
  have hdirectory := isDirectory_eq_true_iff.mp (h _ e he place name rfl)
  rw [hplace] at hdirectory
  cases hdirectory

theorem Rooted.bare (h : t.Rooted) (hplace : t.at? place = none) : t.Bare place := by
  intro name rest
  induction rest generalizing place name with
  | nil => exact h.at?_eq_none hplace name
  | cons next rest ih =>
    rw [← List.singleton_append, ← List.append_assoc]
    exact ih (h.at?_eq_none hplace name) next

theorem get?_eq_none_of_at? (h : t.at? place = none) : t.entries.get? place = none := by
  rw [at?] at h
  split at h
  · cases h
  · exact h

theorem Bare.listing_eq_nil (h : t.Bare place)
    (hresolve : t.resolve path = some place) : t.listing path = [] := by
  have hnone : t.entries.entries.filterMap (listed place) = [] := by
    rw [List.filterMap_eq_nil_iff]
    rintro ⟨other, e⟩ hmem
    rw [listed, if_neg]
    rintro ⟨hbelow, hne⟩
    obtain ⟨rest, rfl⟩ := List.isPrefixOf_iff_prefix.mp hbelow
    cases rest with
    | nil => simp at hne
    | cons name rest =>
      have hentry := get?_eq_none_of_at? (h name rest)
      rw [Table.get?_of_mem hmem] at hentry
      cases hentry
  simp only [listing, hresolve, hnone, List.mergeSort_nil]

theorem follow_of_dot {rest inside : Route} (h : t.follow place ("." :: rest) = some inside) :
    t.follow place rest = some inside := by
  rw [follow, if_pos rfl, Option.ite_none_left_eq_some] at h
  exact h.2

theorem follow_of_name {name : String} {rest inside : Route} (hdot : name ≠ ".")
    (hdots : name ≠ "..") (h : t.follow place (name :: rest) = some inside) :
    t.follow (place ++ [name]) rest = some inside := by
  rw [follow, if_neg hdot, if_neg hdots, Option.ite_none_left_eq_some,
    Option.ite_none_right_eq_some] at h
  exact h.2.2

theorem Bare.createAlong {r inside : Route} (h : t.Bare place) (hclimb : ".." ∉ r)
    (hmade : (t.createAlong place r).succeeded = true)
    (hfollow : (t.createAlong place r).tree.follow place r = some inside) :
    (t.createAlong place r).tree.Bare inside := by
  induction r generalizing t place with
  | nil =>
    cases hfollow
    exact h
  | cons name rest ih =>
    obtain ⟨hdots, hrest⟩ := List.ne_and_not_mem_of_not_mem_cons hclimb
    by_cases hdot : name = "."
    · subst hdot
      rw [createAlong_dot] at hmade hfollow ⊢
      exact ih h hrest hmade (follow_of_dot hfollow)
    have hfollow := follow_of_name hdot hdots.symm hfollow
    obtain ⟨-, ⟨hat, -⟩ | ⟨-, -, heq⟩⟩ := createAlong_succeeded_cases hdot hdots.symm hmade
    · rw [h name []] at hat
      cases hat
    · rw [heq] at hmade hfollow ⊢
      exact ih ((h.enter name).put .directory) hrest hmade hfollow

/-- A directory was there before, or nothing is in it when it is made. -/
theorem Rooted.old_or_bare {r inside : Route} (h : t.Rooted) (hclimb : ".." ∉ r)
    (hmade : (t.createAlong place r).succeeded = true)
    (hfollow : (t.createAlong place r).tree.follow place r = some inside) :
    (t.createAlong place r).tree = t ∨ (t.createAlong place r).tree.Bare inside := by
  induction r generalizing place with
  | nil => exact .inl rfl
  | cons name rest ih =>
    obtain ⟨hdots, hrest⟩ := List.ne_and_not_mem_of_not_mem_cons hclimb
    by_cases hdot : name = "."
    · subst hdot
      rw [createAlong_dot] at hmade hfollow ⊢
      exact ih hrest hmade (follow_of_dot hfollow)
    have hfollow := follow_of_name hdot hdots.symm hfollow
    obtain ⟨-, ⟨-, heq⟩ | ⟨hnone, -, heq⟩⟩ := createAlong_succeeded_cases hdot hdots.symm hmade
    · rw [heq] at hmade hfollow ⊢
      exact ih hrest hmade hfollow
    · rw [heq] at hmade hfollow ⊢
      exact .inr (((h.bare hnone).put .directory).createAlong hrest hmade hfollow)

/-- What a path leads to was there before, or nothing is in it when it is made. A path that climbs
may come to an old directory through a new one. -/
theorem Rooted.old_or_empty (h : t.Rooted) (hclimb : ".." ∉ route path)
    (hmade : (t.createDirectories path).succeeded = true) :
    t.lookup path = some .directory ∨ (t.createDirectories path).tree.listing path = [] := by
  obtain ⟨inside, hfollow, hinside⟩ := follow_createDirectories hmade
  have hresolve := resolve_createDirectories hmade hfollow hinside
  obtain ⟨-, halong⟩ := createDirectories_succeeded hmade
  rw [halong] at hmade hfollow hinside hresolve ⊢
  rcases h.old_or_bare hclimb hmade hfollow with hsame | hbare
  · rw [hsame] at hinside hresolve
    left
    rw [lookup, hresolve, Option.bind_some, isDirectory_eq_true_iff.mp hinside]
  · exact .inr (hbare.listing_eq_nil hresolve)

end SchemaWalk.Files.FileTree
