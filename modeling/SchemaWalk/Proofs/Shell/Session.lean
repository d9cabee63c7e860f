import SchemaWalk.Proofs.Shell.Command
import SchemaWalk.Proofs.Shell.Invocations
import SchemaWalk.Proofs.Store.Files
import SchemaWalk.Shell.Session

/-! # Command lines one after another

Each command line reads the walk from its file and writes it back, and nothing but the file is left
between two of them. In a directory that works they add up all the same: every line finds the walk
that the lines before it make of the empty one. -/

namespace SchemaWalk.Shell

open Files

/-- Commands that only show something. -/
inductive Command.Shows : Command → Prop where
  | show : Shows .show
  | queries (label : String) (filters : List String) (property : Option String) :
      Shows (.queries label filters property)
  | overview : Shows .overview

structure Line where
  arguments : List String
  env : Environment

namespace Line

def invocation (line : Line) : Except Refusal Invocation := Invocation.ofArguments line.arguments

def run (line : Line) (t : FileTree) : Outcome := runArguments line.arguments line.env t

/-- The store that an invocation opens. -/
def store (line : Line) (i : Invocation) (t : FileTree) : FileStore :=
  storeOf i ((Settings.load line.env t).getD .default) line.env t

/-- The walk that is written over another one, if one is written. -/
def edit (w : Walk) (line : Line) : Option Walk :=
  match line.invocation with
  | .ok i => i.command.edit w
  | .error _ => none

def onWalk (w : Walk) (line : Line) : Walk := (line.edit w).getD w

/-- What the arguments of a line write over a walk, if they write anything. -/
inductive Writes (line : Line) (w : Walk) : Option Walk → Prop where
  | push {storeDir label typeName inbound nodeFilters relationshipFilters step} :
      Understood line.arguments
        ⟨storeDir, .push label typeName inbound nodeFilters relationshipFilters⟩ →
      Pushes label typeName inbound nodeFilters relationshipFilters step →
      Writes line w (some ⟨w.steps ++ [step]⟩)
  | refused {storeDir label typeName inbound nodeFilters relationshipFilters} :
      Understood line.arguments
        ⟨storeDir, .push label typeName inbound nodeFilters relationshipFilters⟩ →
      (∀ step, ¬ Pushes label typeName inbound nodeFilters relationshipFilters step) →
      Writes line w none
  | pop {storeDir index} : Understood line.arguments ⟨storeDir, .pop index⟩ →
      Writes line w (some ⟨w.steps.take index⟩)
  | clear {storeDir} : Understood line.arguments ⟨storeDir, .clear⟩ → Writes line w (some ⟨[]⟩)
  | shows {i} : Understood line.arguments i → i.command.Shows → Writes line w none
  | misused : (∀ i, ¬ Understood line.arguments i) → Writes line w none

end Line

def treeAfter (t : FileTree) (lines : List Line) : FileTree :=
  lines.foldl (fun t line => (line.run t).tree) t

/-- Every line that is understood goes to the same directory. -/
def UsesOnly (dir : String) (t : FileTree) (lines : List Line) : Prop :=
  ∀ before line after i, lines = before ++ line :: after → Understood line.arguments i →
    (line.store i (treeAfter t before)).dir = dir

/-- A directory without a walk that takes a write. -/
structure Works (dir : String) (t : FileTree) : Prop where
  empty : FileStore.get ⟨dir, t⟩ walkKey = .ok none
  takes : ∀ value, (FileStore.set ⟨dir, t⟩ walkKey value).1 = .ok ()

/-- What lines add up to. -/
structure Composes (dir : String) (t : FileTree) (lines : List Line) : Prop where
  /-- The arguments of a line decide what it writes, and it writes that over any walk. -/
  writes : ∀ line ∈ lines, ∀ w edited, line.Writes w edited ↔ line.edit w = edited
  /-- Each invocation finds the walk that the lines before it make of the empty one. -/
  opened : ∀ before line after i, lines = before ++ line :: after → Understood line.arguments i →
    (SavedWalk.load (line.store i (treeAfter t before))).walk =
      before.foldl Line.onWalk .empty
  /-- A walk that is written stands in the file. -/
  written : ∀ before line after w, lines = before ++ line :: after →
    line.Writes (before.foldl Line.onWalk .empty) (some w) →
    (line.run (treeAfter t before)).status = 0 ∧
      FileStore.get ⟨dir, (line.run (treeAfter t before)).tree⟩ walkKey = .ok (some w.snapshot)
  kept : ∀ before line after, lines = before ++ line :: after →
    line.Writes (before.foldl Line.onWalk .empty) none →
    (line.run (treeAfter t before)).tree = treeAfter t before
  failed : ∀ before line after, lines = before ++ line :: after →
    (line.run (treeAfter t before)).status ≠ 0 →
    (line.run (treeAfter t before)).tree = treeAfter t before

/-! ## One line -/

theorem edit_of_shows {c : Command} (h : c.Shows) (w : Walk) : c.edit w = none := by
  cases h <;> rfl

theorem invocation_eq {line : Line} {i : Invocation} (h : Understood line.arguments i) :
    line.invocation = .ok i :=
  ofArguments_eq_ok_iff.mpr h

theorem edit_eq {line : Line} {i : Invocation} (h : Understood line.arguments i) (w : Walk) :
    line.edit w = i.command.edit w := by
  rw [Line.edit, invocation_eq h]

theorem edit_of_misused {line : Line} (h : ∀ i, ¬ Understood line.arguments i) (w : Walk) :
    line.edit w = none := by
  rw [Line.edit]
  cases hi : line.invocation with
  | error e => rfl
  | ok i => exact absurd (ofArguments_eq_ok_iff.mp hi) (h i)

theorem run_eq {line : Line} {i : Invocation} (h : Understood line.arguments i) (t : FileTree) :
    line.run t = runInvocation i line.env t := by
  rw [Line.run, runArguments, ← Line.invocation, invocation_eq h]

theorem tree_run_of_misused {line : Line} (h : ∀ i, ¬ Understood line.arguments i)
    (t : FileTree) : (line.run t).tree = t := by
  rw [Line.run, runArguments, ← Line.invocation]
  cases hi : line.invocation with
  | error e => cases e <;> rfl
  | ok i => exact absurd (ofArguments_eq_ok_iff.mp hi) (h i)

theorem understood_or_misused (line : Line) :
    (∃ i, Understood line.arguments i) ∨ ∀ i, ¬ Understood line.arguments i := by
  rw [← not_exists]
  exact Classical.em _

theorem writes_edit (line : Line) (w : Walk) : line.Writes w (line.edit w) := by
  rcases understood_or_misused line with ⟨⟨storeDir, command⟩, hi⟩ | hnone
  · rw [edit_eq hi]
    cases command with
    | «show» => exact .shows hi .show
    | overview => exact .shows hi .overview
    | queries label filters property => exact .shows hi (.queries label filters property)
    | pop index => exact .pop hi
    | clear => exact .clear hi
    | push label typeName inbound nodeFilters relationshipFilters =>
      cases hp : pushedStep label typeName inbound nodeFilters relationshipFilters with
      | ok step =>
        rw [Command.edit, hp]
        exact .push hi (pushedStep_eq_ok_iff.mp hp)
      | error e =>
        rw [Command.edit, hp]
        apply Line.Writes.refused hi
        intro step hstep
        rw [pushedStep_eq_ok_iff.mpr hstep] at hp
        cases hp
  · rw [edit_of_misused hnone]
    exact .misused hnone

theorem edit_of_writes {line : Line} {w : Walk} {edited : Option Walk}
    (h : line.Writes w edited) : line.edit w = edited := by
  cases h with
  | push hi hpushes =>
    rw [edit_eq hi, Command.edit, pushedStep_eq_ok_iff.mpr hpushes]
    rfl
  | @refused _ label typeName inbound nodeFilters relationshipFilters hi hnone =>
    rw [edit_eq hi, Command.edit]
    cases hp : pushedStep label typeName inbound nodeFilters relationshipFilters with
    | error e => rfl
    | ok step => exact absurd (pushedStep_eq_ok_iff.mp hp) (hnone step)
  | pop hi => exact edit_eq hi w
  | clear hi => exact edit_eq hi w
  | shows hi hshows => rw [edit_eq hi, edit_of_shows hshows]
  | misused hnone => exact edit_of_misused hnone w

theorem tree_storeOf (i : Invocation) (settings : Settings) (env : Environment) (t : FileTree) :
    (storeOf i settings env t).tree = t := by
  unfold storeOf
  cases i.storeDir <;> rfl

/-- The files change by what is written, and by nothing else. -/
theorem tree_runInvocation (i : Invocation) (env : Environment) (t : FileTree) {s : FileStore}
    (hs : storeOf i ((Settings.load env t).getD .default) env t = s) :
    (runInvocation i env t).tree =
      match i.command.edit (SavedWalk.load s).walk with
      | some w => (s.set walkKey w.snapshot).2.tree
      | none => t := by
  have ht : s.tree = t := by rw [← hs, tree_storeOf]
  have hrun : (runInvocation i env t).tree =
      (run ((Settings.load env t).getD .default).queryBuilder
        (.load s) i.command).2.store.tree := by
    simp only [runInvocation, hs]
    split <;> rfl
  rw [hrun, saved_run]
  cases i.command.edit (SavedWalk.load s).walk with
  | none => rw [SavedWalk.store_load, ht]
  | some w => simp only [SavedWalk.persist, SavedWalk.store_load, KeyValueStore.set]

theorem status_runInvocation (i : Invocation) (env : Environment) (t : FileTree) {s : FileStore}
    (hs : storeOf i ((Settings.load env t).getD .default) env t = s)
    (h : (runInvocation i env t).status ≠ 0) :
    i.command.edit (SavedWalk.load s).walk = none := by
  simp only [runInvocation, hs] at h
  split at h
  · exact absurd rfl h
  · next hanswer => exact edit_of_failed hanswer

/-! ## A line in its directory -/

theorem store_eq {line : Line} {i : Invocation} {dir : String} {t : FileTree}
    (h : (line.store i t).dir = dir) : line.store i t = ⟨dir, t⟩ := by
  calc line.store i t
    _ = ⟨(line.store i t).dir, (line.store i t).tree⟩ := rfl
    _ = ⟨dir, t⟩ := by rw [h, Line.store, tree_storeOf]

variable {line : Line} {dir : String} {t : FileTree}

theorem tree_run_of_edit {w : Walk}
    (hdir : ∀ i, Understood line.arguments i → (line.store i t).dir = dir)
    (h : line.edit (SavedWalk.load (⟨dir, t⟩ : FileStore)).walk = some w) :
    (line.run t).status = 0 ∧
      (line.run t).tree = (FileStore.set ⟨dir, t⟩ walkKey w.snapshot).2.tree := by
  rcases understood_or_misused line with ⟨i, hi⟩ | hnone
  · rw [edit_eq hi] at h
    have hstore := store_eq (hdir i hi)
    rw [run_eq hi, tree_runInvocation i line.env t hstore, h]
    refine ⟨?_, rfl⟩
    by_contra hstatus
    rw [status_runInvocation i line.env t hstore hstatus] at h
    cases h
  · rw [edit_of_misused hnone] at h
    cases h

theorem tree_run_of_edit_none
    (hdir : ∀ i, Understood line.arguments i → (line.store i t).dir = dir)
    (h : line.edit (SavedWalk.load (⟨dir, t⟩ : FileStore)).walk = none) :
    (line.run t).tree = t := by
  rcases understood_or_misused line with ⟨i, hi⟩ | hnone
  · rw [edit_eq hi] at h
    rw [run_eq hi, tree_runInvocation i line.env t (store_eq (hdir i hi)), h]
  · exact tree_run_of_misused hnone t

/-! ## Line after line -/

/-- The directory holds a walk, or none and the walk is empty, and it takes a write. -/
structure Keeps (dir : String) (t : FileTree) (w : Walk) : Prop where
  valid : w.validate = .ok ()
  takes : ∀ value, (FileStore.set ⟨dir, t⟩ walkKey value).1 = .ok ()
  holds : (FileStore.get ⟨dir, t⟩ walkKey = .ok none ∧ w = .empty) ∨
    FileStore.get ⟨dir, t⟩ walkKey = .ok (some w.snapshot)

theorem Works.keeps (h : Works dir t) : Keeps dir t .empty := ⟨rfl, h.takes, .inl ⟨h.empty, rfl⟩⟩

theorem Keeps.opened {w : Walk} (h : Keeps dir t w) :
    (SavedWalk.load (⟨dir, t⟩ : FileStore)).walk = w := by
  rcases h.holds with ⟨hget, rfl⟩ | hget
  · have hnone : KeyValueStore.get (⟨dir, t⟩ : FileStore) walkKey = .ok none := hget
    rw [SavedWalk.load, hnone]
    rfl
  · exact SavedWalk.walk_load_of_get hget h.valid

theorem Keeps.set {w : Walk} (h : Keeps dir t w) {w' : Walk} (hw : w'.validate = .ok ()) :
    Keeps dir (FileStore.set ⟨dir, t⟩ walkKey w'.snapshot).2.tree w' := by
  have hset := h.takes w'.snapshot
  have hstore := FileStore.dir_set ⟨dir, t⟩ walkKey w'.snapshot
  constructor
  · exact hw
  · rw [hstore]
    exact FileStore.set_again hset
  · rw [hstore]
    exact .inr (FileStore.get_set hset)

/-- One line takes a directory from the walk it holds to the walk the line makes of it. -/
theorem Keeps.run {w : Walk} (h : Keeps dir t w)
    (hdir : ∀ i, Understood line.arguments i → (line.store i t).dir = dir) :
    Keeps dir (line.run t).tree (line.onWalk w) := by
  have hopened := h.opened
  cases hedit : line.edit w with
  | none =>
    rw [Line.onWalk, hedit, tree_run_of_edit_none hdir (hopened ▸ hedit)]
    exact h
  | some w' =>
    rw [Line.onWalk, hedit, (tree_run_of_edit hdir (hopened ▸ hedit)).2]
    apply h.set
    rcases understood_or_misused line with ⟨i, hi⟩ | hnone
    · rw [edit_eq hi] at hedit
      exact Command.validate_edit h.valid hedit
    · rw [edit_of_misused hnone] at hedit
      cases hedit

theorem UsesOnly.tail {lines : List Line} (h : UsesOnly dir t (line :: lines)) :
    UsesOnly dir (line.run t).tree lines := by
  intro before next after i heq hi
  have hrest := h (line :: before) next after i (by rw [heq, List.cons_append]) hi
  rwa [treeAfter, List.foldl_cons] at hrest

theorem Keeps.runs {w : Walk} (h : Keeps dir t w) {before rest : List Line}
    (huses : UsesOnly dir t (before ++ rest)) :
    Keeps dir (treeAfter t before) (before.foldl Line.onWalk w) := by
  induction before generalizing t w with
  | nil => exact h
  | cons line before ih =>
    have hfirst := h.run fun i hi => huses [] line (before ++ rest) i rfl hi
    exact ih hfirst huses.tail

theorem lines_compose {lines : List Line} (h : Works dir t) (huses : UsesOnly dir t lines) :
    Composes dir t lines := by
  have hkeeps : ∀ before line after, lines = before ++ line :: after →
      Keeps dir (treeAfter t before) (before.foldl Line.onWalk .empty) := by
    rintro before line after rfl
    exact h.keeps.runs huses
  constructor
  · intro line _ w edited
    constructor
    · exact edit_of_writes
    · rintro rfl
      exact writes_edit line w
  · intro before line after i heq hi
    rw [store_eq (huses before line after i heq hi)]
    exact (hkeeps before line after heq).opened
  · intro before line after w heq hwrites
    have hbefore := hkeeps before line after heq
    have hdir := fun i => huses before line after i heq
    have hedit := edit_of_writes hwrites
    obtain ⟨hstatus, htree⟩ := tree_run_of_edit hdir (hbefore.opened ▸ hedit)
    have hstore := FileStore.dir_set ⟨dir, treeAfter t before⟩ walkKey w.snapshot
    refine ⟨hstatus, ?_⟩
    rw [htree, hstore]
    exact FileStore.get_set (hbefore.takes w.snapshot)
  · intro before line after heq hwrites
    have hedit := edit_of_writes hwrites
    apply tree_run_of_edit_none fun i => huses before line after i heq
    rwa [(hkeeps before line after heq).opened]
  · intro before line after heq hstatus
    have hdir := fun i => huses before line after i heq
    apply tree_run_of_edit_none hdir
    by_contra hedit
    obtain ⟨w, hw⟩ := Option.ne_none_iff_exists'.mp hedit
    exact hstatus (tree_run_of_edit hdir hw).1

/-! ## A session -/

/-- Lines that name the directory go to it, whatever the settings say. -/
theorem UsesOnly.of_given {lines : List Line}
    (h : ∀ line ∈ lines, ∀ i ∈ line.invocation.toOption, i.storeDir = some dir) (t : FileTree) :
    UsesOnly dir t lines := by
  rintro before line after i rfl hi
  have hgiven := h line (by simp) i (by rw [invocation_eq hi]; rfl)
  rw [Line.store, storeOf, hgiven]

def bareEnvironment : Environment := ⟨none, none, none, none⟩

def cityLines : List Line :=
  [⟨["--store-dir", "walks", "push", "--label", "City", "--type", "IN", "--inbound",
      "--node-filter", " name = Bern ", "--node-filter=area=52"], bareEnvironment⟩,
    ⟨["--store-dir=walks", "push", "--type", "IN", "--label", "Town", "--rel-filter", "=1"],
      bareEnvironment⟩,
    ⟨["--store-dir", "walks", "push", "--rel-filter", "km=7", "--label=Land", "--type", "NEAR",
      "--rel-filter", "by=a=b"], bareEnvironment⟩,
    ⟨["--store-dir", "walks", "pop", "4"], bareEnvironment⟩,
    ⟨["--store-dir", "walks", "pop", "+1"], bareEnvironment⟩,
    ⟨["--store-dir", "walks", "clear"], bareEnvironment⟩,
    ⟨["--store-dir", "walks", "push", "--label", "Lake", "--type", "IN"], bareEnvironment⟩]

def showLine : Line := ⟨["--store-dir", "walks", "show"], bareEnvironment⟩

theorem works_walks : Works "walks" .empty := by
  have hready : FileStore.Ready ⟨"walks", .empty⟩ walkKey
      (FileTree.empty.createDirectories "walks").tree ["walks", "walk.ron.tmp"]
      ["walks", "walk.ron"] :=
    ⟨rfl, by decide +kernel, by decide +kernel, by decide +kernel, by decide +kernel⟩
  constructor
  · rfl
  · intro value
    rw [FileStore.set_eq (by decide +kernel) hready]

theorem usesOnly_cityLines (n : Nat) :
    UsesOnly "walks" .empty (cityLines.take n ++ [showLine]) := by
  have hgiven : ∀ line ∈ cityLines ++ [showLine], ∀ i ∈ line.invocation.toOption,
      i.storeDir = some "walks" := by
    decide +kernel
  apply UsesOnly.of_given
  intro line hline
  apply hgiven
  rcases List.mem_append.mp hline with hline | hline
  · exact List.mem_append_left _ (List.mem_of_mem_take hline)
  · exact List.mem_append_right _ hline

/-- The walk that is opened after each of the lines: two pushes, of which the one with a filter
without a name is refused between them, a cut behind the end, a cut, a clearing and a push. -/
theorem lines_compose_cities :
    let bern : Step := ⟨⟨"City", [⟨"name", .equality, "Bern"⟩, ⟨"area", .equality, "52"⟩]⟩,
      ⟨"IN", []⟩, .inbound⟩
    let land : Step := ⟨⟨"Land", []⟩,
      ⟨"NEAR", [⟨"km", .equality, "7"⟩, ⟨"by", .equality, "a=b"⟩]⟩, .outbound⟩
    let lake : Step := ⟨⟨"Lake", []⟩, ⟨"IN", []⟩, .outbound⟩
    (List.range 8).map (fun n => (SavedWalk.load (showLine.store ⟨some "walks", .show⟩
        (treeAfter .empty (cityLines.take n)))).walk.steps) =
      [[], [bern], [bern], [bern, land], [bern, land], [bern], [], [lake]] := by
  have hshow : Understood showLine.arguments ⟨some "walks", .show⟩ :=
    ofArguments_eq_ok_iff.mp (by decide +kernel)
  have hopened : ∀ n, (SavedWalk.load (showLine.store ⟨some "walks", .show⟩
      (treeAfter .empty (cityLines.take n)))).walk =
      (cityLines.take n).foldl Line.onWalk .empty := by
    intro n
    exact (lines_compose works_walks (usesOnly_cityLines n)).opened (cityLines.take n) showLine []
      _ rfl hshow
  simp only [hopened]
  decide +kernel

end SchemaWalk.Shell
