import SchemaWalk.Proofs.Files.Interruption
import SchemaWalk.Proofs.Files.Rooted
import SchemaWalk.Proofs.Store.Mirror

/-! # Writes that are broken off

Until the rename a write changes nothing but the temporary file of its key, which is no data file of
any key, and the rename puts all of the value in place at once. So wherever a write is broken off,
readers find the old value or the new one, and the next write starts afresh. -/

namespace SchemaWalk

open Files

namespace FileStore

variable {s : FileStore} {key other value : String} {completed : List FileAction} {t : FileTree}

/-! ## The steps of a write -/

def filling (dir key value : String) : List FileAction :=
  [.startFile (temporaryFile dir key), .append (temporaryFile dir key) value.toUTF8,
    .flush (temporaryFile dir key)]

def replacing (dir key : String) : FileAction :=
  .rename (temporaryFile dir key) (dataFile dir key)

theorem writePlan_eq (dir key value : String) :
    writePlan dir key value =
      .createDirectories dir :: (filling dir key value ++ [replacing dir key]) := rfl

theorem fills_of_mem_filling {dir : String} {a : FileAction} (h : a ∈ filling dir key value) :
    a.Fills (temporaryFile dir key) := by
  simp only [filling, List.mem_cons, List.not_mem_nil, or_false] at h
  rcases h with rfl | rfl | rfl
  · exact .startFile
  · exact .append _
  · exact .flush

theorem replacing_not_mem {dir : String} (h : ∀ a ∈ completed, a ∈ filling dir key value) :
    replacing dir key ∉ .createDirectories dir :: completed := by
  rw [List.mem_cons, not_or]
  refine ⟨nofun, fun hmem => ?_⟩
  cases fills_of_mem_filling (h _ hmem)

/-- Where a write can end: while the directory is made, before the rename, or when it is through. -/
theorem stops_writePlan_cases
    (h : s.tree.Stops (writePlan s.dir key value) completed t) :
    (completed = [] ∧ s.tree.Grows t ∧ t.Grows (s.tree.createDirectories s.dir).tree) ∨
    (replacing s.dir key ∉ completed ∧ (s.tree.createDirectories s.dir).succeeded = true ∧
      FileTree.OnlyAt (temporaryFile s.dir key) (s.tree.createDirectories s.dir).tree t) ∨
    completed = writePlan s.dir key value := by
  rw [writePlan_eq] at h ⊢
  cases h with
  | during hbroken =>
    refine .inl ⟨rfl, ?_⟩
    cases hbroken with
    | untouched => exact ⟨.refl _, FileTree.grows_createDirectories _ _⟩
    | directories hgrows hwithin => exact ⟨hgrows, hwithin⟩
  | after hmade hrest =>
    have hfills : ∀ a ∈ filling s.dir key value, a.Fills (temporaryFile s.dir key) := fun _ =>
      fills_of_mem_filling
    refine .inr ?_
    rcases hrest.append_cases with hfilling | ⟨u, rest, hfilling, hreplacing, rfl⟩
    · refine .inl ⟨replacing_not_mem fun a ha => hfilling.completed_prefix.subset ha, hmade, ?_⟩
      exact hfilling.onlyAt hfills
    · cases hreplacing with
      | during hbroken =>
        cases hbroken
        rw [List.append_nil]
        exact .inl ⟨replacing_not_mem fun _ ha => ha, hmade, hfilling.onlyAt hfills⟩
      | after _ hend =>
        cases hend
        exact .inr rfl

/-! ## Before the rename -/

/-- Making the directory brings nothing to light in it: it was there, or it is empty when made. -/
def Settled (s : FileStore) : Prop :=
  (s.tree.createDirectories s.dir).succeeded = true → s.tree.lookup s.dir = some .directory ∨
    (s.tree.createDirectories s.dir).tree.listing s.dir = []

theorem Settled.of_rooted (h : s.tree.Rooted) (hclimb : ".." ∉ route s.dir) : s.Settled :=
  fun hmade => h.old_or_empty hclimb hmade

theorem rooted_on (h : s.tree.Rooted) (call : StoreCall) :
    (call.on s).2.tree.Rooted ∧ (call.on s).2.dir = s.dir := by
  cases call with
  | get key => exact ⟨h, rfl⟩
  | set key value =>
    change (s.set key value).2.tree.Rooted ∧ (s.set key value).2.dir = s.dir
    unfold set
    split
    · exact ⟨h, rfl⟩
    · exact ⟨h.performAll _, rfl⟩

theorem rooted_after (h : s.tree.Rooted) (calls : List StoreCall) :
    (StoreCall.after s calls).tree.Rooted ∧ (StoreCall.after s calls).dir = s.dir := by
  induction calls generalizing s with
  | nil => exact ⟨h, rfl⟩
  | cons call calls ih =>
    obtain ⟨hrooted, hdir⟩ := rooted_on h call
    obtain ⟨hafter, hsame⟩ := ih hrooted
    exact ⟨hafter, hsame.trans hdir⟩

/-- In a tree that nobody else writes to, every write finds its store settled. -/
theorem settled_after {dir : String} (hclimb : ".." ∉ route dir) (calls : List StoreCall) :
    (StoreCall.after (⟨dir, .empty⟩ : FileStore) calls).Settled := by
  have hempty : (⟨dir, .empty⟩ : FileStore).tree.Rooted := FileTree.rooted_empty
  obtain ⟨hrooted, hdir⟩ := rooted_after hempty calls
  apply Settled.of_rooted hrooted
  rw [hdir]
  exact hclimb

theorem Settled.lookup_made (h : s.Settled) {name : String} (hname : PlainName name) :
    (s.tree.createDirectories s.dir).tree.lookup (join s.dir name) =
      s.tree.lookup (join s.dir name) := by
  have hunseen : (s.tree.createDirectories s.dir).tree.lookup (join s.dir name) = none →
      (s.tree.createDirectories s.dir).tree.lookup (join s.dir name) =
        s.tree.lookup (join s.dir name) := fun hnone => by
    rw [hnone, (FileTree.grows_createDirectories s.tree s.dir).lookup_eq_none hnone]
  cases hmade : (s.tree.createDirectories s.dir).succeeded with
  | false => exact hunseen (FileTree.lookup_join_of_failed hname hmade)
  | true =>
    rcases h hmade with hthere | hempty
    · rw [FileTree.createDirectories_of_lookup hthere]
    · exact hunseen (FileTree.lookup_join_of_made hname hmade hempty)

theorem get_congr (h : t.lookup (dataFile s.dir key) = s.tree.lookup (dataFile s.dir key)) :
    (⟨s.dir, t⟩ : FileStore).get key = s.get key := by
  simp only [get, FileTree.readText, h]

theorem get_before_replacing (hs : s.Settled)
    (hstop : s.tree.Stops (writePlan s.dir key value) completed t) (hkey : isKey key = true)
    (hbefore : replacing s.dir key ∉ completed) (hother : isKey other = true) :
    (⟨s.dir, t⟩ : FileStore).get other = s.get other := by
  have hmade := hs.lookup_made (plainName_data hother)
  apply get_congr
  obtain ⟨-, hgrows, hwithin⟩ | ⟨-, -, honly⟩ | hthrough := stops_writePlan_cases hstop
  · rcases FileTree.lookup_between hgrows hwithin (dataFile s.dir other) with hsame | hsame
    · exact hsame
    · exact hsame.trans hmade
  · exact (honly.lookup_eq (apart_temporary_data hkey hother s.dir)).trans hmade
  · simp [hthrough, writePlan_eq] at hbefore

/-! ## After the rename -/

theorem replacing_mem_iff (hstop : s.tree.Stops (writePlan s.dir key value) completed t) :
    replacing s.dir key ∈ completed ↔ completed = writePlan s.dir key value := by
  constructor
  · intro hafter
    obtain ⟨rfl, -, -⟩ | ⟨hbefore, -, -⟩ | hthrough := stops_writePlan_cases hstop
    · cases hafter
    · exact absurd hafter hbefore
    · exact hthrough
  · rintro rfl
    simp [writePlan_eq]

theorem set_of_performAll (hkey : isKey key = true)
    (h : s.tree.performAll (writePlan s.dir key value) = ⟨t, true⟩) :
    s.set key value = (.ok (), ⟨s.dir, t⟩) := by
  simp [set, hkey, h]

theorem set_of_replacing (hstop : s.tree.Stops (writePlan s.dir key value) completed t)
    (hkey : isKey key = true) (hafter : replacing s.dir key ∈ completed) :
    s.set key value = (.ok (), ⟨s.dir, t⟩) := by
  rw [(replacing_mem_iff hstop).mp hafter] at hstop
  exact set_of_performAll hkey hstop.performAll_eq

theorem get_other_after_set (hs : s.Settled) (hset : (s.set key value).1 = .ok ())
    (hother : isKey other = true) (hne : other ≠ key) :
    (s.set key value).2.get other = s.get other := by
  obtain ⟨hkey, made, here, there, hready⟩ := ready_of_set hset
  have hmade := hs.lookup_made (plainName_data hother)
  rw [hready.directory] at hmade
  rw [set_eq hkey hready]
  apply get_congr
  rw [lookup_written_of_apart hready (apart_temporary_data hkey hother s.dir)
    (apart_data hkey hother hne.symm s.dir)]
  exact hmade

/-! ## The next write -/

/-- The directory can be made, the names of the two files of the key fit, and no directory stands in
the place of one of them. -/
structure Keeps (s : FileStore) (key : String) : Prop where
  made : (s.tree.createDirectories s.dir).succeeded = true
  room : HasRoom s.tree s.dir key
  temporary : s.tree.lookup (temporaryFile s.dir key) ≠ some .directory
  data : s.tree.lookup (dataFile s.dir key) ≠ some .directory

theorem Keeps.ready (h : s.Keeps key) (hs : s.Settled) (hkey : isKey key = true) :
    ∃ here there, Ready s key (s.tree.createDirectories s.dir).tree here there := by
  apply ready_of_room (by rw [← h.made]) hkey h.room
  · rw [temporaryFile, hs.lookup_made (plainName_temporary hkey)]
    exact h.temporary
  · rw [dataFile, hs.lookup_made (plainName_data hkey)]
    exact h.data

/-- Whatever a write that was broken off has left, the next one finds its way. -/
theorem ready_of_stops {made : FileTree} {here there : Route}
    (h : Ready s key made here there)
    (hstop : s.tree.Stops (writePlan s.dir key value) completed t) :
    ∃ made', Ready ⟨s.dir, t⟩ key made' here there := by
  obtain ⟨-, hgrows, hwithin⟩ | ⟨-, -, honly⟩ | rfl := stops_writePlan_cases hstop
  · have hmade : (s.tree.createDirectories s.dir).succeeded = true := by rw [h.directory]
    obtain ⟨u, hu, hforth, hback⟩ := FileTree.createDirectories_resumed hmade hgrows hwithin
    rw [h.directory] at hforth hback
    exact ⟨u, h.of_same hu (hforth.sameDirectories hback)⟩
  · have hsame := honly.same
    rw [h.directory] at hsame
    exact ⟨t, h.of_sameDirectories hsame⟩
  · have hwritten := hstop.performAll_eq
    rw [performAll_writePlan h] at hwritten
    obtain ⟨rfl, -⟩ := Attempt.mk.inj hwritten
    exact ⟨_, h.again _⟩

/-! ## What readers find -/

/-- What is found after a write that did the completed actions and no other to its end. -/
structure Survives (s : FileStore) (key value : String) (completed : List FileAction)
    (t : FileTree) : Prop where
  kept : .rename (temporaryFile s.dir key) (dataFile s.dir key) ∉ completed →
    (⟨s.dir, t⟩ : FileStore).get key = s.get key
  replaced : .rename (temporaryFile s.dir key) (dataFile s.dir key) ∈ completed →
    (⟨s.dir, t⟩ : FileStore).get key = .ok (some value)
  others : ∀ other, isKey other = true → other ≠ key →
    (⟨s.dir, t⟩ : FileStore).get other = s.get other
  next : s.Keeps key → ∀ next, ((⟨s.dir, t⟩ : FileStore).set key next).1 = .ok () ∧
    ((⟨s.dir, t⟩ : FileStore).set key next).2.get key = .ok (some next)

/-- A write that nothing interferes with ends somewhere in its plan too. -/
theorem stops_set (s : FileStore) (hkey : isKey key = true) (value : String) :
    ∃ completed, s.tree.Stops (writePlan s.dir key value) completed (s.set key value).2.tree ∧
      ((s.set key value).1 = .ok () ↔ replacing s.dir key ∈ completed) := by
  obtain ⟨completed, hstop, hthrough⟩ :=
    FileTree.stops_performAll s.tree (writePlan s.dir key value)
  have htree : (s.set key value).2.tree =
      (s.tree.performAll (writePlan s.dir key value)).tree := by
    simp [set, hkey]
  have hanswer : (s.set key value).1 = .ok () ↔
      (s.tree.performAll (writePlan s.dir key value)).succeeded = true := by
    simp [set, hkey]
  refine ⟨completed, htree ▸ hstop, ?_⟩
  rw [hanswer, hthrough]
  exact (replacing_mem_iff hstop).symm

theorem survives_of_stops (hs : s.Settled) (hkey : isKey key = true)
    (hstop : s.tree.Stops (writePlan s.dir key value) completed t) :
    Survives s key value completed t where
  kept hbefore := get_before_replacing hs hstop hkey hbefore hkey
  replaced hafter := by
    have hset := set_of_replacing hstop hkey hafter
    have hget : (s.set key value).2.get key = .ok (some value) := get_set (by rw [hset])
    rwa [hset] at hget
  others other hother hne := by
    by_cases hafter : replacing s.dir key ∈ completed
    · have hset := set_of_replacing hstop hkey hafter
      have hget := get_other_after_set hs (by rw [hset]) hother hne
      rwa [hset] at hget
    · exact get_before_replacing hs hstop hkey hafter hother
  next hkeeps next := by
    obtain ⟨here, there, hready⟩ := hkeeps.ready hs hkey
    obtain ⟨made, hagain⟩ := ready_of_stops hready hstop
    have hset := set_eq hkey hagain next
    exact ⟨by rw [hset], get_set (by rw [hset])⟩

/-- A write ends somewhere in its plan, and it is done when the rename is. Wherever it ends, the key
has its old value before the rename and the new one after it, the other keys have the values that
they had, and the key can be written again. -/
theorem interrupted_write_survives (hs : s.Settled) (hkey : isKey key = true) (value : String) :
    (∃ completed, s.tree.Stops (writePlan s.dir key value) completed (s.set key value).2.tree ∧
      ((s.set key value).1 = .ok () ↔
        .rename (temporaryFile s.dir key) (dataFile s.dir key) ∈ completed)) ∧
    ∀ completed t, s.tree.Stops (writePlan s.dir key value) completed t →
      Survives s key value completed t := by
  constructor
  · exact s.stops_set hkey value
  · intro completed t hstop
    exact survives_of_stops hs hkey hstop

/-- A walk, another value, and half a letter that an earlier write has left. -/
def tornWalks : FileStore :=
  ⟨"walks", ⟨.ofList [(["walks"], .directory), (["walks", "other.ron"], .file "()".toUTF8),
    (["walks", "walk.ron"], .file "[]".toUTF8), (["walks", "walk.ron.tmp"], .file ⟨#[0xC3]⟩)],
    some 255, some 4096⟩⟩

/-- The temporary file was emptied again, and of the letter half was written again. -/
def tornAgain : FileTree :=
  ((tornWalks.tree.startFile "walks/walk.ron.tmp").tree.append "walks/walk.ron.tmp"
    ("é".toUTF8.extract 0 1)).tree

theorem settled_tornWalks : tornWalks.Settled := fun _ => .inl rfl

theorem keeps_tornWalks : tornWalks.Keeps "walk" where
  made := by decide +kernel
  room := ⟨by decide +kernel, by decide +kernel⟩
  temporary := nofun
  data := nofun

theorem stops_tornWalks : tornWalks.tree.Stops (writePlan "walks" "walk" "é")
    [.createDirectories "walks", .startFile "walks/walk.ron.tmp"] tornAgain :=
  .after (by decide +kernel) (.after (by decide +kernel) (.during (.bytes _ _ 1)))

theorem interrupted_write_survives_torn :
    tornWalks.Settled ∧ isKey "walk" = true ∧
    tornWalks.tree.Stops (writePlan "walks" "walk" "é")
      [.createDirectories "walks", .startFile "walks/walk.ron.tmp"] tornAgain ∧
    (⟨"walks", tornAgain⟩ : FileStore).get "walk" = .ok (some "[]") ∧
    (⟨"walks", tornAgain⟩ : FileStore).get "other" = .ok (some "()") ∧
    ((⟨"walks", tornAgain⟩ : FileStore).set "walk" "é").2.get "walk" = .ok (some "é") ∧
    (tornWalks.set "walk" "é").2.get "walk" = .ok (some "é") := by
  obtain ⟨⟨completed, hends, hdone⟩, hstops⟩ :=
    interrupted_write_survives settled_tornWalks (by decide : isKey "walk" = true) "é"
  have hbroken := hstops _ _ stops_tornWalks
  have hthrough := hstops _ _ hends
  refine ⟨settled_tornWalks, by decide, stops_tornWalks, ?_, ?_, ?_, ?_⟩
  · exact (hbroken.kept (by simp)).trans rfl
  · exact (hbroken.others "other" (by decide) (by decide)).trans rfl
  · exact (hbroken.next keeps_tornWalks "é").2
  · exact hthrough.replaced (hdone.mp rfl)

end FileStore

end SchemaWalk
