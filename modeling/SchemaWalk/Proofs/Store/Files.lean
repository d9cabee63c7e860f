import SchemaWalk.Proofs.Files.Directories
import SchemaWalk.Store.Files

/-! # What a file store keeps

A write that goes through leaves the value where it is read, and it leaves the way open for every
write after it. -/

namespace SchemaWalk

open Files

namespace FileStore

/-- What a write finds: the directory of the store, made if it was missing, and in it the places of
the temporary file and of the data file, neither of them a directory. -/
structure Ready (s : FileStore) (key : String) (made : FileTree) (here there : Route) : Prop where
  directory : s.tree.createDirectories s.dir = ⟨made, true⟩
  temporary : made.resolve (temporaryFile s.dir key) = some here
  temporaryFree : made.isDirectory here = false
  data : made.resolve (dataFile s.dir key) = some there
  dataFree : made.isDirectory there = false

def prepared (made : FileTree) (here : Route) (content : ByteArray) : FileTree :=
  (made.put here (.file .empty)).put here (.file content)

/-- What a write leaves. -/
def written (made : FileTree) (here there : Route) (content : ByteArray) : FileTree :=
  ((prepared made here content).remove here).put there (.file content)

variable {s : FileStore} {key : String} {made : FileTree} {here there : Route}

theorem sameDirectories_prepared (h : made.isDirectory here = false) (content : ByteArray) :
    made.SameDirectories (prepared made here content) := by
  have hfirst := FileTree.sameDirectories_put h .empty
  exact hfirst.trans (FileTree.sameDirectories_put ((hfirst.directories here).trans h) content)

theorem at?_prepared (h : made.isDirectory here = false) (content : ByteArray) :
    (prepared made here content).at? here = some (.file content) := by
  have hfirst := FileTree.sameDirectories_put h .empty
  exact FileTree.at?_put_file ((hfirst.directories here).trans h) content

theorem sameDirectories_removed (h : made.isDirectory here = false) (content : ByteArray) :
    made.SameDirectories ((prepared made here content).remove here) := by
  have hprepared := sameDirectories_prepared h content
  exact hprepared.trans (FileTree.sameDirectories_remove ((hprepared.directories here).trans h))

theorem sameDirectories_written (h : made.isDirectory here = false)
    (hdata : made.isDirectory there = false) (content : ByteArray) :
    made.SameDirectories (written made here there content) := by
  have hremoved := sameDirectories_removed h content
  exact hremoved.trans (FileTree.sameDirectories_put ((hremoved.directories there).trans hdata) _)

/-- The temporary file is written first, with all of the content. -/
theorem performAll_prepared {dir : String} (h : made.resolve (temporaryFile dir key) = some here)
    (hfree : made.isDirectory here = false) (value : String) (rest : List FileAction) :
    made.performAll (.startFile (temporaryFile dir key) ::
        .append (temporaryFile dir key) value.toUTF8 :: .flush (temporaryFile dir key) :: rest) =
      (prepared made here value.toUTF8).performAll rest := by
  have hfirst := FileTree.sameDirectories_put hfree .empty
  have hstart := FileTree.startFile_eq h hfree
  have happend := FileTree.append_eq ((hfirst.resolve_eq _).trans h)
    (FileTree.at?_put_file hfree .empty) value.toUTF8
  rw [ByteArray.empty_append] at happend
  simp only [FileTree.performAll, FileTree.perform, hstart, happend, FileTree.done, if_true,
    prepared]

theorem performAll_writePlan (h : Ready s key made here there) (value : String) :
    s.tree.performAll (writePlan s.dir key value) =
      ⟨written made here there value.toUTF8, true⟩ := by
  have hsame := sameDirectories_prepared h.temporaryFree value.toUTF8
  have hrename := FileTree.rename_eq ((hsame.resolve_eq _).trans h.temporary)
    ((hsame.resolve_eq _).trans h.data) (at?_prepared h.temporaryFree value.toUTF8)
    ((hsame.directories _).trans h.dataFree)
  rw [writePlan, FileTree.performAll, FileTree.perform, h.directory, if_pos rfl,
    performAll_prepared h.temporary h.temporaryFree, FileTree.performAll, FileTree.perform, hrename]
  rfl

/-- No step of a write is left out, so what each needs was there. -/
theorem ready_of_succeeded {value : String}
    (h : (s.tree.performAll (writePlan s.dir key value)).succeeded = true) :
    ∃ made here there, Ready s key made here there := by
  obtain ⟨hdirectory, h⟩ := FileTree.performAll_cons_succeeded h
  cases hmade : s.tree.createDirectories s.dir with
  | mk made succeeded =>
    simp only [FileTree.perform, hmade] at hdirectory h
    obtain rfl : succeeded = true := hdirectory
    obtain ⟨here, hhere, hfree⟩ :=
      FileTree.startFile_succeeded (FileTree.performAll_cons_succeeded h).1
    rw [performAll_prepared hhere hfree] at h
    obtain ⟨there, hthere, hdata⟩ :=
      FileTree.rename_succeeded (FileTree.performAll_cons_succeeded h).1
    have hsame := sameDirectories_prepared hfree value.toUTF8
    exact ⟨made, here, there, hmade, hhere, hfree, (hsame.resolve_eq _).symm.trans hthere,
      (hsame.directories _).symm.trans hdata⟩

/-- Files do not matter for the way to the two places, only directories do. -/
theorem Ready.of_same (h : Ready s key made here there) {t made' : FileTree}
    (hdirectory : t.createDirectories s.dir = ⟨made', true⟩) (hsame : made.SameDirectories made') :
    Ready ⟨s.dir, t⟩ key made' here there where
  directory := hdirectory
  temporary := (hsame.resolve_eq _).trans h.temporary
  temporaryFree := (hsame.directories _).trans h.temporaryFree
  data := (hsame.resolve_eq _).trans h.data
  dataFree := (hsame.directories _).trans h.dataFree

theorem Ready.of_sameDirectories (h : Ready s key made here there) {t : FileTree}
    (hsame : made.SameDirectories t) : Ready ⟨s.dir, t⟩ key t here there := by
  refine h.of_same ?_ hsame
  apply FileTree.createDirectories_again
  · rw [h.directory]
  · rwa [h.directory]

theorem Ready.again (h : Ready s key made here there) (content : ByteArray) :
    Ready ⟨s.dir, written made here there content⟩ key (written made here there content) here
      there :=
  h.of_sameDirectories (sameDirectories_written h.temporaryFree h.dataFree content)

theorem fromUTF8?_toUTF8 (text : String) : String.fromUTF8? text.toUTF8 = some text := by
  simp only [String.fromUTF8?, String.toUTF8_eq_toByteArray, dif_pos text.isValidUTF8]
  rfl

theorem lookup_written (h : Ready s key made here there) (content : ByteArray) :
    (written made here there content).lookup (dataFile s.dir key) = some (.file content) := by
  have hsame := sameDirectories_written h.temporaryFree h.dataFree content
  have hremoved := sameDirectories_removed h.temporaryFree content
  rw [FileTree.lookup, hsame.resolve_eq, h.data]
  exact FileTree.at?_put_file ((hremoved.directories there).trans h.dataFree) _

theorem readText_written (h : Ready s key made here there) (value : String) :
    (written made here there value.toUTF8).readText (dataFile s.dir key) = .ok value := by
  simp only [FileTree.readText, lookup_written h, fromUTF8?_toUTF8]

/-! ## Writes that go through -/

theorem set_eq (hkey : isKey key = true) (h : Ready s key made here there) (value : String) :
    s.set key value = (.ok (), ⟨s.dir, written made here there value.toUTF8⟩) := by
  simp [set, hkey, performAll_writePlan h]

theorem ready_of_set {value : String} (h : (s.set key value).1 = .ok ()) :
    isKey key = true ∧ ∃ made here there, Ready s key made here there := by
  unfold set at h
  cases hkey : isKey key with
  | false =>
    rw [hkey] at h
    cases h
  | true =>
    rw [hkey] at h
    have hsucceeded : (s.tree.performAll (writePlan s.dir key value)).succeeded = true := by
      cases hattempt : (s.tree.performAll (writePlan s.dir key value)).succeeded with
      | true => rfl
      | false => simp [hattempt] at h
    exact ⟨rfl, ready_of_succeeded hsucceeded⟩

theorem dir_set (s : FileStore) (key value : String) :
    ⟨s.dir, (s.set key value).2.tree⟩ = (s.set key value).2 := by
  unfold set
  split <;> rfl

/-- What was written is what is read. -/
theorem get_set {value : String} (h : (s.set key value).1 = .ok ()) :
    (s.set key value).2.get key = .ok (some value) := by
  obtain ⟨hkey, made, here, there, hready⟩ := ready_of_set h
  rw [set_eq hkey hready]
  simp only [get, hkey, readText_written hready, Bool.not_true, Bool.false_eq_true, if_false]

/-- Once a write has gone through, every later one does. -/
theorem set_again {value : String} (h : (s.set key value).1 = .ok ()) (next : String) :
    ((s.set key value).2.set key next).1 = .ok () := by
  obtain ⟨hkey, made, here, there, hready⟩ := ready_of_set h
  rw [set_eq hkey hready, set_eq hkey (hready.again _)]

end FileStore

end SchemaWalk
