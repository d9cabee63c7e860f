import SchemaWalk.Proofs.Files.Paths

/-! # Files that grow at their end

A file is opened where it is or made where it is not, and bytes are added behind those it has. The
directories stay, and every other place holds what it held. -/

namespace SchemaWalk.Files.FileTree

variable {t t' t'' : FileTree} {place : Route} {path : String} {added : ByteArray}

/-- The bytes at a place, none where there is no file. -/
def held (t : FileTree) (place : Route) : ByteArray :=
  match t.at? place with
  | some (.file content) => content
  | _ => .empty

/-- The bytes of the file that a path leads to. -/
def content (t : FileTree) (path : String) : ByteArray :=
  match t.resolve path with
  | some place => t.held place
  | none => .empty

theorem held_of_at? {bytes : ByteArray} (h : t.at? place = some (.file bytes)) :
    t.held place = bytes := by
  rw [held, h]

/-- One file has grown by some bytes. -/
structure Appended (t t' : FileTree) (place : Route) (added : ByteArray) : Prop where
  same : SameDirectories t t'
  here : t'.at? place = some (.file (t.held place ++ added))
  others : ∀ other, other ≠ place → t'.at? other = t.at? other

theorem Appended.trans {more : ByteArray} (h : Appended t t' place added)
    (h' : Appended t' t'' place more) : Appended t t'' place (added ++ more) where
  same := h.same.trans h'.same
  here := by rw [h'.here, held_of_at? h.here, ByteArray.append_assoc]
  others other hother := (h'.others other hother).trans (h.others other hother)

theorem appended_put (h : t.isDirectory place = false) (added : ByteArray) :
    Appended t (t.put place (.file (t.held place ++ added))) place added where
  same := sameDirectories_put h _
  here := at?_put_file h _
  others _ hother := at?_put_of_ne hother _

theorem appended_ensureFile (h : t.resolve path = some place)
    (hfree : t.isDirectory place = false) :
    (t.ensureFile path).succeeded = true ∧ Appended t (t.ensureFile path).tree place .empty := by
  cases hat : t.at? place with
  | none =>
    have hput := appended_put hfree .empty
    have hheld : t.held place ++ .empty = .empty := by
      rw [held, hat, ByteArray.append_empty]
    have hmade : t.ensureFile path = (t.put place (.file .empty)).done := by
      simp only [ensureFile, h, hat]
    rw [hmade]
    rw [hheld] at hput
    exact ⟨rfl, hput⟩
  | some e =>
    cases e with
    | directory =>
      rw [isDirectory_eq_true_iff.mpr hat] at hfree
      cases hfree
    | file bytes =>
      have hthere : t.ensureFile path = t.done := by
        simp only [ensureFile, h, hat]
      have hheld : t.held place ++ .empty = bytes := by
        rw [held_of_at? hat, ByteArray.append_empty]
      rw [hthere]
      refine ⟨rfl, ⟨fun _ => rfl, rfl, rfl⟩, ?_, fun _ _ => rfl⟩
      rw [hheld]
      exact hat

/-- A file in a directory, both made if they are missing. -/
theorem performAll_opening (t : FileTree) (dir path : String) :
    (t.performAll [.createDirectories dir, .ensureFile path]).succeeded = true ↔
      (t.createDirectories dir).succeeded = true ∧
        ((t.createDirectories dir).tree.ensureFile path).succeeded = true := by
  constructor
  · intro h
    obtain ⟨hdirectory, hrest⟩ := performAll_cons_succeeded h
    exact ⟨hdirectory, (performAll_cons_succeeded hrest).1⟩
  · rintro ⟨hdirectory, hfile⟩
    simp only [performAll, perform, hdirectory, hfile, if_true, done]

theorem appended_append {bytes : ByteArray} (h : t.resolve path = some place)
    (hat : t.at? place = some (.file bytes)) (added : ByteArray) :
    (t.append path added).succeeded = true ∧ Appended t (t.append path added).tree place added := by
  have hput := appended_put (not_isDirectory_of_file hat) added
  rw [held_of_at? hat] at hput
  rw [append_eq h hat]
  exact ⟨rfl, hput⟩

theorem Appended.content_self (h : Appended t t' place added)
    (hpath : t.resolve path = some place) : t'.content path = t.content path ++ added := by
  have hpath' : t'.resolve path = some place := (h.same.resolve_eq path).trans hpath
  simp only [content, hpath, hpath', held_of_at? h.here]

theorem Appended.content_of_ne (h : Appended t t' place added)
    (hpath : t.resolve path ≠ some place) : t'.content path = t.content path := by
  rw [content, content, h.same.resolve_eq]
  cases hother : t.resolve path with
  | none => rfl
  | some other =>
    have hne : other ≠ place := by
      intro heq
      exact hpath (hother.trans (congrArg some heq))
    simp only [held, h.others other hne]

end SchemaWalk.Files.FileTree
