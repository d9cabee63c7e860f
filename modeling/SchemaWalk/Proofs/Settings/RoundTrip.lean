import SchemaWalk.Proofs.Json.Layout
import SchemaWalk.Proofs.Store.Files
import SchemaWalk.Settings.Files

/-! # Settings survive save and load

What is written for settings is one of many texts with their values. Each of these is read alike,
whatever the order of its members and whatever else stands between them, and a field that is not
in it is as it is by default. -/

namespace SchemaWalk.Settings

open Files Json

/-! ## Fields -/

/-- The settings with some fields as they are in others. -/
def taking (s other : Settings) (fields : List Field) : Settings where
  storageOverride := if .storageOverride ∈ fields then other.storageOverride else s.storageOverride
  queryLogOverride :=
    if .queryLogOverride ∈ fields then other.queryLogOverride else s.queryLogOverride
  queryLogEnabled := if .queryLogEnabled ∈ fields then other.queryLogEnabled else s.queryLogEnabled
  walkTimeout := if .walkTimeout ∈ fields then other.walkTimeout else s.walkTimeout
  overviewTimeout := if .overviewTimeout ∈ fields then other.overviewTimeout else s.overviewTimeout

theorem taking_nil (s other : Settings) : s.taking other [] = s := by
  simp [taking]

theorem taking_all (s other : Settings) : s.taking other Field.all = other := by
  simp [taking, Field.all]

theorem taking_cons (s other : Settings) (f : Field) (fields : List Field) :
    (s.taking other [f]).taking other fields = s.taking other (f :: fields) := by
  cases f <;> simp [taking]

theorem path?_pathJson (path : Option String) : path? (pathJson path) = some path := by
  cases path <;> rfl

theorem time?_timeJson (t : UInt64) : time? (timeJson t) = some t := by
  simp [time?, timeJson, toNat?]

theorem ofNat?_toNat (t : UInt64) : ofNat? t.toNat = some (timeJson t) :=
  dif_pos t.toNat_lt

theorem set_get (s other : Settings) (f : Field) :
    s.set (other.get f) f = some (s.taking other [f]) := by
  cases f <;> simp [set, get, taking, path?_pathJson, time?_timeJson, flag?]

theorem setAll_get (s other : Settings) (fields : List Field) :
    s.setAll (fields.map fun f => (f, other.get f)) = some (s.taking other fields) := by
  induction fields generalizing s with
  | nil => rw [taking_nil]; rfl
  | cons f fields ih =>
    rw [List.map_cons, setAll, set_get, Option.bind_some, ih, taking_cons]

theorem ofMembers_get {fields : List Field} (h : fields.Nodup) (s : Settings) :
    ofMembers (fields.map fun f => (f, s.get f)) = some (default.taking s fields) := by
  have hkeys : (fields.map fun f => (f, s.get f)).map (·.1) = fields := by
    rw [List.map_map]
    exact List.map_id fields
  rw [ofMembers, hkeys, if_pos h, setAll_get]

/-! ## Texts -/

/-- A member with a value for a field, or one of another name with any scalar. -/
inductive MemberText : Option (Field × Json) → List Char → Prop where
  | known {f j w g g' text} : Spells f.key.toList w → Gap g → Gap g' → SpelledAs j text →
      MemberText (some (f, j)) (('"' :: (w ++ ['"'])) ++ (g ++ ':' :: (g' ++ text)))
  | other {name w g g' text} : (∀ f : Field, f.key ≠ name) → Spells name.toList w → Gap g →
      Gap g' → ScalarText text →
      MemberText none (('"' :: (w ++ ['"'])) ++ (g ++ ':' :: (g' ++ text)))

/-- An object of these members, laid out in any way. -/
inductive Written (members : List (Option (Field × Json))) : String → Prop where
  | mk {g body g' text} : Gap g → Listed MemberText '\x7d' members body → Gap g' →
      text.toList = g ++ ('\x7b' :: body ++ g') → Written members text

theorem ofKey?_of_ne {name : String} (h : ∀ f : Field, f.key ≠ name) :
    Field.ofKey? name = none := by
  rw [Field.ofKey?, List.find?_eq_none]
  intro f _
  simpa using h f

theorem key_spells {name : String} {w : List Char} (h : Spells name.toList w) {k : Option Field}
    (hk : Field.ofKey? name = k) (rest : List Char) :
    (stringWord ('"' :: (w ++ ['"']) ++ rest)).map (fun (k, rest) => (Field.ofKey? k, rest)) =
      some (k, rest) := by
  have hword := stringWord_spells h rest
  simp only [List.cons_append, List.append_assoc, List.nil_append, hword, Option.map_some, hk]

theorem readsAs_memberText {m : Option (Field × Json)} {text : List Char} (h : MemberText m text) :
    ReadsAs readMember m text := by
  cases h with
  | @known f j w g g' text hw hg hg' hvalue =>
    have hread := (readsAs_spelled hvalue).map fun x => some (f, x)
    have hkey := key_spells hw (Field.ofKey?_key f)
    exact (readsAs_member ⟨_, rfl⟩ hkey hg hg' hread).map Prod.snd
  | @other name w g g' text hname hw hg hg' hvalue =>
    have hread := (readsAs_skip hvalue).map fun _ => (none : Option (Field × Json))
    have hkey := key_spells hw (ofKey?_of_ne hname)
    exact (readsAs_member ⟨_, rfl⟩ hkey hg hg' hread).map Prod.snd

theorem parse?_of_written {members : List (Option (Field × Json))} {text : String}
    (h : Written members text) : parse? text = ofMembers (members.filterMap id) := by
  obtain ⟨hg, hlisted, hg', htext⟩ := h
  have hmembers := hlisted.imp fun _ _ => readsAs_memberText
  have henclosed := readEnclosed_listed (.inr rfl) hmembers
  rw [parse?, alone_eq htext hg hg' ⟨_, _, rfl, by decide⟩]
  · exact Option.join_some
  · rw [List.cons_append, read, henclosed]
    rfl

/-! ## What is written -/

theorem gap_newline (level : Nat) : Gap (newline level).toList := by
  intro c hc
  rw [newline, String.toList_append, toList_pushn] at hc
  rcases List.mem_append.mp hc with hc | hc
  · rw [List.mem_singleton.mp hc]
    rfl
  · rw [List.eq_of_mem_replicate hc]
    rfl

theorem spelledAs_get (s : Settings) (f : Field) (level : Nat) :
    SpelledAs (s.get f) ((s.get f).indented level).toList := by
  have hpath : ∀ path, SpelledAs (pathJson path) ((pathJson path).indented level).toList := by
    intro path
    cases path with
    | none => exact .null
    | some path =>
      obtain ⟨w, hw, hquote⟩ := quote_spells path
      have htext : ((pathJson (some path)).indented level).toList = '"' :: (w ++ ['"']) := hquote
      rw [htext]
      exact .string hw
  have htime : ∀ t, SpelledAs (timeJson t) ((timeJson t).indented level).toList := by
    intro t
    have htext : ((timeJson t).indented level).toList = Nat.toDigits 10 t.toNat :=
      Nat.toList_repr
    rw [htext]
    exact .natural (ofNat?_toNat t)
  cases f with
  | storageOverride => exact hpath s.storageOverride
  | queryLogOverride => exact hpath s.queryLogOverride
  | queryLogEnabled =>
    rw [get]
    cases s.queryLogEnabled with
    | true => exact .yes
    | false => exact .no
  | walkTimeout => exact htime s.walkTimeout
  | overviewTimeout => exact htime s.overviewTimeout

theorem memberText_get (s : Settings) (f : Field) (level : Nat) :
    MemberText (some (f, s.get f))
      ((quote f.key).toList ++ (": ".toList ++ ((s.get f).indented level).toList)) := by
  obtain ⟨w, hw, hquote⟩ := quote_spells f.key
  have hblank : Gap [' '] := by decide
  rw [hquote]
  exact .known hw gap_nil hblank (spelledAs_get s f level)

theorem listed_indentedMembers (s : Settings) (level : Nat) {fields : List Field}
    (hne : fields ≠ []) :
    Listed MemberText '\x7d' (fields.map fun f => some (f, s.get f))
      ((indentedMembers level (fields.map fun f => (f.key, s.get f))).toList ++
        ((newline level).toList ++ ['\x7d'])) := by
  have hgap := gap_newline (level + 1)
  induction fields with
  | nil => exact absurd rfl hne
  | cons f rest ih =>
    have hfirst := memberText_get s f (level + 1)
    cases rest with
    | nil =>
      have hlast : Listed MemberText '\x7d' _ _ := .last hgap hfirst (gap_newline level)
      simpa [indentedMembers] using hlast
    | cons g rest =>
      have hcons := Listed.cons hgap hfirst gap_nil (ih (List.cons_ne_nil _ _))
      simpa [indentedMembers] using hcons

/-- The settings are written in full, in the order of the fields. -/
theorem written_render (s : Settings) :
    Written (Field.all.map fun f => some (f, s.get f)) s.render := by
  have hall : Field.all ≠ [] := by decide
  have hlisted := listed_indentedMembers s 0 hall
  have hrender : s.render = "\x7b" ++ indentedMembers 0 (Field.all.map fun f => (f.key, s.get f)) ++
      newline 0 ++ "\x7d" := rfl
  refine .mk gap_nil hlisted gap_nil ?_
  rw [hrender]
  simp

theorem parse?_render (s : Settings) : parse? s.render = some s := by
  have hmembers : (Field.all.map fun f => some (f, s.get f)).filterMap id =
      Field.all.map fun f => (f, s.get f) := rfl
  rw [parse?_of_written (written_render s), hmembers, ofMembers_get (by decide), taking_all]

/-! ## Files -/

theorem readText_of_put {t : FileTree} {dir path text : String}
    (h : (t.performAll [.createDirectories dir, .startFile path,
      .append path text.toUTF8]).succeeded = true) :
    (t.performAll [.createDirectories dir, .startFile path,
      .append path text.toUTF8]).tree.readText path = .ok text := by
  obtain ⟨hmade, hrest⟩ := FileTree.performAll_cons_succeeded h
  simp only [FileTree.perform] at hmade hrest
  obtain ⟨place, hplace, hfree⟩ :=
    FileTree.startFile_succeeded (FileTree.performAll_cons_succeeded hrest).1
  have hsame := FileTree.sameDirectories_put hfree .empty
  have hstart := FileTree.startFile_eq hplace hfree
  have happend := FileTree.append_eq ((hsame.resolve_eq _).trans hplace)
    (FileTree.at?_put_file hfree .empty) text.toUTF8
  rw [ByteArray.empty_append] at happend
  have htree : (t.performAll [.createDirectories dir, .startFile path,
      .append path text.toUTF8]).tree =
      FileStore.prepared (t.createDirectories dir).tree place text.toUTF8 := by
    simp only [FileTree.performAll, FileTree.perform, hmade, hstart, happend, FileTree.done,
      if_true, FileStore.prepared]
  have hlookup : (FileStore.prepared (t.createDirectories dir).tree place text.toUTF8).lookup path =
      some (.file text.toUTF8) := by
    rw [FileTree.lookup, (FileStore.sameDirectories_prepared hfree _).resolve_eq]
    exact Option.bind_eq_some_iff.mpr ⟨place, hplace, FileStore.at?_prepared hfree _⟩
  rw [htree]
  simp only [FileTree.readText, hlookup, FileStore.fromUTF8?_toUTF8]

theorem load_save {s : Settings} {env : Environment} {t : FileTree}
    (h : (s.save env t).succeeded = true) : load env (s.save env t).tree = some s := by
  have htext : (s.save env t).tree.readText env.settingsFile = .ok s.render := readText_of_put h
  rw [load, htext]
  exact parse?_render s

/-- What is saved is loaded as it was. A text with some of the fields, in any order and layout and
among members of other names, is loaded with these fields as they are in it and with every other
field as it is by default. -/
theorem settings_survive (s : Settings) :
    (parse? s.render = some s ∧
      ∀ env t, (s.save env t).succeeded = true → load env (s.save env t).tree = some s) ∧
    ∀ (given : List Field) (members : List (Option (Field × Json))) (text : String),
      given.Nodup → members.filterMap id = given.map (fun f => (f, s.get f)) →
      Written members text →
      parse? text = some (default.taking s given) ∧
        ∀ env t, t.readText env.settingsFile = .ok text →
          load env t = some (default.taking s given) := by
  refine ⟨⟨parse?_render s, fun env t h => load_save h⟩, ?_⟩
  intro given members text hgiven hmembers htext
  have hparse : parse? text = some (default.taking s given) := by
    rw [parse?_of_written htext, hmembers, ofMembers_get hgiven]
  refine ⟨hparse, ?_⟩
  intro env t hread
  rw [load, hread]
  exact hparse

/-- Saved into an empty tree. Then two of the fields, in another order, one of them with an escape,
and a member between them. -/
theorem settings_survive_two :
    let s : Settings := ⟨some "/walks", some "/é", true, 10, 20⟩
    let env : Environment := ⟨some "/config", none, none, none⟩
    let text := " \x7b\"walk_timeout_ms\": 10, \"level\": -1.5e3,\n" ++
      "\"query_log_override\":\"/\\u00E9\"\x7d"
    let members := [some (.walkTimeout, timeJson 10), none, some (.queryLogOverride, .string "/é")]
    ((s.save env .empty).succeeded = true ∧ load env (s.save env .empty).tree = some s) ∧
      Written members text ∧ parse? text = some ⟨none, some "/é", false, 10, 3000⟩ := by
  intro s env text members
  have hsaved : (s.save env .empty).succeeded = true := by decide +kernel
  have hblank : Gap [' '] := by decide
  have hbreak : Gap ['\n'] := by decide
  have hnumber : NumberText "-1.5e3".toList := by
    have hdigits : ∀ c, c.isDigit = true → IsDigits [c] := by
      intro c hc
      exact ⟨List.cons_ne_nil _ _, by simpa using hc⟩
    exact .mk (.inr rfl) ⟨hdigits '1' rfl, by decide⟩ (.point (hdigits '5' rfl))
      (.power (.inl rfl) (.inl rfl) (hdigits '3' rfl))
  have hspells : Spells "/é".toList ['/', '\\', 'u', '0', '0', 'E', '9'] := by
    have hpath : "/é".toList = ['/', 'é'] := by decide +kernel
    have hunit : hexUnit '0' '0' 'E' '9' = some 0xe9 := by decide
    rw [hpath]
    exact .raw (by decide) (by decide) (by decide) (.unit hunit (by decide) .nil)
  have hfirst : MemberText (some (.walkTimeout, timeJson 10)) _ :=
    .known (spells_escape _) gap_nil hblank (.natural (ofNat?_toNat 10))
  have hother : MemberText none _ :=
    .other (by intro f; cases f <;> decide) (spells_escape "level".toList) gap_nil hblank
      (.number hnumber)
  have hlast : MemberText (some (.queryLogOverride, .string "/é")) _ :=
    .known (spells_escape _) gap_nil gap_nil (.string hspells)
  have hwritten : Written members text :=
    .mk hblank
      (.cons gap_nil hfirst gap_nil (.cons hblank hother gap_nil (.last hbreak hlast gap_nil)))
      gap_nil (by decide +kernel)
  obtain ⟨⟨-, hsurvives⟩, hreads⟩ := settings_survive s
  have hparse := (hreads [.walkTimeout, .queryLogOverride] members text (by decide) rfl hwritten).1
  exact ⟨⟨hsaved, hsurvives env .empty hsaved⟩, hwritten, hparse⟩

example : parse? "\x7b\x7d" = some default := by decide +kernel

end SchemaWalk.Settings
