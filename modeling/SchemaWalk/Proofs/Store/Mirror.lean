import SchemaWalk.Proofs.Files.Paths
import SchemaWalk.Proofs.Store.Files

/-! # File stores against memory

Over a directory that starts without files of its own and that nobody else writes to, a file store
answers every call as a memory does that is given the calls with a valid key. The two are kept in
step by an invariant: the data file of a key holds what the memory holds under it, and no temporary
file is left. -/

namespace SchemaWalk

open Files

/-! ## Calls -/

inductive StoreCall where
  | get (key : String)
  | set (key value : String)
  deriving DecidableEq

namespace StoreCall

def key : StoreCall → String
  | get key => key
  | set key _ => key

variable {σ : Type} [KeyValueStore σ]

/-- The answer and the store afterwards. A write that goes through answers nothing. -/
def on : StoreCall → σ → Except StoreError (Option String) × σ
  | get key, s => (KeyValueStore.get s key, s)
  | set key value, s =>
    ((KeyValueStore.set s key value).1.map fun _ => none, (KeyValueStore.set s key value).2)

theorem on_set {s next : σ} {key value : String} {answer : Except StoreError Unit}
    (h : KeyValueStore.set s key value = (answer, next)) :
    (set key value).on s = (answer.map fun _ => none, next) := by
  rw [on, h]

def after (s : σ) (calls : List StoreCall) : σ := calls.foldl (fun s call => (call.on s).2) s

/-- Whether a file store takes the key. -/
def isValid (call : StoreCall) : Bool := FileStore.isKey call.key

end StoreCall

namespace FileStore

/-! ## The two files of a key -/

variable {s : FileStore} {m : Memory} {made : FileTree} {key other : String}

theorem plainName_key (h : isKey key = true) {suffix : String} (hsuffix : '/' ∉ suffix.toList) :
    PlainName (key ++ suffix) := by
  simp only [isKey, Bool.and_eq_true, Bool.not_eq_true', List.all_eq_true] at h
  obtain ⟨hne, hchars⟩ := h
  cases hkey : key.toList with
  | nil => simp_all
  | cons c cs =>
    have hc : isKeyChar c = true := hchars c (by simp [hkey])
    have hlist : (key ++ suffix).toList = c :: (cs ++ suffix.toList) := by simp [hkey]
    -- the first character settles it: it is no dot
    have hfirst : ∀ name : String, name.toList.head? = some '.' → key ++ suffix ≠ name := by
      rintro name hname rfl
      rw [hlist] at hname
      cases hname
      exact absurd hc (by decide)
    constructor
    · intro hempty
      simp [hempty] at hlist
    · intro hslash
      rw [String.toList_append] at hslash
      rcases List.mem_append.mp hslash with hslash | hslash
      · exact absurd (hchars '/' hslash) (by decide)
      · exact hsuffix hslash
    · exact hfirst "." rfl
    · exact hfirst ".." rfl

theorem plainName_data (h : isKey key = true) : PlainName (key ++ ".ron") :=
  plainName_key h (by decide)

theorem plainName_temporary (h : isKey key = true) : PlainName (key ++ ".ron.tmp") :=
  plainName_key h (by decide)

theorem apart_data (h : isKey key = true) (h' : isKey other = true) (hne : key ≠ other)
    (dir : String) : FileTree.Apart (dataFile dir key) (dataFile dir other) :=
  FileTree.apart_join (plainName_data h) (plainName_data h') (by simpa using hne) dir

theorem apart_temporary (h : isKey key = true) (h' : isKey other = true) (hne : key ≠ other)
    (dir : String) : FileTree.Apart (temporaryFile dir key) (temporaryFile dir other) :=
  FileTree.apart_join (plainName_temporary h) (plainName_temporary h') (by simpa using hne) dir

/-- Their names end in different letters. -/
theorem apart_temporary_data (h : isKey key = true) (h' : isKey other = true) (dir : String) :
    FileTree.Apart (temporaryFile dir key) (dataFile dir other) := by
  apply FileTree.apart_join (plainName_temporary h) (plainName_data h')
  intro hnames
  have hlast := congrArg (fun name : String => name.toList.getLast?) hnames
  simp at hlast

/-! ## Room for a write -/

/-- The tree takes the longer of the two names and the longer of the two paths. -/
structure HasRoom (t : FileTree) (dir key : String) : Prop where
  name : t.allows (key ++ ".ron.tmp") = true
  path : t.accepts (temporaryFile dir key) = true

theorem temporaryName_eq (key : String) : key ++ ".ron.tmp" = key ++ ".ron" ++ ".tmp" := by
  rw [String.append_assoc]
  rfl

theorem HasRoom.data {t : FileTree} {dir : String} (h : HasRoom t dir key) :
    t.allows (key ++ ".ron") = true ∧ t.accepts (dataFile dir key) = true := by
  obtain ⟨hname, hpath⟩ := h
  have hne : key ++ ".ron" ≠ "" := by simp
  rw [temporaryName_eq] at hname
  rw [temporaryFile, temporaryName_eq, join_append hne] at hpath
  exact ⟨FileTree.allows_of_append hname, FileTree.accepts_of_append hpath⟩

theorem HasRoom.of_limits {t t' : FileTree} {dir : String} (h : HasRoom t dir key)
    (hname : t'.nameLimit = t.nameLimit) (hpath : t'.pathLimit = t.pathLimit) :
    HasRoom t' dir key := by
  constructor
  · rw [FileTree.allows, hname]
    exact h.name
  · rw [FileTree.accepts, hpath]
    exact h.path

theorem not_isDirectory_of_lookup {t : FileTree} {path : String} {place : Route}
    (hplace : t.resolve path = some place) (h : t.lookup path ≠ some .directory) :
    t.isDirectory place = false := by
  rw [FileTree.lookup, hplace, Option.bind_some] at h
  rw [← Bool.not_eq_true, FileTree.isDirectory_eq_true_iff]
  exact h

/-- The two files of a key have their places once the directory is made, and a write can use them
unless a directory stands there. -/
theorem ready_of_room (hdirectory : s.tree.createDirectories s.dir = ⟨made, true⟩)
    (hkey : isKey key = true) (hroom : HasRoom s.tree s.dir key)
    (htemporary : made.lookup (temporaryFile s.dir key) ≠ some .directory)
    (hdata : made.lookup (dataFile s.dir key) ≠ some .directory) :
    ∃ here there, Ready s key made here there := by
  have hmade : (s.tree.createDirectories s.dir).succeeded = true := by rw [hdirectory]
  have hgrows := FileTree.grows_createDirectories s.tree s.dir
  obtain ⟨inside, hinside, hinto⟩ := FileTree.follow_createDirectories hmade
  rw [hdirectory] at hgrows hinside hinto
  have hroom := hroom.of_limits hgrows.nameLimit hgrows.pathLimit
  have hhere : made.resolve (temporaryFile s.dir key) = some (inside ++ [key ++ ".ron.tmp"]) :=
    (FileTree.resolve_join (plainName_temporary hkey)).mpr
      ⟨hroom.path, inside, hinside, hinto, hroom.name, rfl⟩
  have hthere : made.resolve (dataFile s.dir key) = some (inside ++ [key ++ ".ron"]) :=
    (FileTree.resolve_join (plainName_data hkey)).mpr
      ⟨hroom.data.2, inside, hinside, hinto, hroom.data.1, rfl⟩
  exact ⟨_, _, hdirectory, hhere, not_isDirectory_of_lookup hhere htemporary, hthere,
    not_isDirectory_of_lookup hthere hdata⟩

/-! ## The invariant -/

/-- Once the directory is made it has the files of the memory and no others of the store. Reading
finds as much before. -/
structure Mirrors (s : FileStore) (m : Memory) (made : FileTree) : Prop where
  readable : m.readable = true
  writable : m.writable = true
  directory : s.tree.createDirectories s.dir = ⟨made, true⟩
  seen : ∀ key, isKey key = true →
    s.tree.lookup (dataFile s.dir key) = made.lookup (dataFile s.dir key)
  data : ∀ key, isKey key = true →
    made.lookup (dataFile s.dir key) = (m.entries.get? key).map fun value => .file value.toUTF8
  temporary : ∀ key, isKey key = true → made.lookup (temporaryFile s.dir key) = none

theorem Mirrors.get_eq (h : Mirrors s m made) (hkey : isKey key = true) :
    s.get key = m.get key := by
  have hlookup := (h.seen key hkey).trans (h.data key hkey)
  rw [Memory.get, if_pos h.readable]
  cases hvalue : m.entries.get? key with
  | none =>
    rw [hvalue] at hlookup
    simp [get, hkey, FileTree.readText, hlookup]
  | some value =>
    rw [hvalue, Option.map_some] at hlookup
    simp only [get, hkey, FileTree.readText, hlookup, fromUTF8?_toUTF8, Bool.not_true,
      Bool.false_eq_true, if_false]

theorem Mirrors.grows (h : Mirrors s m made) : s.tree.Grows made := by
  have hgrows := FileTree.grows_createDirectories s.tree s.dir
  rwa [h.directory] at hgrows

theorem Mirrors.ready (h : Mirrors s m made) (hkey : isKey key = true)
    (hroom : HasRoom s.tree s.dir key) : ∃ here there, Ready s key made here there := by
  apply ready_of_room h.directory hkey hroom
  · rw [h.temporary key hkey]
    exact Option.some_ne_none _ |>.symm
  · rw [h.data key hkey]
    cases m.entries.get? key <;> simp

/-! ## What a write changes -/

variable {here there : Route}

theorem at?_written_of_ne {place : Route} (hhere : place ≠ here) (hthere : place ≠ there)
    (content : ByteArray) : (written made here there content).at? place = made.at? place := by
  rw [written, prepared, FileTree.at?_put_of_ne hthere, FileTree.at?_remove_of_ne hhere,
    FileTree.at?_put_of_ne hhere, FileTree.at?_put_of_ne hhere]

theorem lookup_written_of_apart (h : Ready s key made here there) {path : String}
    (htemporary : FileTree.Apart (temporaryFile s.dir key) path)
    (hdata : FileTree.Apart (dataFile s.dir key) path) (content : ByteArray) :
    (written made here there content).lookup path = made.lookup path := by
  have hsame := sameDirectories_written h.temporaryFree h.dataFree content
  rw [FileTree.lookup, FileTree.lookup, hsame.resolve_eq]
  cases hplace : made.resolve path with
  | none => rfl
  | some place =>
    have hhere : place ≠ here := by
      rintro rfl
      exact htemporary.places made place h.temporary hplace
    have hthere : place ≠ there := by
      rintro rfl
      exact hdata.places made place h.data hplace
    exact at?_written_of_ne hhere hthere content

theorem lookup_written_temporary (h : Ready s key made here there) (hkey : isKey key = true)
    (content : ByteArray) :
    (written made here there content).lookup (temporaryFile s.dir key) = none := by
  have hsame := sameDirectories_written h.temporaryFree h.dataFree content
  have hprepared := sameDirectories_prepared h.temporaryFree content
  have hne : here ≠ there := by
    rintro rfl
    exact (apart_temporary_data hkey hkey s.dir).places made here h.temporary h.data
  rw [FileTree.lookup, hsame.resolve_eq, h.temporary, Option.bind_some, written,
    FileTree.at?_put_of_ne hne]
  exact FileTree.at?_remove_self ((hprepared.directories here).trans h.temporaryFree)

theorem Mirrors.set (h : Mirrors s m made) (hkey : isKey key = true)
    (hroom : HasRoom s.tree s.dir key) (value : String) :
    ∃ t, s.set key value = (.ok (), ⟨s.dir, t⟩) ∧ made.SameDirectories t ∧
      Mirrors ⟨s.dir, t⟩ (m.set key value).2 t := by
  obtain ⟨here, there, hready⟩ := h.ready hkey hroom
  have hwrite : m.set key value = (.ok (), { m with entries := m.entries.insert key value }) := by
    rw [Memory.set, if_pos h.writable]
  refine ⟨_, set_eq hkey hready value,
    sameDirectories_written hready.temporaryFree hready.dataFree _, ?_⟩
  rw [hwrite]
  constructor
  · exact h.readable
  · exact h.writable
  · exact (hready.again _).directory
  · intro other _
    rfl
  · intro other hother
    by_cases hsame : other = key
    · subst hsame
      rw [lookup_written hready, Table.get?_insert_self, Option.map_some]
    · have hne : key ≠ other := fun heq => hsame heq.symm
      rw [lookup_written_of_apart hready (apart_temporary_data hkey hother s.dir)
        (apart_data hkey hother hne s.dir), h.data other hother, Table.get?_insert_of_ne _ hsame]
  · intro other hother
    by_cases hsame : other = key
    · subst hsame
      exact lookup_written_temporary hready hkey _
    · have hne : key ≠ other := fun heq => hsame heq.symm
      have hdata := apart_temporary_data hother hkey s.dir
      rw [lookup_written_of_apart hready (apart_temporary hkey hother hne s.dir) hdata.symm]
      exact h.temporary other hother

/-! ## Calls in step -/

variable {call : StoreCall} {calls : List StoreCall}

theorem on_invalid (s : FileStore) (h : call.isValid = false) :
    call.on s = (.error (.invalidKey call.key), s) := by
  cases call with
  | get key =>
    have hget : s.get key = .error (.invalidKey key) := by
      rw [FileStore.get, show isKey key = false from h]
      rfl
    exact congrArg (·, s) hget
  | set key value =>
    have hset : KeyValueStore.set s key value = (.error (.invalidKey key), s) := by
      show s.set key value = _
      rw [FileStore.set, show isKey key = false from h]
      rfl
    exact StoreCall.on_set hset

theorem Mirrors.step (h : Mirrors s m made) (hvalid : call.isValid = true)
    (hroom : ∀ key value, call = .set key value → HasRoom s.tree s.dir key) :
    (call.on s).1 = (call.on m).1 ∧ ∃ t, Mirrors (call.on s).2 (call.on m).2 t ∧
      ∀ key, HasRoom s.tree s.dir key → HasRoom (call.on s).2.tree (call.on s).2.dir key := by
  cases call with
  | get key => exact ⟨h.get_eq hvalid, made, h, fun _ hroom => hroom⟩
  | set key value =>
    obtain ⟨t, hset, hsame, hnext⟩ := h.set hvalid (hroom key value rfl) value
    have hwritten : KeyValueStore.set s key value = (.ok (), ⟨s.dir, t⟩) := hset
    have hwrite : KeyValueStore.set m key value = (.ok (), (m.set key value).2) := by
      show m.set key value = _
      rw [Memory.set, if_pos h.writable]
    rw [StoreCall.on_set hwritten, StoreCall.on_set hwrite]
    refine ⟨rfl, t, hnext, ?_⟩
    intro other hother
    exact hother.of_limits (hsame.nameLimit.trans h.grows.nameLimit)
      (hsame.pathLimit.trans h.grows.pathLimit)

/-- Calls with an invalid key are not passed on to the memory. -/
theorem Mirrors.after (h : Mirrors s m made)
    (hroom : ∀ key value, .set key value ∈ calls → isKey key = true →
      HasRoom s.tree s.dir key) :
    ∃ t, Mirrors (StoreCall.after s calls) (StoreCall.after m (calls.filter (·.isValid))) t ∧
      ∀ key, HasRoom s.tree s.dir key →
        HasRoom (StoreCall.after s calls).tree (StoreCall.after s calls).dir key := by
  induction calls generalizing s m made with
  | nil => exact ⟨made, h, fun _ hroom => hroom⟩
  | cons call calls ih =>
    rw [StoreCall.after, List.foldl_cons, ← StoreCall.after]
    cases hvalid : call.isValid with
    | false =>
      rw [on_invalid s hvalid, List.filter_cons_of_neg (by simp [hvalid])]
      apply ih h
      intro key value hmem
      exact hroom key value (List.mem_cons_of_mem _ hmem)
    | true =>
      have hcall : ∀ key value, call = .set key value → HasRoom s.tree s.dir key := by
        rintro key value rfl
        exact hroom key value List.mem_cons_self hvalid
      obtain ⟨-, t, hnext, hkept⟩ := h.step hvalid hcall
      rw [List.filter_cons_of_pos hvalid]
      obtain ⟨u, hlast, hkept'⟩ := ih hnext fun key value hmem hkey =>
        hkept key (hroom key value (List.mem_cons_of_mem _ hmem) hkey)
      exact ⟨u, hlast, fun key hkey => hkept' key (hkept key hkey)⟩

/-- The directory can be made, nothing is in the place of a file of the store then, and there is
room for what the calls write. -/
structure Serves (s : FileStore) (calls : List StoreCall) : Prop where
  made : (s.tree.createDirectories s.dir).succeeded = true
  vacant : ∀ key, isKey key = true →
    (s.tree.createDirectories s.dir).tree.lookup (dataFile s.dir key) = none ∧
      (s.tree.createDirectories s.dir).tree.lookup (temporaryFile s.dir key) = none
  room : ∀ key value, .set key value ∈ calls → isKey key = true → HasRoom s.tree s.dir key

/-- A directory that is missing or empty. -/
theorem Serves.of_listing (hmade : (s.tree.createDirectories s.dir).succeeded = true)
    (hempty : (s.tree.createDirectories s.dir).tree.listing s.dir = [])
    (hroom : ∀ key value, .set key value ∈ calls → isKey key = true → HasRoom s.tree s.dir key) :
    s.Serves calls where
  made := hmade
  vacant _ hkey := ⟨FileTree.lookup_join_of_made (plainName_data hkey) hmade hempty,
    FileTree.lookup_join_of_made (plainName_temporary hkey) hmade hempty⟩
  room := hroom

theorem Serves.mirrors (h : s.Serves calls) :
    Mirrors s Memory.empty (s.tree.createDirectories s.dir).tree where
  readable := rfl
  writable := rfl
  directory := by rw [← h.made]
  seen key hkey := by
    have hnone := (h.vacant key hkey).1
    rw [hnone, (FileTree.grows_createDirectories s.tree s.dir).lookup_eq_none hnone]
  data key hkey := (h.vacant key hkey).1
  temporary key hkey := (h.vacant key hkey).2

/-- Every call with a valid key is answered as by a memory that was given the valid calls before
it. Every other call is refused and leaves all files as they are. No two keys have a file in
common, and no temporary file is a data file. -/
theorem refines_memory (h : s.Serves calls) :
    (∀ before call rest, calls = before ++ call :: rest → call.isValid = true →
      (call.on (StoreCall.after s before)).1 =
        (call.on (StoreCall.after Memory.empty (before.filter (·.isValid)))).1) ∧
    (∀ before call rest, calls = before ++ call :: rest → call.isValid = false →
      call.on (StoreCall.after s before) =
        (.error (.invalidKey call.key), StoreCall.after s before)) ∧
    ∀ key other, isKey key = true → isKey other = true →
      (key ≠ other → FileTree.Apart (dataFile s.dir key) (dataFile s.dir other)) ∧
      (key ≠ other → FileTree.Apart (temporaryFile s.dir key) (temporaryFile s.dir other)) ∧
      FileTree.Apart (temporaryFile s.dir key) (dataFile s.dir other) := by
  refine ⟨?_, ?_, ?_⟩
  · rintro before call rest rfl hvalid
    have hbefore : ∀ key value, .set key value ∈ before → isKey key = true →
        HasRoom s.tree s.dir key := fun key value hmem =>
      h.room key value (List.mem_append_left _ hmem)
    obtain ⟨made, hmirrors, hkept⟩ := h.mirrors.after hbefore
    have hcall : ∀ key value, call = .set key value →
        HasRoom (StoreCall.after s before).tree (StoreCall.after s before).dir key := by
      rintro key value rfl
      exact hkept key (h.room key value (List.mem_append_right _ List.mem_cons_self) hvalid)
    exact (hmirrors.step hvalid hcall).1
  · intro before call rest _ hvalid
    exact on_invalid _ hvalid
  · intro key other hkey hother
    exact ⟨fun hne => apart_data hkey hother hne s.dir,
      fun hne => apart_temporary hkey hother hne s.dir, apart_temporary_data hkey hother s.dir⟩

/-- A directory yet to be made, beside a file that is none of the store's. -/
def stateWalks : FileStore :=
  ⟨"state/walks", ⟨.ofList [(["state"], .directory), (["state", "walk.ron"], .file .empty)],
    some 255, some 4096⟩⟩

/-- One of the calls would leave the directory if it were let through. -/
def stateCalls : List StoreCall :=
  [.set "walk" "[]", .set "../walk" "()", .set "walk-2" "", .get "walk"]

theorem serves_stateCalls : stateWalks.Serves stateCalls := by
  apply Serves.of_listing
  · decide +kernel
  · decide +kernel
  · intro key value hmem hkey
    simp only [stateCalls, List.mem_cons, StoreCall.set.injEq, reduceCtorEq, List.not_mem_nil,
      or_false] at hmem
    rcases hmem with ⟨rfl, -⟩ | ⟨rfl, -⟩ | ⟨rfl, -⟩
    · exact ⟨by decide +kernel, by decide +kernel⟩
    · exact absurd hkey (by decide)
    · exact ⟨by decide +kernel, by decide +kernel⟩

theorem refines_memory_stateCalls :
    stateWalks.Serves stateCalls ∧
    ((StoreCall.get "walk").on
      (StoreCall.after stateWalks [.set "walk" "[]", .set "../walk" "()", .set "walk-2" ""])).1 =
        .ok (some "[]") ∧
    (StoreCall.set "../walk" "()").on (StoreCall.after stateWalks [.set "walk" "[]"]) =
      (.error (.invalidKey "../walk"), StoreCall.after stateWalks [.set "walk" "[]"]) ∧
    FileTree.Apart (temporaryFile "state/walks" "walk") (dataFile "state/walks" "walk-2") := by
  obtain ⟨hanswered, hrefused, hapart⟩ := refines_memory serves_stateCalls
  refine ⟨serves_stateCalls, ?_, ?_, ?_⟩
  · exact (hanswered _ _ [] rfl rfl).trans rfl
  · exact hrefused _ _ _ rfl (by decide)
  · exact (hapart "walk" "walk-2" (by decide) (by decide)).2.2

end FileStore

end SchemaWalk
