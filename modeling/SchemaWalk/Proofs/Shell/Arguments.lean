import SchemaWalk.Error
import SchemaWalk.Shell.Argument

/-! # Arguments as they are written

The flags, options and values of a command, and how they are written on its line. A line is read
just when it is written so and the command can have what stands there. -/

namespace SchemaWalk.Shell

/-! ## Pieces -/

inductive Piece where
  | flag (name : String)
  | option (name value : String)
  | value (text : String)
  deriving DecidableEq

/-- A hyphen in front makes an option of a text, unless it stands alone. -/
def IsWord (text : String) : Prop := text = "-" ∨ text.toList.head? ≠ some '-'

/-- How pieces are written. Behind two hyphens alone there are values only. -/
inductive Spelled : List Piece → List String → Prop where
  | nil : Spelled [] []
  | flag (name : String) {ps : List Piece} {args : List String} :
      Spelled ps args → Spelled (.flag name :: ps) (("--" ++ name) :: args)
  | attached (name value : String) {ps : List Piece} {args : List String} :
      Spelled ps args → Spelled (.option name value :: ps) (("--" ++ name ++ "=" ++ value) :: args)
  | separate (name : String) {value : String} {ps : List Piece} {args : List String} :
      IsWord value → Spelled ps args →
      Spelled (.option name value :: ps) (("--" ++ name) :: value :: args)
  | value {text : String} {ps : List Piece} {args : List String} :
      IsWord text → Spelled ps args → Spelled (.value text :: ps) (text :: args)
  | values (texts : List String) : Spelled (texts.map .value) ("--" :: texts)

/-! ## Single arguments -/

theorem splitFirst_of_append {c : Char} {raw name value : String}
    (h : raw.toList = name.toList ++ c :: value.toList) (hc : c ∉ name.toList) :
    splitFirst c raw = some (name, value) := by
  have htake : raw.toList.takeWhile (· ≠ c) = name.toList := by
    have hname : ∀ d ∈ name.toList, decide (d ≠ c) = true := by
      intro d hd
      rw [decide_eq_true_eq]
      rintro rfl
      exact hc hd
    rw [h, List.takeWhile_append_of_pos hname]
    simp
  unfold splitFirst
  simp only [htake]
  rw [h, List.drop_left]
  simp

theorem append_of_splitFirst {c : Char} {raw name value : String}
    (h : splitFirst c raw = some (name, value)) :
    raw.toList = name.toList ++ c :: value.toList ∧ c ∉ name.toList := by
  unfold splitFirst at h
  have hraw : raw.toList.takeWhile (· ≠ c) ++ raw.toList.dropWhile (· ≠ c) = raw.toList :=
    List.takeWhile_append_dropWhile
  have hbefore : ∀ d ∈ raw.toList.takeWhile (· ≠ c), d ≠ c := by
    intro d hd
    simpa using List.all_eq_true.mp List.all_takeWhile d hd
  have hhead := List.head?_dropWhile_not (· ≠ c) raw.toList
  generalize raw.toList.takeWhile (· ≠ c) = before at h hraw hbefore
  generalize raw.toList.dropWhile (· ≠ c) = behind at hraw hhead
  rw [← hraw] at h ⊢
  simp only [List.drop_left] at h
  cases behind with
  | nil => cases h
  | cons d behind =>
    obtain rfl : d = c := by simpa using hhead
    cases h
    refine ⟨by simp, ?_⟩
    intro hmem
    rw [String.toList_ofList] at hmem
    exact hbefore d hmem rfl

theorem splitFirst_eq_none {c : Char} {text : String} (h : c ∉ text.toList) :
    splitFirst c text = none := by
  cases hsplit : splitFirst c text with
  | none => rfl
  | some parts =>
    have hparts := (append_of_splitFirst hsplit).1
    rw [hparts] at h
    simp at h

theorem of_word {text : String} (h : IsWord text) : Argument.of text = .word text := by
  rcases h with rfl | h
  · rfl
  · unfold Argument.of
    split
    · next heq => simp [heq] at h
    · next heq => simp [heq] at h
    · next heq => simp [heq] at h
    · rfl

theorem of_bare {name : String} (hname : name ≠ "") (hmark : '=' ∉ name.toList) :
    Argument.of ("--" ++ name) = .long name none := by
  have htext : ("--" ++ name).toList = '-' :: '-' :: name.toList := by simp
  have hne : name.toList ≠ [] := by simpa using hname
  cases hlist : name.toList with
  | nil => exact absurd hlist hne
  | cons c cs =>
    have hof : String.ofList (c :: cs) = name := by rw [← hlist, String.ofList_toList]
    unfold Argument.of
    rw [htext, hlist]
    simp only [hof, splitFirst_eq_none hmark]

theorem of_attached {name : String} (hname : name ≠ "") (hmark : '=' ∉ name.toList)
    (value : String) : Argument.of ("--" ++ name ++ "=" ++ value) = .long name (some value) := by
  have htext : ("--" ++ name ++ "=" ++ value).toList =
      '-' :: '-' :: (name ++ "=" ++ value).toList := by simp
  have hne : name.toList ≠ [] := by simpa using hname
  have hsplit : splitFirst '=' (name ++ "=" ++ value) = some (name, value) :=
    splitFirst_of_append (by simp) hmark
  cases hlist : (name ++ "=" ++ value).toList with
  | nil => simp at hlist
  | cons c cs =>
    have hof : String.ofList (c :: cs) = name ++ "=" ++ value := by
      rw [← hlist, String.ofList_toList]
    unfold Argument.of
    rw [htext, hlist]
    simp only [hof, hsplit]

/-- What an argument can be, and how it is written then. -/
theorem of_cases (text : String) :
    (text = "--" ∧ Argument.of text = .separator) ∨
    (∃ name value, text = "--" ++ name ++ "=" ++ value ∧
      Argument.of text = .long name (some value)) ∨
    (∃ name, text = "--" ++ name ∧ Argument.of text = .long name none) ∨
    (∃ letters, Argument.of text = .short letters) ∨
    (IsWord text ∧ Argument.of text = .word text) := by
  have hself : String.ofList text.toList = text := String.ofList_toList
  unfold Argument.of
  split
  · next hlist => exact .inl ⟨by rw [← hself, hlist], rfl⟩
  · next rest _ hlist =>
    split
    · next name value hsplit =>
      refine .inr (.inl ⟨name, value, ?_, rfl⟩)
      have hrest := (append_of_splitFirst hsplit).1
      rw [String.toList_ofList] at hrest
      rw [← String.toList_inj, hlist, hrest]
      simp
    · refine .inr (.inr (.inl ⟨String.ofList rest, ?_, rfl⟩))
      rw [← String.toList_inj, hlist]
      simp
  · next letter rest _ _ _ => exact .inr (.inr (.inr (.inl ⟨letter :: rest, rfl⟩)))
  · next hbare hpair hshort =>
    refine .inr (.inr (.inr (.inr ⟨?_, rfl⟩)))
    cases hlist : text.toList with
    | nil => exact .inr (by simp [hlist])
    | cons c cs =>
      by_cases hc : c = '-'
      · subst hc
        cases cs with
        | nil => exact .inl (by rw [← hself, hlist])
        | cons d ds => exact absurd hlist (hshort d ds)
      · exact .inr (by simp [hlist, hc])

theorem of_eq_word_iff {text word : String} :
    Argument.of text = .word word ↔ IsWord text ∧ word = text := by
  constructor
  · intro h
    obtain ⟨-, hof⟩ | ⟨_, _, -, hof⟩ | ⟨_, -, hof⟩ | ⟨_, hof⟩ | ⟨hword, hof⟩ := of_cases text
    · cases hof.symm.trans h
    · cases hof.symm.trans h
    · cases hof.symm.trans h
    · cases hof.symm.trans h
    · cases hof.symm.trans h
      exact ⟨hword, rfl⟩
  · rintro ⟨hword, rfl⟩
    exact of_word hword

/-! ## The options of a command -/

/-- No two options share a name, and every name can stand in front of an equals sign. -/
structure Grammar.Proper (g : Grammar) : Prop where
  names : (g.options.map (·.1)).Nodup
  nonempty : ∀ o ∈ g.options, o.1 ≠ ""
  unmarked : ∀ o ∈ g.options, '=' ∉ o.1.toList

theorem lookup_eq_some_iff {β : Type} {name : String} {x : β} {l : List (String × β)}
    (h : (l.map (·.1)).Nodup) : l.lookup name = some x ↔ (name, x) ∈ l := by
  induction l with
  | nil => simp
  | cons e l ih =>
    obtain ⟨key, y⟩ := e
    rw [List.map_cons, List.nodup_cons] at h
    by_cases heq : name = key
    · subst heq
      have hnone : (name, x) ∉ l := fun hmem => h.1 (List.mem_map.mpr ⟨_, hmem, rfl⟩)
      simp [hnone, eq_comm]
    · have hbeq : (name == key) = false := by simpa using heq
      rw [List.lookup_cons, hbeq]
      simp [heq, ih h.2]

theorem Grammar.kind_eq_some_iff {g : Grammar} (hg : g.Proper) {name : String} {k : OptionKind} :
    g.kind name = some k ↔ (name, k) ∈ g.options :=
  lookup_eq_some_iff hg.names

/-! ## What is given -/

/-- What pieces add to an empty line. -/
def given (ps : List Piece) : Given where
  options := ps.filterMap fun
    | .flag name => some (name, "")
    | .option name value => some (name, value)
    | .value _ => none
  values := ps.filterMap fun
    | .value text => some text
    | _ => none

/-- The values of an option in the order in which they are given. -/
def valuesOf (name : String) (ps : List Piece) : List String :=
  ps.filterMap fun
    | .option other value => if other = name then some value else none
    | _ => none

/-- How often an option is given, with a value or without. -/
def timesOf (name : String) (ps : List Piece) : Nat :=
  ps.count (.flag name) + (valuesOf name ps).length

def Piece.Fits (g : Grammar) : Piece → Prop
  | .flag name => g.kind name = some .flag
  | .option name _ => ∃ k, g.kind name = some k ∧ k ≠ .flag
  | .value text => g.takes text = true

/-- A command can have these pieces. -/
structure Admits (g : Grammar) (ps : List Piece) : Prop where
  fits : ∀ p ∈ ps, p.Fits g
  once : ∀ name, g.kind name ≠ some .repeated → timesOf name ps ≤ 1
  room : (given ps).values.length ≤ g.valueCount

theorem timesOf_append (name : String) (ps qs : List Piece) :
    timesOf name (ps ++ qs) = timesOf name ps + timesOf name qs := by
  simp only [timesOf, valuesOf, List.count_append, List.filterMap_append, List.length_append]
  omega

theorem given_append (ps qs : List Piece) :
    given (ps ++ qs) =
      ⟨(given ps).options ++ (given qs).options, (given ps).values ++ (given qs).values⟩ := by
  simp only [given, List.filterMap_append]

theorem has_given (name : String) (ps : List Piece) :
    (given ps).has name = true ↔ 0 < timesOf name ps := by
  induction ps with
  | nil => simp [given, Given.has, timesOf, valuesOf]
  | cons p ps ih =>
    have happend : given (p :: ps) = _ := given_append [p] ps
    have htimes : timesOf name (p :: ps) = _ := timesOf_append name [p] ps
    have hone : (given [p]).has name = true ↔ 0 < timesOf name [p] := by
      cases p with
      | flag other =>
        by_cases h : other = name <;> simp [given, Given.has, timesOf, valuesOf, h]
      | option other value =>
        by_cases h : other = name <;> simp [given, Given.has, timesOf, valuesOf, h]
      | value text => simp [given, Given.has, timesOf, valuesOf]
    have hor : (given (p :: ps)).has name = ((given [p]).has name || (given ps).has name) := by
      rw [happend, Given.has, List.any_append]
      rfl
    rw [hor, Bool.or_eq_true, hone, ih, htimes]
    omega

theorem admits_nil (g : Grammar) : Admits g [] where
  fits := by simp
  once _ _ := by simp [timesOf, valuesOf]
  room := by simp [given]

theorem Admits.front {g : Grammar} {ps qs : List Piece} (h : Admits g (ps ++ qs)) :
    Admits g ps where
  fits p hp := h.fits p (List.mem_append_left qs hp)
  once name hname := by
    have htimes := h.once name hname
    rw [timesOf_append] at htimes
    omega
  room := by
    have hroom := h.room
    rw [given_append, List.length_append] at hroom
    omega

/-! ## Reading one piece -/

variable {g : Grammar} {before : List Piece} {x : Given}

/-- A flag, or an option with a value, and how it is kept. -/
inductive Piece.Keeps : Piece → String → String → Prop where
  | flag (name : String) : Keeps (.flag name) name ""
  | option (name value : String) : Keeps (.option name value) name value

theorem Piece.Keeps.given_eq {p : Piece} {name value : String} (h : p.Keeps name value) :
    given [p] = ⟨[(name, value)], []⟩ := by
  cases h <;> rfl

theorem Piece.Keeps.timesOf_eq {p : Piece} {name value : String} (h : p.Keeps name value)
    (other : String) : timesOf other [p] = if name = other then 1 else 0 := by
  cases h with
  | flag => by_cases heq : name = other <;> simp [timesOf, valuesOf, heq]
  | option => by_cases heq : name = other <;> simp [timesOf, valuesOf, heq]

/-- Only an option that collects may come again. -/
theorem admits_snoc_iff (h : Admits g before) {p : Piece} {name value : String} {k : OptionKind}
    (hp : p.Keeps name value) (hfits : p.Fits g) (hkind : g.kind name = some k) :
    Admits g (before ++ [p]) ↔ (k = .repeated ∨ timesOf name before = 0) := by
  constructor
  · intro hadmits
    by_cases hk : k = .repeated
    · exact .inl hk
    · have hname : g.kind name ≠ some .repeated := by simpa [hkind] using hk
      have htimes := hadmits.once name hname
      rw [timesOf_append, hp.timesOf_eq, if_pos rfl] at htimes
      exact .inr (by omega)
  · intro hfree
    constructor
    · intro q hq
      rcases List.mem_append.mp hq with hq | hq
      · exact h.fits q hq
      · rw [List.mem_singleton.mp hq]
        exact hfits
    · intro other hother
      have htimes := h.once other hother
      rw [timesOf_append, hp.timesOf_eq]
      by_cases heq : name = other
      · subst heq
        have hk : k ≠ .repeated := by simpa [hkind] using hother
        have hzero := hfree.resolve_left hk
        rw [if_pos rfl]
        omega
      · rw [if_neg heq]
        exact htimes
    · have hroom := h.room
      rw [given_append, hp.given_eq, List.append_nil]
      exact hroom

theorem addOption_eq_ok_iff (h : Admits g before) {p : Piece} {name value : String} {k : OptionKind}
    (hp : p.Keeps name value) (hfits : p.Fits g) (hkind : g.kind name = some k) :
    (given before).addOption k name value = .ok x ↔
      Admits g (before ++ [p]) ∧ x = given (before ++ [p]) := by
  have hgiven : given (before ++ [p]) =
      ⟨(given before).options ++ [(name, value)], (given before).values⟩ := by
    rw [given_append, hp.given_eq, List.append_nil]
  rw [admits_snoc_iff h hp hfits hkind, hgiven, Given.addOption]
  have hhas := has_given name before
  by_cases hagain : k ≠ .repeated ∧ (given before).has name = true
  · rw [if_pos hagain]
    have hpos := hhas.mp hagain.2
    simp only [reduceCtorEq, hagain.1, false_or, false_iff, not_and]
    omega
  · rw [if_neg hagain]
    have hfree : k = .repeated ∨ timesOf name before = 0 := by
      by_cases hk : k = .repeated
      · exact .inl hk
      · have hno : ¬ (given before).has name = true := fun hyes => hagain ⟨hk, hyes⟩
        rw [hhas] at hno
        exact .inr (by omega)
    rw [and_iff_right hfree, Except.ok.injEq]
    exact eq_comm

theorem addValue_eq_ok_iff (h : Admits g before) {text : String} :
    (given before).addValue g text = .ok x ↔
      Admits g (before ++ [.value text]) ∧ x = given (before ++ [.value text]) := by
  have hgiven : given (before ++ [.value text]) =
      ⟨(given before).options, (given before).values ++ [text]⟩ := by
    rw [given_append]
    simp [given]
  have hadmits : Admits g (before ++ [.value text]) ↔
      (given before).values.length < g.valueCount ∧ g.takes text = true := by
    constructor
    · intro hadmits
      have hroom := hadmits.room
      rw [hgiven, List.length_append, List.length_singleton] at hroom
      exact ⟨by omega, hadmits.fits (.value text) (by simp)⟩
    · rintro ⟨hroom, htakes⟩
      constructor
      · intro q hq
        rcases List.mem_append.mp hq with hq | hq
        · exact h.fits q hq
        · rw [List.mem_singleton.mp hq]
          exact htakes
      · intro other hother
        have htimes := h.once other hother
        rw [timesOf_append]
        simpa [timesOf, valuesOf] using htimes
      · rw [hgiven, List.length_append, List.length_singleton]
        omega
  rw [hadmits, hgiven, Given.addValue]
  by_cases hroom : (given before).values.length < g.valueCount ∧ g.takes text = true
  · rw [if_pos hroom]
    simp [hroom, eq_comm]
  · rw [if_neg hroom]
    simp [hroom]

theorem addValues_eq_ok_iff (h : Admits g before) {texts : List String} :
    texts.foldlM (fun x text => x.addValue g text) (given before) = .ok x ↔
      Admits g (before ++ texts.map .value) ∧ x = given (before ++ texts.map .value) := by
  induction texts generalizing before with
  | nil =>
    rw [List.map_nil, List.append_nil]
    change Except.ok (given before) = .ok x ↔ _
    simp [h, eq_comm]
  | cons text texts ih =>
    rw [List.foldlM_cons, bind_eq_ok_iff, List.map_cons, ← List.singleton_append,
      ← List.append_assoc]
    constructor
    · rintro ⟨next, hnext, hrest⟩
      obtain ⟨hadmits, rfl⟩ := (addValue_eq_ok_iff h).mp hnext
      exact (ih hadmits).mp hrest
    · rintro ⟨hadmits, rfl⟩
      have hone := hadmits.front
      exact ⟨_, (addValue_eq_ok_iff h).mpr ⟨hone, rfl⟩, (ih hone).mpr ⟨hadmits, rfl⟩⟩

/-! ## Reading a line -/

variable {y : Given} {text name : String} {args rest : List String} {ps : List Piece}

theorem Piece.Fits.proper {p : Piece} {value : String} (hg : g.Proper) (h : p.Fits g)
    (hp : p.Keeps name value) : name ≠ "" ∧ '=' ∉ name.toList := by
  have hmem : ∃ k, (name, k) ∈ g.options := by
    cases hp with
    | flag => exact ⟨_, (Grammar.kind_eq_some_iff hg).mp h⟩
    | option =>
      obtain ⟨k, hk, -⟩ := h
      exact ⟨k, (Grammar.kind_eq_some_iff hg).mp hk⟩
  obtain ⟨k, hk⟩ := hmem
  exact ⟨hg.nonempty _ hk, hg.unmarked _ hk⟩

theorem takeOption_flag (h : g.kind name = some .flag) :
    takeOption g y (.long name none) = (y.addOption .flag name "").map fun z => (z, none) := by
  simp only [takeOption, h]

theorem takeOption_attached {k : OptionKind} (h : g.kind name = some k) (hk : k ≠ .flag)
    (value : String) : takeOption g y (.long name (some value)) =
      (y.addOption k name value).map fun z => (z, none) := by
  cases k with
  | flag => exact absurd rfl hk
  | single => simp only [takeOption, h]
  | repeated => simp only [takeOption, h]

theorem takeOption_waiting {k : OptionKind} (h : g.kind name = some k) (hk : k ≠ .flag) :
    takeOption g y (.long name none) = .ok (y, some name) := by
  cases k with
  | flag => exact absurd rfl hk
  | single => simp only [takeOption, h]
  | repeated => simp only [takeOption, h]

theorem scan_word (h : IsWord text) :
    scan g y none (text :: rest) = y.addValue g text >>= fun z => scan g z none rest := by
  rw [scan, of_word h]
  dsimp only
  cases y.addValue g text <;> rfl

theorem scan_long {attached : Option String} (h : Argument.of text = .long name attached) :
    scan g y none (text :: rest) =
      takeOption g y (.long name attached) >>= fun z => scan g z.1 z.2 rest := by
  rw [scan, h]
  dsimp only
  cases takeOption g y (.long name attached) <;> rfl

theorem scan_waiting {k : OptionKind} {value : String} (h : IsWord value)
    (hkind : g.kind name = some k) :
    scan g y (some name) (value :: rest) =
      y.addOption k name value >>= fun z => scan g z none rest := by
  rw [scan, of_word h, hkind]
  dsimp only
  cases y.addOption k name value <;> rfl

/-- What is written is read. -/
theorem scan_of_spelled (hg : g.Proper) (h : Spelled ps args) (hadmits : Admits g (before ++ ps)) :
    scan g (given before) none args = .ok (given (before ++ ps)) := by
  have hbefore : Admits g before := hadmits.front
  induction h generalizing before with
  | nil => rw [List.append_nil, scan]
  | flag name _ ih =>
    rw [List.append_cons] at hadmits ⊢
    have hfits : (Piece.flag name).Fits g := hadmits.fits (.flag name) (by simp)
    obtain ⟨hname, hmark⟩ := hfits.proper hg (.flag name)
    have hadd := (addOption_eq_ok_iff hbefore (.flag name) hfits hfits).mpr ⟨hadmits.front, rfl⟩
    rw [scan_long (of_bare hname hmark), takeOption_flag hfits, hadd]
    exact ih hadmits hadmits.front
  | attached name value _ ih =>
    rw [List.append_cons] at hadmits ⊢
    have hfits : (Piece.option name value).Fits g := hadmits.fits (.option name value) (by simp)
    obtain ⟨hname, hmark⟩ := hfits.proper hg (.option name value)
    obtain ⟨k, hkind, hk⟩ := hfits
    have hadd := (addOption_eq_ok_iff hbefore (.option name value) ⟨k, hkind, hk⟩ hkind).mpr
      ⟨hadmits.front, rfl⟩
    rw [scan_long (of_attached hname hmark value), takeOption_attached hkind hk, hadd]
    exact ih hadmits hadmits.front
  | @separate name value _ args hvalue _ ih =>
    rw [List.append_cons] at hadmits ⊢
    have hfits : (Piece.option name value).Fits g := hadmits.fits (.option name value) (by simp)
    obtain ⟨hname, hmark⟩ := hfits.proper hg (.option name value)
    obtain ⟨k, hkind, hk⟩ := hfits
    have hadd := (addOption_eq_ok_iff hbefore (.option name value) ⟨k, hkind, hk⟩ hkind).mpr
      ⟨hadmits.front, rfl⟩
    rw [scan_long (of_bare hname hmark), takeOption_waiting hkind hk]
    change scan g (given before) (some name) (value :: args) = _
    rw [scan_waiting hvalue hkind, hadd]
    exact ih hadmits hadmits.front
  | value hword _ ih =>
    rw [List.append_cons] at hadmits ⊢
    have hadd := (addValue_eq_ok_iff hbefore).mpr ⟨hadmits.front, rfl⟩
    rw [scan_word hword, hadd]
    exact ih hadmits hadmits.front
  | values texts =>
    have hadd := (addValues_eq_ok_iff hbefore).mpr ⟨hadmits, rfl⟩
    have hseparator : Argument.of "--" = .separator := rfl
    rw [scan, hseparator]
    exact hadd

theorem takeOption_long_cases {attached : Option String} {z : Given × Option String}
    (h : takeOption g y (.long name attached) = .ok z) :
    (attached = none ∧ g.kind name = some .flag ∧ y.addOption .flag name "" = .ok z.1 ∧
      z.2 = none) ∨
    ∃ k, g.kind name = some k ∧ k ≠ .flag ∧
      ((∃ value, attached = some value ∧ y.addOption k name value = .ok z.1 ∧ z.2 = none) ∨
        (attached = none ∧ z = (y, some name))) := by
  have hmap : ∀ {x : Except Refusal Given}, (x.map fun z => (z, none)) = .ok z →
      x = .ok z.1 ∧ z.2 = none := by
    rintro (e | u) hu
    · cases hu
    · cases hu
      exact ⟨rfl, rfl⟩
  cases hkind : g.kind name with
  | none => simp [takeOption, hkind] at h
  | some k =>
    by_cases hk : k = .flag
    · subst hk
      cases attached with
      | none =>
        rw [takeOption_flag hkind] at h
        exact .inl ⟨rfl, rfl, hmap h⟩
      | some value => simp [takeOption, hkind] at h
    · refine .inr ⟨k, rfl, hk, ?_⟩
      cases attached with
      | none =>
        rw [takeOption_waiting hkind hk] at h
        cases h
        exact .inr ⟨rfl, rfl⟩
      | some value =>
        rw [takeOption_attached hkind hk] at h
        exact .inl ⟨value, rfl, hmap h⟩

theorem scan_waiting_cases (h : scan g y (some name) args = .ok x) :
    ∃ value rest k z, args = value :: rest ∧ IsWord value ∧ g.kind name = some k ∧
      y.addOption k name value = .ok z ∧ scan g z none rest = .ok x := by
  cases args with
  | nil =>
    rw [scan] at h
    cases h
  | cons text rest =>
    have hscan := h
    rw [scan] at h
    split at h
    · next word k hof hkind =>
      obtain ⟨hword, rfl⟩ := of_eq_word_iff.mp hof
      rw [scan_waiting hword hkind, bind_eq_ok_iff] at hscan
      obtain ⟨z, hadd, hrest⟩ := hscan
      exact ⟨_, rest, k, z, rfl, hword, hkind, hadd, hrest⟩
    · cases h

/-- What is read was written. -/
theorem spelled_of_scan (h : Admits g before) (hscan : scan g (given before) none args = .ok x) :
    ∃ ps, Spelled ps args ∧ Admits g (before ++ ps) ∧ x = given (before ++ ps) := by
  -- An option and its value can be two arguments, so the induction is on how many are left.
  induction hlength : args.length using Nat.strongRecOn generalizing args before with
  | _ n ih =>
    subst hlength
    -- one more piece in front of what the rest is written as
    have hmore : ∀ {p rest}, Admits g (before ++ [p]) → rest.length < args.length →
        scan g (given (before ++ [p])) none rest = .ok x →
        ∃ ps, Spelled ps rest ∧ Admits g (before ++ p :: ps) ∧ x = given (before ++ p :: ps) := by
      intro p rest hadmits hshorter hrest
      obtain ⟨ps, hps, hall, hx⟩ := ih rest.length hshorter hadmits hrest rfl
      rw [← List.append_cons] at hall hx
      exact ⟨ps, hps, hall, hx⟩
    cases args with
    | nil =>
      rw [scan] at hscan
      cases hscan
      exact ⟨[], .nil, by rwa [List.append_nil], by rw [List.append_nil]⟩
    | cons text rest =>
      obtain ⟨rfl, hof⟩ | ⟨name, value, rfl, hof⟩ | ⟨name, rfl, hof⟩ | ⟨letters, hof⟩ |
        ⟨hword, -⟩ := of_cases text
      · rw [scan, hof] at hscan
        obtain ⟨hadmits, hx⟩ := (addValues_eq_ok_iff h).mp hscan
        exact ⟨_, .values rest, hadmits, hx⟩
      · rw [scan_long hof, bind_eq_ok_iff] at hscan
        obtain ⟨z, hz, hrest⟩ := hscan
        obtain ⟨hnone, -⟩ | ⟨k, hkind, hk, ⟨_, heq, hadd, hwaiting⟩ | ⟨hnone, -⟩⟩ :=
          takeOption_long_cases hz
        · cases hnone
        · cases heq
          obtain ⟨hadmits, hgiven⟩ :=
            (addOption_eq_ok_iff h (.option name value) ⟨k, hkind, hk⟩ hkind).mp hadd
          rw [hwaiting, hgiven] at hrest
          obtain ⟨ps, hps, hall, hx⟩ := hmore hadmits (by simp) hrest
          exact ⟨_, .attached name value hps, hall, hx⟩
        · cases hnone
      · rw [scan_long hof, bind_eq_ok_iff] at hscan
        obtain ⟨z, hz, hrest⟩ := hscan
        obtain ⟨-, hkind, hadd, hwaiting⟩ | ⟨k, hkind, hk, ⟨_, heq, -⟩ | ⟨-, rfl⟩⟩ :=
          takeOption_long_cases hz
        · obtain ⟨hadmits, hgiven⟩ := (addOption_eq_ok_iff h (.flag name) hkind hkind).mp hadd
          rw [hwaiting, hgiven] at hrest
          obtain ⟨ps, hps, hall, hx⟩ := hmore hadmits (by simp) hrest
          exact ⟨_, .flag name hps, hall, hx⟩
        · cases heq
        · obtain ⟨value, rest, k', z, rfl, hword, hkind', hadd, hrest⟩ := scan_waiting_cases hrest
          obtain rfl : k = k' := Option.some.inj (hkind.symm.trans hkind')
          obtain ⟨hadmits, rfl⟩ :=
            (addOption_eq_ok_iff h (.option name value) ⟨k, hkind, hk⟩ hkind).mp hadd
          have hshorter : rest.length < (("--" ++ name) :: value :: rest).length := by
            simp only [List.length_cons]
            omega
          obtain ⟨ps, hps, hall, hx⟩ := hmore hadmits hshorter hrest
          exact ⟨_, .separate name hword hps, hall, hx⟩
      · simp [scan, hof, takeOption] at hscan
      · rw [scan_word hword, bind_eq_ok_iff] at hscan
        obtain ⟨z, hz, hrest⟩ := hscan
        obtain ⟨hadmits, rfl⟩ := (addValue_eq_ok_iff h).mp hz
        obtain ⟨ps, hps, hall, hx⟩ := hmore hadmits (by simp) hrest
        exact ⟨_, .value hword hps, hall, hx⟩

theorem scan_eq_ok_iff (hg : g.Proper) :
    scan g .nothing none args = .ok x ↔ ∃ ps, Spelled ps args ∧ Admits g ps ∧ x = given ps := by
  constructor
  · intro h
    exact spelled_of_scan (admits_nil g) h
  · rintro ⟨ps, hps, hadmits, rfl⟩
    have hall : Admits g ([] ++ ps) := hadmits
    exact scan_of_spelled hg hps hall

end SchemaWalk.Shell
