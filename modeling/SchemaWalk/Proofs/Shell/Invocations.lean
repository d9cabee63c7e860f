import SchemaWalk.Proofs.Shell.Arguments
import SchemaWalk.Shell.Invocation

/-! # Command lines as they are written

What a command means with what is given to it. The shell understands a command line just when it is
written as one, and then as what it means. -/

namespace SchemaWalk.Shell

/-! ## Commands -/

/-- A flag or an option of one of these names. -/
def Piece.Among (flags options : List String) : Piece → Prop
  | .flag name => name ∈ flags
  | .option name _ => name ∈ options
  | .value _ => False

/-- A number in decimal digits, a plus in front or not, that 64 bits hold. -/
structure IsIndex (text : String) (index : Nat) : Prop where
  digits : ∃ ds : List Char, ds ≠ [] ∧ (∀ d ∈ ds, d.isDigit = true) ∧
    (text.toList = ds ∨ text.toList = '+' :: ds) ∧ Nat.ofDigitChars 10 ds 0 = index
  bound : index < Nat.pow 2 64

/-- What a command of a name means with the pieces behind it. -/
inductive Means : String → List Piece → Command → Prop where
  | show : Means "show" [] .show
  | push {ps : List Piece} {label typeName : String} {inbound : Bool} :
      (∀ p ∈ ps, p.Among ["inbound"] ["label", "type", "node-filter", "rel-filter"]) →
      valuesOf "label" ps = [label] → valuesOf "type" ps = [typeName] →
      ps.count (.flag "inbound") = (if inbound then 1 else 0) →
      Means "push" ps
        (.push label typeName inbound (valuesOf "node-filter" ps) (valuesOf "rel-filter" ps))
  | pop {text : String} {index : Nat} :
      IsIndex text index → Means "pop" [.value text] (.pop index)
  | clear : Means "clear" [] .clear
  | queries {ps : List Piece} {label : String} {property : Option String} :
      (∀ p ∈ ps, p.Among [] ["label", "filter", "property"]) →
      valuesOf "label" ps = [label] → valuesOf "property" ps = property.toList →
      Means "queries" ps (.queries label (valuesOf "filter" ps) property)
  | overview : Means "overview" [] .overview

/-- The directory in front of a command, if one is given. -/
inductive Directed : Option String → List String → Prop where
  | nowhere : Directed none []
  | attached (dir : String) : Directed (some dir) ["--store-dir=" ++ dir]
  | separate {dir : String} : IsWord dir → Directed (some dir) ["--store-dir", dir]

/-- A command line: a directory or none, the name of a command, and the pieces of the command. -/
inductive Understood : List String → Invocation → Prop where
  | run {storeDir : Option String} {front args : List String} {name : String} {ps : List Piece}
      {command : Command} :
      Directed storeDir front → Spelled ps args → Means name ps command →
      Understood (front ++ name :: args) ⟨storeDir, command⟩

/-! ## What a command makes of its pieces -/

variable {g : Grammar} {y : Given} {text name : String} {args rest : List String}
  {ps : List Piece} {command : Command}

theorem proper_plain : plainGrammar.Proper := ⟨by decide, by decide, by decide⟩

theorem proper_push : pushGrammar.Proper := ⟨by decide, by decide, by decide⟩

theorem proper_pop : popGrammar.Proper := ⟨by decide, by decide, by decide⟩

theorem proper_queries : queriesGrammar.Proper := ⟨by decide, by decide, by decide⟩

section Among

variable {flags options : List String} (h : ∀ p ∈ ps, p.Among flags options)
include h

theorem count_flag_eq_zero (hname : name ∉ flags) : ps.count (.flag name) = 0 :=
  List.count_eq_zero.mpr fun hmem => hname (h _ hmem)

theorem valuesOf_eq_nil (hname : name ∉ options) : valuesOf name ps = [] := by
  rw [valuesOf, List.filterMap_eq_nil_iff]
  intro p hp
  have hamong := h p hp
  cases p with
  | flag => rfl
  | value => rfl
  | option other value =>
    have hne : other ≠ name := by
      rintro rfl
      exact hname hamong
    simp [hne]

theorem values_given_eq_nil : (given ps).values = [] := by
  rw [given, List.filterMap_eq_nil_iff]
  intro p hp
  have hamong := h p hp
  cases p with
  | flag => rfl
  | option => rfl
  | value => exact absurd hamong id

end Among

theorem all_given (h : .flag name ∉ ps) : (given ps).all name = valuesOf name ps := by
  induction ps with
  | nil => rfl
  | cons p ps ih =>
    have hrest := ih fun hmem => h (List.mem_cons_of_mem p hmem)
    cases p with
    | flag other =>
      have hne : other ≠ name := by
        rintro rfl
        exact h List.mem_cons_self
      simpa [given, Given.all, valuesOf, hne] using hrest
    | option other value =>
      by_cases heq : other = name
      · simpa [given, Given.all, valuesOf, heq] using hrest
      · simpa [given, Given.all, valuesOf, heq] using hrest
    | value text => simpa [given, Given.all, valuesOf] using hrest

theorem first?_eq_head? (x : Given) (name : String) : x.first? name = (x.all name).head? := by
  obtain ⟨options, values⟩ := x
  simp only [Given.first?, Given.all]
  induction options with
  | nil => rfl
  | cons o options ih =>
    rw [List.lookup_cons]
    by_cases heq : name = o.1
    · simp [heq]
    · have hbeq : (name == o.1) = false := by simpa using heq
      rw [hbeq]
      simp [Ne.symm heq, ih]

theorem required_eq_ok_iff {x : Option String} {value : String} :
    required x = .ok value ↔ x = some value := by
  cases x <;> simp [required]

theorem head?_eq_some_iff {β : Type} {l : List β} {v : β} (h : l.length ≤ 1) :
    l.head? = some v ↔ l = [v] := by
  rcases l with _ | ⟨w, _ | ⟨_, l⟩⟩
  · simp
  · simp
  · simp at h

namespace Grammar

def flagNames (g : Grammar) : List String :=
  (g.options.filter fun o => o.2 = .flag).map (·.1)

def optionNames (g : Grammar) : List String :=
  (g.options.filter fun o => o.2 ≠ .flag).map (·.1)

end Grammar

theorem fits_iff (hg : g.Proper) (htakes : ∀ text, g.takes text = false) {p : Piece} :
    p.Fits g ↔ p.Among g.flagNames g.optionNames := by
  cases p with
  | flag name => simp [Piece.Fits, Piece.Among, Grammar.flagNames, Grammar.kind_eq_some_iff hg]
  | option name value =>
    simp [Piece.Fits, Piece.Among, Grammar.optionNames, Grammar.kind_eq_some_iff hg]
  | value text => simp [Piece.Fits, Piece.Among, htakes]

/-- A command without values has its own flags and options, and of these no more than one each
unless they collect. -/
theorem admits_iff (hg : g.Proper) (htakes : ∀ text, g.takes text = false) :
    Admits g ps ↔ (∀ p ∈ ps, p.Among g.flagNames g.optionNames) ∧
      (∀ name ∈ g.flagNames, ps.count (.flag name) ≤ 1) ∧
      ∀ name, (name, .single) ∈ g.options → (valuesOf name ps).length ≤ 1 := by
  have hflag : ∀ {name}, name ∈ g.flagNames ↔ g.kind name = some .flag := by
    intro name
    simp [Grammar.flagNames, Grammar.kind_eq_some_iff hg]
  have hoption : ∀ {name}, name ∈ g.optionNames ↔ ∃ k, g.kind name = some k ∧ k ≠ .flag := by
    intro name
    simp [Grammar.optionNames, Grammar.kind_eq_some_iff hg]
  constructor
  · intro h
    refine ⟨fun p hp => (fits_iff hg htakes).mp (h.fits p hp), ?_, ?_⟩
    · intro name hname
      have htimes := h.once name (by rw [hflag.mp hname]; simp)
      rw [timesOf] at htimes
      omega
    · intro name hname
      have htimes := h.once name (by rw [(Grammar.kind_eq_some_iff hg).mpr hname]; simp)
      rw [timesOf] at htimes
      omega
  · rintro ⟨hamong, hflags, hsingle⟩
    constructor
    · exact fun p hp => (fits_iff hg htakes).mpr (hamong p hp)
    · intro name hname
      rw [timesOf]
      by_cases hmem : name ∈ g.flagNames
      · have hnot : name ∉ g.optionNames := by
          rw [hoption]
          rintro ⟨k, hk, hne⟩
          rw [hflag.mp hmem] at hk
          exact hne (Option.some.inj hk).symm
        rw [valuesOf_eq_nil hamong hnot]
        exact hflags name hmem
      · rw [count_flag_eq_zero hamong hmem, Nat.zero_add]
        cases hkind : g.kind name with
        | none =>
          have hnot : name ∉ g.optionNames := by
            rw [hoption, hkind]
            simp
          simp [valuesOf_eq_nil hamong hnot]
        | some k =>
          cases k with
          | flag => exact absurd (hflag.mpr hkind) hmem
          | single => exact hsingle name ((Grammar.kind_eq_some_iff hg).mp hkind)
          | repeated => exact absurd hkind hname
    · rw [values_given_eq_nil hamong]
      exact Nat.zero_le _

theorem admits_plain_iff : Admits plainGrammar ps ↔ ps = [] := by
  constructor
  · intro h
    cases ps with
    | nil => rfl
    | cons p ps =>
      have hfits := (fits_iff proper_plain fun _ => rfl).mp (h.fits p List.mem_cons_self)
      cases p <;> cases hfits
  · rintro rfl
    exact admits_nil _

section Given

variable {flags options : List String} (h : ∀ p ∈ ps, p.Among flags options)
include h

theorem all_of_among (hname : name ∉ flags) : (given ps).all name = valuesOf name ps :=
  all_given fun hmem => hname (h _ hmem)

theorem first?_of_among (hname : name ∉ flags) :
    (given ps).first? name = (valuesOf name ps).head? := by
  rw [first?_eq_head?, all_of_among h hname]

theorem required_eq_ok_iff_of_among (hname : name ∉ flags) (hone : (valuesOf name ps).length ≤ 1)
    {value : String} :
    required ((given ps).first? name) = .ok value ↔ valuesOf name ps = [value] := by
  rw [required_eq_ok_iff, first?_of_among h hname, head?_eq_some_iff hone]

theorem count_flag_eq_iff (hname : name ∉ options) (hone : ps.count (.flag name) ≤ 1)
    {present : Bool} :
    ps.count (.flag name) = (if present then 1 else 0) ↔ (given ps).has name = present := by
  have hhas := has_given name ps
  rw [timesOf, valuesOf_eq_nil h hname, List.length_nil, Nat.add_zero] at hhas
  cases present with
  | false =>
    rw [← Bool.not_eq_true, hhas]
    simp only [Bool.false_eq_true, if_false]
    omega
  | true =>
    rw [hhas]
    simp only [if_true]
    omega

end Given

theorem readPush_iff :
    Admits pushGrammar ps ∧ readPush (given ps) = .ok command ↔ Means "push" ps command := by
  rw [admits_iff proper_push fun _ => rfl]
  have hinbound : pushGrammar.flagNames = ["inbound"] := by decide
  have hnames : pushGrammar.optionNames = ["label", "type", "node-filter", "rel-filter"] := by
    decide
  rw [hinbound, hnames]
  constructor
  · rintro ⟨⟨hamong, hflags, hsingle⟩, hread⟩
    have hlabels := hsingle "label" (by decide)
    have htypes := hsingle "type" (by decide)
    have hcount := hflags "inbound" (by decide)
    obtain ⟨label, hlabel, hread⟩ := bind_eq_ok_iff.mp hread
    obtain ⟨typeName, htype, hread⟩ := bind_eq_ok_iff.mp hread
    rw [required_eq_ok_iff_of_among hamong (by decide) hlabels] at hlabel
    rw [required_eq_ok_iff_of_among hamong (by decide) htypes] at htype
    have hpresent := (count_flag_eq_iff hamong (by decide) hcount).mpr rfl
    rw [all_of_among hamong (by decide), all_of_among hamong (by decide)] at hread
    cases hread
    exact .push hamong hlabel htype hpresent
  · intro hmeans
    generalize hcommand : "push" = name at hmeans
    cases hmeans with
    | @push _ label typeName inbound hamong hlabel htype hpresent =>
      have hcount : ps.count (.flag "inbound") ≤ 1 := by
        rw [hpresent]
        split <;> omega
      refine ⟨⟨hamong, ?_, ?_⟩, ?_⟩
      · intro name hname
        rw [List.mem_singleton.mp hname]
        exact hcount
      · intro name hname
        have hor : name = "label" ∨ name = "type" := by
          simpa [pushGrammar, Grammar.ofOptions] using hname
        rcases hor with rfl | rfl
        · simp [hlabel]
        · simp [htype]
      · refine bind_eq_ok_iff.mpr ⟨label, ?_, bind_eq_ok_iff.mpr ⟨typeName, ?_, ?_⟩⟩
        · exact (required_eq_ok_iff_of_among hamong (by decide) (by simp [hlabel])).mpr hlabel
        · exact (required_eq_ok_iff_of_among hamong (by decide) (by simp [htype])).mpr htype
        · rw [(count_flag_eq_iff hamong (by decide) hcount).mp hpresent,
            all_of_among hamong (by decide), all_of_among hamong (by decide)]
          rfl
    | _ => exact absurd hcommand (by decide)

theorem readQueries_iff :
    Admits queriesGrammar ps ∧ readQueries (given ps) = .ok command ↔
      Means "queries" ps command := by
  rw [admits_iff proper_queries fun _ => rfl]
  have hflags : queriesGrammar.flagNames = [] := by decide
  have hnames : queriesGrammar.optionNames = ["label", "filter", "property"] := by decide
  rw [hflags, hnames]
  constructor
  · rintro ⟨⟨hamong, -, hsingle⟩, hread⟩
    have hlabels := hsingle "label" (by decide)
    have hproperties := hsingle "property" (by decide)
    obtain ⟨label, hlabel, hread⟩ := bind_eq_ok_iff.mp hread
    rw [required_eq_ok_iff_of_among hamong (by decide) hlabels] at hlabel
    rw [all_of_among hamong (by decide), first?_of_among hamong (by decide)] at hread
    cases hread
    refine .queries hamong hlabel ?_
    rcases hlist : valuesOf "property" ps with _ | ⟨property, _ | ⟨_, rest⟩⟩
    · rfl
    · rfl
    · simp [hlist] at hproperties
  · intro hmeans
    generalize hcommand : "queries" = name at hmeans
    cases hmeans with
    | @queries _ label property hamong hlabel hproperty =>
      refine ⟨⟨hamong, by simp, ?_⟩, ?_⟩
      · intro name hname
        have hor : name = "label" ∨ name = "property" := by
          simpa [queriesGrammar, Grammar.ofOptions] using hname
        rcases hor with rfl | rfl
        · simp [hlabel]
        · rw [hproperty]
          cases property <;> simp
      · refine bind_eq_ok_iff.mpr ⟨label, ?_, ?_⟩
        · exact (required_eq_ok_iff_of_among hamong (by decide) (by simp [hlabel])).mpr hlabel
        · rw [all_of_among hamong (by decide), first?_of_among hamong (by decide), hproperty]
          cases property <;> rfl
    | _ => exact absurd hcommand (by decide)

/-! ## Indices -/

theorem index?_of_digits {ds : List Char} (hne : ds ≠ []) (hdigits : ∀ d ∈ ds, d.isDigit = true)
    (htext : text.toList = ds ∨ text.toList = '+' :: ds) :
    index? text =
      if Nat.ofDigitChars 10 ds 0 < Nat.pow 2 64 then some (Nat.ofDigitChars 10 ds 0)
      else none := by
  have hall : ds.all Char.isDigit = true := List.all_eq_true.mpr hdigits
  have hempty : ds.isEmpty = false := by simpa using hne
  have hvalue : Decimal.digitsValue ds = Nat.ofDigitChars 10 ds 0 := rfl
  unfold index?
  rcases htext with htext | htext
  · rw [htext]
    split
    · -- a plus is no digit
      exact absurd (hdigits '+' (by simp)) (by decide)
    · simp only [hall, hempty, hvalue]
      rfl
  · simp only [htext, hall, hempty, hvalue]
    rfl

theorem index?_eq_some_iff {index : Nat} : index? text = some index ↔ IsIndex text index := by
  constructor
  · intro h
    have hparts : ∃ ds : List Char, (text.toList = ds ∨ text.toList = '+' :: ds) ∧ ds ≠ [] ∧
        ∀ d ∈ ds, d.isDigit = true := by
      rw [index?] at h
      simp only [Option.ite_none_left_eq_some] at h
      obtain ⟨hdigits, -⟩ := h
      rw [Bool.or_eq_true, not_or] at hdigits
      split at hdigits
      · next rest hlist =>
        exact ⟨rest, .inr hlist, by simpa using hdigits.1, by simpa using hdigits.2⟩
      · exact ⟨_, .inl rfl, by simpa using hdigits.1, by simpa using hdigits.2⟩
    obtain ⟨ds, htext, hne, hdigits⟩ := hparts
    rw [index?_of_digits hne hdigits htext, Option.ite_none_right_eq_some] at h
    obtain ⟨hbound, hvalue⟩ := h
    obtain rfl := Option.some.inj hvalue
    exact ⟨⟨ds, hne, hdigits, htext, rfl⟩, hbound⟩
  · rintro ⟨⟨ds, hne, hdigits, htext, rfl⟩, hbound⟩
    rw [index?_of_digits hne hdigits htext, if_pos hbound]

theorem fits_pop {p : Piece} (h : p.Fits popGrammar) :
    ∃ text, p = .value text ∧ (index? text).isSome = true := by
  cases p with
  | flag name => cases h
  | option name value =>
    obtain ⟨k, hk, -⟩ := h
    cases hk
  | value text => exact ⟨text, rfl, h⟩

theorem readPop_iff :
    Admits popGrammar ps ∧ readPop (given ps) = .ok command ↔ Means "pop" ps command := by
  constructor
  · rintro ⟨hadmits, hread⟩
    obtain ⟨text, htext, hindexed⟩ := bind_eq_ok_iff.mp hread
    rw [required_eq_ok_iff] at htext
    have hroom := hadmits.room
    obtain rfl : ps = [.value text] := by
      cases ps with
      | nil => cases htext
      | cons p ps =>
        obtain ⟨first, rfl, -⟩ := fits_pop (hadmits.fits p List.mem_cons_self)
        cases ps with
        | nil =>
          cases htext
          rfl
        | cons q ps =>
          obtain ⟨second, rfl, -⟩ := fits_pop (hadmits.fits q (by simp))
          simp [given, popGrammar] at hroom
    cases hindex : index? text with
    | none =>
      rw [hindex] at hindexed
      cases hindexed
    | some index =>
      rw [hindex] at hindexed
      cases hindexed
      exact .pop (index?_eq_some_iff.mp hindex)
  · intro hmeans
    generalize hcommand : "pop" = name at hmeans
    cases hmeans with
    | @pop text index hindex =>
      have hsome := index?_eq_some_iff.mpr hindex
      refine ⟨⟨?_, ?_, ?_⟩, ?_⟩
      · intro p hp
        rw [List.mem_singleton.mp hp]
        change (index? text).isSome = true
        rw [hsome]
        rfl
      · intro name _
        simp [timesOf, valuesOf]
      · simp [given, popGrammar]
      · refine bind_eq_ok_iff.mpr ⟨text, rfl, ?_⟩
        rw [hsome]
        rfl
    | _ => exact absurd hcommand (by decide)

/-! ## Commands by name -/

/-- Every command is read as what its pieces mean. -/
structure Grammar.Reads (g : Grammar) (read : Given → Except Refusal Command) (name : String) :
    Prop where
  proper : g.Proper
  means : ∀ ps command,
    Admits g ps ∧ read (given ps) = .ok command ↔ Means name ps command

theorem reads_plain {name : String} {shown : Command} (hmeans : Means name [] shown)
    (honly : ∀ ps command, Means name ps command → ps = [] ∧ command = shown) :
    plainGrammar.Reads (fun _ => .ok shown) name where
  proper := proper_plain
  means ps command := by
    rw [admits_plain_iff]
    constructor
    · rintro ⟨rfl, hread⟩
      cases hread
      exact hmeans
    · intro h
      obtain ⟨rfl, rfl⟩ := honly ps command h
      exact ⟨rfl, rfl⟩

theorem reads_commandNamed {g : Grammar} {read : Given → Except Refusal Command}
    (h : commandNamed name = some (g, read)) : g.Reads read name := by
  unfold commandNamed at h
  split at h
  · cases h
    refine reads_plain .show fun ps command hmeans => ?_
    generalize hcommand : "show" = name at hmeans
    cases hmeans with
    | «show» => exact ⟨rfl, rfl⟩
    | _ => exact absurd hcommand (by decide)
  · cases h
    exact ⟨proper_push, fun _ _ => readPush_iff⟩
  · cases h
    exact ⟨proper_pop, fun _ _ => readPop_iff⟩
  · cases h
    refine reads_plain .clear fun ps command hmeans => ?_
    generalize hcommand : "clear" = name at hmeans
    cases hmeans with
    | clear => exact ⟨rfl, rfl⟩
    | _ => exact absurd hcommand (by decide)
  · cases h
    exact ⟨proper_queries, fun _ _ => readQueries_iff⟩
  · cases h
    refine reads_plain .overview fun ps command hmeans => ?_
    generalize hcommand : "overview" = name at hmeans
    cases hmeans with
    | overview => exact ⟨rfl, rfl⟩
    | _ => exact absurd hcommand (by decide)
  · cases h

theorem exists_commandNamed (h : Means name ps command) :
    ∃ g read, commandNamed name = some (g, read) ∧ IsWord name ∧ name ≠ "help" := by
  cases h with
  | «show» => exact ⟨_, _, rfl, .inr (by decide), by decide⟩
  | push => exact ⟨_, _, rfl, .inr (by decide), by decide⟩
  | pop => exact ⟨_, _, rfl, .inr (by decide), by decide⟩
  | clear => exact ⟨_, _, rfl, .inr (by decide), by decide⟩
  | queries => exact ⟨_, _, rfl, .inr (by decide), by decide⟩
  | overview => exact ⟨_, _, rfl, .inr (by decide), by decide⟩

/-! ## Whole command lines -/

variable {i : Invocation}

theorem scanShell_word (h : IsWord name) (hhelp : name ≠ "help") :
    scanShell y none (name :: rest) = match commandNamed name with
      | some (g, read) =>
        (scan g .nothing none rest).bind fun z =>
          (read z).map fun command => ⟨y.first? "store-dir", command⟩
      | none => .error .misuse := by
  rw [scanShell, of_word h]
  split
  · next heq =>
    cases heq
    exact absurd rfl hhelp
  · next heq =>
    cases heq
    cases commandNamed name with
    | none => rfl
    | some pair => cases hscan : scan pair.1 .nothing none rest <;> simp [hscan, Except.bind]
  · next hword => exact absurd rfl (hword name)

theorem scanShell_long {attached : Option String} (h : Argument.of text = .long name attached) :
    scanShell y none (text :: rest) =
      takeOption shellGrammar y (.long name attached) >>= fun z => scanShell z.1 z.2 rest := by
  rw [scanShell, h]
  dsimp only
  cases takeOption shellGrammar y (.long name attached) <;> rfl

theorem scanShell_waiting {value : String} (h : IsWord value) :
    scanShell y (some name) (value :: rest) =
      y.addOption .single name value >>= fun z => scanShell z none rest := by
  rw [scanShell, of_word h]
  dsimp only
  cases y.addOption .single name value <;> rfl

theorem proper_shell : shellGrammar.Proper := ⟨by decide, by decide, by decide⟩

theorem kind_shell_eq_some_iff {k : OptionKind} :
    shellGrammar.kind name = some k ↔ name = "store-dir" ∧ k = .single := by
  rw [Grammar.kind_eq_some_iff proper_shell]
  simp [shellGrammar, Grammar.ofOptions]

theorem scanShell_of_means (y : Given) (hspelled : Spelled ps args) (h : Means name ps command) :
    scanShell y none (name :: args) = .ok ⟨y.first? "store-dir", command⟩ := by
  obtain ⟨g, read, hnamed, hword, hhelp⟩ := exists_commandNamed h
  have hreads := reads_commandNamed hnamed
  obtain ⟨hadmits, hread⟩ := (hreads.means ps command).mpr h
  have hscan := (scan_eq_ok_iff hreads.proper).mpr ⟨ps, hspelled, hadmits, rfl⟩
  rw [scanShell_word hword hhelp, hnamed]
  simp only [hscan, Except.bind, hread, Except.map]

theorem scanShell_waiting_cases (h : scanShell y (some name) args = .ok i) :
    ∃ value rest z, args = value :: rest ∧ IsWord value ∧
      y.addOption .single name value = .ok z ∧ scanShell z none rest = .ok i := by
  cases args with
  | nil =>
    rw [scanShell] at h
    cases h
  | cons text rest =>
    have hscan := h
    rw [scanShell] at h
    split at h
    · next word hof =>
      obtain ⟨hword, rfl⟩ := of_eq_word_iff.mp hof
      rw [scanShell_waiting hword, bind_eq_ok_iff] at hscan
      obtain ⟨z, hadd, hrest⟩ := hscan
      exact ⟨_, rest, z, rfl, hword, hadd, hrest⟩
    · cases h

theorem means_of_scanShell (hword : IsWord name) (h : scanShell y none (name :: rest) = .ok i) :
    ∃ ps command, Spelled ps rest ∧ Means name ps command ∧
      i = ⟨y.first? "store-dir", command⟩ := by
  have hhelp : name ≠ "help" := by
    rintro rfl
    simp [scanShell, of_word hword] at h
  rw [scanShell_word hword hhelp] at h
  cases hnamed : commandNamed name with
  | none => simp [hnamed] at h
  | some pair =>
    obtain ⟨g, read⟩ := pair
    have hreads := reads_commandNamed hnamed
    simp only [hnamed] at h
    obtain ⟨z, hscan, hread⟩ := bind_eq_ok_iff.mp h
    obtain ⟨ps, hps, hadmits, rfl⟩ := (scan_eq_ok_iff hreads.proper).mp hscan
    cases hcommand : read (given ps) with
    | error e =>
      rw [hcommand] at hread
      cases hread
    | ok command =>
      rw [hcommand] at hread
      cases hread
      exact ⟨ps, command, hps, (hreads.means ps command).mp ⟨hadmits, hcommand⟩, rfl⟩

/-- A command comes first, or a directory does and the rest is read once it is kept. -/
theorem scanShell_cases (h : scanShell y none args = .ok i) :
    (∃ name rest ps command, args = name :: rest ∧ Spelled ps rest ∧ Means name ps command ∧
      i = ⟨y.first? "store-dir", command⟩) ∨
    ∃ dir front rest z, args = front ++ rest ∧ Directed (some dir) front ∧
      y.addOption .single "store-dir" dir = .ok z ∧ scanShell z none rest = .ok i := by
  cases args with
  | nil =>
    rw [scanShell] at h
    cases h
  | cons text rest =>
    obtain ⟨-, hof⟩ | ⟨name, value, rfl, hof⟩ | ⟨name, rfl, hof⟩ | ⟨letters, hof⟩ | ⟨hword, -⟩ :=
      of_cases text
    · simp [scanShell, hof, takeOption] at h
    · rw [scanShell_long hof, bind_eq_ok_iff] at h
      obtain ⟨z, hz, hrest⟩ := h
      obtain ⟨hnone, -⟩ | ⟨k, hkind, -, ⟨_, heq, hadd, hwaiting⟩ | ⟨hnone, -⟩⟩ :=
        takeOption_long_cases hz
      · cases hnone
      · cases heq
        obtain ⟨rfl, rfl⟩ := kind_shell_eq_some_iff.mp hkind
        rw [hwaiting] at hrest
        exact .inr ⟨value, _, rest, z.1, rfl, .attached value, hadd, hrest⟩
      · cases hnone
    · rw [scanShell_long hof, bind_eq_ok_iff] at h
      obtain ⟨z, hz, hrest⟩ := h
      obtain ⟨-, hkind, -⟩ | ⟨k, hkind, -, ⟨_, heq, -⟩ | ⟨-, rfl⟩⟩ := takeOption_long_cases hz
      · cases (kind_shell_eq_some_iff.mp hkind).2
      · cases heq
      · obtain ⟨rfl, rfl⟩ := kind_shell_eq_some_iff.mp hkind
        obtain ⟨dir, rest, z, rfl, hdir, hadd, hrest⟩ := scanShell_waiting_cases hrest
        exact .inr ⟨dir, _, rest, z, rfl, .separate hdir, hadd, hrest⟩
    · simp [scanShell, hof, takeOption] at h
    · obtain ⟨ps, command, hps, hmeans, hi⟩ := means_of_scanShell hword h
      exact .inl ⟨text, rest, ps, command, rfl, hps, hmeans, hi⟩

/-- The shell understands what is written as a command line, and nothing else. -/
theorem ofArguments_eq_ok_iff : Invocation.ofArguments args = .ok i ↔ Understood args i := by
  constructor
  · intro h
    rcases scanShell_cases h with ⟨name, rest, ps, command, rfl, hps, hmeans, rfl⟩ |
      ⟨dir, front, rest, z, rfl, hfront, hadd, hrest⟩
    · exact .run .nowhere hps hmeans
    · obtain rfl : (⟨[("store-dir", dir)], []⟩ : Given) = z := Except.ok.inj hadd
      rcases scanShell_cases hrest with ⟨name, rest, ps, command, rfl, hps, hmeans, rfl⟩ |
        ⟨again, _, _, _, -, -, hadd, -⟩
      · exact .run hfront hps hmeans
      · cases hadd
  · intro h
    cases h with
    | @run storeDir front args name ps command hfront hps hmeans =>
      have hkind : shellGrammar.kind "store-dir" = some .single := rfl
      cases hfront with
      | nowhere => exact scanShell_of_means .nothing hps hmeans
      | attached dir =>
        have hof := of_attached (by decide : "store-dir" ≠ "") (by decide) dir
        have hcommand := scanShell_of_means ⟨[("store-dir", dir)], []⟩ hps hmeans
        rw [Invocation.ofArguments, List.singleton_append]
        change scanShell .nothing none (("--" ++ "store-dir" ++ "=" ++ dir) :: name :: args) = _
        rw [scanShell_long hof, takeOption_attached hkind (by decide)]
        exact hcommand
      | @separate dir hdir =>
        have hof := of_bare (by decide : "store-dir" ≠ "") (by decide)
        have hcommand := scanShell_of_means ⟨[("store-dir", dir)], []⟩ hps hmeans
        change scanShell .nothing none (("--" ++ "store-dir") :: dir :: name :: args) = _
        rw [scanShell_long hof, takeOption_waiting hkind (by decide)]
        change scanShell .nothing (some "store-dir") (dir :: name :: args) = _
        rw [scanShell_waiting hdir]
        exact hcommand

end SchemaWalk.Shell
