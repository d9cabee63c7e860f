import SchemaWalk.Proofs.Counts.Decoding

/-! # Ranked counts

Rows are counted one after the other, and a later row of a name takes the place of an earlier one.
Names are ranked by their counts, names of one count by code points. No two names rank alike, so
there is one ranking only, and where no name is repeated the order of the rows is not seen in it. -/

namespace SchemaWalk

/-! ## Rows with a name and a count -/

theorem FieldCheck.accepts_string_iff {name : String} {found : Json} :
    (string name).accepts found = true ↔ ∃ text, found = .string text := by
  cases found <;> simp [string]

namespace Row

def Named (key : String) (row : Row) : Prop := ∃ name, row.get? key = some (.string name)

/-- What is said of a row that has none. -/
inductive Unnamed (key : String) (row : Row) : String → Prop where
  | missing : row.get? key = none → Unnamed key row ("missing field '" ++ key ++ "'")
  | unfit {found} : row.get? key = some found → (∀ name, found ≠ .string name) →
      Unnamed key row ("field '" ++ key ++ "' is not a string: " ++ found.render)

/-- The count is looked at only where there is a name. -/
inductive Untallied (key : String) (row : Row) : String → Prop where
  | unnamed {reason} : row.Unnamed key reason → Untallied key row reason
  | uncounted {reason} : row.Named key → row.Uncounted reason → Untallied key row reason

structure Tallies (key : String) (row : Row) (name : String) (n : Nat) : Prop where
  name : row.get? key = some (.string name)
  count : ∃ h, row.get? "count" = some (.number (.integer n h))

variable {key : String} {row : Row}

theorem named_iff_firstReason : row.Named key ↔ firstReason [.string key] row = none := by
  rw [firstReason_singleton, FieldCheck.reason?_eq_none_iff]
  constructor
  · rintro ⟨name, hname⟩
    exact ⟨_, hname, rfl⟩
  · rintro ⟨found, hfound, haccepted⟩
    obtain ⟨name, rfl⟩ := FieldCheck.accepts_string_iff.mp haccepted
    exact ⟨name, hfound⟩

theorem unnamed_iff_firstReason {reason : String} :
    row.Unnamed key reason ↔ firstReason [.string key] row = some reason := by
  rw [firstReason_singleton, FieldCheck.reason?_eq_some_iff]
  constructor
  · intro hreason
    cases hreason with
    | missing hmissing => exact .inl ⟨hmissing, rfl⟩
    | unfit hfound hunfit =>
      refine .inr ⟨_, hfound, ?_, rfl⟩
      intro haccepted
      obtain ⟨name, heq⟩ := FieldCheck.accepts_string_iff.mp haccepted
      exact hunfit name heq
  · rintro (⟨hmissing, rfl⟩ | ⟨found, hfound, hrefused, rfl⟩)
    · exact .missing hmissing
    · refine .unfit hfound ?_
      intro name heq
      exact hrefused (FieldCheck.accepts_string_iff.mpr ⟨name, heq⟩)

end Row

/-- The key before the count. -/
def tallyChecks (key : String) : List FieldCheck := [.string key, .count "count"]

theorem obeys_decodeKeyCount (key : String) : Obeys (tallyChecks key) (decodeKeyCount key) :=
  (Row.obeys_string key).bind fun _ => (Row.obeys_count "count").bind fun _ => obeys_pure _

variable {key : String} {rows : List Row}

theorem firstReason_tallyChecks (row : Row) :
    firstReason (tallyChecks key) row =
      (firstReason [.string key] row).or (firstReason [.count "count"] row) :=
  firstReason_append [.string key] [.count "count"] row

theorem Row.tallied_iff_firstReason {row : Row} :
    row.Named key ∧ row.Counted ↔ firstReason (tallyChecks key) row = none := by
  rw [firstReason_tallyChecks, Option.or_eq_none_iff, named_iff_firstReason,
    counted_iff_firstReason]

theorem Row.untallied_iff_firstReason {row : Row} {reason : String} :
    row.Untallied key reason ↔ firstReason (tallyChecks key) row = some reason := by
  rw [firstReason_tallyChecks, Option.or_eq_some_iff, ← unnamed_iff_firstReason,
    ← named_iff_firstReason, ← uncounted_iff_firstReason]
  constructor
  · intro h
    cases h with
    | unnamed hreason => exact .inl hreason
    | uncounted hnamed hreason => exact .inr ⟨hnamed, hreason⟩
  · rintro (hreason | ⟨hnamed, hreason⟩)
    · exact .unnamed hreason
    · exact .uncounted hnamed hreason

/-! ## The last row of a name -/

/-- What the last row of a name says. -/
inductive LastTally (key name : String) (n : Nat) : List Row → Prop where
  | here {row later} : Row.Tallies key row name n →
      (∀ other ∈ later, other.get? key ≠ some (.string name)) → LastTally key name n (row :: later)
  | later {row rest} : LastTally key name n rest → LastTally key name n (row :: rest)

theorem decodeKeyCount_eq_ok_iff_tallies {row : Row} {entry : String × Nat} :
    decodeKeyCount key row = .ok entry ↔ row.Tallies key entry.1 entry.2 := by
  rw [decodeKeyCount_eq_ok_iff]
  exact ⟨fun h => ⟨h.1, h.2⟩, fun h => ⟨h.name, h.count⟩⟩

theorem Row.Tallies.unique {row : Row} {name other : String} {n m : Nat}
    (h : row.Tallies key name n) (h' : row.Tallies key other m) : name = other ∧ n = m := by
  have hname := h.name.symm.trans h'.name
  obtain ⟨_, hn⟩ := h.count
  obtain ⟨_, hm⟩ := h'.count
  have hcount := hn.symm.trans hm
  simp only [Option.some.injEq, Json.string.injEq, Json.number.injEq, JsonNumber.integer.injEq,
    Int.natCast_inj] at hname hcount
  exact ⟨hname, hcount⟩

/-- What was counted before the rows stays only where none of them has the name. -/
theorem get?_foldl_tallies {entries : List (String × Nat)}
    (h : List.Forall₂ (fun row entry => row.Tallies key entry.1 entry.2) rows entries)
    (counts : Counts) {name : String} {n : Nat} :
    (entries.foldl (fun t e => t.insert e.1 e.2) counts).get? name = some n ↔
      LastTally key name n rows ∨
        (∀ row ∈ rows, row.get? key ≠ some (.string name)) ∧ counts.get? name = some n := by
  induction h generalizing counts with
  | nil => simp [show ¬ LastTally key name n [] from nofun]
  | @cons row entry rows entries hrow _ ih =>
    obtain ⟨j, m⟩ := entry
    rw [List.foldl_cons, ih, List.forall_mem_cons]
    by_cases hname : name = j
    · subst hname
      rw [Table.get?_insert_self]
      constructor
      · rintro (hlast | ⟨hlater, hm⟩)
        · exact .inl (.later hlast)
        · cases hm
          exact .inl (.here hrow hlater)
      · rintro (hlast | ⟨⟨hfirst, -⟩, -⟩)
        · cases hlast with
          | here htally hlater => exact .inr ⟨hlater, congrArg some (hrow.unique htally).2⟩
          | later hlast => exact .inl hlast
        · exact absurd hrow.name hfirst
    · have hother : row.get? key ≠ some (.string name) := by
        rw [hrow.name]
        simpa using Ne.symm hname
      rw [Table.get?_insert_of_ne counts hname]
      constructor
      · rintro (hlast | ⟨hlater, hcounts⟩)
        · exact .inl (.later hlast)
        · exact .inr ⟨⟨hother, hlater⟩, hcounts⟩
      · rintro (hlast | ⟨⟨-, hlater⟩, hcounts⟩)
        · cases hlast with
          | here htally _ => exact absurd htally.name hother
          | later hlast => exact .inl hlast
        · exact .inr ⟨hlater, hcounts⟩

theorem exists_decodeCounts_iff :
    (∃ counts, decodeCounts key rows = .ok counts) ↔
      ∀ row ∈ rows, row.Named key ∧ row.Counted := by
  constructor
  · rintro ⟨counts, h⟩ row hrow
    obtain ⟨name, hname, hcount⟩ := row_of_decodeCounts h hrow
    exact ⟨⟨name, hname⟩, hcount⟩
  · exact exists_decodeCounts

theorem get?_of_decodeCounts {counts : Counts} (h : decodeCounts key rows = .ok counts)
    {name : String} {n : Nat} : counts.get? name = some n ↔ LastTally key name n rows := by
  obtain ⟨entries, hentries, rfl⟩ := decodeCounts_eq_ok_iff.mp h
  simp only [decodeKeyCount_eq_ok_iff_tallies] at hentries
  simp [Table.ofList, get?_foldl_tallies hentries]

/-- The table is fixed by what the last row of every name says. -/
theorem decodeCounts_eq_ok_iff_lastTally {counts : Counts} :
    decodeCounts key rows = .ok counts ↔ (∀ row ∈ rows, row.Named key ∧ row.Counted) ∧
      ∀ name n, counts.get? name = some n ↔ LastTally key name n rows := by
  constructor
  · intro h
    exact ⟨exists_decodeCounts_iff.mp ⟨counts, h⟩, fun _ _ => get?_of_decodeCounts h⟩
  · rintro ⟨hrows, hlast⟩
    obtain ⟨decoded, hdecoded⟩ := exists_decodeCounts_iff.mpr hrows
    have hsame : decoded = counts := by
      apply Table.ext_get?
      intro name
      apply Option.ext
      intro n
      rw [get?_of_decodeCounts hdecoded, hlast]
    rw [hdecoded, hsame]

theorem decodeCounts_eq_error_iff {e : WalkError} :
    decodeCounts key rows = .error e ↔ decodeRows (decodeKeyCount key) rows = .error e := by
  unfold decodeCounts
  cases decodeRows (decodeKeyCount key) rows <;> simp [Except.map]

/-! ## Rows without a repeated name -/

/-- No two rows have one name. -/
def DistinctNames (key : String) (rows : List Row) : Prop :=
  rows.Pairwise fun row other =>
    ∀ name, row.get? key = some (.string name) → other.get? key ≠ some (.string name)

theorem lastTally_iff_of_distinct (h : DistinctNames key rows) {name : String} {n : Nat} :
    LastTally key name n rows ↔ ∃ row ∈ rows, row.Tallies key name n := by
  constructor
  · intro hlast
    induction hlast with
    | here htally _ => exact ⟨_, List.mem_cons_self, htally⟩
    | later _ ih =>
      obtain ⟨row, hrow, htally⟩ := ih (List.pairwise_cons.mp h).2
      exact ⟨row, List.mem_cons_of_mem _ hrow, htally⟩
  · rintro ⟨row, hrow, htally⟩
    induction rows with
    | nil => cases hrow
    | cons first rest ih =>
      obtain ⟨hfirst, hrest⟩ := List.pairwise_cons.mp h
      rcases List.mem_cons.mp hrow with rfl | hrow
      · exact .here htally fun other hother => hfirst other hother name htally.name
      · exact .later (ih hrest hrow)

theorem DistinctNames.perm {others : List Row} (h : DistinctNames key rows)
    (hperm : rows.Perm others) : DistinctNames key others := by
  apply hperm.pairwise h
  intro row other hnames name hother hrow
  exact hnames name hrow hother

theorem decodeCounts_perm {others : List Row} {counts : Counts}
    (h : decodeCounts key rows = .ok counts) (hperm : rows.Perm others)
    (hdistinct : DistinctNames key rows) : decodeCounts key others = .ok counts := by
  obtain ⟨hrows, hlast⟩ := decodeCounts_eq_ok_iff_lastTally.mp h
  refine decodeCounts_eq_ok_iff_lastTally.mpr
    ⟨fun row hrow => hrows row (hperm.mem_iff.mpr hrow), ?_⟩
  intro name n
  rw [hlast, lastTally_iff_of_distinct hdistinct, lastTally_iff_of_distinct (hdistinct.perm hperm)]
  simp only [hperm.mem_iff]

/-! ## The ranking -/

/-- Higher counts first, names of one count by code points. -/
def RanksBefore (a b : String × Nat) : Prop := b.2 < a.2 ∨ a.2 = b.2 ∧ a.1 < b.1

/-- Every entry of the table, once and at its rank. -/
structure Ranking (counts : Counts) (ranked : List (String × Nat)) : Prop where
  once : ∀ name n, ranked.count (name, n) = if counts.get? name = some n then 1 else 0
  increasing : ranked.Pairwise RanksBefore

theorem RanksBefore.asymm {a b : String × Nat} (h : RanksBefore a b) : ¬ RanksBefore b a := by
  rintro (hcount | ⟨hcount, hname⟩)
  · rcases h with h | ⟨h, -⟩ <;> omega
  · rcases h with h | ⟨-, h⟩
    · omega
    · exact String.lt_asymm hname h

theorem frequencyLE_iff {a b : String × Nat} :
    frequencyLE a b = true ↔ b.2 < a.2 ∨ a.2 = b.2 ∧ a.1 ≤ b.1 := by
  simp [frequencyLE, Table.isLE_compare_iff]

theorem frequencyLE_trans (a b c : String × Nat) (h : frequencyLE a b = true)
    (h' : frequencyLE b c = true) : frequencyLE a c = true := by
  rw [frequencyLE_iff] at h h' ⊢
  rcases h with h | ⟨h, hname⟩
  · rcases h' with h' | ⟨h', -⟩ <;> exact .inl (by omega)
  · rcases h' with h' | ⟨h', hname'⟩
    · exact .inl (by omega)
    · exact .inr ⟨h.trans h', String.le_trans hname hname'⟩

theorem frequencyLE_total (a b : String × Nat) : (frequencyLE a b || frequencyLE b a) = true := by
  rw [Bool.or_eq_true, frequencyLE_iff, frequencyLE_iff]
  rcases Nat.lt_trichotomy a.2 b.2 with hlt | heq | hgt
  · exact .inr (.inl hlt)
  · rcases String.le_total a.1 b.1 with hname | hname
    · exact .inl (.inr ⟨heq, hname⟩)
    · exact .inr (.inr ⟨heq.symm, hname⟩)
  · exact .inl (.inl hgt)

theorem ranking_byFrequency (counts : Counts) : Ranking counts counts.byFrequency := by
  have hperm : counts.byFrequency.Perm counts.entries := List.mergeSort_perm _ _
  have hsorted : counts.byFrequency.Pairwise fun a b => frequencyLE a b = true :=
    List.pairwise_mergeSort frequencyLE_trans frequencyLE_total counts.entries
  have hkeys : (counts.entries.map (·.1)).Nodup := counts.nodup_keys
  have hnames : counts.byFrequency.Pairwise fun a b => a.1 ≠ b.1 :=
    List.pairwise_map.mp ((hperm.map _).nodup_iff.mpr hkeys)
  constructor
  · intro name n
    rw [hperm.count_eq, counts.nodup_entries.count]
    simp only [Table.get?_eq_some_iff]
  · apply hsorted.imp₂ _ hnames
    intro a b hle hne
    rcases frequencyLE_iff.mp hle with hcount | ⟨hcount, hname⟩
    · exact .inl hcount
    · exact .inr ⟨hcount, Std.lt_of_le_of_ne hname hne⟩

theorem ranking_iff {counts : Counts} {ranked : List (String × Nat)} :
    Ranking counts ranked ↔ counts.byFrequency = ranked := by
  have hranking := ranking_byFrequency counts
  constructor
  · intro h
    have hcount : ∀ e, counts.byFrequency.count e = ranked.count e := by
      rintro ⟨name, n⟩
      rw [hranking.once, h.once]
    apply (List.perm_iff_count.mpr hcount).eq_of_pairwise _ hranking.increasing h.increasing
    intro a b _ _ hbefore hafter
    exact absurd hafter hbefore.asymm
  · rintro rfl
    exact hranking

/-- Rows with a name and a count each give a table in which the last row of a name counts. Unless
all rows are such, the first that is not is reported, a missing name before a missing count. The
ranking of a table is the only one there is, and rows that do not repeat a name are ranked alike in
every order. -/
theorem ranked_counts_canonical (key : String) (rows : List Row) :
    ((∃ counts, decodeCounts key rows = .ok counts) ↔ ∀ row ∈ rows, row.Named key ∧ row.Counted) ∧
    (∀ counts, decodeCounts key rows = .ok counts ↔ (∀ row ∈ rows, row.Named key ∧ row.Counted) ∧
      ∀ name n, counts.get? name = some n ↔ LastTally key name n rows) ∧
    (∀ e, decodeCounts key rows = .error e ↔
      ∃ before row later reason, rows = before ++ row :: later ∧
        (∀ earlier ∈ before, Row.Named key earlier ∧ Row.Counted earlier) ∧
        row.Untallied key reason ∧ e = .decode before.length reason) ∧
    (∀ (counts : Counts) ranked, Ranking counts ranked ↔ counts.byFrequency = ranked) ∧
    ∀ counts others, decodeCounts key rows = .ok counts → rows.Perm others →
      DistinctNames key rows →
      ∃ again, decodeCounts key others = .ok again ∧ again.byFrequency = counts.byFrequency := by
  refine ⟨exists_decodeCounts_iff, fun _ => decodeCounts_eq_ok_iff_lastTally, ?_,
    fun _ _ => ranking_iff, ?_⟩
  · intro e
    simp only [decodeCounts_eq_error_iff, (obeys_decodeKeyCount key).decodeRows_eq_error_iff,
      Row.tallied_iff_firstReason, Row.untallied_iff_firstReason]
  · intro counts others hcounts hperm hdistinct
    exact ⟨counts, decodeCounts_perm hcounts hperm hdistinct, rfl⟩

def barRow : Row := .ofList [("label", .string "Bar"), ("count", .number (.integer 4 (by decide)))]

def cityRow : Row :=
  .ofList [("label", .string "City"), ("count", .number (.integer 4 (by decide)))]

def personRow : Row :=
  .ofList [("label", .string "Person"), ("count", .number (.integer 5 (by decide)))]

/-- Two labels are as frequent, and the rows do not come in the order of the ranking. -/
theorem ranked_counts_canonical_labels :
    decodeCounts "label" [cityRow, personRow, barRow] =
      .ok (.ofList [("Bar", 4), ("City", 4), ("Person", 5)]) ∧
    [cityRow, personRow, barRow].Perm [barRow, cityRow, personRow] ∧
    DistinctNames "label" [cityRow, personRow, barRow] ∧
    ∃ again, decodeCounts "label" [barRow, cityRow, personRow] = .ok again ∧
      again.byFrequency = [("Person", 5), ("Bar", 4), ("City", 4)] := by
  have hcounts : decodeCounts "label" [cityRow, personRow, barRow] =
      .ok (.ofList [("Bar", 4), ("City", 4), ("Person", 5)]) := by
    decide +kernel
  have hperm : [cityRow, personRow, barRow].Perm [barRow, cityRow, personRow] :=
    @List.perm_append_comm _ [cityRow, personRow] [barRow]
  have hdistinct : DistinctNames "label" [cityRow, personRow, barRow] := by
    have hbar : barRow.get? "label" = some (.string "Bar") := rfl
    have hcity : cityRow.get? "label" = some (.string "City") := rfl
    have hperson : personRow.get? "label" = some (.string "Person") := rfl
    simp [DistinctNames, hbar, hcity, hperson]
  obtain ⟨-, -, -, -, hlike⟩ := ranked_counts_canonical "label" [cityRow, personRow, barRow]
  obtain ⟨again, hagain, hranked⟩ := hlike _ _ hcounts hperm hdistinct
  refine ⟨hcounts, hperm, hdistinct, again, hagain, hranked.trans ?_⟩
  have hentries : (Table.ofList [("Bar", 4), ("City", 4), ("Person", 5)] : Counts).entries =
      [("Bar", 4), ("City", 4), ("Person", 5)] := by
    decide +kernel
  have hbar : frequencyLE ("Bar", 4) ("City", 4) = true := by decide +kernel
  have hperson : frequencyLE ("Bar", 4) ("Person", 5) = false := by decide +kernel
  rw [Counts.byFrequency, hentries]
  simp [List.mergeSort, hbar, hperson]

end SchemaWalk
