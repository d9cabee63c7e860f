import SchemaWalk.Counts
import SchemaWalk.Proofs.Row.Checks

/-! # Decoded counts

Rows of counts are decoded one by one, and the first row without a count fails them all. Values are
sorted once all rows are decoded: a stable sort, which leaves no choice as to the order. -/

namespace SchemaWalk

/-! ## Rows with a count -/

/-- The row has a whole number of at most 64 bits, and not a negative one. -/
def Row.Counted (row : Row) : Prop :=
  ∃ (n : Nat) (h : _), row.get? "count" = some (.number (.integer n h))

/-- What is said of a row that has none. -/
inductive Row.Uncounted (row : Row) : String → Prop where
  | missing : row.get? "count" = none → Uncounted row "missing field 'count'"
  | unfit {found} : row.get? "count" = some found →
      (∀ (n : Nat) h, found ≠ .number (.integer n h)) →
      Uncounted row ("field 'count' is not a count: " ++ found.render)

theorem FieldCheck.accepts_count_iff {name : String} {found : Json} :
    (count name).accepts found = true ↔ ∃ (n : Nat) (h : _), found = .number (.integer n h) := by
  constructor
  · intro haccepted
    cases found with
    | number value =>
      cases value with
      | integer value inRange =>
        have hle : 0 ≤ value := of_decide_eq_true haccepted
        obtain ⟨n, rfl⟩ := Int.eq_ofNat_of_zero_le hle
        exact ⟨n, inRange, rfl⟩
      | float value => cases haccepted
    | _ => cases haccepted
  · rintro ⟨n, h, rfl⟩
    exact decide_eq_true (Int.natCast_nonneg n)

theorem Row.counted_iff_firstReason {row : Row} :
    row.Counted ↔ firstReason [.count "count"] row = none := by
  rw [firstReason_singleton, FieldCheck.reason?_eq_none_iff]
  constructor
  · rintro ⟨n, h, hfound⟩
    exact ⟨_, hfound, FieldCheck.accepts_count_iff.mpr ⟨n, h, rfl⟩⟩
  · rintro ⟨found, hfound, haccepted⟩
    obtain ⟨n, h, rfl⟩ := FieldCheck.accepts_count_iff.mp haccepted
    exact ⟨n, h, hfound⟩

theorem Row.uncounted_iff_firstReason {row : Row} {reason : String} :
    row.Uncounted reason ↔ firstReason [.count "count"] row = some reason := by
  rw [firstReason_singleton, FieldCheck.reason?_eq_some_iff]
  constructor
  · intro hreason
    cases hreason with
    | missing hmissing => exact .inl ⟨hmissing, rfl⟩
    | unfit hfound hunfit =>
      refine .inr ⟨_, hfound, ?_, rfl⟩
      rintro haccepted
      obtain ⟨n, h, heq⟩ := FieldCheck.accepts_count_iff.mp haccepted
      exact hunfit n h heq
  · rintro (⟨hmissing, rfl⟩ | ⟨found, hfound, hrefused, rfl⟩)
    · exact .missing hmissing
    · refine .unfit hfound ?_
      intro n h heq
      exact hrefused (FieldCheck.accepts_count_iff.mpr ⟨n, h, heq⟩)

/-! ## Keys -/

theorem decodeKeyCount_eq_ok_iff {key : String} {row : Row} {entry : String × Nat} :
    decodeKeyCount key row = .ok entry ↔ row.get? key = some (.string entry.1) ∧
      ∃ h, row.get? "count" = some (.number (.integer entry.2 h)) := by
  unfold decodeKeyCount
  simp only [bind_eq_ok_iff, Row.string_eq_ok_iff, Row.count_eq_ok_iff]
  constructor
  · rintro ⟨name, hname, n, hn, hentry⟩
    cases hentry
    exact ⟨hname, hn⟩
  · rintro ⟨hname, hn⟩
    exact ⟨_, hname, _, hn, rfl⟩

theorem decodeCounts_eq_ok_iff {key : String} {rows : List Row} {counts : Counts} :
    decodeCounts key rows = .ok counts ↔
      ∃ entries, List.Forall₂ (fun row entry => decodeKeyCount key row = .ok entry) rows entries ∧
        .ofList entries = counts := by
  have hread : ∀ entries,
      List.Forall₂ (fun row entry => decodeKeyCount key row = .ok entry) rows entries ↔
        decodeFrom (decodeKeyCount key) 0 rows = .ok entries := fun _ => decodeFrom_eq_ok_iff.symm
  simp only [hread]
  change (decodeFrom (decodeKeyCount key) 0 rows).map _ = _ ↔ _
  cases decodeFrom (decodeKeyCount key) 0 rows <;> simp [Except.map]

theorem mem_keys_of_decodeCounts {key : String} {rows : List Row} {counts : Counts}
    (h : decodeCounts key rows = .ok counts) {name : String} :
    name ∈ counts.keys ↔ ∃ row ∈ rows, row.get? key = some (.string name) ∧ row.Counted := by
  obtain ⟨entries, hentries, rfl⟩ := decodeCounts_eq_ok_iff.mp h
  rw [Table.mem_keys_ofList, List.mem_map]
  simp only [mem_decoded_iff hentries, decodeKeyCount_eq_ok_iff]
  constructor
  · rintro ⟨⟨name, n⟩, ⟨row, hrow, hname, hcount⟩, rfl⟩
    exact ⟨row, hrow, hname, n, hcount⟩
  · rintro ⟨row, hrow, hname, n, hcount⟩
    exact ⟨(name, n), ⟨row, hrow, hname, hcount⟩, rfl⟩

theorem exists_decodeCounts {key : String} {rows : List Row}
    (h : ∀ row ∈ rows, (∃ name, row.get? key = some (.string name)) ∧ row.Counted) :
    ∃ counts, decodeCounts key rows = .ok counts := by
  have hread : ∀ row ∈ rows, ∃ entry, decodeKeyCount key row = .ok entry := by
    intro row hrow
    obtain ⟨⟨name, hname⟩, n, hcount⟩ := h row hrow
    exact ⟨(name, n), decodeKeyCount_eq_ok_iff.mpr ⟨hname, hcount⟩⟩
  obtain ⟨entries, hentries⟩ := exists_decodeFrom 0 hread
  exact ⟨_, decodeCounts_eq_ok_iff.mpr ⟨entries, decodeFrom_eq_ok_iff.mp hentries, rfl⟩⟩

theorem row_of_decodeCounts {key : String} {rows : List Row} {counts : Counts}
    (h : decodeCounts key rows = .ok counts) {row : Row} (hrow : row ∈ rows) :
    ∃ name, row.get? key = some (.string name) ∧ row.Counted := by
  obtain ⟨entries, hentries, -⟩ := decodeCounts_eq_ok_iff.mp h
  obtain ⟨i, hi, rfl⟩ := List.getElem_of_mem hrow
  have hentry := hentries.get hi (hentries.length_eq ▸ hi)
  obtain ⟨hname, hcount⟩ := decodeKeyCount_eq_ok_iff.mp hentry
  exact ⟨_, hname, _, hcount⟩

/-- A key that is the only one, however often it is repeated in the rows. -/
theorem decodeCounts_keys_eq_singleton_iff {key name : String} {rows : List Row} :
    (∃ counts, decodeCounts key rows = .ok counts ∧ counts.keys = [name]) ↔
      rows ≠ [] ∧ ∀ row ∈ rows, row.get? key = some (.string name) ∧ row.Counted := by
  constructor
  · rintro ⟨counts, hcounts, hkeys⟩
    have hmem : name ∈ counts.keys ↔ _ := mem_keys_of_decodeCounts hcounts
    constructor
    · rintro rfl
      simp [hkeys] at hmem
    · intro row hrow
      obtain ⟨other, hother, hcount⟩ := row_of_decodeCounts hcounts hrow
      have hkey := (mem_keys_of_decodeCounts hcounts).mpr ⟨row, hrow, hother, hcount⟩
      rw [hkeys, List.mem_singleton] at hkey
      exact ⟨hkey ▸ hother, hcount⟩
  · rintro ⟨hne, hall⟩
    obtain ⟨counts, hcounts⟩ := exists_decodeCounts fun row hrow =>
      ⟨⟨name, (hall row hrow).1⟩, (hall row hrow).2⟩
    refine ⟨counts, hcounts, ?_⟩
    have hmem : ∀ other, other ∈ counts.keys ↔ other ∈ [name] := by
      intro other
      rw [mem_keys_of_decodeCounts hcounts, List.mem_singleton]
      constructor
      · rintro ⟨row, hrow, hother, -⟩
        rw [(hall row hrow).1] at hother
        cases hother
        rfl
      · rintro rfl
        obtain ⟨row, hrow⟩ := List.exists_mem_of_ne_nil rows hne
        exact ⟨row, hrow, hall row hrow⟩
    have hnodup : [name].Nodup := List.pairwise_singleton _ _
    exact List.perm_singleton.mp ((List.perm_ext_iff_of_nodup counts.nodup_keys hnodup).mpr hmem)

/-! ## Values -/

/-- What a row says about one value of a property. -/
structure Row.Tells (row : Row) (v : ValueCount) : Prop where
  count : ∃ h, row.get? "count" = some (.number (.integer v.count h))
  absent : row.get? "val" = none ∨ row.get? "val" = some .null → v.value = none
  present : ∀ found, row.get? "val" = some found → found ≠ .null → v.value = some found.toText

def Row.valueText (row : Row) : Option String :=
  match row.get? "val" with
  | none | some .null => none
  | some other => some other.toText

theorem decodeValueCount_eq (row : Row) :
    decodeValueCount row = (row.count "count").map fun n => ⟨row.valueText, n⟩ := by
  unfold decodeValueCount Row.valueText
  cases row.count "count" <;> rfl

theorem obeys_decodeValueCount : Obeys [.count "count"] decodeValueCount := by
  have hmap := (Row.obeys_count "count").map fun row n => (⟨row.valueText, n⟩ : ValueCount)
  simpa only [← decodeValueCount_eq] using hmap

theorem Row.valueText_eq_iff {row : Row} {value : Option String} :
    row.valueText = value ↔
      (row.get? "val" = none ∨ row.get? "val" = some .null → value = none) ∧
      ∀ found, row.get? "val" = some found → found ≠ .null → value = some found.toText := by
  unfold valueText
  cases row.get? "val" with
  | none => simp [eq_comm]
  | some found =>
    cases found with
    | null => simp [eq_comm]
    | _ => simp [eq_comm]

theorem decodeValueCount_eq_ok_iff {row : Row} {v : ValueCount} :
    decodeValueCount row = .ok v ↔ row.Tells v := by
  have hcount : decodeValueCount row = .ok v ↔
      row.count "count" = .ok v.count ∧ row.valueText = v.value := by
    obtain ⟨value, count⟩ := v
    rw [decodeValueCount_eq]
    cases row.count "count" with
    | error fault => simp [Except.map]
    | ok n => simp [Except.map, and_comm]
  rw [hcount, Row.count_eq_ok_iff, Row.valueText_eq_iff]
  constructor
  · rintro ⟨hn, habsent, hpresent⟩
    exact ⟨hn, habsent, hpresent⟩
  · rintro ⟨hn, habsent, hpresent⟩
    exact ⟨hn, habsent, hpresent⟩

/-! ## The order of the values -/

namespace ValueCount

def Descending (values : List ValueCount) : Prop := values.Pairwise fun v w => w.count ≤ v.count

/-- The entries of one count, in their order. -/
def ofCount (n : Nat) (values : List ValueCount) : List ValueCount :=
  values.filter fun v => v.count = n

/-- Higher counts first, and entries of one count in the order in which they were before. -/
structure StablySorted (values decoded : List ValueCount) : Prop where
  perm : values.Perm decoded
  descending : Descending values
  ties : ∀ n, ofCount n values = ofCount n decoded

theorem mem_ofCount {n : Nat} {values : List ValueCount} {v : ValueCount} :
    v ∈ ofCount n values ↔ v ∈ values ∧ v.count = n := by
  rw [ofCount, List.mem_filter, decide_eq_true_iff]

theorem ofCount_cons_self (v : ValueCount) (values : List ValueCount) :
    ofCount v.count (v :: values) = v :: ofCount v.count values :=
  List.filter_cons_of_pos (decide_eq_true rfl)

theorem ofCount_cons_of_ne {n : Nat} {v : ValueCount} (h : v.count ≠ n)
    (values : List ValueCount) : ofCount n (v :: values) = ofCount n values :=
  List.filter_cons_of_neg (by simp [h])

/-- Entries of one count may stand in any order of a descending list, so a sublist of them is found
again in the sorted list as it was. -/
theorem stablySorted_sort (decoded : List ValueCount) :
    StablySorted (sortValueCounts decoded) decoded := by
  let le : ValueCount → ValueCount → Bool := fun v w => w.count ≤ v.count
  have htrans : ∀ u v w, le u v = true → le v w = true → le u w = true := by
    intro u v w huv hvw
    simp only [le, decide_eq_true_iff] at huv hvw ⊢
    omega
  have htotal : ∀ v w, (le v w || le w v) = true := by
    intro v w
    simp only [le, Bool.or_eq_true, decide_eq_true_iff]
    omega
  have hperm : (sortValueCounts decoded).Perm decoded := List.mergeSort_perm decoded le
  constructor
  · exact hperm
  · have hsorted := List.pairwise_mergeSort htrans htotal decoded
    exact hsorted.imp fun h => of_decide_eq_true h
  · intro n
    have hlevel : (ofCount n decoded).Pairwise fun v w => le v w = true := by
      apply List.pairwise_of_forall_mem_list
      intro v hv w hw
      have hequal : w.count = v.count := (mem_ofCount.mp hw).2.trans (mem_ofCount.mp hv).2.symm
      exact decide_eq_true (Nat.le_of_eq hequal)
    have hsublist : (ofCount n decoded).Sublist (sortValueCounts decoded) :=
      List.sublist_mergeSort htrans htotal hlevel List.filter_sublist
    have hwithin : (ofCount n decoded).Sublist (ofCount n (sortValueCounts decoded)) := by
      have hfilter := hsublist.filter fun v => v.count = n
      simpa only [ofCount, List.filter_filter, Bool.and_self] using hfilter
    -- sorting loses no entry, so the sublist is all there is of the count
    exact (hwithin.eq_of_length (hperm.filter _).length_eq.symm).symm

theorem mem_iff_of_ties {values others : List ValueCount}
    (h : ∀ n, ofCount n values = ofCount n others) (v : ValueCount) :
    v ∈ values ↔ v ∈ others := by
  have hvalues : v ∈ ofCount v.count values ↔ v ∈ values := by simp [mem_ofCount]
  have hothers : v ∈ ofCount v.count others ↔ v ∈ others := by simp [mem_ofCount]
  rw [← hvalues, ← hothers, h]

/-- The first entry has the highest count of all, and is the first that has it. -/
theorem eq_of_ties {values others : List ValueCount} (hv : Descending values)
    (ho : Descending others) (h : ∀ n, ofCount n values = ofCount n others) :
    values = others := by
  have hmem := mem_iff_of_ties h
  induction values generalizing others with
  | nil =>
    symm
    apply List.eq_nil_iff_forall_not_mem.mpr
    exact fun v hv => List.not_mem_nil ((hmem v).mpr hv)
  | cons v values ih =>
    cases others with
    | nil => exact absurd ((hmem v).mp List.mem_cons_self) List.not_mem_nil
    | cons o others =>
      obtain ⟨hvtop, hvrest⟩ := List.pairwise_cons.mp hv
      obtain ⟨hotop, horest⟩ := List.pairwise_cons.mp ho
      have hle : v.count ≤ o.count := by
        rcases List.mem_cons.mp ((hmem v).mp List.mem_cons_self) with rfl | hin
        · exact Nat.le_refl _
        · exact hotop v hin
      have hge : o.count ≤ v.count := by
        rcases List.mem_cons.mp ((hmem o).mpr List.mem_cons_self) with rfl | hin
        · exact Nat.le_refl _
        · exact hvtop o hin
      have hfirst := h v.count
      rw [ofCount_cons_self, Nat.le_antisymm hle hge, ofCount_cons_self] at hfirst
      obtain ⟨rfl, -⟩ := List.cons.inj hfirst
      have hrest : ∀ n, ofCount n values = ofCount n others := by
        intro n
        have hn := h n
        by_cases hvn : v.count = n
        · subst hvn
          rw [ofCount_cons_self, ofCount_cons_self] at hn
          exact (List.cons.inj hn).2
        · rwa [ofCount_cons_of_ne hvn, ofCount_cons_of_ne hvn] at hn
      rw [ih hvrest horest hrest (mem_iff_of_ties hrest)]

theorem stablySorted_iff {values decoded : List ValueCount} :
    StablySorted values decoded ↔ sortValueCounts decoded = values := by
  have hsorted := stablySorted_sort decoded
  constructor
  · intro h
    exact eq_of_ties hsorted.descending h.descending fun n => (hsorted.ties n).trans (h.ties n).symm
  · rintro rfl
    exact hsorted

end ValueCount

/-! ## Decoded values -/

variable {rows : List Row}

theorem decodeValueCounts_eq_ok_iff {values : List ValueCount} :
    decodeValueCounts rows = .ok values ↔
      ∃ decoded, decodeRows decodeValueCount rows = .ok decoded ∧
        sortValueCounts decoded = values := by
  unfold decodeValueCounts
  cases decodeRows decodeValueCount rows <;> simp [Except.map]

theorem decodeValueCounts_eq_error_iff {e : WalkError} :
    decodeValueCounts rows = .error e ↔ decodeRows decodeValueCount rows = .error e := by
  unfold decodeValueCounts
  cases decodeRows decodeValueCount rows <;> simp [Except.map]

theorem exists_decodeValueCounts_iff :
    (∃ values, decodeValueCounts rows = .ok values) ↔ ∀ row ∈ rows, row.Counted := by
  simp only [Row.counted_iff_firstReason, ← obeys_decodeValueCount.exists_decodeRows_iff]
  constructor
  · rintro ⟨values, h⟩
    obtain ⟨decoded, hdecoded, -⟩ := decodeValueCounts_eq_ok_iff.mp h
    exact ⟨decoded, hdecoded⟩
  · rintro ⟨decoded, hdecoded⟩
    exact ⟨_, decodeValueCounts_eq_ok_iff.mpr ⟨decoded, hdecoded, rfl⟩⟩

/-- Every row with a count gives one entry, and the order of the entries is fixed by that of the
rows. Unless every row has a count, the first that has none is reported. -/
theorem decodeValueCounts_sorts_stably (rows : List Row) :
    (∀ values, decodeValueCounts rows = .ok values ↔
      ∃ decoded, List.Forall₂ Row.Tells rows decoded ∧ ValueCount.StablySorted values decoded) ∧
    ((∃ values, decodeValueCounts rows = .ok values) ↔ ∀ row ∈ rows, row.Counted) ∧
    ∀ e, decodeValueCounts rows = .error e ↔
      ∃ before row later reason, rows = before ++ row :: later ∧
        (∀ earlier ∈ before, Row.Counted earlier) ∧ row.Uncounted reason ∧
        e = .decode before.length reason := by
  refine ⟨?_, exists_decodeValueCounts_iff, ?_⟩
  · intro values
    simp only [decodeValueCounts_eq_ok_iff, decodeRows, decodeFrom_eq_ok_iff,
      decodeValueCount_eq_ok_iff, ValueCount.stablySorted_iff]
  · intro e
    simp only [decodeValueCounts_eq_error_iff, obeys_decodeValueCount.decodeRows_eq_error_iff,
      Row.counted_iff_firstReason, Row.uncounted_iff_firstReason]

end SchemaWalk
