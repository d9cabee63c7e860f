import Mathlib.Data.List.Forall2
import SchemaWalk.Proofs.Table.Contents
import SchemaWalk.Row

/-! # What is asked of a row

A reader of rows looks at one field after another. What it asks can be listed, and the first item of
the list that a row does not meet is the one it complains about. Rows that are read one by one fail
with the first row that does not fit, whatever stands behind it. -/

namespace SchemaWalk

/-- What a row must have under a name, and what is said of a value that is not it. -/
structure FieldCheck where
  name : String
  accepts : Json → Bool
  complaint : Json → String

namespace FieldCheck

def string (name : String) : FieldCheck where
  name := name
  accepts
    | .string _ => true
    | _ => false
  complaint found := "field '" ++ name ++ "' is not a string: " ++ found.render

def boolean (name : String) : FieldCheck where
  name := name
  accepts
    | .bool _ => true
    | _ => false
  complaint found := "field '" ++ name ++ "' is not a boolean: " ++ found.render

/-- Numbers of more than 64 bits are no values at all. -/
def count (name : String) : FieldCheck where
  name := name
  accepts
    | .number (.integer value _) => 0 ≤ value
    | _ => false
  complaint found := "field '" ++ name ++ "' is not a count: " ++ found.render

def properties : FieldCheck where
  name := "props"
  accepts
    | .object _ => true
    | _ => false
  complaint found := "props is not a map: " ++ found.render

/-- What is wrong with a row under the name, if anything is. -/
def reason? (c : FieldCheck) (row : Row) : Option String :=
  match row.get? c.name with
  | none => some ("missing field '" ++ c.name ++ "'")
  | some found => if c.accepts found then none else some (c.complaint found)

theorem reason?_eq_none_iff {c : FieldCheck} {row : Row} :
    c.reason? row = none ↔ ∃ found, row.get? c.name = some found ∧ c.accepts found = true := by
  unfold reason?
  cases row.get? c.name with
  | none => simp
  | some found => simp

theorem reason?_eq_some_iff {c : FieldCheck} {row : Row} {reason : String} :
    c.reason? row = some reason ↔
      (row.get? c.name = none ∧ "missing field '" ++ c.name ++ "'" = reason) ∨
        ∃ found, row.get? c.name = some found ∧ ¬ c.accepts found = true ∧
          c.complaint found = reason := by
  unfold reason?
  cases row.get? c.name with
  | none => simp
  | some found => simp

end FieldCheck

def firstReason (checks : List FieldCheck) (row : Row) : Option String :=
  checks.findSome? (·.reason? row)

theorem firstReason_singleton (c : FieldCheck) (row : Row) :
    firstReason [c] row = c.reason? row :=
  List.findSome?_singleton

theorem firstReason_append (checks others : List FieldCheck) (row : Row) :
    firstReason (checks ++ others) row = (firstReason checks row).or (firstReason others row) :=
  List.findSome?_append

/-- The value of a member, the last one if there are several of its name. -/
def Json.member? (members : List (String × Json)) (key : String) : Option Json :=
  Table.find key members.reverse

/-! ## Readers of one row -/

variable {α β : Type}

/-- A reader that complains about the first check that fails, and reads the row when none does. -/
structure Obeys (checks : List FieldCheck) (read : Row → Except RowFault α) : Prop where
  reads : ∀ row, firstReason checks row = none → ∃ x, read row = .ok x
  refuses : ∀ row reason, firstReason checks row = some reason →
    ∃ fault, read row = .error fault ∧ fault.reason = reason

theorem obeys_pure (x : α) : Obeys [] fun _ => .ok x where
  reads _ _ := ⟨x, rfl⟩
  refuses _ _ h := by cases h

theorem Obeys.exists_ok_iff {checks : List FieldCheck} {read : Row → Except RowFault α}
    (h : Obeys checks read) {row : Row} :
    (∃ x, read row = .ok x) ↔ firstReason checks row = none := by
  constructor
  · rintro ⟨x, hx⟩
    cases hreason : firstReason checks row with
    | none => rfl
    | some reason =>
      obtain ⟨fault, hfault, -⟩ := h.refuses row reason hreason
      rw [hfault] at hx
      cases hx
  · exact h.reads row

theorem Obeys.bind {checks others : List FieldCheck} {read : Row → Except RowFault α}
    {next : α → Row → Except RowFault β} (h : Obeys checks read)
    (hnext : ∀ x, Obeys others (next x)) :
    Obeys (checks ++ others) fun row => (read row).bind fun x => next x row := by
  constructor
  · intro row hnone
    rw [firstReason_append, Option.or_eq_none_iff] at hnone
    obtain ⟨x, hx⟩ := h.reads row hnone.1
    simp only [hx, Except.bind]
    exact (hnext x).reads row hnone.2
  · intro row reason hsome
    rw [firstReason_append] at hsome
    cases hfirst : firstReason checks row with
    | some first =>
      rw [hfirst, Option.some_or] at hsome
      obtain ⟨fault, hfault, hreason⟩ := h.refuses row first hfirst
      simp only [hfault, Except.bind]
      exact ⟨fault, rfl, hreason.trans (Option.some.inj hsome)⟩
    | none =>
      rw [hfirst, Option.none_or] at hsome
      obtain ⟨x, hx⟩ := h.reads row hfirst
      simp only [hx, Except.bind]
      exact (hnext x).refuses row reason hsome

/-- What is made of the value that was read may hang on the row too. -/
theorem Obeys.map {checks : List FieldCheck} {read : Row → Except RowFault α}
    (h : Obeys checks read) (f : Row → α → β) :
    Obeys checks fun row => (read row).map (f row) := by
  constructor
  · intro row hnone
    obtain ⟨x, hx⟩ := h.reads row hnone
    exact ⟨f row x, by rw [hx]; rfl⟩
  · intro row reason hsome
    obtain ⟨fault, hfault, hreason⟩ := h.refuses row reason hsome
    exact ⟨fault, by rw [hfault]; rfl, hreason⟩

namespace Row

theorem field_bind_eq_ok_iff {row : Row} {name : String} {pick : Json → Except RowFault α} {x : α} :
    (row.field name).bind pick = .ok x ↔
      ∃ found, row.get? name = some found ∧ pick found = .ok x := by
  unfold field
  cases row.get? name with
  | none => simp [Except.bind]
  | some found => simp [Except.bind]

theorem obeys_field {c : FieldCheck} {pick : Json → Except RowFault α}
    (haccepts : ∀ found, c.accepts found = true → ∃ x, pick found = .ok x)
    (hrefuses : ∀ found, c.accepts found = false →
      ∃ fault, pick found = .error fault ∧ fault.reason = c.complaint found) :
    Obeys [c] fun row => (row.field c.name).bind pick := by
  constructor
  · intro row hnone
    rw [firstReason_singleton, FieldCheck.reason?_eq_none_iff] at hnone
    obtain ⟨found, hfound, haccepted⟩ := hnone
    obtain ⟨x, hx⟩ := haccepts found haccepted
    exact ⟨x, field_bind_eq_ok_iff.mpr ⟨found, hfound, hx⟩⟩
  · intro row reason hsome
    rw [firstReason_singleton, FieldCheck.reason?] at hsome
    unfold field
    cases hfound : row.get? c.name with
    | none =>
      rw [hfound] at hsome
      exact ⟨.missing c.name, rfl, Option.some.inj hsome⟩
    | some found =>
      rw [hfound] at hsome
      cases haccepted : c.accepts found with
      | true => simp [haccepted] at hsome
      | false =>
        simp only [haccepted, Bool.false_eq_true, if_false, Option.some.injEq] at hsome
        obtain ⟨fault, hfault, hreason⟩ := hrefuses found haccepted
        exact ⟨fault, hfault, hreason.trans hsome⟩

theorem obeys_string (name : String) : Obeys [.string name] fun row => row.string name := by
  apply obeys_field (c := .string name)
  · intro found haccepted
    cases found <;> first | exact ⟨_, rfl⟩ | cases haccepted
  · intro found hrefused
    cases found <;> first | exact ⟨_, rfl, rfl⟩ | cases hrefused

theorem obeys_boolean (name : String) : Obeys [.boolean name] fun row => row.boolean name := by
  apply obeys_field (c := .boolean name)
  · intro found haccepted
    cases found <;> first | exact ⟨_, rfl⟩ | cases haccepted
  · intro found hrefused
    cases found <;> first | exact ⟨_, rfl, rfl⟩ | cases hrefused

theorem obeys_properties : Obeys [.properties] properties := by
  apply obeys_field (c := .properties)
  · intro found haccepted
    cases found <;> first | exact ⟨_, rfl⟩ | cases haccepted
  · intro found hrefused
    cases found <;> first | exact ⟨_, rfl, rfl⟩ | cases hrefused

theorem toNat?_eq_some_iff {found : Json} {n : Nat} :
    found.toNat? = some n ↔ ∃ h, found = .number (.integer n h) := by
  constructor
  · intro h
    unfold Json.toNat? at h
    split at h
    · next value inRange =>
      obtain ⟨hle, hn⟩ := Option.ite_none_right_eq_some.mp h
      have hvalue : value = n := by
        have := Option.some.inj hn
        omega
      subst hvalue
      exact ⟨inRange, rfl⟩
    · cases h
  · rintro ⟨h, rfl⟩
    simp [Json.toNat?]

theorem obeys_count (name : String) : Obeys [.count name] fun row => row.count name := by
  have hpick : ∀ found : Json, (FieldCheck.count name).accepts found = found.toNat?.isSome := by
    intro found
    cases found with
    | number value =>
      cases value with
      | integer value inRange =>
        by_cases h : 0 ≤ value
        · simp [FieldCheck.count, Json.toNat?, h]
        · simp [FieldCheck.count, Json.toNat?, h]
      | float value => rfl
    | _ => rfl
  apply obeys_field (c := .count name)
  · intro found haccepted
    rw [hpick, Option.isSome_iff_exists] at haccepted
    obtain ⟨n, hn⟩ := haccepted
    exact ⟨n, by rw [hn]; rfl⟩
  · intro found hrefused
    rw [hpick, Option.isSome_eq_false_iff, Option.isNone_iff_eq_none] at hrefused
    exact ⟨.notCount name found, by rw [hrefused]; rfl, rfl⟩

/-! ## What is read -/

variable {row : Row} {name : String}

theorem string_eq_ok_iff {s : String} :
    row.string name = .ok s ↔ row.get? name = some (.string s) := by
  refine field_bind_eq_ok_iff.trans ?_
  constructor
  · rintro ⟨found, hfound, hpick⟩
    cases found <;> cases hpick
    exact hfound
  · intro h
    exact ⟨_, h, rfl⟩

theorem boolean_eq_ok_iff {b : Bool} :
    row.boolean name = .ok b ↔ row.get? name = some (.bool b) := by
  refine field_bind_eq_ok_iff.trans ?_
  constructor
  · rintro ⟨found, hfound, hpick⟩
    cases found <;> cases hpick
    exact hfound
  · intro h
    exact ⟨_, h, rfl⟩

theorem count_eq_ok_iff {n : Nat} :
    row.count name = .ok n ↔ ∃ h, row.get? name = some (.number (.integer n h)) := by
  refine field_bind_eq_ok_iff.trans ?_
  constructor
  · rintro ⟨found, hfound, hpick⟩
    cases hn : found.toNat? with
    | none =>
      rw [hn] at hpick
      cases hpick
    | some m =>
      rw [hn] at hpick
      cases hpick
      obtain ⟨h, rfl⟩ := toNat?_eq_some_iff.mp hn
      exact ⟨h, hfound⟩
  · rintro ⟨h, hfound⟩
    exact ⟨_, hfound, by rw [toNat?_eq_some_iff.mpr ⟨h, rfl⟩]; rfl⟩

theorem get?_texts (members : List (String × Json)) (key : String) :
    (Table.ofList (members.map fun m => (m.1, m.2.toText))).get? key =
      (Json.member? members key).map Json.toText := by
  rw [Table.get?_ofList, ← List.map_reverse, Table.find_map]
  rfl

theorem properties_eq_ok_iff {props : Table String String} :
    row.properties = .ok props ↔ ∃ members, row.get? "props" = some (.object members) ∧
      ∀ key, props.get? key = (Json.member? members key).map Json.toText := by
  refine field_bind_eq_ok_iff.trans ?_
  constructor
  · rintro ⟨found, hfound, hpick⟩
    cases found <;> cases hpick
    exact ⟨_, hfound, get?_texts _⟩
  · rintro ⟨members, hmembers, hprops⟩
    refine ⟨_, hmembers, congrArg Except.ok (Table.ext_get? ?_)⟩
    intro key
    rw [get?_texts, hprops]

end Row

/-! ## Readers of all rows -/

variable {decode : Row → Except RowFault α} {rows before : List Row}

theorem decodeFrom_eq_ok_iff {index : Nat} {xs : List α} :
    decodeFrom decode index rows = .ok xs ↔
      List.Forall₂ (fun row x => decode row = .ok x) rows xs := by
  induction rows generalizing index xs with
  | nil => simp [decodeFrom, eq_comm]
  | cons row rest ih =>
    rw [decodeFrom, List.forall₂_cons_left_iff]
    constructor
    · intro h
      cases hrow : decode row with
      | error fault => simp [hrow] at h
      | ok x =>
        cases hrest : decodeFrom decode (index + 1) rest with
        | error e => simp [hrow, hrest] at h
        | ok ys =>
          simp only [hrow, hrest, Except.ok.injEq] at h
          exact ⟨x, ys, rfl, ih.mp hrest, h.symm⟩
    · rintro ⟨x, ys, hx, hys, rfl⟩
      simp only [hx, ih.mpr hys]

theorem exists_decodeFrom (index : Nat) (h : ∀ row ∈ rows, ∃ x, decode row = .ok x) :
    ∃ xs, decodeFrom decode index rows = .ok xs := by
  induction rows generalizing index with
  | nil => exact ⟨[], rfl⟩
  | cons row rest ih =>
    obtain ⟨x, hx⟩ := h row List.mem_cons_self
    obtain ⟨xs, hxs⟩ := ih (index + 1) fun other hother => h other (List.mem_cons_of_mem row hother)
    exact ⟨x :: xs, by simp only [decodeFrom, hx, hxs]⟩

theorem mem_decoded_iff {xs : List α}
    (h : List.Forall₂ (fun row x => decode row = .ok x) rows xs) {x : α} :
    x ∈ xs ↔ ∃ row ∈ rows, decode row = .ok x := by
  induction h with
  | nil => simp
  | cons hrow _ ih => simp [hrow, ih, eq_comm]

/-- The rows behind a faulty one are not looked at. -/
theorem decodeFrom_fault {row : Row} {fault : RowFault} (index : Nat) (later : List Row)
    (hbefore : ∀ earlier ∈ before, ∃ x, decode earlier = .ok x)
    (hrow : decode row = .error fault) :
    decodeFrom decode index (before ++ row :: later) =
      .error (.decode (index + before.length) fault.reason) := by
  induction before generalizing index with
  | nil => simp only [List.nil_append, decodeFrom, hrow, List.length_nil, Nat.add_zero]
  | cons first rest ih =>
    obtain ⟨x, hx⟩ := hbefore first List.mem_cons_self
    have hrest := ih (index + 1) fun other hother =>
      hbefore other (List.mem_cons_of_mem first hother)
    have hindex : index + 1 + rest.length = index + (first :: rest).length := by
      rw [List.length_cons]
      omega
    simp only [List.cons_append, decodeFrom, hx, hrest, hindex]

variable {checks : List FieldCheck}

theorem Obeys.decodeRows_eq_error (h : Obeys checks decode) {row : Row} {reason : String}
    (hbefore : ∀ earlier ∈ before, firstReason checks earlier = none)
    (hreason : firstReason checks row = some reason) (later : List Row) :
    decodeRows decode (before ++ row :: later) = .error (.decode before.length reason) := by
  obtain ⟨fault, hfault, rfl⟩ := h.refuses row reason hreason
  have hreads : ∀ earlier ∈ before, ∃ x, decode earlier = .ok x := fun earlier hearlier =>
    h.reads earlier (hbefore earlier hearlier)
  rw [decodeRows, decodeFrom_fault 0 later hreads hfault, Nat.zero_add]

theorem Obeys.exists_decodeRows_iff (h : Obeys checks decode) :
    (∃ xs, decodeRows decode rows = .ok xs) ↔ ∀ row ∈ rows, firstReason checks row = none := by
  constructor
  · rintro ⟨xs, hxs⟩
    cases hsome : rows.findSome? (firstReason checks) with
    | none => exact List.findSome?_eq_none_iff.mp hsome
    | some reason =>
      obtain ⟨before, row, later, rfl, hreason, hbefore⟩ := List.findSome?_eq_some_iff.mp hsome
      rw [h.decodeRows_eq_error hbefore hreason] at hxs
      cases hxs
  · intro hall
    exact exists_decodeFrom 0 fun row hrow => h.reads row (hall row hrow)

/-- The error names the first row that a check fails for, and the first check that fails for it. -/
theorem Obeys.decodeRows_eq_error_iff (h : Obeys checks decode) {e : WalkError} :
    decodeRows decode rows = .error e ↔
      ∃ before row later reason, rows = before ++ row :: later ∧
        (∀ earlier ∈ before, firstReason checks earlier = none) ∧
        firstReason checks row = some reason ∧ e = .decode before.length reason := by
  constructor
  · intro herror
    cases hsome : rows.findSome? (firstReason checks) with
    | none =>
      obtain ⟨xs, hxs⟩ := h.exists_decodeRows_iff.mpr (List.findSome?_eq_none_iff.mp hsome)
      rw [hxs] at herror
      cases herror
    | some reason =>
      obtain ⟨before, row, later, rfl, hreason, hbefore⟩ := List.findSome?_eq_some_iff.mp hsome
      rw [h.decodeRows_eq_error hbefore hreason] at herror
      exact ⟨before, row, later, reason, rfl, hbefore, hreason, (Except.error.inj herror).symm⟩
  · rintro ⟨before, row, later, reason, rfl, hbefore, hreason, rfl⟩
    exact h.decodeRows_eq_error hbefore hreason later

end SchemaWalk
