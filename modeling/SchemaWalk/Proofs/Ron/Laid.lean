import SchemaWalk.Proofs.Ron.Layout

/-! # The texts of a value

A value can be written in many ways: its tokens any gaps apart, its brackets with a comma behind
the last member or without. Which texts are those of a value is said here without the reader, and
the reader takes each of them for the value. What the writer makes is one of them. -/

namespace SchemaWalk.Ron

open Text RonValue

/-- A key and the text of a value, with gaps around the colon between them. -/
inductive Keyed (P : RonValue → List Char → Prop) : String × RonValue → List Char → Prop where
  | mk (key : String) {x g g' text} : Gap g → Gap g' → P x text →
      Keyed P (key, x) (key.toList ++ (g ++ ':' :: (g' ++ text)))

/-- The name of a record and the gap behind it, or nothing. -/
inductive Heading : Option String → List Char → Prop where
  | unnamed : Heading none []
  | named (w : String) {g} : Gap g → Heading (some w) (w.toList ++ g)

/-- The texts of a value made of strings, words, lists and records. -/
inductive Laid : RonValue → List Char → Prop where
  | string (s : String) : Laid (.string s) (quote s).toList
  | word (w : String) : Laid (.unit w) w.toList
  | list {items body} : Listed Laid ']' items body → Laid (.list items) ('[' :: body)
  | record {label head fields body} : Heading label head → Listed (Keyed Laid) ')' fields body →
      Laid (.record label fields) (head ++ '(' :: body)

/-- Values that can be read back: their words are words, none of their records is empty, and
their brackets nest at most so deep. -/
inductive Regular : Nat → RonValue → Prop where
  | string {n} (s : String) : Regular n (.string s)
  | word {n w} : IsWord w → Regular n (.unit w)
  | list {n items} : (∀ x ∈ items, Regular n x) → Regular (n + 1) (.list items)
  | record {n label fields} : (∀ w, label = some w → IsWord w) → fields ≠ [] →
      (∀ f ∈ fields, IsWord f.1) → (∀ f ∈ fields, Regular n f.2) →
      Regular (n + 1) (.record label fields)

theorem Keyed.imp {P Q : RonValue → List Char → Prop} {f : String × RonValue} {text : List Char}
    (h : Keyed P f text) (himp : ∀ text, P f.2 text → Q f.2 text) : Keyed Q f text := by
  cases h with
  | mk key hg hg' hx => exact .mk key hg hg' (himp _ hx)

theorem Regular.mono {n m : Nat} {x : RonValue} (h : Regular n x) (hle : n ≤ m) : Regular m x := by
  induction h generalizing m with
  | string s => exact .string s
  | word hw => exact .word hw
  | list _ ih =>
    obtain ⟨m, rfl⟩ : ∃ k, m = k + 1 := ⟨m - 1, by omega⟩
    exact .list fun x hx => ih x hx (by omega)
  | record hlabel hne hkeys _ ih =>
    obtain ⟨m, rfl⟩ : ∃ k, m = k + 1 := ⟨m - 1, by omega⟩
    exact .record hlabel hne hkeys fun f hf => ih f hf (by omega)

/-! ## The written text -/

theorem gap_newline (level : Nat) : Gap (newline level) := by
  apply gap_cons (.inr (.inr rfl))
  intro c hc
  exact .inl (List.eq_of_mem_replicate hc)

theorem listed_renderItems {level : Nat} {items : List RonValue}
    (h : ∀ x ∈ items, Laid x (x.render level)) (outer : Nat) :
    Listed Laid ']' items (renderItems level items ++ (newline outer ++ [']'])) := by
  induction items with
  | nil => simpa [renderItems] using Listed.nil (gap_newline outer)
  | cons x items ih =>
    have hrest := ih fun y hy => h y (List.mem_cons_of_mem x hy)
    simpa [renderItems] using
      Listed.cons (gap_newline level) (h x List.mem_cons_self) gap_nil hrest

theorem listed_renderFields {level : Nat} {fields : List (String × RonValue)}
    (h : ∀ f ∈ fields, Laid f.2 (f.2.render level)) (outer : Nat) :
    Listed (Keyed Laid) ')' fields (renderFields level fields ++ (newline outer ++ [')'])) := by
  induction fields with
  | nil => simpa [renderFields] using Listed.nil (gap_newline outer)
  | cons f fields ih =>
    obtain ⟨key, x⟩ := f
    have hrest := ih fun y hy => h y (List.mem_cons_of_mem _ hy)
    have hfield : Keyed Laid (key, x) _ :=
      .mk key gap_nil (gap_cons (.inl rfl) gap_nil) (h (key, x) List.mem_cons_self)
    simpa [renderFields] using Listed.cons (gap_newline level) hfield gap_nil hrest

theorem heading_renderName (label : Option String) : Heading label (renderName label) := by
  cases label with
  | none => exact .unnamed
  | some w => simpa [renderName] using Heading.named w gap_nil

theorem laid_render {n : Nat} {x : RonValue} (h : Regular n x) (level : Nat) :
    Laid x (x.render level) := by
  induction h generalizing level with
  | string s => simpa [render] using Laid.string s
  | word _ => simpa [render] using Laid.word _
  | @list n items _ ih =>
    cases items with
    | nil => simpa [render, renderItems, bracket] using Laid.list (Listed.nil gap_nil)
    | cons x items =>
      have hlist := Laid.list (listed_renderItems (fun y hy => ih y hy (level + 1)) level)
      simpa [render, renderItems, bracket] using hlist
  | @record n label fields _ hne _ _ ih =>
    cases fields with
    | nil => exact absurd rfl hne
    | cons f fields =>
      have hrecord := Laid.record (heading_renderName label)
        (listed_renderFields (fun y hy => ih y hy (level + 1)) level)
      simpa [render, renderFields, bracket] using hrecord

/-! ## Every text is read back -/

theorem listed_fields {a : Attributes} {depth : Nat} {fields : List (String × RonValue)}
    {body : List Char} (hwords : ∀ f ∈ fields, IsWord f.1)
    (h : Listed (Keyed (ReadsAs (value a depth))) ')' fields body) :
    Listed (ReadsAs (field (value a depth))) ')' fields body := by
  apply h.imp
  intro f hf text hkeyed
  cases hkeyed with
  | mk key hg hg' hx => exact readsAs_field (hwords _ hf) hg hg' hx

/-- Each level of brackets takes two levels of depth, one for the bracket and one for a member. -/
theorem readsAs_of_laid {a : Attributes} {n : Nat} {x : RonValue} (hx : Regular n x)
    {text : List Char} (h : Laid x text) : ReadsAs (value a (2 * n)) x text := by
  induction hx generalizing text with
  | string s =>
    cases h
    exact readsAs_string _ s
  | word hw =>
    cases h
    exact readsAs_unit _ hw
  | list _ ih =>
    cases h with
    | list hitems => exact readsAs_list (hitems.imp fun x hx text => ih x hx)
  | record hlabel hne hkeys _ ih =>
    cases h with
    | record hhead hbody =>
      have hkeyed := hbody.imp fun f hf text (hk : Keyed Laid f text) =>
        hk.imp fun text => ih f hf
      have hlisted := listed_fields hkeys hkeyed
      cases hhead with
      | unnamed => exact readsAs_record hlisted hne
      | named w hg =>
        rw [List.append_assoc]
        exact readsAs_record_named hlisted hne (hlabel w rfl) hg

end SchemaWalk.Ron
