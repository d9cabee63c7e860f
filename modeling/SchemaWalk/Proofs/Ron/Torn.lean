import SchemaWalk.Proofs.Ron.Laid

/-! # Torn texts

The text of a value breaks off somewhere: inside a gap, a name, a string, or between two tokens. A
reader that takes something all the same comes to the end of what there is, where no bracket can be
closed. So the front of a list is never read as a list. -/

namespace SchemaWalk.Ron

open Text

variable {α : Type}

/-- Nothing but a gap is left behind whatever the reader takes. -/
def Exhausts (r : Reader α) (p : List Char) : Prop :=
  ∀ x rest, r p = some (x, rest) → skipGap rest = some []

/-- Wherever the text or the gap behind it breaks off, the reader uses up what there is. -/
def Torn (r : Reader α) (text : List Char) : Prop :=
  ∀ g p, Gap g → p <+: text ++ g → p ≠ [] → Exhausts r p

theorem exhausts_of_none {r : Reader α} {p : List Char} (h : r p = none) : Exhausts r p := by
  intro x rest hr
  rw [h] at hr
  cases hr

theorem prefix_append_cases {p a b : List Char} (h : p <+: a ++ b) :
    p <+: a ∨ ∃ t, p = a ++ t ∧ t <+: b := by
  rcases List.prefix_or_prefix_of_prefix h (List.prefix_append a b) with hp | ⟨t, rfl⟩
  · exact .inl hp
  · exact .inr ⟨t, rfl, (List.prefix_append_right_inj a).mp h⟩

theorem gap_of_front {g p : List Char} (hg : Gap g) (hp : p <+: g) : Gap p :=
  fun c hc => hg c (hp.mem hc)

theorem Torn.of_readsAs {r : Reader α} {x : α} {text : List Char} (h : ReadsAs r x text)
    (hproper : ∀ p, p <+: text → p ≠ text → p ≠ [] → Exhausts r p) : Torn r text := by
  have hwhole : ∀ {g}, Gap g → Exhausts r (text ++ g) := by
    intro g hg y rest hr
    obtain ⟨rest', hr', hskip⟩ := h.reads g (.finish hg)
    rw [hr'] at hr
    cases hr
    rw [hskip, skipGap_gap hg]
  intro g p hg hp hne
  rcases prefix_append_cases hp with hp | ⟨t, rfl, ht⟩
  · by_cases hpt : p = text
    · subst hpt
      simpa using hwhole gap_nil
    · exact hproper p hp hpt hne
  · exact hwhole (gap_of_front hg ht)

/-! ## Members -/

/-- A bracket breaks off in a gap, within a member, or past the mark behind one. -/
theorem member_cut {p g text g' tail : List Char} {c : Char} (hg : Gap g)
    (hp : p <+: g ++ (text ++ (g' ++ c :: tail))) :
    Gap p ∨ (∃ t, p = g ++ t ∧ t ≠ [] ∧ t <+: text ++ g') ∨
      ∃ t, p = g ++ (text ++ (g' ++ c :: t)) ∧ t <+: tail := by
  rcases prefix_append_cases hp with hp | ⟨t, rfl, ht⟩
  · exact .inl (gap_of_front hg hp)
  by_cases hnil : t = []
  · subst hnil
    exact .inl (by simpa using hg)
  rw [← List.append_assoc] at ht
  rcases prefix_append_cases ht with ht | ⟨u, rfl, hu⟩
  · exact .inr (.inl ⟨t, rfl, hnil, ht⟩)
  · rcases List.prefix_cons_iff.mp hu with rfl | ⟨v, rfl, hv⟩
    · exact .inr (.inl ⟨text ++ g', by simp, by simpa using hnil, List.prefix_rfl⟩)
    · exact .inr (.inr ⟨v, by simp, hv⟩)

theorem separated_gap (r : Reader α) (closing : Char) {p : List Char} (hp : Gap p)
    (tries : List Char) : separated r closing tries p = none := by
  cases tries with
  | nil => rfl
  | cons t tries => rw [separated, skipGap_gap hp]

theorem separated_exhausted {r : Reader α} {closing c : Char} (hclosing : EndsMember closing)
    (hc : OpensMember c) {g cs : List Char} (hg : Gap g) (h : Exhausts r (c :: cs))
    (tries : List Char) : separated r closing tries (g ++ c :: cs) = none := by
  cases tries with
  | nil => rfl
  | cons t tries =>
    rw [separated_opens r hc hclosing hg]
    cases hr : r (c :: cs) with
    | none => rfl
    | some out => simp only [h out.1 out.2 hr]

theorem separated_member_torn {r : Reader α} {closing : Char} (hclosing : EndsMember closing)
    {g g' text t : List Char} (hg : Gap g) (hg' : Gap g')
    (hopens : ∃ c cs, text = c :: cs ∧ OpensMember c) (htorn : Torn r text) (hne : t ≠ [])
    (ht : t <+: text ++ g') (tries : List Char) : separated r closing tries (g ++ t) = none := by
  obtain ⟨c, cs, rfl, hc⟩ := hopens
  rcases List.prefix_cons_iff.mp ht with rfl | ⟨ds, rfl, -⟩
  · exact absurd rfl hne
  · exact separated_exhausted hclosing hc hg (htorn g' _ hg' ht hne) tries

/-- Any proper front of what stands in a bracket misses the closing one. -/
theorem separated_torn {r : Reader α} {closing : Char} (hclosing : EndsMember closing)
    {xs : List α} {body : List Char}
    (h : Listed (fun x text => ReadsAs r x text ∧ Torn r text) closing xs body) {p : List Char}
    (hp : p <+: body) (hne : p ≠ body) (tries : List Char) :
    separated r closing tries p = none := by
  induction h generalizing p tries with
  | nil hg =>
    rcases List.prefix_concat_iff.mp hp with rfl | hp
    · exact absurd rfl hne
    · exact separated_gap r closing (gap_of_front hg hp) tries
  | last hg hx hg' =>
    rcases member_cut hg hp with hgap | ⟨t, rfl, hnil, ht⟩ | ⟨t, rfl, ht⟩
    · exact separated_gap r closing hgap tries
    · exact separated_member_torn hclosing hg hg' hx.1.opens hx.2 hnil ht tries
    · exact absurd (by rw [List.prefix_nil.mp ht]) hne
  | cons hg hx hg' _ ih =>
    rcases member_cut hg hp with hgap | ⟨t, rfl, hnil, ht⟩ | ⟨t, rfl, ht⟩
    · exact separated_gap r closing hgap tries
    · exact separated_member_torn hclosing hg hg' hx.1.opens hx.2 hnil ht tries
    · -- The member is read, and the tear is further on.
      have hrest : t ≠ _ := fun heq => hne (by rw [heq])
      cases tries with
      | nil => rfl
      | cons try_ tries =>
        obtain ⟨rest', hr, hskip⟩ := hx.1.read_mark hg' (.inl rfl) t
        rw [separated_step hx.1 hclosing hg, hr]
        simp only [hskip, if_true, ih ht hrest tries, Option.map_none]

/-! ## Words -/

theorem opensQuoted_append {cs : List Char} (h : opensQuoted cs = true) (more : List Char) :
    opensQuoted (cs ++ more) = true := by
  unfold opensQuoted at h
  split at h <;> first | rfl | cases h

/-- The front of a word is a name too. -/
theorem name_torn {w : String} (hw : IsWord w) {g p : List Char} (hg : Gap g)
    (hp : p <+: w.toList ++ g) (hne : p ≠ []) :
    ∃ n rest, name p = some (⟨n, false⟩, rest) ∧ Gap rest := by
  rcases prefix_append_cases hp with hp | ⟨t, rfl, ht⟩
  · obtain ⟨c, ds, htext, hc, hds, hopen⟩ := isWordText_cases hw.text
    obtain ⟨more, hmore⟩ := hp
    have hquoted : opensQuoted p = false := by
      rw [Bool.eq_false_iff]
      intro hopens
      have hwhole := opensQuoted_append hopens more
      rw [hmore, ← List.append_nil w.toList, (hopen []).1] at hwhole
      cases hwhole
    have hraw : ∀ es, p ≠ 'r' :: '#' :: es := by
      rintro es rfl
      exact ((hopen []).2 (es ++ more)).1 (by rw [List.append_nil, ← hmore]; rfl)
    rw [htext] at hmore
    rcases List.prefix_cons_iff.mp (Exists.intro more hmore) with rfl | ⟨es, rfl, hes⟩
    · exact absurd rfl hne
    · have hcontinue : ∀ e ∈ es, isIdentifierContinue e = true := fun e he => hds e (hes.mem he)
      rw [← List.append_nil es] at hquoted hraw ⊢
      exact ⟨_, [], name_letters hc hcontinue (Stops.finish gap_nil).endsName hquoted hraw, gap_nil⟩
  · have hgap := gap_of_front hg ht
    exact ⟨w, t, name_word hw (Stops.finish hgap).endsName, hgap⟩

theorem range_torn {w : String} (hw : IsWord w) {g p : List Char} (hp : p <+: w.toList ++ g)
    (hne : p ≠ []) : range p = none := by
  obtain ⟨c, ds, htext, hc, -, hopen⟩ := isWordText_cases hw.text
  have hkeyword : ∀ f ∈ floatWords, keyword f p = none :=
    fun f hf => keyword_eq_none_of_prefix (hw.notFloat f hf) hp
  obtain ⟨more, hmore⟩ := hp
  have hbyte : ∀ es, p ≠ 'b' :: '\'' :: es := by
    rintro es rfl
    exact ((hopen g).2 (es ++ more)).2 (by rw [← hmore]; rfl)
  cases p with
  | nil => exact absurd rfl hne
  | cons d es =>
    rw [htext] at hmore
    obtain ⟨rfl, -⟩ := List.cons.inj hmore
    exact range_eq_none (notNumeral_of_isAlpha hc) hbyte hkeyword

theorem torn_word (depth : Nat) {w : String} (hw : IsWord w) :
    Torn (value [] depth) w.toList := by
  intro g p hg hp hne x rest hr
  obtain ⟨n, tail, hname, htail⟩ := name_torn hw hg hp hne
  have hskip := skipGap_gap htail
  rcases value_eq [] depth (range_torn hw hp hne) with hv | ⟨parts, hv⟩
  · rw [hv] at hr
    unfold flat at hr
    simp only [hname, hskip] at hr
    split at hr
    · cases hr
    · split at hr
      · cases hr
        exact hskip
      · cases hr
        exact skipGap_nil
  · rw [hv] at hr
    unfold compound named at hr
    simp only [hname, hskip] at hr
    split at hr
    · cases hr
      exact hskip
    · split at hr
      · simp [optional, hskip, Attributes.has] at hr
      · cases hr
        exact skipGap_nil

/-! ## Strings -/

/-- What is read between quotes does not depend on what stands behind them. -/
theorem quotedUnits_append {s : QuotedState} {cs rest : List Char} {us : List QuotedUnit}
    (h : quotedUnits s cs = some (us, rest)) (more : List Char) :
    quotedUnits s (cs ++ more) = some (us, rest ++ more) := by
  induction cs generalizing s us with
  | nil => simp [quotedUnits] at h
  | cons c cs ih =>
    rw [List.cons_append]
    rw [quotedUnits] at h ⊢
    split at h
    · next hclose =>
      cases h
      rw [if_pos hclose]
    · next hclose =>
      rw [if_neg hclose]
      cases hstep : s.step c with
      | none => rw [hstep] at h; cases h
      | some next =>
        obtain ⟨s', unit⟩ := next
        rw [hstep] at h
        cases unit with
        | none => exact ih h
        | some u =>
          obtain ⟨⟨us', rest'⟩, hus, heq⟩ := Option.map_eq_some_iff.mp h
          cases heq
          simp only [ih hus, Option.map_some]

theorem stringTail_torn {s : String} {p : List Char} (hp : p <+: escape s.toList ++ ['"'])
    (hne : p ≠ escape s.toList ++ ['"']) : stringTail p = none := by
  obtain ⟨more, hmore⟩ := hp
  have hunits : quotedUnits .plain p = none := by
    cases h : quotedUnits .plain p with
    | none => rfl
    | some out =>
      have hwhole := quotedUnits_append h more
      rw [hmore, quotedUnits_escape, Option.some.injEq, Prod.mk.injEq] at hwhole
      have hmore_nil : more = [] := (List.append_eq_nil_iff.mp hwhole.2.symm).2
      rw [hmore_nil, List.append_nil] at hmore
      exact absurd hmore hne
  simp [stringTail, hunits]

theorem torn_string (depth : Nat) (s : String) : Torn (value [] depth) (quote s).toList := by
  apply Torn.of_readsAs (readsAs_string depth s)
  intro p hp hne hnil
  have hquote : (quote s).toList = '"' :: (escape s.toList ++ ['"']) := by simp [quote]
  rw [hquote] at hp hne
  rcases List.prefix_cons_iff.mp hp with rfl | ⟨t, rfl, ht⟩
  · exact absurd rfl hnil
  have htail : stringTail t = none := stringTail_torn ht fun heq => hne (by rw [heq])
  have hsimple : simple ('"' :: t) = none := by
    simp [simple, opensNumber, firstOf, stringValue, string, htail, source, character, byte,
      byteString]
  have hopens : OpensBracket '"' := .inl rfl
  apply exhausts_of_none
  rcases value_eq [] depth (range_bracket hopens t) with hv | ⟨parts, hv⟩
  · rw [hv]
    unfold flat
    rw [name_bracket hopens]
    exact hsimple
  · rw [hv]
    unfold compound
    rw [name_bracket hopens]
    exact hsimple

/-! ## Fields and brackets -/

theorem torn_field {r : Reader RonValue} (hnil : r [] = none) {key : String} (hk : IsWord key)
    {g g' text : List Char} (hg : Gap g) (hg' : Gap g')
    (hopens : ∃ c cs, text = c :: cs ∧ OpensMember c) (h : Torn r text) :
    Torn (field r) (key.toList ++ (g ++ ':' :: (g' ++ text))) := by
  intro tail p htail hp hne
  have hkey : p <+: key.toList ++ g → field r p = none := by
    intro hp
    obtain ⟨n, rest, hname, hrest⟩ := name_torn hk hg hp hne
    simp [field, hname, colonValue, skipGap_gap hrest]
  have hsplit : key.toList ++ (g ++ ':' :: (g' ++ text)) ++ tail =
      key.toList ++ g ++ ':' :: (g' ++ (text ++ tail)) := by simp
  rw [hsplit] at hp
  rcases prefix_append_cases hp with hp | ⟨t, rfl, ht⟩
  · exact exhausts_of_none (hkey hp)
  rcases List.prefix_cons_iff.mp ht with rfl | ⟨t, rfl, hvalue⟩
  · exact exhausts_of_none (hkey (by simp))
  have hfield : field r (key.toList ++ g ++ ':' :: t) =
      (skipGap t).bind fun cs => (r cs).map fun out => ((key, out.1), out.2) := by
    rw [List.append_assoc, field_colon r hk hg]
  have hgap : Gap t → field r (key.toList ++ g ++ ':' :: t) = none := by
    intro ht
    rw [hfield, skipGap_gap ht, Option.bind_some, hnil]
    rfl
  rcases prefix_append_cases hvalue with hvalue | ⟨u, rfl, hu⟩
  · exact exhausts_of_none (hgap (gap_of_front hg' hvalue))
  by_cases hu_nil : u = []
  · subst hu_nil
    exact exhausts_of_none (hgap (by simpa using hg'))
  · intro x rest hr
    obtain ⟨c, cs, rfl, hc⟩ := hopens
    obtain ⟨ds, rfl, -⟩ := (List.prefix_cons_iff.mp hu).resolve_left hu_nil
    rw [hfield, skipGap_mark hg' (solid_of_opensMember hc), Option.bind_some] at hr
    obtain ⟨⟨y, rest'⟩, hy, heq⟩ := Option.map_eq_some_iff.mp hr
    cases heq
    exact h tail _ htail hu hu_nil y rest' hy

/-- What holds of both kinds of members. -/
structure Broken (r : Reader RonValue) (x : RonValue) (text : List Char) : Prop where
  whole : ReadsAs r x text
  torn : Torn r text

theorem opensField_keyed {key : String} (hk : IsWord key) {g g' : List Char} (hg : Gap g)
    (hg' : Gap g') (cs : List Char) :
    opensField (g ++ (key.toList ++ (g' ++ ':' :: cs))) = true := by
  obtain ⟨c, ds, htext, hc, -⟩ := isWordText_cases hk.text
  have hskip : skipGap (key.toList ++ (g' ++ ':' :: cs)) =
      some (key.toList ++ (g' ++ ':' :: cs)) := by
    rw [htext]
    exact skipGap_solid (solid_of_opensMember (.inl hc)) _
  have hname : name (key.toList ++ (g' ++ ':' :: cs)) = some (⟨key, false⟩, g' ++ ':' :: cs) :=
    name_word hk (endsName_gap hg' (by decide) cs)
  have hcolon : Solid ':' := by decide
  rw [opensField_gap hg]
  simp [opensField, hskip, hname, skipGap_mark hg' hcolon]

theorem Listed.first {P : α → List Char → Prop} {closing : Char} {xs : List α} {body : List Char}
    (h : Listed P closing xs body) (hne : xs ≠ []) :
    ∃ x ∈ xs, ∃ g text g' c tail, Gap g ∧ P x text ∧ Gap g' ∧
      body = g ++ (text ++ (g' ++ c :: tail)) := by
  cases h with
  | nil => exact absurd rfl hne
  | last hg hx hg' => exact ⟨_, by simp, _, _, _, closing, [], hg, hx, hg', rfl⟩
  | cons hg hx hg' _ => exact ⟨_, by simp, _, _, _, ',', _, hg, hx, hg', rfl⟩

/-- Before the first colon parentheses look like those of a tuple, but what there is of the name is
no item with anything behind it. -/
theorem parentheses_torn {r : Reader RonValue} (hnil : r [] = none)
    (hword : ∀ w, IsWord w → Torn r w.toList) {fields : List (String × RonValue)}
    {body : List Char} (h : Listed (Keyed (Broken r)) ')' fields body)
    (hkeys : ∀ f ∈ fields, IsWord f.1) (hne : fields ≠ []) {p : List Char} (hp : p <+: body)
    (hproper : p ≠ body) (label : Option String) : parentheses r label p = none := by
  have hclosing : EndsMember ')' := .inr (.inl rfl)
  unfold parentheses
  split
  · have hfields := h.imp (Q := fun f text => ReadsAs (field r) f text ∧ Torn (field r) text) <| by
      intro f hf text hkeyed
      cases hkeyed with
      | mk key hg hg' hx =>
        have hk := hkeys _ hf
        exact ⟨readsAs_field hk hg hg' hx.whole,
          torn_field hnil hk hg hg' hx.whole.opens hx.torn⟩
    rw [members, separated_torn hclosing hfields hp hproper]
    rfl
  · next hopens =>
    have hmembers : members r ')' p = none := by
      obtain ⟨f, hf, g, text, g', c, tail, hg, hkeyed, hg', rfl⟩ := h.first hne
      cases hkeyed with
      | @mk key x g₁ g₂ text hg₁ hg₂ hx =>
        have hk := hkeys _ hf
        have hsplit : g ++ (key.toList ++ (g₁ ++ ':' :: (g₂ ++ text)) ++ (g' ++ c :: tail)) =
            g ++ (key.toList ++ (g₁ ++ ':' :: (g₂ ++ text ++ (g' ++ c :: tail)))) := by simp
        rw [hsplit] at hp
        rcases member_cut hg hp with hgap | ⟨t, rfl, ht_nil, ht⟩ | ⟨t, rfl, ht⟩
        · exact separated_gap r ')' hgap _
        · obtain ⟨c, ds, htext, hc, -⟩ := isWordText_cases hk.text
          exact separated_member_torn hclosing hg hg₁ ⟨c, ds, htext, .inl hc⟩ (hword key hk)
            ht_nil ht _
        · exact absurd (opensField_keyed hk hg hg₁ t) hopens
    rw [hmembers]
    rfl

/-! ## Values -/

theorem value_nil (a : Attributes) (depth : Nat) : value a depth [] = none := by
  have hrange : range [] = none := by decide +kernel
  rcases value_eq a depth hrange with h | ⟨parts, h⟩ <;> rw [h] <;> rfl

/-- The front of a list lacks its closing bracket, whatever is in it. -/
theorem value_list_torn {n : Nat} {items : List RonValue} {body : List Char}
    (h : Listed (Broken (value [] n)) ']' items body) {p : List Char} (hp : p <+: body)
    (hne : p ≠ body) : value [] (n + 2) ('[' :: p) = none := by
  have hitems := h.imp (Q := fun x text => ReadsAs (value [] n) x text ∧ Torn (value [] n) text)
    fun x _ text hx => ⟨hx.whole, hx.torn⟩
  rw [value_list, members, separated_torn (.inr (.inr rfl)) hitems hp hne]
  rfl

theorem exhausts_record {n : Nat} {label : Option String} {head : List Char}
    (hlabel : ∀ w, label = some w → IsWord w) (hhead : Heading label head) {body : List Char}
    (h : ∀ t, t <+: body → t ≠ body → parentheses (value [] n) label t = none) {p : List Char}
    (hp : p <+: head ++ '(' :: body) (hproper : p ≠ head ++ '(' :: body) (hne : p ≠ []) :
    Exhausts (value [] (n + 2)) p := by
  cases hhead with
  | unnamed =>
    rw [List.nil_append] at hp
    obtain ⟨t, rfl, ht⟩ := (List.prefix_cons_iff.mp hp).resolve_left hne
    apply exhausts_of_none
    rw [value_record, h t ht fun heq => hproper (by rw [heq]; rfl)]
  | named w hg =>
    have hw := hlabel w rfl
    rcases prefix_append_cases hp with hp | ⟨t, rfl, ht⟩
    · exact torn_word (n + 2) hw _ p hg hp hne
    rcases List.prefix_cons_iff.mp ht with rfl | ⟨t, rfl, hbody⟩
    · exact torn_word (n + 2) hw _ _ hg (by simp) hne
    · apply exhausts_of_none
      rw [List.append_assoc, value_record_named [] n hw hg]
      exact h t hbody fun heq => hproper (by rw [heq])

theorem torn_of_laid {n : Nat} {x : RonValue} (hx : Regular n x) {text : List Char}
    (h : Laid x text) : Torn (value [] (2 * n)) text := by
  induction hx generalizing text with
  | string s =>
    cases h
    exact torn_string _ s
  | word hw =>
    cases h
    exact torn_word _ hw
  | list hitems ih =>
    apply Torn.of_readsAs (readsAs_of_laid (.list hitems) h)
    cases h with
    | list hbody =>
      intro p hp hproper hne
      obtain ⟨t, rfl, ht⟩ := (List.prefix_cons_iff.mp hp).resolve_left hne
      have hbroken := hbody.imp fun x hx text hlaid =>
        Broken.mk (readsAs_of_laid (hitems x hx) hlaid) (ih x hx hlaid)
      exact exhausts_of_none (value_list_torn hbroken ht fun heq => hproper (by rw [heq]))
  | record hlabel hfields hkeys hvalues ih =>
    apply Torn.of_readsAs (readsAs_of_laid (.record hlabel hfields hkeys hvalues) h)
    cases h with
    | record hhead hbody =>
      intro p hp hproper hne
      have hbroken := hbody.imp fun f hf text (hkeyed : Keyed Laid f text) =>
        hkeyed.imp fun text hlaid =>
          Broken.mk (readsAs_of_laid (hvalues f hf) hlaid) (ih f hf hlaid)
      refine exhausts_record hlabel hhead ?_ hp hproper hne
      intro t ht htail
      exact parentheses_torn (value_nil [] _) (fun w hw => torn_word _ hw) hbroken hkeys hfields ht
        htail _

/-! ## Documents -/

/-- A list is torn for good: nothing can stand for its closing bracket. -/
theorem document_torn {n : Nat} {items : List RonValue} (hx : Regular n (.list items))
    (hn : n ≤ 64) {text : List Char} (h : Laid (.list items) text) {p : List Char}
    (hp : p <+: text) (hne : p ≠ text) : document p = none := by
  have hread : ∀ cs, attributes (p.length + 1) p = some ([], cs) →
      value [] maxDepth cs = none → document p = none := by
    intro cs hattributes hvalue
    simp [document, hattributes, hvalue]
  cases h with
  | list hbody =>
    rcases List.prefix_cons_iff.mp hp with rfl | ⟨t, rfl, ht⟩
    · exact hread [] rfl (value_nil [] maxDepth)
    · apply hread ('[' :: t) (attributes_opens (.inr (.inr (.inr rfl))) gap_nil _ t)
      cases hx.mono hn with
      | list hitems =>
        have hbroken := hbody.imp fun x hx text hlaid =>
          Broken.mk (readsAs_of_laid (hitems x hx) hlaid) (torn_of_laid (hitems x hx) hlaid)
        exact value_list_torn hbroken ht fun heq => hne (by rw [heq])

end SchemaWalk.Ron
