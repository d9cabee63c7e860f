import SchemaWalk.Proofs.Cypher.Pattern

/-! # Query texts tell requests apart

A request is what a query asks for: something about the focal node at the end of a walk, the labels
that a walk reaches, or an overview. Of clean requests no two have the same query text. -/

namespace SchemaWalk

/-- What is asked about a focal node. -/
inductive Subject where
  | relationships
  | keys
  | values (property : String)
  deriving DecidableEq, Repr

inductive Request where
  | focal (w : Walk) (c : Candidate) (subject : Subject)
  | reachableLabels (w : Walk)
  | allLabels
  | allRelationshipTypes
  deriving DecidableEq, Repr

namespace Subject

def query (b : QueryBuilder) (w : Walk) (c : Candidate) : Subject → Option Query
  | relationships => b.adjacentRelationships w c
  | keys => b.propertyKeys w c
  | values property => b.propertyValues w c property

def kind : Subject → QueryKind
  | relationships => .adjacentRelationships
  | keys => .propertyKeys
  | values _ => .propertyValues

def suffix : Subject → List Char
  | relationships => adjacentSuffix.toList
  | keys => keySuffix.toList
  | values property => (valueSuffix property).toList

/-- Values can only be asked for of a property with a name. -/
def Ready : Subject → Prop
  | relationships | keys => True
  | values property => property ≠ ""

/-- The character of the suffix that tells the subjects apart: the eighteenth. -/
def mark : Subject → Char
  | relationships => 'b'
  | keys => ','
  | values _ => ' '

theorem getElem?_suffix (subject : Subject) : subject.suffix[17]? = some subject.mark := by
  cases subject with
  | relationships =>
    change adjacentSuffix.toList[17]? = some 'b'
    unfold adjacentSuffix
    rw [String.toList_append, String.toList_append, String.toList_ofList]
    rfl
  | keys =>
    change keySuffix.toList[17]? = some ','
    unfold keySuffix
    rw [String.toList_append, String.toList_ofList]
    rfl
  | values property =>
    change (valueSuffix property).toList[17]? = some ' '
    unfold valueSuffix
    rw [String.toList_append, String.toList_append, String.toList_ofList]
    rfl

theorem valueSuffix_injective {property property' : String}
    (h : valueSuffix property = valueSuffix property') : property = property' := by
  have hlist := congrArg String.toList h
  unfold valueSuffix at hlist
  rw [String.toList_append, String.toList_append, String.toList_append,
    String.toList_append] at hlist
  exact String.ext (List.append_cancel_left (List.append_cancel_right hlist))

theorem suffix_injective {subject other : Subject} (h : subject.suffix = other.suffix) :
    subject = other := by
  have hmark : subject.mark = other.mark := by
    apply Option.some.inj
    rw [← getElem?_suffix, ← getElem?_suffix, h]
  cases subject <;> cases other <;> simp only [mark, Char.reduceEq] at hmark
  · rfl
  · rfl
  · exact congrArg values (valueSuffix_injective (String.ext h))

theorem query_eq_some (b : QueryBuilder) (w : Walk) {c : Candidate} {subject : Subject}
    (hc : c.isReady = true) (hs : subject.Ready) :
    ∃ q, subject.query b w c = some q ∧ q.kind = subject.kind ∧
      q.text.toList =
        w.pattern.toList ++ ((nodePattern "n" c.label c.filters).toList ++ subject.suffix) := by
  have hfocal : QueryBuilder.focal w c = some (w.pattern ++ nodePattern "n" c.label c.filters) :=
    if_pos hc
  have htext : ∀ suffix : String,
      (w.pattern ++ nodePattern "n" c.label c.filters ++ suffix).toList =
        w.pattern.toList ++ ((nodePattern "n" c.label c.filters).toList ++ suffix.toList) := by
    intro suffix
    simp only [String.toList_append, List.append_assoc]
  cases subject with
  | relationships =>
    exact ⟨_, congrArg (Option.map _) hfocal, rfl, htext adjacentSuffix⟩
  | keys => exact ⟨_, congrArg (Option.map _) hfocal, rfl, htext keySuffix⟩
  | values property =>
    have hp : ¬ property.isEmpty = true := by simpa [Ready] using hs
    exact ⟨_, (if_neg hp).trans (congrArg (Option.map _) hfocal), rfl, htext (valueSuffix property)⟩

end Subject

namespace Request

def query (b : QueryBuilder) : Request → Option Query
  | focal w c subject => subject.query b w c
  | reachableLabels w => some (b.reachableLabels w)
  | allLabels => some b.allLabels
  | allRelationshipTypes => some b.allRelationshipTypes

def kind : Request → QueryKind
  | focal _ _ subject => subject.kind
  | reachableLabels _ => .reachableLabels
  | allLabels => .allLabels
  | allRelationshipTypes => .allRelationshipTypes

def Clean : Request → Prop
  | focal w c _ => w.Clean ∧ c.Clean
  | reachableLabels w => w.Clean
  | allLabels | allRelationshipTypes => True

def Ready : Request → Prop
  | focal _ c subject => c.isReady = true ∧ subject.Ready
  | reachableLabels _ | allLabels | allRelationshipTypes => True

/-- An overview has no walk; its text opens as that of the empty walk does. -/
def walk : Request → Walk
  | focal w _ _ | reachableLabels w => w
  | allLabels | allRelationshipTypes => .empty

def tail : Request → List Char
  | focal _ c subject => (nodePattern "n" c.label c.filters).toList ++ subject.suffix
  | reachableLabels _ => reachableSuffix.toList
  | allLabels => allLabelsText.toList.drop 6
  | allRelationshipTypes => allRelationshipTypesText.toList.drop 6

theorem take_allLabelsText : allLabelsText.toList.take 6 = "MATCH ".toList := by
  unfold allLabelsText
  rw [String.toList_append, String.toList_ofList]
  rfl

theorem take_allRelationshipTypesText :
    allRelationshipTypesText.toList.take 6 = "MATCH ".toList := by
  unfold allRelationshipTypesText
  rw [String.toList_ofList]
  rfl

theorem toList_overview {text : String} (h : text.toList.take 6 = "MATCH ".toList) :
    text.toList = Walk.empty.pattern.toList ++ text.toList.drop 6 := by
  rw [Walk.pattern_empty, ← h, List.take_append_drop]

theorem query_eq_some (b : QueryBuilder) {r : Request} (h : r.Ready) :
    ∃ q, r.query b = some q ∧ q.kind = r.kind ∧
      q.text.toList = r.walk.pattern.toList ++ r.tail := by
  cases r with
  | focal w c subject => exact subject.query_eq_some b w h.1 h.2
  | reachableLabels w => exact ⟨_, rfl, rfl, String.toList_append⟩
  | allLabels => exact ⟨_, rfl, rfl, toList_overview take_allLabelsText⟩
  | allRelationshipTypes => exact ⟨_, rfl, rfl, toList_overview take_allRelationshipTypesText⟩

theorem clean_walk {r : Request} (h : r.Clean) : r.walk.Clean := by
  cases r with
  | focal w c subject => exact h.1
  | reachableLabels w => exact h
  | allLabels => exact fun s hs => absurd hs List.not_mem_nil
  | allRelationshipTypes => exact fun s hs => absurd hs List.not_mem_nil

/-- As much of the tail as tells the requests apart, but for the two that ask for labels. -/
def opening : Request → List Char
  | focal _ _ _ => ['(', 'n', ':']
  | reachableLabels _ | allLabels => ['(', 'n', ')']
  | allRelationshipTypes => ['(', ')', '-']

theorem take_tail (r : Request) : r.tail.take 3 = r.opening := by
  cases r with
  | focal w c subject =>
    rw [tail, toList_nodePattern]
    rfl
  | reachableLabels w =>
    unfold tail reachableSuffix
    rw [String.toList_ofList]
    rfl
  | allLabels =>
    unfold tail allLabelsText
    rw [String.toList_append, String.toList_ofList]
    rfl
  | allRelationshipTypes =>
    unfold tail allRelationshipTypesText
    rw [String.toList_ofList]
    rfl

/-- Nothing behind a walk goes on with the walk: the focal node has a variable. -/
theorem not_opensStep_tail (r : Request) : ¬ OpensStep r.tail := by
  intro h
  have htake : r.opening.take 2 = ['(', ':'] := by
    rw [← take_tail, List.take_take]
    exact h
  cases r <;> exact absurd htake (by simp [opening])

theorem reachableLabels_tail_ne (w : Walk) : (reachableLabels w).tail ≠ allLabels.tail := by
  intro h
  have hreachable : (reachableLabels w).tail[4]? = some 'U' := by
    change reachableSuffix.toList[4]? = some 'U'
    unfold reachableSuffix
    rw [String.toList_ofList]
    rfl
  have hall : allLabels.tail[4]? = some 'W' := by
    change (allLabelsText.toList.drop 6)[4]? = some 'W'
    unfold allLabelsText
    rw [String.toList_append, String.toList_ofList]
    rfl
  rw [h, hall] at hreachable
  exact absurd hreachable (by decide)

theorem eq_of_tail_eq {r r' : Request} (hc : r.Clean) (hc' : r'.Clean) (hw : r.walk = r'.walk)
    (h : r.tail = r'.tail) : r = r' := by
  have hopening : r.opening = r'.opening := by rw [← take_tail, ← take_tail, h]
  cases r with
  | focal w c subject =>
    cases r' with
    | focal w' c' subject' =>
      obtain ⟨label, fs⟩ := c
      obtain ⟨label', gs⟩ := c'
      obtain ⟨rfl, rfl, hsuffix⟩ := nodePattern_append_inj hc.2.1 hc'.2.1 hc.2.2 hc'.2.2 h
      obtain rfl := Subject.suffix_injective hsuffix
      obtain rfl : w = w' := hw
      rfl
    | reachableLabels w' => exact absurd hopening (by simp [opening])
    | allLabels => exact absurd hopening (by simp [opening])
    | allRelationshipTypes => exact absurd hopening (by simp [opening])
  | reachableLabels w =>
    cases r' with
    | focal w' c' subject' => exact absurd hopening (by simp [opening])
    | reachableLabels w' => exact congrArg reachableLabels hw
    | allLabels => exact absurd h (reachableLabels_tail_ne w)
    | allRelationshipTypes => exact absurd hopening (by simp [opening])
  | allLabels =>
    cases r' with
    | focal w' c' subject' => exact absurd hopening (by simp [opening])
    | reachableLabels w' => exact absurd h.symm (reachableLabels_tail_ne w')
    | allLabels => rfl
    | allRelationshipTypes => exact absurd hopening (by simp [opening])
  | allRelationshipTypes =>
    cases r' with
    | focal w' c' subject' => exact absurd hopening (by simp [opening])
    | reachableLabels w' => exact absurd hopening (by simp [opening])
    | allLabels => exact absurd hopening (by simp [opening])
    | allRelationshipTypes => rfl

/-- Clean requests that have something to ask do ask, and equal texts ask for the same. -/
theorem query_text_unambiguous {b b' : QueryBuilder} {r r' : Request} (hc : r.Clean)
    (hc' : r'.Clean) (hr : r.Ready) (hr' : r'.Ready) :
    ∃ q q', r.query b = some q ∧ r'.query b' = some q' ∧
      (q.text = q'.text → q.kind = q'.kind ∧ r = r') := by
  obtain ⟨q, hq, hkind, htext⟩ := query_eq_some b hr
  obtain ⟨q', hq', hkind', htext'⟩ := query_eq_some b' hr'
  refine ⟨q, q', hq, hq', ?_⟩
  intro h
  have hlist : r.walk.pattern.toList ++ r.tail = r'.walk.pattern.toList ++ r'.tail := by
    rw [← htext, ← htext', h]
  obtain ⟨hw, htail⟩ := walk_append_inj (clean_walk hc) (clean_walk hc') (not_opensStep_tail r)
    (not_opensStep_tail r') hlist
  obtain rfl := eq_of_tail_eq hc hc' hw htail
  exact ⟨hkind.trans hkind'.symm, rfl⟩

/-- The relationships of a node behind a hop whose names look like parts of a pattern. -/
def behindHop (fs : List PropertyFilter) : Request :=
  .focal ⟨[⟨⟨"A)-[:B]-", []⟩, ⟨"KNOWS", [⟨"a, b", .equality, "true"⟩]⟩, .inbound⟩]⟩
    ⟨"City", fs⟩ .relationships

/-- The same two filters in another order give another text. -/
theorem query_text_unambiguous_filter_order :
    ∃ q q', (behindHop [⟨"x", .equality, "1"⟩, ⟨"y", .equality, "true"⟩]).query default = some q ∧
      (behindHop [⟨"y", .equality, "true"⟩, ⟨"x", .equality, "1"⟩]).query default = some q' ∧
      q.text ≠ q'.text := by
  have hclean : (behindHop [⟨"x", .equality, "1"⟩, ⟨"y", .equality, "true"⟩]).Clean := by
    unfold behindHop Clean
    decide
  have hclean' : (behindHop [⟨"y", .equality, "true"⟩, ⟨"x", .equality, "1"⟩]).Clean := by
    unfold behindHop Clean
    decide
  obtain ⟨q, q', hq, hq', h⟩ :=
    query_text_unambiguous hclean hclean' ⟨by decide, trivial⟩ ⟨by decide, trivial⟩
  refine ⟨q, q', hq, hq', ?_⟩
  intro htext
  exact absurd (h htext).2 (by decide)

end Request

end SchemaWalk
