import Mathlib.Data.List.Induction
import Mathlib.Data.List.Nodup
import SchemaWalk.Proofs.Candidate.Filters
import SchemaWalk.Proofs.Cypher.Request
import SchemaWalk.Proofs.Stepper.Selection
import SchemaWalk.Proofs.Table.Contents

/-! # The queries that a session lists

A session lists the text of every query that it shows an answer of. The properties among them are
those that were asked about since the candidate was last changed or asked about anew, and each
query has a title of its own, whatever the label and the properties are. -/

namespace SchemaWalk

variable {σ ε : Type}

/-! ## Titles -/

theorem toList_valueCountsTitle (label property : String) :
    (Stepper.valueCountsTitle label property).toList =
      (label ++ " prop ").toList ++ (property.toList ++ " vals".toList) := by
  simp only [Stepper.valueCountsTitle, String.toList_append, List.append_assoc]

theorem valueCountsTitle_injective (label : String) :
    Function.Injective (Stepper.valueCountsTitle label) := by
  intro property other h
  have hlist := congrArg String.toList h
  rw [toList_valueCountsTitle, toList_valueCountsTitle] at hlist
  exact String.ext (List.append_cancel_right (List.append_cancel_left hlist))

/-- The titles of all other queries end in some other way. -/
theorem valueCountsTitle_ne {title : String} (h : ¬ " vals".toList <:+ title.toList)
    (label property : String) : Stepper.valueCountsTitle label property ≠ title := by
  rintro rfl
  rw [toList_valueCountsTitle, ← List.append_assoc] at h
  exact h (List.suffix_append _ _)

/-- What the queries of a session are listed under, the values of the given properties included. -/
def queryTitles (label : String) (properties : List String) : List String :=
  ["Next labels", "Adjacent relations", "Prop counts"] ++
    properties.map fun property => label ++ " prop " ++ property ++ " vals"

theorem nodup_queryTitles (label : String) {properties : List String} (h : properties.Nodup) :
    (queryTitles label properties).Nodup := by
  have hvalues : (properties.map (Stepper.valueCountsTitle label)).Nodup :=
    h.map (valueCountsTitle_injective label)
  refine List.nodup_append.mpr ⟨by decide, hvalues, ?_⟩
  rintro title htitle _ hvalue rfl
  obtain ⟨property, -, heq⟩ := List.mem_map.mp hvalue
  have hends : ¬ " vals".toList <:+ title.toList := by
    simp only [List.mem_cons, List.not_mem_nil, or_false] at htitle
    rcases htitle with rfl | rfl | rfl <;> decide
  exact valueCountsTitle_ne hends label property heq

namespace Stepper

/-! ## Texts by title -/

/-- What is listed, whether there is a text or not. -/
def listing (s : Stepper σ ε) : List (String × String) :=
  [("Next labels", s.nextLabels.state.queryText),
    ("Adjacent relations", s.adjacency.state.queryText),
    ("Prop counts", s.propertyCounts.state.queryText)] ++
  s.valueCounts.entries.map fun e =>
    (valueCountsTitle s.candidate.label e.1, e.2.state.queryText)

theorem titles_listing (s : Stepper σ ε) :
    s.listing.map (·.1) = queryTitles s.candidate.label s.valueCounts.keys := by
  simp [listing, queryTitles, Table.keys, valueCountsTitle, Function.comp_def]

/-- No title hides another, so a text is listed where it was put. -/
theorem get?_queriesUsed {s : Stepper σ ε} {title text : String} :
    s.queriesUsed.get? title = some text ↔ (title, text) ∈ s.listing ∧ text ≠ "" := by
  have hnodup : ((s.listing.filter fun e => !e.2.isEmpty).map (·.1)).Nodup := by
    have htitles := nodup_queryTitles s.candidate.label s.valueCounts.nodup_keys
    rw [← titles_listing] at htitles
    exact htitles.sublist (List.filter_sublist.map _)
  have hused : s.queriesUsed = .ofList (s.listing.filter fun e => !e.2.isEmpty) := rfl
  rw [hused, Table.get?_ofList_eq_some_iff hnodup, List.mem_filter]
  simp

theorem mem_listing_values {s : Stepper σ ε} {property : String}
    {state : QueryState (List ValueCount)} (h : s.valueCountState property = some state) :
    (valueCountsTitle s.candidate.label property, state.queryText) ∈ s.listing := by
  obtain ⟨t, ht, rfl⟩ := Option.map_eq_some_iff.mp h
  apply List.mem_append_right
  exact List.mem_map.mpr ⟨(property, t), Table.get?_eq_some_iff.mp ht, rfl⟩

theorem mem_listing_cases {s : Stepper σ ε} {title text : String} (h : (title, text) ∈ s.listing) :
    title = "Next labels" ∨
    title = "Adjacent relations" ∧ text = s.adjacency.state.queryText ∨
    title = "Prop counts" ∧ text = s.propertyCounts.state.queryText ∨
    ∃ property state, s.valueCountState property = some state ∧
      title = valueCountsTitle s.candidate.label property ∧ text = state.queryText := by
  rcases List.mem_append.mp h with h | h
  · simp only [List.mem_cons, Prod.mk.injEq, List.not_mem_nil, or_false] at h
    rcases h with ⟨htitle, -⟩ | h | h
    · exact .inl htitle
    · exact .inr (.inl h)
    · exact .inr (.inr (.inl h))
  · obtain ⟨⟨property, t⟩, hentry, heq⟩ := List.mem_map.mp h
    obtain ⟨rfl, rfl⟩ := Prod.mk.inj heq
    refine .inr (.inr (.inr ⟨property, t.state, ?_, rfl, rfl⟩))
    rw [valueCountState, Table.get?_eq_some_iff.mpr hentry, Option.map_some]

/-! ## Queries by title -/

theorem pattern_append_ne (w : Walk) (rest : String) : w.pattern ++ rest ≠ "" := by
  intro h
  have hlist := congrArg String.toList h
  rw [String.toList_append, toList_walk_pattern] at hlist
  cases hlist

theorem query_of_ready (b : QueryBuilder) (w : Walk) {c : Candidate} (subject : Subject)
    (hl : c.label ≠ "") (hs : subject.Ready) :
    ∃ q, subject.query b w c = some q ∧ q.text ≠ "" := by
  have hready : c.isReady = true := by simp [Candidate.isReady, hl]
  obtain ⟨q, hq, -, htext⟩ := Subject.query_eq_some b w hready hs
  refine ⟨q, hq, ?_⟩
  intro hempty
  rw [hempty, toList_walk_pattern] at htext
  cases htext

theorem label_ne_of_query {b : QueryBuilder} {w : Walk} {c : Candidate} (subject : Subject)
    {q : Query} (h : subject.query b w c = some q) : c.label ≠ "" := by
  intro hl
  have hfocal := focal_eq_none w hl
  cases subject with
  | relationships => simp [Subject.query, QueryBuilder.adjacentRelationships, hfocal] at h
  | keys => simp [Subject.query, QueryBuilder.propertyKeys, hfocal] at h
  | values property => simp [Subject.query, propertyValues_eq_none b w (.inl hl)] at h

/-- The query that a state belongs to is listed under its title. -/
theorem get?_of_current {α : Type} {s : Stepper σ ε} {title : String} {called : Option Query}
    {state : QueryState α} (h : Current called state) {q : Query} (hq : called = some q)
    (hne : q.text ≠ "") (hmem : (title, state.queryText) ∈ s.listing) :
    s.queriesUsed.get? title = some q.text := by
  have htext : state.queryText = q.text := by
    rw [h.queryText_eq, hq]
    rfl
  rw [htext] at hmem
  exact get?_queriesUsed.mpr ⟨hmem, hne⟩

/-- There is something to see about the values of a property. -/
def Tracks (s : Stepper σ ε) (property : String) : Prop :=
  ∃ state, s.valueCountState property = some state

theorem tracks_iff {s : Stepper σ ε} {property : String} :
    s.Tracks property ↔ (s.valueCounts.get? property).isSome = true := by
  rw [Tracks, valueCountState, ← Option.isSome_iff_exists, Option.isSome_map]

/-- Exactly the queries that belong to the walk, to the candidate, and to the properties that were
asked about. -/
structure ListsQueries (b : QueryBuilder) (s : Stepper σ ε) (asked : String → Prop) : Prop where
  tracked : ∀ property, s.Tracks property ↔ asked property
  nextLabels : s.queriesUsed.get? "Next labels" = some (b.reachableLabels s.walk).text
  focal : s.candidate.label ≠ "" → ∃ adjacent keys,
    b.adjacentRelationships s.walk s.candidate = some adjacent ∧
      b.propertyKeys s.walk s.candidate = some keys ∧
      s.queriesUsed.get? "Adjacent relations" = some adjacent.text ∧
      s.queriesUsed.get? "Prop counts" = some keys.text
  values : s.candidate.label ≠ "" → ∀ property, property ≠ "" → asked property →
    ∃ q, b.propertyValues s.walk s.candidate property = some q ∧
      s.queriesUsed.get? (s.candidate.label ++ " prop " ++ property ++ " vals") = some q.text
  nothingElse : ∀ title text, s.queriesUsed.get? title = some text →
    title = "Next labels" ∨ s.candidate.label ≠ "" ∧
      (title = "Adjacent relations" ∨ title = "Prop counts" ∨
        ∃ property, property ≠ "" ∧ asked property ∧
          title = s.candidate.label ++ " prop " ++ property ++ " vals")

theorem listsQueries_of_upToDate {b : QueryBuilder} {s : Stepper σ ε} (h : UpToDate b s) :
    ListsQueries b s s.Tracks := by
  obtain ⟨rfl, hlabels, hadjacency, hkeys, hvalues⟩ := h
  have htracked : ∀ {property state}, s.valueCountState property = some state →
      Current (s.valueCountsQuery property) state := by
    intro property state hstate
    obtain ⟨t, ht, rfl⟩ := Option.map_eq_some_iff.mp hstate
    exact hvalues property t ht
  constructor
  · exact fun _ => Iff.rfl
  · have hcurrent : Current (some s.nextLabelsQuery) s.nextLabels.state := hlabels
    exact get?_of_current hcurrent rfl (pattern_append_ne _ _) (by simp [listing])
  · intro hl
    obtain ⟨adjacent, hadjacent, hne⟩ := query_of_ready s.builder s.walk .relationships hl trivial
    obtain ⟨keys, hkey, hne'⟩ := query_of_ready s.builder s.walk .keys hl trivial
    refine ⟨adjacent, keys, hadjacent, hkey, ?_, ?_⟩
    · exact get?_of_current hadjacency hadjacent hne (by simp [listing])
    · exact get?_of_current hkeys hkey hne' (by simp [listing])
  · rintro hl property hp ⟨state, hstate⟩
    obtain ⟨q, hq, hne⟩ := query_of_ready s.builder s.walk (.values property) hl hp
    exact ⟨q, hq, get?_of_current (htracked hstate) hq hne (mem_listing_values hstate)⟩
  · intro title text hget
    obtain ⟨hmem, hne⟩ := get?_queriesUsed.mp hget
    rcases mem_listing_cases hmem with htitle | ⟨htitle, rfl⟩ | ⟨htitle, rfl⟩ |
      ⟨property, state, hstate, htitle, rfl⟩
    · exact .inl htitle
    · obtain ⟨q, hq⟩ := hadjacency.exists_query hne
      exact .inr ⟨label_ne_of_query .relationships hq, .inl htitle⟩
    · obtain ⟨q, hq⟩ := hkeys.exists_query hne
      exact .inr ⟨label_ne_of_query .keys hq, .inr (.inl htitle)⟩
    · obtain ⟨q, hq⟩ := (htracked hstate).exists_query hne
      have hproperty : property ≠ "" := by
        rintro rfl
        rw [valueCountsQuery, propertyValues_eq_none _ _ (.inr rfl)] at hq
        cases hq
      exact .inr ⟨label_ne_of_query (.values property) hq,
        .inr (.inr ⟨property, hproperty, ⟨state, hstate⟩, htitle⟩)⟩

/-! ## Properties that were asked about -/

variable [Executor ε]

theorem valueCounts_refreshNextLabels {s : Stepper σ ε} (h : s.valueCounts = ∅) :
    s.refreshNextLabels.valueCounts = ∅ := by
  rcases refreshNextLabels_cases s with ⟨label, -, -, hs⟩ | ⟨-, hs⟩
  · rw [hs]
    rfl
  · rw [hs]
    exact h

theorem valueCounts_continueFrom (s : Stepper σ ε) (saved : SavedWalk σ) :
    (s.continueFrom saved).valueCounts = ∅ := by
  apply valueCounts_refreshNextLabels
  rfl

variable [KeyValueStore σ]

theorem valueCounts_start (store : σ) (executor : ε) (b : QueryBuilder) :
    (start store executor b).valueCounts = ∅ := by
  apply valueCounts_refreshNextLabels
  rfl

/-- The action changes the candidate, or has it asked about anew. -/
def Refreshes (s : Stepper σ ε) : Action → Prop
  | .setLabel _ | .clearWalk | .reopen => True
  | .addFilter name _ => name ≠ ""
  | .removeFilter index => index < s.candidate.filters.length
  | .pickRelationship typeName filters direction =>
    ∃ s', s.pickRelationship typeName filters direction = .ok s'
  | .pickGroup typeName filters direction => ∃ s', s.pickGroup typeName filters direction = .ok s'
  | .deleteStep index => index < s.walk.length
  | .refreshNextLabels => ∃ label, (labelReply s.builder s.executor s.walk).NamesOnly label ∧
      label ≠ s.candidate.label
  | .askValueCounts _ | .allLabels | .allRelationshipTypes => False

theorem valueCounts_picked {s : Stepper σ ε} {typeName : String} {filters : List PropertyFilter}
    {direction : Direction} (h : ∃ s', s.pickRelationship typeName filters direction = .ok s') :
    (s.next (.pickRelationship typeName filters direction)).valueCounts = ∅ := by
  obtain ⟨s', hok⟩ := h
  have hnext : s.next (.pickRelationship typeName filters direction) = s' := by
    simp only [next, perform, hok]
  obtain ⟨step, -, rfl⟩ := continued_of_pickRelationship hok
  rw [hnext, valueCounts_continueFrom]

theorem next_unpicked {s : Stepper σ ε} {typeName : String} {filters : List PropertyFilter}
    {direction : Direction} (h : ¬ ∃ s', s.pickRelationship typeName filters direction = .ok s') :
    s.next (.pickRelationship typeName filters direction) = s := by
  unfold next
  split
  · next s' hok => exact absurd ⟨s', hok⟩ h
  · rfl

theorem valueCounts_refreshed {s : Stepper σ ε} {action : Action} (h : s.Refreshes action) :
    (s.next action).valueCounts = ∅ := by
  cases action with
  | setLabel label => rfl
  | addFilter name value =>
    simp only [next, perform, addFilter, create_filter_of_name h]
    rfl
  | removeFilter index =>
    have hlt : index < s.candidate.filters.length := h
    simp only [next, perform, removeFilter, if_pos hlt]
    rfl
  | askValueCounts property => exact h.elim
  | pickRelationship typeName filters direction => exact valueCounts_picked h
  | pickGroup typeName filters direction => exact valueCounts_picked h
  | deleteStep index =>
    have hlt : index < s.walk.length := h
    simp only [next, perform, deleteStep, if_pos hlt]
    exact valueCounts_continueFrom s _
  | clearWalk => exact valueCounts_continueFrom s _
  | refreshNextLabels =>
    obtain ⟨label, hlabel, hne⟩ := h
    rcases refreshNextLabels_cases s with ⟨other, -, -, hs⟩ | ⟨hsame, -⟩
    · simp only [next, perform, hs]
      rfl
    · exact absurd (hsame label hlabel) hne
  | allLabels => exact h.elim
  | allRelationshipTypes => exact h.elim
  | reopen => exact valueCounts_start _ _ _

theorem valueCounts_unrefreshed {s : Stepper σ ε} {action : Action} (h : ¬ s.Refreshes action)
    (hask : ∀ property, action ≠ .askValueCounts property) :
    (s.next action).valueCounts = s.valueCounts := by
  cases action with
  | setLabel label => exact absurd trivial h
  | addFilter name value =>
    obtain rfl : name = "" := not_not.mp h
    rfl
  | removeFilter index =>
    have hlt : ¬ index < s.candidate.filters.length := h
    simp only [next, perform, removeFilter, if_neg hlt]
  | askValueCounts property => exact absurd rfl (hask property)
  | pickRelationship typeName filters direction => rw [next_unpicked h]
  | pickGroup typeName filters direction =>
    have hunpicked : ¬ ∃ s', s.pickRelationship typeName filters.filters direction = .ok s' := h
    exact congrArg valueCounts (next_unpicked hunpicked)
  | deleteStep index =>
    have hlt : ¬ index < s.walk.length := h
    simp only [next, perform, deleteStep, if_neg hlt]
  | clearWalk => exact absurd trivial h
  | refreshNextLabels =>
    rcases refreshNextLabels_cases s with ⟨label, hlabel, hne, -⟩ | ⟨-, hs⟩
    · exact absurd ⟨label, hlabel, hne⟩ h
    · simp only [next, perform, hs]
      rfl
  | allLabels => rfl
  | allRelationshipTypes => rfl
  | reopen => exact absurd trivial h

/-- One action more: what it asks about is tracked, and what was tracked still is unless the action
has the candidate asked about anew. -/
theorem tracks_next {s : Stepper σ ε} {action : Action} {property : String} :
    (s.next action).Tracks property ↔
      action = .askValueCounts property ∨ s.Tracks property ∧ ¬ s.Refreshes action := by
  by_cases hrefreshes : s.Refreshes action
  · have hnone : ¬ (s.next action).Tracks property := by
      rw [tracks_iff, valueCounts_refreshed hrefreshes]
      simp
    have hother : action ≠ .askValueCounts property := by
      rintro rfl
      exact hrefreshes
    simp [hnone, hother, hrefreshes]
  · by_cases hask : ∃ asked, action = .askValueCounts asked
    · obtain ⟨asked, rfl⟩ := hask
      have hnext : (s.next (.askValueCounts asked)) = s.askValueCounts asked := rfl
      rw [hnext, tracks_iff, tracks_iff, Action.askValueCounts.injEq]
      by_cases hsame : property = asked
      · subst hsame
        simp [askValueCounts]
      · simp [askValueCounts, Table.get?_insert_of_ne _ hsame, Ne.symm hsame, hrefreshes]
    · have hother : ∀ asked, action ≠ .askValueCounts asked := fun asked h => hask ⟨asked, h⟩
      rw [tracks_iff, tracks_iff, valueCounts_unrefreshed hrefreshes hother]
      simp [hother property, hrefreshes]

/-- The property was asked about in the run, and no action since has refreshed the candidate. -/
def AskedSince (s : Stepper σ ε) (actions : List Action) (property : String) : Prop :=
  ∃ before after, actions = before ++ .askValueCounts property :: after ∧
    ∀ earlier action later, after = earlier ++ action :: later →
      ¬ (s.follow (before ++ .askValueCounts property :: earlier)).Refreshes action

theorem askedSince_snoc {s : Stepper σ ε} {actions : List Action} {action : Action}
    {property : String} :
    s.AskedSince (actions ++ [action]) property ↔ action = .askValueCounts property ∨
      s.AskedSince actions property ∧ ¬ (s.follow actions).Refreshes action := by
  constructor
  · rintro ⟨before, after, hsplit, hsince⟩
    -- either it is the last action itself that asks, or the last action has come since
    rcases List.eq_nil_or_concat' after with rfl | ⟨since, last, rfl⟩
    · left
      exact (List.append_singleton_inj.mp hsplit).2
    · right
      rw [← List.cons_append, ← List.append_assoc] at hsplit
      obtain ⟨rfl, rfl⟩ := List.append_singleton_inj.mp hsplit
      refine ⟨⟨before, since, rfl, ?_⟩, hsince since action [] rfl⟩
      intro earlier other later hsplit
      refine hsince earlier other (later ++ [action]) ?_
      rw [hsplit, List.append_assoc, List.cons_append]
  · rintro (rfl | ⟨⟨before, after, rfl, hsince⟩, hlast⟩)
    · refine ⟨actions, [], rfl, ?_⟩
      intro earlier action later h
      cases earlier <;> cases h
    · refine ⟨before, after ++ [action], by simp, ?_⟩
      intro earlier other later hsplit
      rcases List.eq_nil_or_concat' later with rfl | ⟨rest, last, rfl⟩
      · obtain ⟨rfl, rfl⟩ := List.append_singleton_inj.mp hsplit
        exact hlast
      · rw [← List.cons_append, ← List.append_assoc] at hsplit
        obtain ⟨rfl, rfl⟩ := List.append_singleton_inj.mp hsplit
        exact hsince earlier other rest rfl

theorem tracks_follow {s : Stepper σ ε} (h : ∀ property, ¬ s.Tracks property)
    (actions : List Action) (property : String) :
    (s.follow actions).Tracks property ↔ s.AskedSince actions property := by
  induction actions using List.reverseRecOn with
  | nil =>
    rw [follow_nil, iff_false_left (h property)]
    rintro ⟨before, after, hsplit, -⟩
    cases before <;> cases hsplit
  | append_singleton actions action ih =>
    rw [follow_append, askedSince_snoc, ← ih]
    exact tracks_next

/-- No two titles are equal, and after any run a session lists the queries it should, no other. -/
theorem queries_listed_exactly (store : σ) (executor : ε) (b : QueryBuilder) :
    (∀ label properties, properties.Nodup → (queryTitles label properties).Nodup) ∧
      ∀ actions, ListsQueries b ((start store executor b).follow actions)
        ((start store executor b).AskedSince actions) := by
  refine ⟨fun label properties h => nodup_queryTitles label h, ?_⟩
  intro actions
  have hfresh : ∀ property, ¬ (start store executor b).Tracks property := by
    intro property
    rw [tracks_iff, valueCounts_start]
    simp
  have hasked : ((start store executor b).follow actions).Tracks =
      (start store executor b).AskedSince actions := by
    funext property
    exact propext (tracks_follow hfresh actions property)
  rw [← hasked]
  exact listsQueries_of_upToDate (upToDate_follow store executor b actions)

end Stepper

end SchemaWalk
