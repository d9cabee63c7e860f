import SchemaWalk.Proofs.Shell.Session
import SchemaWalk.Proofs.Stepper.Freshness
import SchemaWalk.Proofs.Stepper.History
import SchemaWalk.Proofs.Stepper.Refusal

/-! # The shell beside the stepper

The shell makes a candidate at once, the stepper filter by filter, asking about each on the way. The
queries that the shell shows are those that the stepper is left with. A push takes the filters as
they are typed and not through a candidate, so it commits what the stepper commits only as long as
no name is typed twice. -/

namespace SchemaWalk

variable {σ ε : Type}

namespace Stepper

/-- A label is selected and filters are added to it, one after another. -/
def focusing (label : String) (fs : List PropertyFilter) : List Action :=
  .setLabel label :: fs.map fun f => .addFilter f.name f.value

/-- The query that a tracker was asked, unless it was asked nothing. -/
def shownQuery (s : Stepper σ ε) (kind : QueryKind) (text : String) : List Query :=
  if text = "" then [] else [⟨kind, text, s.builder.walkTimeout⟩]

/-- What a session shows to have been asked about its focal node: relationships, property keys, and
the values of a property if they are asked for now. -/
def shownQueries [Executor ε] (s : Stepper σ ε) (property : Option String) : List Query :=
  s.shownQuery .adjacentRelationships s.adjacency.state.queryText ++
    s.shownQuery .propertyKeys s.propertyCounts.state.queryText ++
    property.toList.flatMap fun name =>
      ((s.askValueCounts name).valueCountState name).toList.flatMap fun state =>
        s.shownQuery .propertyValues state.queryText

/-- The texts that the trackers of the focal node hold, the one of a property if it is asked about
now. -/
def focalTexts [Executor ε] (s : Stepper σ ε) (property : Option String) : List String :=
  [s.adjacency.state.queryText, s.propertyCounts.state.queryText] ++
    property.toList.flatMap fun name =>
      ((s.askValueCounts name).valueCountState name).toList.map (·.queryText)

variable [Executor ε]

/-! ## Focusing -/

theorem addFilter_of_named (s : Stepper σ ε) {f : PropertyFilter} (h : f.name ≠ "") :
    s.addFilter f.name f.value =
      .ok { s with candidate := s.candidate.withFilter f }.refreshFocal := by
  obtain ⟨name, ⟨⟩, value⟩ := f
  rw [addFilter, create_filter_of_name h]
  rfl

variable [KeyValueStore σ] {fs : List PropertyFilter}

theorem follow_addFilters (s : Stepper σ ε) (h : NamedFilters fs) :
    (s.follow (fs.map fun f => .addFilter f.name f.value)).saved = s.saved ∧
      (s.follow (fs.map fun f => .addFilter f.name f.value)).candidate =
        fs.foldl Candidate.withFilter s.candidate := by
  induction fs generalizing s with
  | nil => exact ⟨rfl, rfl⟩
  | cons f fs ih =>
    have hnext : s.next (.addFilter f.name f.value) =
        { s with candidate := s.candidate.withFilter f }.refreshFocal := by
      rw [next, perform, addFilter_of_named s (h f List.mem_cons_self)]
    rw [List.map_cons, follow_cons, hnext]
    exact ih _ fun g hg => h g (List.mem_cons_of_mem f hg)

/-- The walk is left alone, and the old candidate plays no part. -/
theorem follow_focusing (s : Stepper σ ε) (label : String) (h : NamedFilters fs) :
    (s.follow (focusing label fs)).saved = s.saved ∧
      (s.follow (focusing label fs)).candidate = Shell.candidateOf label fs :=
  follow_addFilters (s.setLabel label) h

/-! ## Shown queries -/

theorem valueSuffix_ne (property : String) : valueSuffix property ≠ "" := by
  unfold valueSuffix
  rw [ne_eq, String.append_eq_empty_iff]
  rintro ⟨-, h⟩
  exact absurd h (by decide)

omit [Executor ε] [KeyValueStore σ] in
/-- The query is found again from its text, which is never empty. -/
theorem shownQuery_eq (s : Stepper σ ε) (kind : QueryKind) (focal : Option String) {suffix : String}
    (hsuffix : suffix ≠ "") {q : Option Query}
    (hq : q = focal.map fun text => ⟨kind, text ++ suffix, s.builder.walkTimeout⟩) :
    s.shownQuery kind ((q.map (·.text)).getD "") = q.toList := by
  subst hq
  cases focal with
  | none => rfl
  | some text => simp [shownQuery, hsuffix]

omit [Executor ε] [KeyValueStore σ] in
theorem texts_shownQuery (s : Stepper σ ε) (kind : QueryKind) (text : String) :
    (s.shownQuery kind text).map (·.text) = [text].filter (· ≠ "") := by
  by_cases h : text = "" <;> simp [shownQuery, h]

omit [KeyValueStore σ] in
theorem texts_shownQueries (s : Stepper σ ε) (property : Option String) :
    (s.shownQueries property).map (·.text) = (s.focalTexts property).filter (· ≠ "") := by
  have hfront : ∀ rest : List String,
      (([s.adjacency.state.queryText, s.propertyCounts.state.queryText] ++ rest).filter (· ≠ "")) =
        [s.adjacency.state.queryText].filter (· ≠ "") ++
          ([s.propertyCounts.state.queryText].filter (· ≠ "") ++ rest.filter (· ≠ "")) := by
    intro rest
    rw [← List.filter_append, ← List.filter_append]
    rfl
  rw [shownQueries, focalTexts, hfront, List.map_append, List.map_append, texts_shownQuery,
    texts_shownQuery, List.append_assoc]
  cases property with
  | none => rfl
  | some name =>
    rw [Option.toList_some, List.flatMap_singleton, List.flatMap_singleton]
    cases (s.askValueCounts name).valueCountState name with
    | none => rfl
    | some state =>
      rw [Option.toList_some, List.flatMap_singleton, texts_shownQuery]
      rfl

omit [KeyValueStore σ] in
theorem shownValues_eq (s : Stepper σ ε) (name : String) :
    ((s.askValueCounts name).valueCountState name).toList.flatMap
        (fun state => s.shownQuery .propertyValues state.queryText) =
      (s.valueCountsQuery name).toList := by
  have hstate : (s.askValueCounts name).valueCountState name =
      some (((s.valueCounts.get? name).getD .fresh).runOrReset s.executor
        (s.valueCountsQuery name) decodeValueCounts).tracker.state := by
    simp only [valueCountState, askValueCounts, Table.get?_insert_self, Option.map_some]
  rw [hstate, Option.toList_some, List.flatMap_singleton,
    (current_runOrReset _ _ _ _).queryText_eq]
  by_cases hname : name = ""
  · have hnone : s.valueCountsQuery name = none := by
      simp [valueCountsQuery, QueryBuilder.propertyValues, hname]
    rw [hnone]
    rfl
  · have hquery : s.valueCountsQuery name = (QueryBuilder.focal s.walk s.candidate).map
        fun text => ⟨.propertyValues, text ++ valueSuffix name, s.builder.walkTimeout⟩ := by
      rw [valueCountsQuery, QueryBuilder.propertyValues, if_neg (by simpa using hname)]
    exact shownQuery_eq s .propertyValues _ (valueSuffix_ne name) hquery

omit [KeyValueStore σ] in
/-- A session that is up to date shows what a shell shows for the same walk and candidate. -/
theorem shownQueries_eq {builder : QueryBuilder} {s : Stepper σ ε} (h : UpToDate builder s)
    (property : Option String) :
    s.shownQueries property = Shell.focalQueries builder s.walk s.candidate property := by
  obtain ⟨rfl, -, hfocused⟩ := h
  have hadjacency : s.shownQuery .adjacentRelationships s.adjacency.state.queryText =
      s.adjacencyQuery.toList := by
    rw [hfocused.adjacency.queryText_eq]
    exact shownQuery_eq s .adjacentRelationships _ (by decide : adjacentSuffix ≠ "") rfl
  have hkeys : s.shownQuery .propertyKeys s.propertyCounts.state.queryText =
      s.propertyCountsQuery.toList := by
    rw [hfocused.propertyCounts.queryText_eq]
    exact shownQuery_eq s .propertyKeys _ (by decide : keySuffix ≠ "") rfl
  have hvalues : (property.toList.flatMap fun name =>
      ((s.askValueCounts name).valueCountState name).toList.flatMap fun state =>
        s.shownQuery .propertyValues state.queryText) =
      (property.bind s.valueCountsQuery).toList := by
    cases property with
    | none => rfl
    | some name =>
      rw [Option.toList_some, List.flatMap_singleton, shownValues_eq, Option.bind_some]
  rw [shownQueries, hadjacency, hkeys, hvalues]
  change _ = [s.adjacencyQuery, s.propertyCountsQuery,
    property.bind s.valueCountsQuery].filterMap id
  cases s.adjacencyQuery <;> cases s.propertyCountsQuery <;>
    cases property.bind s.valueCountsQuery <;> rfl

end Stepper

namespace Shell

open Files Stepper

variable {label : String} {raws : List String} {fs : List PropertyFilter}

theorem named_of_filtersOf (h : filtersOf raws = .ok fs) : NamedFilters fs :=
  named_of_typed (filtersOf_eq_ok_iff.mp h)

theorem focused_start [KeyValueStore σ] [Executor ε] (store : σ) (executor : ε)
    (builder : QueryBuilder) (label : String) (h : NamedFilters fs) :
    ((start store executor builder).follow (focusing label fs)).saved = .load store ∧
      ((start store executor builder).follow (focusing label fs)).candidate =
        candidateOf label fs := by
  obtain ⟨hsaved, hcandidate⟩ := follow_focusing (start store executor builder) label h
  exact ⟨hsaved.trans (saved_refreshNextLabels _), hcandidate⟩

theorem shownQueries_focused [KeyValueStore σ] [Executor ε] (store : σ) (executor : ε)
    (builder : QueryBuilder) (label : String) (h : NamedFilters fs) (property : Option String) :
    ((start store executor builder).follow (focusing label fs)).shownQueries property =
      focalQueries builder (SavedWalk.load store).walk (candidateOf label fs) property := by
  obtain ⟨hsaved, hcandidate⟩ := focused_start store executor builder label h
  have hcurrent := follow_induction (fun _ _ => upToDate_effect)
    (upToDate_start store executor builder) (focusing label fs)
  rw [shownQueries_eq hcurrent, Stepper.walk, hsaved, hcandidate]

/-- A session with the store and the time limits of an invocation. -/
def sessionOf [Executor ε] (executor : ε) (i : Invocation) (env : Environment) (t : FileTree) :
    Stepper FileStore ε :=
  start (storeOf i ((Settings.load env t).getD .default) env t) executor
    ((Settings.load env t).getD .default).queryBuilder

/-- Each query gives a heading, with its title and its time limit, and a line with its text. -/
inductive Prints : List String → List Query → Prop where
  | nil : Prints [] []
  | query (q : Query) {lines : List String} {qs : List Query} : Prints lines qs →
      Prints ((q.kind.title ++ " (timeout " ++ toString q.timeout ++ " ms):") ::
        ("  " ++ q.text) :: lines) (q :: qs)

theorem prints_queryLines (qs : List Query) : Prints (qs.flatMap queryLines) qs := by
  induction qs with
  | nil => exact .nil
  | cons q qs ih => exact .query q ih

theorem runArguments_eq {args : List String} {i : Invocation} (h : Understood args i)
    (env : Environment) (t : FileTree) : runArguments args env t = runInvocation i env t := by
  rw [runArguments, ofArguments_eq_ok_iff.mpr h]

/-- A shell that is asked for queries prints those that a session shows once the same label is
selected and the same filters are added, however its executor replies. Their texts are those that
the session has asked, the empty ones left out. -/
theorem queries_match_session [Executor ε] (executor : ε) {args : List String}
    {storeDir property : Option String} (env : Environment) (t : FileTree)
    (hargs : Understood args ⟨storeDir, .queries label raws property⟩)
    (hfilters : List.Forall₂ Typed raws fs) :
    let session := (sessionOf executor ⟨storeDir, .queries label raws property⟩ env t).follow
      (focusing label fs)
    ∃ output, runArguments args env t = ⟨0, output, none, (Settings.load env t).isNone, t⟩ ∧
      Prints output (session.shownQueries property) ∧
      (session.shownQueries property).map (·.text) =
        (session.focalTexts property).filter (· ≠ "") := by
  intro session
  have hread : filtersOf raws = .ok fs := filtersOf_eq_ok_iff.mpr hfilters
  have hshown := shownQueries_focused
    (storeOf ⟨storeDir, .queries label raws property⟩ ((Settings.load env t).getD .default) env t)
    executor ((Settings.load env t).getD .default).queryBuilder label (named_of_typed hfilters)
    property
  refine ⟨(session.shownQueries property).flatMap queryLines, ?_, prints_queryLines _,
    texts_shownQueries session property⟩
  rw [runArguments_eq hargs]
  simp only [session, sessionOf, hshown, runInvocation, run, hread, SavedWalk.store_load,
    tree_storeOf]

/-- A property with two filters, of which the second takes the place of the first. -/
theorem queries_match_session_repeated :
    let args := ["--store-dir", "walks", "queries", "--label", "Person", "--filter", "age = 30",
      "--property", "name", "--filter=name=Ann", "--filter", "age=31"]
    let raws := ["age = 30", "name=Ann", "age=31"]
    let session := (start (FileStore.mk "walks" .empty) (FixedReply.mk twoCities) default).follow
      [.setLabel "Person", .addFilter "age" "30", .addFilter "name" "Ann", .addFilter "age" "31"]
    let focal := "MATCH (n:`Person`\x7bage: 31, name: 'Ann'\x7d)"
    Understood args ⟨some "walks", .queries "Person" raws (some "name")⟩ ∧
    List.Forall₂ Typed raws
      [⟨"age", .equality, "30"⟩, ⟨"name", .equality, "Ann"⟩, ⟨"age", .equality, "31"⟩] ∧
    (session.focalTexts (some "name")).filter (· ≠ "") =
      [focal ++ adjacentSuffix, focal ++ keySuffix, focal ++ valueSuffix "name"] ∧
    (runArguments args bareEnvironment .empty).output =
      ["Adjacent relations (timeout 30000 ms):", "  " ++ (focal ++ adjacentSuffix),
        "Prop counts (timeout 30000 ms):", "  " ++ (focal ++ keySuffix),
        "Prop vals (timeout 30000 ms):", "  " ++ (focal ++ valueSuffix "name")] := by
  intro args raws session focal
  have hargs : Understood args ⟨some "walks", .queries "Person" raws (some "name")⟩ :=
    ofArguments_eq_ok_iff.mp (by decide +kernel)
  have hfilters : List.Forall₂ Typed raws
      [⟨"age", .equality, "30"⟩, ⟨"name", .equality, "Ann"⟩, ⟨"age", .equality, "31"⟩] :=
    filtersOf_eq_ok_iff.mp rfl
  have hbuilder :
      ((Settings.load bareEnvironment .empty).getD .default).queryBuilder = default := by
    decide +kernel
  have h := queries_match_session (FixedReply.mk twoCities) bareEnvironment .empty hargs hfilters
  rw [sessionOf, hbuilder] at h
  obtain ⟨output, hrun, hprints, htexts⟩ := h
  have hqueries : session.shownQueries (some "name") =
      [⟨.adjacentRelationships, focal ++ adjacentSuffix, 30000⟩,
        ⟨.propertyKeys, focal ++ keySuffix, 30000⟩,
        ⟨.propertyValues, focal ++ valueSuffix "name", 30000⟩] := by
    decide +kernel
  change Prints output (session.shownQueries (some "name")) at hprints
  change (session.shownQueries (some "name")).map (·.text) = _ at htexts
  rw [hqueries] at hprints htexts
  refine ⟨hargs, hfilters, htexts.symm, ?_⟩
  rw [hrun]
  obtain _ | ⟨_, _ | ⟨_, _ | ⟨_, hprints⟩⟩⟩ := hprints
  cases hprints
  decide +kernel

/-! ## Pushes -/

section Push

variable [KeyValueStore σ] [Executor ε]

theorem append_inj {saved : SavedWalk σ} {step step' : Step}
    (h : saved.append step = saved.append step') : step = step' := by
  have hwalk : saved.walk.append step = saved.walk.append step' := congrArg SavedWalk.walk h
  simpa [Walk.append] using hwalk

theorem lengthLine_append (w : Walk) (step step' : Step) :
    lengthLine (w.append step) = lengthLine (w.append step') := by
  have hlength : (w.append step).length = (w.append step').length := by
    rw [Walk.length_append, Walk.length_append]
  unfold lengthLine
  rw [hlength]

theorem pickRelationship_focused (store : σ) (executor : ε) (builder : QueryBuilder)
    {typeName : String} {gs : List PropertyFilter} (hlabel : label ≠ "") (htype : typeName ≠ "")
    (hfs : NamedFilters fs) (hgs : NamedFilters gs) (direction : Direction) :
    ∃ s, ((start store executor builder).follow (focusing label fs)).pickRelationship typeName gs
        direction = .ok s ∧
      s.saved = (SavedWalk.load store).append
        ⟨⟨label, (candidateOf label fs).filters⟩, ⟨typeName, gs⟩, direction⟩ := by
  obtain ⟨hsaved, hcandidate⟩ := focused_start store executor builder label hfs
  have hnamed := named_follow store executor builder (focusing label fs)
  have hlabels : (candidateOf label fs).label = label := Candidate.label_foldl_withFilter _ fs
  generalize (start store executor builder).follow (focusing label fs) = s
    at hsaved hcandidate hnamed ⊢
  have hready : s.candidate.label ≠ "" := by
    rw [hcandidate, hlabels]
    exact hlabel
  rw [pickRelationship_of_named hnamed hready htype hgs, hcandidate, hlabels]
  exact ⟨_, rfl, by rw [saved_continueFrom, hsaved]⟩

/-- A push and a session on the same store add the same hop, but for the filters of its origin. They
add the same one just when no name is repeated, and just then the origin has the filters that are
shown for the same label and filters. -/
theorem push_matches_session_iff (store : σ) (executor : ε) (builder : QueryBuilder)
    (inbound : Bool) {typeName : String} {relationshipRaws : List String}
    {gs : List PropertyFilter} (hlabel : label ≠ "") (htype : typeName ≠ "")
    (hfs : filtersOf raws = .ok fs) (hgs : filtersOf relationshipRaws = .ok gs) :
    let hop filters : Step :=
      ⟨⟨label, filters⟩, ⟨typeName, gs⟩, if inbound then .inbound else .outbound⟩
    let pushed := run builder (.load store) (.push label typeName inbound raws relationshipRaws)
    ∃ s, ((start store executor builder).follow (focusing label fs)).pickRelationship typeName gs
          (if inbound then .inbound else .outbound) = .ok s ∧
      s.saved = (SavedWalk.load store).append (hop (candidateOf label fs).filters) ∧
      pushed = (.ok [lengthLine s.walk], (SavedWalk.load store).append (hop fs)) ∧
      (pushed.2 = s.saved ↔ (fs.map (·.name)).Nodup) ∧
      ((candidateOf label fs).filters = fs ↔ (fs.map (·.name)).Nodup) := by
  intro hop pushed
  obtain ⟨s, hpick, hsaved⟩ := pickRelationship_focused store executor builder hlabel htype
    (named_of_filtersOf hfs) (named_of_filtersOf hgs) (if inbound then .inbound else .outbound)
  have hstep : pushedStep label typeName inbound raws relationshipRaws = .ok (hop fs) :=
    pushedStep_eq_ok_iff.mpr ⟨⟨rfl, hlabel⟩, ⟨rfl, htype⟩, filtersOf_eq_ok_iff.mp hfs,
      filtersOf_eq_ok_iff.mp hgs, rfl⟩
  have hpushed : pushed = (.ok [lengthLine ((SavedWalk.load store).append (hop fs)).walk],
      (SavedWalk.load store).append (hop fs)) := by
    simp only [pushed, run, hstep]
  have hfilters : (candidateOf label fs).filters = fs ↔ (fs.map (·.name)).Nodup :=
    Candidate.filters_ofLabel_iff label fs
  refine ⟨s, hpick, hsaved, ?_, ?_, hfilters⟩
  · -- the two walks are of one length whatever the filters are
    have hline := lengthLine_append (SavedWalk.load store).walk (hop fs)
      (hop (candidateOf label fs).filters)
    rw [hpushed, Stepper.walk, hsaved, SavedWalk.walk_append, hline]
    rfl
  · rw [hpushed, hsaved, ← hfilters]
    constructor
    · intro h
      exact (congrArg (fun step : Step => step.origin.filters) (append_inj h)).symm
    · intro h
      rw [h]

end Push

/-- The names on the relationship may repeat, for they go through no candidate in either. -/
theorem push_matches_session_iff_inbound :
    "Person" ≠ "" ∧ "KNOWS" ≠ "" ∧
    filtersOf ["age=30", "name=Ann"] =
      .ok [⟨"age", .equality, "30"⟩, ⟨"name", .equality, "Ann"⟩] ∧
    filtersOf ["since = 2020", "since=2021"] =
      .ok [⟨"since", .equality, "2020"⟩, ⟨"since", .equality, "2021"⟩] ∧
    ∃ s, ((start Memory.empty (FixedReply.mk twoCities) default).follow
          [.setLabel "Person", .addFilter "age" "30", .addFilter "name" "Ann"]).pickRelationship
          "KNOWS" [⟨"since", .equality, "2020"⟩, ⟨"since", .equality, "2021"⟩] .inbound = .ok s ∧
      (run default (.load Memory.empty) (.push "Person" "KNOWS" true ["age=30", "name=Ann"]
        ["since = 2020", "since=2021"])).2 = s.saved := by
  refine ⟨by decide, by decide, rfl, rfl, ?_⟩
  obtain ⟨s, hpick, -, -, hsaved, -⟩ := push_matches_session_iff Memory.empty
    (FixedReply.mk twoCities) default true (by decide : "Person" ≠ "") (by decide : "KNOWS" ≠ "")
    (rfl : filtersOf ["age=30", "name=Ann"] = _)
    (rfl : filtersOf ["since = 2020", "since=2021"] = _)
  exact ⟨s, hpick, hsaved.mpr (by decide)⟩

/-- The second age takes the place of the first in the session. The push keeps them both. -/
theorem push_keeps_repeated_name :
    ∃ s, ((start Memory.empty (FixedReply.mk twoCities) default).follow
          [.setLabel "Person", .addFilter "age" "1", .addFilter "age" "2"]).pickRelationship
          "KNOWS" [] .outbound = .ok s ∧
      s.walk = ⟨[⟨⟨"Person", [⟨"age", .equality, "2"⟩]⟩, ⟨"KNOWS", []⟩, .outbound⟩]⟩ ∧
      (run default (.load Memory.empty)
          (.push "Person" "KNOWS" false ["age=1", "age=2"] [])).2.walk =
        ⟨[⟨⟨"Person", [⟨"age", .equality, "1"⟩, ⟨"age", .equality, "2"⟩]⟩, ⟨"KNOWS", []⟩,
          .outbound⟩]⟩ :=
  ⟨_, rfl, rfl, rfl⟩

end Shell

end SchemaWalk
