import SchemaWalk.Candidate

/-! # The filters of a candidate

Filters have names, and no two of a candidate have the same. So filters that are added one after
another are found again in the candidate just when their names are all different. -/

namespace SchemaWalk

/-! ## Names of filters -/

theorem create_filter_of_name {name : String} (h : name ≠ "") (value : String) :
    PropertyFilter.create name value = .ok ⟨name, .equality, value⟩ := by
  simp [PropertyFilter.create, h]

theorem name_of_create {name value : String} {f : PropertyFilter}
    (h : PropertyFilter.create name value = .ok f) : f.name ≠ "" := by
  by_cases hn : name = ""
  · simp [PropertyFilter.create, hn] at h
  · rw [create_filter_of_name hn] at h
    cases h
    exact hn

def NamedFilters (fs : List PropertyFilter) : Prop := ∀ f ∈ fs, f.name ≠ ""

theorem validateFilters_of_named {fs : List PropertyFilter} (h : NamedFilters fs) :
    validateFilters fs = .ok () := by
  induction fs with
  | nil => rfl
  | cons f fs ih =>
    have hname : f.validate = .ok () := by
      simp [PropertyFilter.validate, h f List.mem_cons_self]
    rw [validateFilters, hname]
    exact ih fun g hg => h g (List.mem_cons_of_mem f hg)

theorem create_node_eq_ok_iff {label : String} {fs : List PropertyFilter} (h : NamedFilters fs)
    {n : NodePick} : NodePick.create label fs = .ok n ↔ label ≠ "" ∧ n = ⟨label, fs⟩ := by
  unfold NodePick.create NodePick.validate
  rw [validateFilters_of_named h]
  by_cases hlabel : label = ""
  · simp [hlabel, Except.map]
  · simp only [hlabel, String.isEmpty_iff, if_false, Except.map, Except.ok.injEq, ne_eq,
      not_false_eq_true, true_and]
    exact eq_comm

theorem create_relationship_eq_ok_iff {typeName : String} {fs : List PropertyFilter}
    (h : NamedFilters fs) {r : RelationshipPick} :
    RelationshipPick.create typeName fs = .ok r ↔ typeName ≠ "" ∧ r = ⟨typeName, fs⟩ := by
  unfold RelationshipPick.create RelationshipPick.validate
  rw [validateFilters_of_named h]
  by_cases htype : typeName = ""
  · simp [htype, Except.map]
  · simp only [htype, String.isEmpty_iff, if_false, Except.map, Except.ok.injEq, ne_eq,
      not_false_eq_true, true_and]
    exact eq_comm

namespace Candidate

/-! ## Adding a filter -/

variable {f : PropertyFilter} {fs : List PropertyFilter} {c : Candidate}

theorem eq_or_mem_of_mem_putFilter {g : PropertyFilter} (h : g ∈ putFilter f fs) :
    g = f ∨ g ∈ fs := by
  induction fs with
  | nil => exact .inl (by simpa [putFilter] using h)
  | cons head rest ih =>
    rw [putFilter] at h
    split at h
    · rcases List.mem_cons.mp h with rfl | h
      · exact .inl rfl
      · exact .inr (List.mem_cons_of_mem head h)
    · rcases List.mem_cons.mp h with rfl | h
      · exact .inr List.mem_cons_self
      · exact (ih h).imp_right (List.mem_cons_of_mem head)

theorem putFilter_of_new (h : f.name ∉ fs.map (·.name)) : putFilter f fs = fs ++ [f] := by
  induction fs with
  | nil => rfl
  | cons g rest ih =>
    have hg : g.name ≠ f.name := by
      intro hname
      exact h (hname ▸ List.mem_cons_self)
    rw [putFilter, if_neg hg, ih fun hmem => h (List.mem_cons_of_mem _ hmem), List.cons_append]

theorem nodup_putFilter (f : PropertyFilter) (h : (fs.map (·.name)).Nodup) :
    ((putFilter f fs).map (·.name)).Nodup := by
  rw [names_putFilter]
  split
  · exact h
  · next hnew =>
    rw [List.nodup_append]
    refine ⟨h, List.pairwise_singleton .., ?_⟩
    rintro name hname _ hlast rfl
    exact hnew (List.mem_singleton.mp hlast ▸ hname)

/-! ## One after another -/

theorem label_foldl_withFilter (c : Candidate) (fs : List PropertyFilter) :
    (fs.foldl withFilter c).label = c.label := by
  induction fs generalizing c with
  | nil => rfl
  | cons f fs ih => exact ih (c.withFilter f)

theorem nodup_foldl_withFilter (h : (c.filters.map (·.name)).Nodup) (fs : List PropertyFilter) :
    ((fs.foldl withFilter c).filters.map (·.name)).Nodup := by
  induction fs generalizing c with
  | nil => exact h
  | cons f fs ih => exact ih (c := c.withFilter f) (nodup_putFilter f h)

theorem filters_foldl_withFilter (h : ((c.filters ++ fs).map (·.name)).Nodup) :
    (fs.foldl withFilter c).filters = c.filters ++ fs := by
  induction fs generalizing c with
  | nil => exact (List.append_nil _).symm
  | cons f fs ih =>
    have hnew : f.name ∉ c.filters.map (·.name) := by
      intro hmem
      rw [List.map_append, List.nodup_append] at h
      exact h.2.2 f.name hmem f.name (by simp) rfl
    have hput : (c.withFilter f).filters = c.filters ++ [f] := putFilter_of_new hnew
    have hrest : (((c.withFilter f).filters ++ fs).map (·.name)).Nodup := by
      rwa [hput, List.append_assoc, List.singleton_append]
    rw [List.foldl_cons, ih hrest, hput, List.append_assoc, List.singleton_append]

theorem filters_ofLabel_iff (label : String) (fs : List PropertyFilter) :
    (fs.foldl withFilter (ofLabel label)).filters = fs ↔ (fs.map (·.name)).Nodup := by
  constructor
  · intro h
    have hnodup := nodup_foldl_withFilter (c := ofLabel label) .nil fs
    rwa [h] at hnodup
  · exact filters_foldl_withFilter (c := ofLabel label)

end Candidate

end SchemaWalk
