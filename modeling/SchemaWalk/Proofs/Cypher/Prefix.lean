import SchemaWalk.Proofs.Cypher.Pattern

/-! # Cut walks and cut texts

The text of a walk grows with its steps and is cut where its steps are cut. Of clean walks the
converse holds as well: a text that goes on as another one belongs to a walk that goes on as the
other one, so no cut of a text is the text of a walk from elsewhere. -/

namespace SchemaWalk

/-! ## Steps one after the other -/

theorem Step.toList_pattern_ne_nil (s : Step) : s.pattern.toList ≠ [] := by
  intro h
  have hopens := opensStep_append s []
  rw [h] at hopens
  exact absurd hopens (by decide)

/-- Each step is cut off where its pattern ends, which is the same place in both texts. -/
theorem prefix_of_patterns {steps others : List Step} (hs : ∀ s ∈ steps, s.Clean)
    (ho : ∀ s ∈ others, s.Clean)
    (h : (steps.flatMap fun s => s.pattern.toList) <+: others.flatMap fun s => s.pattern.toList) :
    steps <+: others := by
  induction steps generalizing others with
  | nil => exact List.nil_prefix
  | cons s steps ih =>
    rw [List.flatMap_cons] at h
    cases others with
    | nil =>
      have hnil := List.prefix_nil.mp h
      exact absurd (List.append_eq_nil_iff.mp hnil).1 s.toList_pattern_ne_nil
    | cons t others =>
      obtain ⟨hs, hsteps⟩ := List.forall_mem_cons.mp hs
      obtain ⟨ht, hothers⟩ := List.forall_mem_cons.mp ho
      obtain ⟨rest, hrest⟩ := h
      rw [List.flatMap_cons, List.append_assoc] at hrest
      obtain ⟨rfl, htail⟩ := step_append_inj hs ht hrest
      exact List.cons_prefix_cons.mpr ⟨rfl, ih hsteps hothers ⟨rest, htail⟩⟩

namespace Walk

theorem prefix_iff_truncate {w v : Walk} :
    w.steps <+: v.steps ↔ ∃ index, w = v.truncate index := by
  constructor
  · intro h
    exact ⟨w.length, congrArg Walk.mk (List.prefix_iff_eq_take.mp h)⟩
  · rintro ⟨index, rfl⟩
    exact List.take_prefix index v.steps

theorem toList_pattern_truncate (w : Walk) (index : Nat) :
    w.pattern.toList =
      (w.truncate index).pattern.toList ++
        (w.steps.drop index).flatMap fun s => s.pattern.toList := by
  rw [toList_walk_pattern, toList_walk_pattern, List.append_assoc, truncate, ← List.flatMap_append,
    List.take_append_drop]

theorem pattern_prefix_iff {w v : Walk} (hw : w.Clean) (hv : v.Clean) :
    ((∃ index, w = v.truncate index) ↔ w.pattern.toList <+: v.pattern.toList) ∧
      (∀ s, v.pattern.toList <+: (v.append s).pattern.toList ∧
        v.pattern ≠ (v.append s).pattern) ∧
      ∀ index, v.pattern.toList =
        (v.truncate index).pattern.toList ++
          (v.steps.drop index).flatMap fun s => s.pattern.toList := by
  refine ⟨⟨?_, ?_⟩, ?_, toList_pattern_truncate v⟩
  · rintro ⟨index, rfl⟩
    exact ⟨_, (toList_pattern_truncate v index).symm⟩
  · intro h
    rw [toList_walk_pattern, toList_walk_pattern, List.prefix_append_right_inj] at h
    exact prefix_iff_truncate.mp (prefix_of_patterns hw hv h)
  · intro s
    have hlist : (v.append s).pattern.toList = v.pattern.toList ++ s.pattern.toList := by
      rw [pattern_append, String.toList_append]
    refine ⟨⟨_, hlist.symm⟩, ?_⟩
    intro heq
    rw [← heq] at hlist
    exact s.toList_pattern_ne_nil (List.self_eq_append_right.mp hlist)

/-- One hop, against its direction or along it, and a filter on its type. -/
def cityHop (direction : Direction) (value : String) : Step :=
  ⟨⟨"City", []⟩, ⟨"IN", [⟨"since", .equality, value⟩]⟩, direction⟩

/-- Neither a number that is the start of a longer one nor an arrow that is missing makes one text
a cut of the other. -/
theorem pattern_prefix_iff_cityHop :
    ¬ (⟨[cityHop .inbound "1"]⟩ : Walk).pattern.toList <+:
        (⟨[cityHop .inbound "12", cityHop .outbound "1"]⟩ : Walk).pattern.toList ∧
      ¬ (⟨[cityHop .inbound "1"]⟩ : Walk).pattern.toList <+:
        (⟨[cityHop .outbound "1"]⟩ : Walk).pattern.toList := by
  have hone : (⟨[cityHop .inbound "1"]⟩ : Walk).Clean := by decide
  have hlong : (⟨[cityHop .inbound "12", cityHop .outbound "1"]⟩ : Walk).Clean := by decide
  have hout : (⟨[cityHop .outbound "1"]⟩ : Walk).Clean := by decide
  constructor
  · intro h
    have hcut := (pattern_prefix_iff hone hlong).1.mpr h
    exact absurd (prefix_iff_truncate.mpr hcut) (by decide)
  · intro h
    have hcut := (pattern_prefix_iff hone hout).1.mpr h
    exact absurd (prefix_iff_truncate.mpr hcut) (by decide)

end Walk

end SchemaWalk
