import SchemaWalk.Proofs.Snapshot.RoundTrip
import SchemaWalk.SavedWalk

/-! # What a store keeps

A saved walk is changed, restored and written over and over, and any write may be refused. The
store holds the text of the walk as it was at the latest write that was taken; the walk itself
goes on as if none had been refused. -/

namespace SchemaWalk

/-! ## Valid walks -/

theorem validate_eq_ok_iff (w : Walk) :
    w.validate = .ok () ↔ ∀ s ∈ w.steps, s.validate = .ok () := by
  obtain ⟨steps⟩ := w
  simp only [Walk.validate]
  induction steps with
  | nil => simp [Walk.validateSteps]
  | cons s steps ih =>
    rw [Walk.validateSteps, List.forall_mem_cons]
    cases h : s.validate with
    | ok u => simpa using ih
    | error e => simp

/-- Picks that their constructors let through make a step that keeps all rules. -/
theorem validate_of_create {label typeName : String} {fs gs : List PropertyFilter} {n : NodePick}
    {r : RelationshipPick} (hn : NodePick.create label fs = .ok n)
    (hr : RelationshipPick.create typeName gs = .ok r) (d : Direction) :
    (⟨n, r, d⟩ : Step).validate = .ok () := by
  unfold NodePick.create at hn
  unfold RelationshipPick.create at hr
  cases hvn : NodePick.validate ⟨label, fs⟩ with
  | error e => rw [hvn] at hn; cases hn
  | ok u =>
    cases hvr : RelationshipPick.validate ⟨typeName, gs⟩ with
    | error e => rw [hvr] at hr; cases hr
    | ok v =>
      rw [hvn] at hn
      rw [hvr] at hr
      cases hn
      cases hr
      simp [Step.validate, hvn, hvr]

theorem validate_of_parseSnapshot {text : String} {w : Walk} (h : parseSnapshot text = .ok w) :
    w.validate = .ok () := by
  unfold parseSnapshot at h
  split at h
  · cases h
  · split at h
    · next hv => cases h; exact hv
    · cases h

theorem parseSnapshot_of_validate {w : Walk} (h : w.validate = .ok ()) :
    parseSnapshot w.snapshot = .ok w := by
  simp [parseSnapshot, read?_snapshot, h]

namespace SavedWalk

inductive Action where
  | append (step : Step)
  | truncate (index : Nat)
  | clear
  | restore (text : String)

namespace Action

/-- Restoring is the one action that writes nothing. -/
def Writes : Action → Prop
  | .restore _ => False
  | .append _ | .truncate _ | .clear => True

/-- A step to append keeps the rules of the model, as its constructors make sure. -/
def Checked : Action → Prop
  | .append step => step.validate = .ok ()
  | .truncate _ | .clear | .restore _ => True

def onWalk (w : Walk) : Action → Walk
  | .append step => w.append step
  | .truncate index => w.truncate index
  | .clear => .empty
  | .restore text =>
    match parseSnapshot text with
    | .ok restored => restored
    | .error _ => w

end Action

/-- An action, and whether the store takes a write at that time. -/
structure Turn where
  action : Action
  accepted : Bool

def Turn.Written (t : Turn) : Prop := t.action.Writes ∧ t.accepted = true

def perform {σ : Type} [KeyValueStore σ] (s : SavedWalk σ) : Action → SavedWalk σ
  | .append step => s.append step
  | .truncate index => s.truncate index
  | .clear => s.clear
  | .restore text =>
    match s.restore text with
    | .ok restored => restored
    | .error _ => s

def next (s : SavedWalk Memory) (t : Turn) : SavedWalk Memory :=
  { s with store := { s.store with writable := t.accepted } }.perform t.action

def follow (s : SavedWalk Memory) (turns : List Turn) : SavedWalk Memory := turns.foldl next s

def content (s : SavedWalk Memory) : Option String := s.store.entries.get? walkKey

/-- Either way to begin: with an empty walk, or with what the store holds. -/
inductive Beginning where
  | fresh
  | load

def Beginning.on (store : Memory) : Beginning → SavedWalk Memory
  | .fresh => .fresh store
  | .load => .load store

/-- Memory and store after any turns from any beginning. -/
structure Persists (beginning : Beginning) (store : Memory) (turns : List Turn) : Prop where
  /-- Refused writes leave no trace in the walk. -/
  walk : ((beginning.on store).follow turns).walk =
    turns.foldl (fun w t => t.action.onWalk w) (beginning.on store).walk
  unwritten : (∀ t ∈ turns, ¬ t.Written) →
    ((beginning.on store).follow turns).content = store.entries.get? walkKey
  written : ∀ before t since, turns = before ++ t :: since → t.Written →
    (∀ u ∈ since, ¬ u.Written) →
    ((beginning.on store).follow turns).content =
      some ((beginning.on store).follow (before ++ [t])).walk.snapshot
  /-- A readable store yields the walk of its latest write, even if it could not be read before. -/
  reopened : ∀ before t since, turns = before ++ t :: since → t.Written →
    (∀ u ∈ since, ¬ u.Written) → (∀ u ∈ turns, u.action.Checked) →
    (load { ((beginning.on store).follow turns).store with readable := true }).walk =
      ((beginning.on store).follow (before ++ [t])).walk
  /-- Without refusals and restores, closing and opening changes nothing. -/
  current : beginning = .load → store.readable = true →
    (∀ t ∈ turns, t.Written ∧ t.action.Checked) →
    (load ((beginning.on store).follow turns).store).walk =
      ((beginning.on store).follow turns).walk

/-! ## One turn -/

theorem walk_next (s : SavedWalk Memory) (t : Turn) :
    (s.next t).walk = t.action.onWalk s.walk := by
  obtain ⟨action, accepted⟩ := t
  cases action with
  | append step => rfl
  | truncate index => rfl
  | clear => exact Walk.truncate_zero s.walk
  | restore text =>
    simp only [next, perform, restore, Action.onWalk]
    cases parseSnapshot text <;> rfl

theorem content_persist {s : SavedWalk Memory} (h : s.store.writable = true) :
    s.persist.content = some s.walk.snapshot := by
  simp [persist, content, KeyValueStore.set, Memory.set, h]

theorem content_persist_refused {s : SavedWalk Memory} (h : s.store.writable = false) :
    s.persist.content = s.content := by
  simp [persist, content, KeyValueStore.set, Memory.set, h]

theorem readable_persist (s : SavedWalk Memory) : s.persist.store.readable = s.store.readable := by
  simp only [persist, KeyValueStore.set, Memory.set]
  split <;> rfl

theorem next_writes (s : SavedWalk Memory) {t : Turn} (h : t.action.Writes) :
    s.next t = persist ⟨t.action.onWalk s.walk, { s.store with writable := t.accepted }⟩ := by
  obtain ⟨action, accepted⟩ := t
  cases action with
  | append step => rfl
  | truncate index => rfl
  | clear => simp [next, perform, clear, truncate, Action.onWalk]
  | restore text => exact absurd h id

theorem store_next_restore (s : SavedWalk Memory) (text : String) (accepted : Bool) :
    (s.next ⟨.restore text, accepted⟩).store = { s.store with writable := accepted } := by
  simp only [next, perform, restore]
  cases parseSnapshot text <;> rfl

theorem content_next_written (s : SavedWalk Memory) {t : Turn} (h : t.Written) :
    (s.next t).content = some (s.next t).walk.snapshot := by
  rw [next_writes s h.1, content_persist h.2, walk_persist]

theorem content_next_unwritten (s : SavedWalk Memory) {t : Turn} (h : ¬ t.Written) :
    (s.next t).content = s.content := by
  by_cases hw : t.action.Writes
  · have hrefused : t.accepted = false := by simpa [Turn.Written, hw] using h
    rw [next_writes s hw, content_persist_refused hrefused]
    rfl
  · obtain ⟨action, accepted⟩ := t
    cases action with
    | restore text => rw [content, store_next_restore]; rfl
    | append step => exact absurd trivial hw
    | truncate index => exact absurd trivial hw
    | clear => exact absurd trivial hw

theorem readable_next (s : SavedWalk Memory) (t : Turn) :
    (s.next t).store.readable = s.store.readable := by
  obtain ⟨action, accepted⟩ := t
  cases action with
  | restore text => rw [store_next_restore]
  | append step => exact readable_persist _
  | truncate index => exact readable_persist _
  | clear => exact readable_persist _

theorem validate_onWalk {w : Walk} (h : w.validate = .ok ()) {action : Action}
    (hc : action.Checked) : (action.onWalk w).validate = .ok () := by
  cases action with
  | append step =>
    rw [validate_eq_ok_iff] at h ⊢
    intro s hs
    rcases List.mem_append.mp hs with hs | hs
    · exact h s hs
    · obtain rfl := List.mem_singleton.mp hs
      exact hc
  | truncate index =>
    rw [validate_eq_ok_iff] at h ⊢
    exact fun s hs => h s (List.mem_of_mem_take hs)
  | clear => rfl
  | restore text =>
    simp only [Action.onWalk]
    split
    · next hparse => exact validate_of_parseSnapshot hparse
    · exact h

/-! ## All turns -/

theorem follow_append (s : SavedWalk Memory) (before since : List Turn) :
    s.follow (before ++ since) = (s.follow before).follow since := by
  simp [follow, List.foldl_append]

theorem walk_follow (s : SavedWalk Memory) (turns : List Turn) :
    (s.follow turns).walk = turns.foldl (fun w t => t.action.onWalk w) s.walk := by
  induction turns generalizing s with
  | nil => rfl
  | cons t turns ih =>
    rw [List.foldl_cons, ← walk_next]
    exact ih (s.next t)

theorem content_follow_unwritten (s : SavedWalk Memory) {turns : List Turn}
    (h : ∀ t ∈ turns, ¬ t.Written) : (s.follow turns).content = s.content := by
  induction turns generalizing s with
  | nil => rfl
  | cons t turns ih =>
    have hrest := ih (s.next t) fun u hu => h u (List.mem_cons_of_mem t hu)
    exact hrest.trans (content_next_unwritten s (h t List.mem_cons_self))

theorem readable_follow (s : SavedWalk Memory) (turns : List Turn) :
    (s.follow turns).store.readable = s.store.readable := by
  induction turns generalizing s with
  | nil => rfl
  | cons t turns ih => exact (ih (s.next t)).trans (readable_next s t)

theorem validate_follow {s : SavedWalk Memory} (h : s.walk.validate = .ok ()) {turns : List Turn}
    (hc : ∀ t ∈ turns, t.action.Checked) : (s.follow turns).walk.validate = .ok () := by
  induction turns generalizing s with
  | nil => exact h
  | cons t turns ih =>
    have hnext : (s.next t).walk.validate = .ok () := by
      rw [walk_next]
      exact validate_onWalk h (hc t List.mem_cons_self)
    exact ih hnext fun u hu => hc u (List.mem_cons_of_mem t hu)

/-- The latest write that was taken is what the store holds. -/
theorem content_follow_written (s : SavedWalk Memory) {before since : List Turn} {t : Turn}
    (ht : t.Written) (hs : ∀ u ∈ since, ¬ u.Written) :
    (s.follow (before ++ t :: since)).content =
      some (s.follow (before ++ [t])).walk.snapshot := by
  have hsplit : before ++ t :: since = (before ++ [t]) ++ since := by simp
  rw [hsplit, follow_append, content_follow_unwritten _ hs, follow_append]
  exact content_next_written _ ht

/-! ## Opening -/

theorem store_load {σ : Type} [KeyValueStore σ] (store : σ) : (load store).store = store := by
  unfold load restore
  split
  · next text _ => cases parseSnapshot text <;> rfl
  · rfl

theorem store_beginning (beginning : Beginning) (store : Memory) :
    (beginning.on store).store = store := by
  cases beginning with
  | fresh => rfl
  | load => exact store_load store

/-- Rubbish in a store is no walk, so what is taken up from one keeps all rules. -/
theorem validate_load {σ : Type} [KeyValueStore σ] (store : σ) :
    (load store).walk.validate = .ok () := by
  unfold load restore
  split
  · next text _ =>
    cases hparse : parseSnapshot text with
    | ok w => exact validate_of_parseSnapshot hparse
    | error e => rfl
  · rfl

theorem walk_load_of_get {σ : Type} [KeyValueStore σ] {store : σ} {w : Walk}
    (hget : KeyValueStore.get store walkKey = .ok (some w.snapshot)) (hw : w.validate = .ok ()) :
    (load store).walk = w := by
  simp [load, hget, restore, parseSnapshot_of_validate hw, Except.map]

theorem validate_beginning (beginning : Beginning) (store : Memory) :
    (beginning.on store).walk.validate = .ok () := by
  cases beginning with
  | fresh => rfl
  | load => exact validate_load store

theorem walk_load {store : Memory} {w : Walk} (hr : store.readable = true)
    (hc : store.entries.get? walkKey = some w.snapshot) (hw : w.validate = .ok ()) :
    (load store).walk = w := by
  apply walk_load_of_get _ hw
  simp [KeyValueStore.get, Memory.get, hr, hc]

theorem saved_walk_persists (beginning : Beginning) (store : Memory) (turns : List Turn) :
    Persists beginning store turns := by
  have hstore := store_beginning beginning store
  have hvalid := validate_beginning beginning store
  constructor
  · exact walk_follow _ turns
  · intro h
    rw [content_follow_unwritten _ h, content, hstore]
  · rintro before t since rfl ht hs
    exact content_follow_written _ ht hs
  -- The text that is read back is the snapshot of a valid walk.
  · rintro before t since rfl ht hs hc
    refine walk_load rfl (content_follow_written _ ht hs) (validate_follow hvalid ?_)
    intro u hu
    rcases List.mem_append.mp hu with hu | hu
    · exact hc u (List.mem_append_left _ hu)
    · obtain rfl := List.mem_singleton.mp hu
      exact hc u (by simp)
  · intro hb hr h
    subst hb
    rcases List.eq_nil_or_concat turns with rfl | ⟨before, t, rfl⟩
    · exact congrArg (fun s => (load s).walk) (store_load store)
    · rw [List.concat_eq_append] at h ⊢
      have ht : t.Written := (h t (by simp)).1
      refine walk_load ?_ (content_follow_written _ ht (by simp)) ?_
      · rw [readable_follow, hstore, hr]
      · exact validate_follow hvalid fun u hu => (h u hu).2

/-- One step is written over rubbish, the next is refused, and restoring rubbish fails. -/
def refusals : List Turn :=
  [⟨.append ⟨⟨"Person", []⟩, ⟨"KNOWS", []⟩, .outbound⟩, true⟩,
    ⟨.append ⟨⟨"City", []⟩, ⟨"IN", []⟩, .inbound⟩, false⟩, ⟨.restore "(", true⟩]

theorem saved_walk_persists_refusals :
    (load { ((Beginning.fresh.on ⟨.ofList [(walkKey, "rubbish")], false, true⟩).follow
        refusals).store with readable := true }).walk =
      ⟨[⟨⟨"Person", []⟩, ⟨"KNOWS", []⟩, .outbound⟩]⟩ := by
  have h := saved_walk_persists .fresh ⟨.ofList [(walkKey, "rubbish")], false, true⟩ refusals
  refine h.reopened [] _ _ rfl ⟨trivial, rfl⟩ ?_ ?_
  · simp [Turn.Written, Action.Writes]
  · simp [refusals, Action.Checked, Step.validate, NodePick.validate, RelationshipPick.validate,
      validateFilters]

end SavedWalk

end SchemaWalk
