import SchemaWalk.Executor

/-! # The newest request

A tracker is driven by starts, completions and resets, in any order. What it shows is fixed by
the last start or reset and by the completions that carry the ticket of that start. Completions
may be late, repeated or missing; only their tickets have to come from the same tracker. -/

namespace SchemaWalk

variable {α ε : Type}

inductive TrackerEvent (α : Type) where
  | start (q : Query)
  | finish (ticket : Ticket) (outcome : Except WalkError α)
  | reset

namespace TrackerEvent

/-- Starts and resets end the request before them. -/
def Supersedes : TrackerEvent α → Prop
  | .finish .. => False
  | .start _ | .reset => True

def outcomeFor (ticket : Ticket) : TrackerEvent α → Option (Except WalkError α)
  | .finish other outcome => if other = ticket then some outcome else none
  | .start _ | .reset => none

end TrackerEvent

def Quiet (events : List (TrackerEvent α)) : Prop := ∀ e ∈ events, ¬ e.Supersedes

def latestOutcome (ticket : Ticket) (events : List (TrackerEvent α)) :
    Option (Except WalkError α) :=
  (events.filterMap (TrackerEvent.outcomeFor ticket)).getLast?

/-- A request is on show: waiting as long as it has no outcome, and then with the result or
the message of that outcome, never with both. -/
structure Shows (q : Query) (outcome : Option (Except WalkError α)) (s : QueryState α) : Prop where
  text : s.queryText = q.text
  loading : s.loading = outcome.isNone
  result : s.result = outcome.bind fun
    | .ok value => some value
    | .error _ => none
  error : s.error = outcome.bind fun
    | .ok _ => none
    | .error e => some e.message

namespace Tracker

def next (t : Tracker α) : TrackerEvent α → Tracker α
  | .start q => (t.start q).2
  | .finish ticket outcome => (t.finish ticket outcome).2
  | .reset => t.reset

def follow (t : Tracker α) (events : List (TrackerEvent α)) : Tracker α := events.foldl next t

/-- The tracker at the end of a history, the earliest event first. -/
def after (events : List (TrackerEvent α)) : Tracker α := fresh.follow events

/-- A start of the history was given the ticket. -/
def Issued (events : List (TrackerEvent α)) (ticket : Ticket) : Prop :=
  ∃ before q since, events = before ++ .start q :: since ∧ ticket = ((after before).start q).1

/-- Every completion carries a ticket that was issued before it. -/
def Legal (events : List (TrackerEvent α)) : Prop :=
  ∀ before ticket outcome since, events = before ++ .finish ticket outcome :: since →
    Issued before ticket

/-- The newest request, and no other, decides what is seen and which completions land. -/
structure NewestWins (events : List (TrackerEvent α)) (t : Tracker α) : Prop where
  untouched : Quiet events → t.state = .idle
  afterReset : ∀ before since, events = before ++ .reset :: since → Quiet since →
    t.state = .idle ∧
      ∀ ticket outcome, Issued events ticket → t.finish ticket outcome = (false, t)
  afterStart : ∀ before q since, events = before ++ .start q :: since → Quiet since →
    ∃ ticket, ticket = ((after before).start q).1 ∧ ¬ Issued before ticket ∧
      Shows q (latestOutcome ticket since) t.state ∧
      (∀ outcome, (t.finish ticket outcome).1 = true) ∧
      ∀ other outcome, other ≠ ticket → t.finish other outcome = (false, t)

/-! ## Single events -/

@[simp] theorem follow_cons (t : Tracker α) (e : TrackerEvent α) (events : List (TrackerEvent α)) :
    t.follow (e :: events) = (t.next e).follow events := rfl

theorem after_append (before since : List (TrackerEvent α)) :
    after (before ++ since) = (after before).follow since := by
  simp [after, follow, List.foldl_append]

theorem generation_finish (t : Tracker α) (ticket : Ticket) (outcome : Except WalkError α) :
    (t.finish ticket outcome).2.generation = t.generation := by
  unfold finish
  split <;> rfl

theorem finish_current {t : Tracker α} {ticket : Ticket}
    (h : ticket.generation = t.generation) (outcome : Except WalkError α) :
    t.finish ticket outcome = (true, { t with state := t.state.settle outcome }) := by
  simp [finish, h]

theorem generation_le_next (t : Tracker α) (e : TrackerEvent α) :
    t.generation ≤ (t.next e).generation := by
  cases e with
  | start q => exact Nat.le_succ _
  | finish ticket outcome => exact Nat.le_of_eq (generation_finish t ticket outcome).symm
  | reset => exact Nat.le_succ _

theorem generation_le_follow (t : Tracker α) (events : List (TrackerEvent α)) :
    t.generation ≤ (t.follow events).generation := by
  induction events generalizing t with
  | nil => exact Nat.le_refl _
  | cons e events ih => exact Nat.le_trans (generation_le_next t e) (ih (t.next e))

theorem generation_follow_quiet (t : Tracker α) {events : List (TrackerEvent α)}
    (h : Quiet events) : (t.follow events).generation = t.generation := by
  induction events generalizing t with
  | nil => rfl
  | cons e events ih =>
    have hrest : Quiet events := fun f hf => h f (List.mem_cons_of_mem e hf)
    rw [follow_cons, ih _ hrest]
    cases e with
    | finish ticket outcome => exact generation_finish t ticket outcome
    | start q => exact absurd trivial (h _ List.mem_cons_self)
    | reset => exact absurd trivial (h _ List.mem_cons_self)

/-! ## Tickets -/

theorem issued_le {events : List (TrackerEvent α)} {ticket : Ticket} (h : Issued events ticket) :
    ticket.generation ≤ (after events).generation := by
  obtain ⟨before, q, since, rfl, rfl⟩ := h
  rw [after_append]
  exact generation_le_follow ((after before).start q).2 since

theorem start_not_issued (before : List (TrackerEvent α)) (q : Query) :
    ¬ Issued before ((after before).start q).1 := by
  intro h
  have hle : (after before).generation + 1 ≤ (after before).generation := issued_le h
  omega

theorem not_issued_nil (ticket : Ticket) : ¬ Issued ([] : List (TrackerEvent α)) ticket := by
  rintro ⟨before, q, since, h, -⟩
  simp at h

theorem quiet_append {before since : List (TrackerEvent α)} :
    Quiet (before ++ since) ↔ Quiet before ∧ Quiet since := by
  simp [Quiet, or_imp, forall_and]

theorem issued_of_not_start {before since : List (TrackerEvent α)} {ticket : Ticket}
    (hs : ∀ q, .start q ∉ since) (h : Issued (before ++ since) ticket) : Issued before ticket := by
  obtain ⟨pre, q, post, heq, rfl⟩ := h
  rcases List.append_eq_append_iff.mp heq with ⟨mid, rfl, hsince⟩ | ⟨mid, rfl, hpost⟩
  · exact absurd (by simp [hsince]) (hs q)
  · cases mid with
    | nil => exact absurd (by simp at hpost; simp [← hpost]) (hs q)
    | cons e mid =>
      simp only [List.cons_append, List.cons.injEq] at hpost
      obtain ⟨rfl, rfl⟩ := hpost
      exact ⟨pre, q, mid, rfl, rfl⟩

theorem not_start_of_quiet {events : List (TrackerEvent α)} (h : Quiet events) (q : Query) :
    .start q ∉ events := fun hq => h _ hq trivial

/-! ## Histories -/

theorem legal_nil : Legal ([] : List (TrackerEvent α)) := by
  intro before ticket outcome since h
  simp at h

theorem Legal.snoc {events : List (TrackerEvent α)} {e : TrackerEvent α} (h : Legal events)
    (he : ∀ ticket outcome, e = .finish ticket outcome → Issued events ticket) :
    Legal (events ++ [e]) := by
  intro before ticket outcome since heq
  rcases List.eq_nil_or_concat since with rfl | ⟨since, last, rfl⟩
  · obtain ⟨rfl, hlast⟩ := List.append_inj' heq rfl
    exact he ticket outcome (List.cons.inj hlast).1
  · rw [List.concat_eq_append, ← List.cons_append, ← List.append_assoc] at heq
    exact h before ticket outcome since (List.append_inj' heq rfl).1

/-- In a quiet end of a legal history all tickets come from before it. -/
theorem Legal.issued_of_mem {before since : List (TrackerEvent α)} {ticket : Ticket}
    {outcome : Except WalkError α} (h : Legal (before ++ since)) (hs : Quiet since)
    (hm : .finish ticket outcome ∈ since) : Issued before ticket := by
  obtain ⟨pre, post, rfl⟩ := List.append_of_mem hm
  have hi : Issued (before ++ pre) ticket := h (before ++ pre) ticket outcome post (by simp)
  exact issued_of_not_start (not_start_of_quiet (quiet_append.mp hs).1) hi

/-- Completions with other tickets leave a tracker as it is. -/
theorem follow_stale {t : Tracker α} {events : List (TrackerEvent α)} (hq : Quiet events)
    (h : ∀ ticket outcome, .finish ticket outcome ∈ events → ticket.generation ≠ t.generation) :
    t.follow events = t := by
  induction events with
  | nil => rfl
  | cons e events ih =>
    cases e with
    | finish ticket outcome =>
      have hne := h ticket outcome List.mem_cons_self
      have hnext : t.next (.finish ticket outcome) = t := by
        simp [next, finish_stale hne]
      rw [follow_cons, hnext]
      exact ih (fun e he => hq e (List.mem_cons_of_mem _ he))
        (fun ticket outcome hm => h ticket outcome (List.mem_cons_of_mem _ hm))
    | start q => exact absurd trivial (hq _ List.mem_cons_self)
    | reset => exact absurd trivial (hq _ List.mem_cons_self)

theorem shows_settle {q : Query} {known : Option (Except WalkError α)} {s : QueryState α}
    (h : Shows q known s) (outcome : Except WalkError α) :
    Shows q (some outcome) (s.settle outcome) := by
  cases outcome with
  | ok value => exact ⟨h.text, rfl, rfl, rfl⟩
  | error e => exact ⟨h.text, rfl, rfl, rfl⟩

theorem latestOutcome_cons (ticket : Ticket) (e : TrackerEvent α) (events : List (TrackerEvent α)) :
    latestOutcome ticket (e :: events) =
      (latestOutcome ticket events).or (e.outcomeFor ticket) := by
  unfold latestOutcome
  cases h : e.outcomeFor ticket with
  | none => simp [h]
  | some outcome => simp [h, List.getLast?_cons]

/-- As long as nothing supersedes a request, its latest completion is what is seen. -/
theorem shows_follow {t : Tracker α} {ticket : Ticket} {q : Query}
    {known : Option (Except WalkError α)} {events : List (TrackerEvent α)}
    (ht : ticket.generation = t.generation) (hs : Shows q known t.state) (hq : Quiet events) :
    Shows q ((latestOutcome ticket events).or known) (t.follow events).state := by
  induction events generalizing t known with
  | nil => exact hs
  | cons e events ih =>
    have hrest : Quiet events := fun f hf => hq f (List.mem_cons_of_mem e hf)
    rw [follow_cons, latestOutcome_cons, Option.or_assoc]
    cases e with
    | finish other outcome =>
      by_cases ho : other = ticket
      · subst ho
        have hnext : t.next (.finish other outcome) =
            { t with state := t.state.settle outcome } := by
          simp [next, finish_current ht]
        rw [hnext]
        simpa [TrackerEvent.outcomeFor] using
          ih (t := { t with state := t.state.settle outcome }) ht (shows_settle hs outcome) hrest
      · have hne : other.generation ≠ t.generation := by
          intro hg
          exact ho (by cases other; cases ticket; simp_all)
        have hnext : t.next (.finish other outcome) = t := by
          simp [next, finish_stale hne]
        rw [hnext]
        simpa [TrackerEvent.outcomeFor, ho] using ih ht hs hrest
    | start q => exact absurd trivial (hq _ List.mem_cons_self)
    | reset => exact absurd trivial (hq _ List.mem_cons_self)

/-! ## The newest request -/

theorem issued_of_reset {before since : List (TrackerEvent α)} {ticket : Ticket}
    (hq : Quiet since) (h : Issued (before ++ .reset :: since) ticket) : Issued before ticket := by
  apply issued_of_not_start ?_ h
  intro q hm
  rcases List.mem_cons.mp hm with heq | hm
  · cases heq
  · exact not_start_of_quiet hq q hm

/-- The reset raises the generation above all tickets given out so far. -/
theorem stale_of_reset {before : List (TrackerEvent α)} {ticket : Ticket}
    (h : Issued before ticket) : ticket.generation ≠ (after before).reset.generation := by
  have hle := issued_le h
  simp only [reset]
  omega

theorem after_reset {before since : List (TrackerEvent α)} (h : Legal (before ++ .reset :: since))
    (hq : Quiet since) : after (before ++ .reset :: since) = (after before).reset := by
  rw [after_append, follow_cons]
  apply follow_stale hq
  intro ticket outcome hm
  have hl : Legal ((before ++ [.reset]) ++ since) := by simpa using h
  have hi : Issued (before ++ [.reset]) ticket := hl.issued_of_mem hq hm
  exact stale_of_reset (issued_of_not_start (by simp) hi)

theorem after_quiet {events : List (TrackerEvent α)} (h : Legal events) (hq : Quiet events) :
    after events = fresh := by
  apply follow_stale hq
  intro ticket outcome hm
  have hl : Legal ([] ++ events) := h
  have hi : Issued [] ticket := hl.issued_of_mem hq hm
  exact absurd hi (not_issued_nil ticket)

theorem generation_after_start (before : List (TrackerEvent α)) (q : Query)
    {since : List (TrackerEvent α)} (hq : Quiet since) :
    (after (before ++ .start q :: since)).generation = ((after before).start q).1.generation := by
  rw [after_append, follow_cons]
  exact generation_follow_quiet _ hq

theorem shows_after_start (before : List (TrackerEvent α)) (q : Query)
    {since : List (TrackerEvent α)} (hq : Quiet since) :
    Shows q (latestOutcome ((after before).start q).1 since)
      (after (before ++ .start q :: since)).state := by
  have hstart : Shows q none ((after before).start q).2.state := ⟨rfl, rfl, rfl, rfl⟩
  rw [after_append, follow_cons]
  have hs := shows_follow rfl hstart hq
  rwa [Option.or_none] at hs

theorem newest_request_wins {events : List (TrackerEvent α)} (h : Legal events) :
    NewestWins events (after events) := by
  constructor
  · intro hq
    rw [after_quiet h hq]
    rfl
  · rintro before since rfl hq
    rw [after_reset h hq]
    refine ⟨rfl, ?_⟩
    intro ticket outcome hi
    exact finish_stale (stale_of_reset (issued_of_reset hq hi)) outcome
  · rintro before q since rfl hq
    have hgen := generation_after_start before q hq
    refine ⟨((after before).start q).1, rfl, start_not_issued before q,
      shows_after_start before q hq, ?_, ?_⟩
    · intro outcome
      rw [finish_current hgen.symm]
    · intro other outcome hne
      apply finish_stale
      rw [hgen]
      intro hg
      exact hne (by cases other; simpa [start] using hg)

/-- Two requests overlap, the second is answered first, and the first one fails late. -/
def overlapping : List (TrackerEvent Nat) :=
  [.start ⟨.reachableLabels, "labels", 10⟩, .start ⟨.propertyKeys, "keys", 10⟩,
    .finish ⟨2⟩ (.ok 7), .finish ⟨1⟩ (.error (.timeout 10))]

theorem newest_request_wins_overlapping :
    Legal overlapping ∧ NewestWins overlapping (after overlapping) := by
  have hstarts : Legal (overlapping.take 2) := by
    refine (legal_nil.snoc ?_).snoc ?_ <;> intro ticket outcome h <;> cases h
  have hsecond : Legal (overlapping.take 3) := by
    refine hstarts.snoc ?_
    rintro ticket outcome ⟨⟩
    exact ⟨overlapping.take 1, _, [], rfl, rfl⟩
  have hfirst : Legal overlapping := by
    refine hsecond.snoc ?_
    rintro ticket outcome ⟨⟩
    exact ⟨[], _, _, rfl, rfl⟩
  exact ⟨hfirst, newest_request_wins hfirst⟩

end Tracker

end SchemaWalk
