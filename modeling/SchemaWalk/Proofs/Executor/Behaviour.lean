import SchemaWalk.Executor

/-! # Executors at work

Any executor can be given a record of what it is asked; it answers as it would without. An executor
whose replies depend on the query text alone is one that the questions in between do not change.
Two executors may agree on some queries and go their own ways on all others. -/

namespace SchemaWalk

/-! ## On record -/

/-- An executor, and the queries it was asked so far, the latest last. -/
structure Recorded (ε : Type) where
  inner : ε
  asked : List Query

variable {ε : Type} [Executor ε]

instance : Executor (Recorded ε) :=
  ⟨fun e q => ((Executor.ask e.inner q).1, ⟨(Executor.ask e.inner q).2, e.asked ++ [q]⟩)⟩

/-! ## By the text -/

/-- An executor after some questions. -/
def afterAll (e : ε) (asked : List Query) : ε := asked.foldl (fun e q => (Executor.ask e q).2) e

/-- Whatever was asked before, the text of a query decides what is replied. -/
def AnswersBy (answer : String → Reply) (e : ε) : Prop :=
  ∀ asked q, (Executor.ask (afterAll e asked) q).1 = answer q.text

theorem AnswersBy.execute {answer : String → Reply} {e : ε} (h : AnswersBy answer e) (q : Query) :
    (execute e q).1 = (answer q.text).outcome q :=
  congrArg (Reply.outcome q) (h [] q)

theorem AnswersBy.executed {answer : String → Reply} {e : ε} (h : AnswersBy answer e) (q : Query) :
    AnswersBy answer (SchemaWalk.execute e q).2 :=
  fun asked => h (q :: asked)

theorem answersBy_fixedReply (reply : Reply) :
    AnswersBy (fun _ => reply) (FixedReply.mk reply) := by
  intro asked q
  induction asked with
  | nil => rfl
  | cons earlier asked ih => exact ih

/-! ## In agreement -/

variable {ε' : Type} [Executor ε']

/-- Two executors reply to a query alike when both were asked the same before. -/
def AgreeOn (q : Query) (e : ε) (e' : ε') : Prop :=
  ∀ asked, (Executor.ask (afterAll e asked) q).1 = (Executor.ask (afterAll e' asked) q).1

theorem AgreeOn.execute {q : Query} {e : ε} {e' : ε'} (h : AgreeOn q e e') :
    (execute e q).1 = (SchemaWalk.execute e' q).1 :=
  congrArg (Reply.outcome q) (h [])

theorem AgreeOn.executed {q : Query} {e : ε} {e' : ε'} (h : AgreeOn q e e') (other : Query) :
    AgreeOn q (SchemaWalk.execute e other).2 (SchemaWalk.execute e' other).2 :=
  fun asked => h (other :: asked)

/-- Two executors on record that were asked the same, and that agree wherever they agreed at
first. -/
structure Paired (first : ε) (first' : ε') (e : Recorded ε) (e' : Recorded ε') : Prop where
  asked : e.asked = e'.asked
  agree : ∀ q, AgreeOn q first first' → AgreeOn q e.inner e'.inner

theorem Paired.executed {first : ε} {first' : ε'} {e : Recorded ε} {e' : Recorded ε'}
    (h : Paired first first' e e') (q : Query) :
    Paired first first' (SchemaWalk.execute e q).2 (SchemaWalk.execute e' q).2 where
  asked := congrArg (· ++ [q]) h.asked
  agree := fun other hother => (h.agree other hother).executed q

end SchemaWalk
