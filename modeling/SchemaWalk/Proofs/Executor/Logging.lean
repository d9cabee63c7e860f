import SchemaWalk.Executor.Log
import SchemaWalk.Executor.Script
import SchemaWalk.Proofs.Files.Appending
import SchemaWalk.Text.Reader

/-! # What a query log keeps

Queries are sent one after the other, each at its moment. To the one who sends them a log makes no
difference. In the log of a day there is one entry for every query of that day that was answered,
in the order in which they were sent, and none for those whose time was up first. -/

namespace SchemaWalk

open Files

/-! ## Runs of queries -/

/-- A query that was sent at a moment, and what came of it. -/
structure Exchange where
  now : Moment
  query : Query
  outcome : Except WalkError (List Row)

namespace Exchange

/-- What a log has to say of it. -/
def entry (x : Exchange) : Option String :=
  match x.outcome with
  | .ok found => some (logEntry x.now x.query ("OK rows=" ++ toString found.length))
  | .error (.execution message) => some (logEntry x.now x.query ("ERR " ++ message))
  | .error _ => none

def timedOut (x : Exchange) : Bool :=
  match x.outcome with
  | .error (.timeout _) => true
  | _ => false

/-- Whether it belongs to the log of a day. -/
def isOn (day : Moment) (x : Exchange) : Bool := x.now.logFileName == day.logFileName

theorem entry_outcome (now : Moment) (q : Query) (reply : Reply) :
    (Exchange.mk now q (reply.outcome q)).entry = reply.status.map (logEntry now q) := by
  cases reply <;> rfl

end Exchange

/-- The entries for a run, in the order in which the queries were sent. -/
def entriesOf (xs : List Exchange) : List String := xs.filterMap Exchange.entry

theorem entriesOf_append (xs ys : List Exchange) :
    entriesOf (xs ++ ys) = entriesOf xs ++ entriesOf ys :=
  List.filterMap_append

theorem entriesOf_cons (x : Exchange) (xs : List Exchange) :
    entriesOf (x :: xs) = x.entry.toList ++ entriesOf xs := by
  cases h : x.entry with
  | none => simp [entriesOf, h]
  | some entry => simp [entriesOf, h]

section Runs

variable {ε : Type} [Executor ε]

def executeAll (e : ε) : List Query → List (Except WalkError (List Row)) × ε
  | [] => ([], e)
  | q :: rest =>
    let later := executeAll (execute e q).2 rest
    ((execute e q).1 :: later.1, later.2)

/-- The queries of a run with their outcomes. -/
def exchanges (e : ε) : List (Moment × Query) → List Exchange
  | [] => []
  | (now, q) :: rest => ⟨now, q, (execute e q).1⟩ :: exchanges (execute e q).2 rest

theorem exchanges_sent (e : ε) (sent : List (Moment × Query)) :
    (exchanges e sent).map (fun x => (x.now, x.query)) = sent := by
  induction sent generalizing e with
  | nil => rfl
  | cons s rest ih => rw [exchanges, List.map_cons, ih]

theorem exchanges_outcomes (e : ε) (sent : List (Moment × Query)) :
    (exchanges e sent).map Exchange.outcome = (executeAll e (sent.map Prod.snd)).1 := by
  induction sent generalizing e with
  | nil => rfl
  | cons s rest ih =>
    rw [exchanges, List.map_cons, List.map_cons, executeAll, ih]

/-- A query has one entry, unless it was not answered in time. -/
theorem length_entry_execute (e : ε) (now : Moment) (q : Query) :
    (Exchange.mk now q (execute e q).1).entry.toList.length +
      (if (Exchange.mk now q (execute e q).1).timedOut then 1 else 0) = 1 := by
  rw [execute]
  cases (Executor.ask e q).1 <;> rfl

theorem length_entriesOf_exchanges (e : ε) (sent : List (Moment × Query)) :
    (entriesOf (exchanges e sent)).length + (exchanges e sent).countP Exchange.timedOut =
      sent.length := by
  induction sent generalizing e with
  | nil => rfl
  | cons s rest ih =>
    obtain ⟨now, q⟩ := s
    have hfirst := length_entry_execute e now q
    have hrest := ih (execute e q).2
    rw [exchanges, entriesOf_cons, List.length_append, List.countP_cons, List.length_cons]
    omega

end Runs

/-! ## Log files -/

theorem mem_padded {width n : Nat} {c : Char} (h : c ∈ (Moment.padded width n).toList) :
    c.isDigit = true := by
  rw [Moment.padded, String.toList_append, toList_pushn, List.mem_append] at h
  rcases h with h | h
  · rw [List.eq_of_mem_replicate h]
    rfl
  · have hdigits : (toString n).toList = Nat.toDigits 10 n := Nat.toList_repr
    rw [hdigits] at h
    exact Nat.isDigit_of_mem_toDigits (by omega) (by omega) h

theorem plainName_logFileName (m : Moment) : PlainName m.logFileName := by
  have hlist : m.logFileName.toList = "queries_".toList ++ (m.date "").toList ++ ".log".toList := by
    rw [Moment.logFileName, String.toList_append, String.toList_append]
  have hfirst : m.logFileName.toList.head? = some 'q' := by
    rw [hlist]
    rfl
  have hne : ∀ name : String, name.toList.head? ≠ some 'q' → m.logFileName ≠ name := by
    rintro name hname rfl
    exact hname hfirst
  constructor
  · exact hne "" (by decide)
  · rw [hlist]
    intro hmem
    simp only [List.mem_append, Moment.date, String.toList_append] at hmem
    rcases hmem with (hmem | hmem) | hmem
    · exact absurd hmem (by decide)
    · rcases hmem with (((hmem | hmem) | hmem) | hmem) | hmem
      · exact absurd (mem_padded hmem) (by decide)
      · exact absurd hmem (by decide)
      · exact absurd (mem_padded hmem) (by decide)
      · exact absurd hmem (by decide)
      · exact absurd (mem_padded hmem) (by decide)
    · exact absurd hmem (by decide)
  · exact hne "." (by decide)
  · exact hne ".." (by decide)

section Logs

variable {t t' : FileTree} {dir : String} {now day : Moment} {place : Route}

/-- Whether the log of a moment can be opened, in a directory that is made if it is missing. -/
def canLog (t : FileTree) (dir : String) (now : Moment) : Bool :=
  (t.performAll [.createDirectories dir, .ensureFile (logFile dir now)]).succeeded

/-- What the log of a moment holds once its directory is there. -/
def logged (t : FileTree) (dir : String) (now : Moment) : ByteArray :=
  (t.createDirectories dir).tree.content (logFile dir now)

/-- Where the log of a moment is opened. -/
structure LogPlace (t : FileTree) (dir : String) (now : Moment) (place : Route) : Prop where
  directory : (t.createDirectories dir).succeeded = true
  path : (t.createDirectories dir).tree.resolve (logFile dir now) = some place
  free : (t.createDirectories dir).tree.isDirectory place = false

theorem canLog_iff : canLog t dir now = true ↔ ∃ place, LogPlace t dir now place := by
  rw [canLog, FileTree.performAll_opening]
  constructor
  · rintro ⟨hdirectory, hfile⟩
    obtain ⟨place, hplace, hfree⟩ := FileTree.ensureFile_succeeded hfile
    exact ⟨place, hdirectory, hplace, hfree⟩
  · rintro ⟨place, hdirectory, hplace, hfree⟩
    exact ⟨hdirectory, (FileTree.appended_ensureFile hplace hfree).1⟩

theorem createDirectories_of_same (h : (t.createDirectories dir).succeeded = true)
    (hsame : (t.createDirectories dir).tree.SameDirectories t') :
    (t'.createDirectories dir).succeeded = true ∧ (t'.createDirectories dir).tree = t' := by
  rw [FileTree.createDirectories_again h hsame]
  exact ⟨rfl, rfl⟩

theorem canLog_of_same (h : canLog t dir day = true)
    (hsame : (t.createDirectories dir).tree.SameDirectories t') : canLog t' dir day = true := by
  obtain ⟨place, hlog⟩ := canLog_iff.mp h
  obtain ⟨hmade, htree⟩ := createDirectories_of_same hlog.directory hsame
  refine canLog_iff.mpr ⟨place, hmade, ?_, ?_⟩
  · rw [htree, hsame.resolve_eq, hlog.path]
  · rw [htree, hsame.directories, hlog.free]

theorem appended_logPlan (h : LogPlace t dir now place) (entry : String) :
    (t.createDirectories dir).tree.Appended (t.performAll (logPlan dir now entry)).tree place
      entry.toUTF8 := by
  obtain ⟨hopened, hempty⟩ := FileTree.appended_ensureFile h.path h.free
  obtain ⟨hwritten, hentry⟩ := FileTree.appended_append
    ((hempty.same.resolve_eq _).trans h.path) hempty.here entry.toUTF8
  have hall := hempty.trans hentry
  rw [ByteArray.empty_append] at hall
  simpa only [logPlan, FileTree.performAll, FileTree.perform, h.directory, hopened, hwritten,
    if_true, FileTree.done] using hall

/-- The log of the moment gains the entry, the logs of other days gain nothing. -/
theorem logged_logPlan (h : LogPlace t dir now place) (entry : String) (day : Moment) :
    logged (t.performAll (logPlan dir now entry)).tree dir day =
      if now.logFileName = day.logFileName then logged t dir day ++ entry.toUTF8
      else logged t dir day := by
  have hall := appended_logPlan h entry
  have htree := (createDirectories_of_same h.directory hall.same).2
  rw [logged, htree]
  by_cases hday : now.logFileName = day.logFileName
  · have hfile : logFile dir day = logFile dir now := by rw [logFile, logFile, hday]
    rw [if_pos hday, logged, hfile]
    exact hall.content_self h.path
  · have hapart := FileTree.apart_join (plainName_logFileName now) (plainName_logFileName day)
      hday dir
    rw [if_neg hday]
    exact hall.content_of_ne (hapart.places _ place h.path)

end Logs

/-! ## Logged executors -/

namespace LoggedExecutor

variable {ε : Type} {e : LoggedExecutor ε} {dir : String}

/-- One reply: its entry goes to the log of its day, and to no other. -/
theorem logged_log (hdir : e.dir = some dir) (h : canLog e.tree dir e.now = true) (q : Query)
    (reply : Reply) (day : Moment) :
    logged (e.log q reply) dir day = logged e.tree dir day ++ (String.join (entriesOf
      ([⟨e.now, q, reply.outcome q⟩].filter (Exchange.isOn day)))).toUTF8 := by
  have hentry := Exchange.entry_outcome e.now q reply
  cases hstatus : reply.status with
  | none =>
    have hlog : e.log q reply = e.tree := by
      simp only [log, hdir, hstatus]
    rw [hstatus, Option.map_none] at hentry
    have hentries : entriesOf ([⟨e.now, q, reply.outcome q⟩].filter (Exchange.isOn day)) = [] := by
      rw [entriesOf, List.filterMap_eq_nil_iff]
      intro x hx
      rw [List.mem_singleton.mp (List.mem_filter.mp hx).1, hentry]
    rw [hlog, hentries, String.join_nil]
    exact ByteArray.append_empty.symm
  | some status =>
    have hlog : e.log q reply =
        (e.tree.performAll (logPlan dir e.now (logEntry e.now q status))).tree := by
      simp only [log, hdir, hstatus]
    rw [hstatus, Option.map_some] at hentry
    obtain ⟨place, hplace⟩ := canLog_iff.mp h
    rw [hlog, logged_logPlan hplace]
    by_cases hday : e.now.logFileName = day.logFileName
    · simp [hday, Exchange.isOn, entriesOf, hentry, String.join_cons]
    · simp [hday, Exchange.isOn, entriesOf]

theorem canLog_log (hdir : e.dir = some dir) (h : canLog e.tree dir e.now = true) (q : Query)
    (reply : Reply) {day : Moment} (hday : canLog e.tree dir day = true) :
    canLog (e.log q reply) dir day = true := by
  cases hstatus : reply.status with
  | none =>
    simp only [log, hdir, hstatus]
    exact hday
  | some status =>
    obtain ⟨place, hplace⟩ := canLog_iff.mp h
    simp only [log, hdir, hstatus]
    exact canLog_of_same hday (appended_logPlan hplace _).same

variable [Executor ε]

def sendAll (e : LoggedExecutor ε) :
    List (Moment × Query) → List (Except WalkError (List Row)) × LoggedExecutor ε
  | [] => ([], e)
  | (now, q) :: rest =>
    let sent := execute { e with now } q
    let later := sendAll sent.2 rest
    (sent.1 :: later.1, later.2)

/-- With a log or without, whether or not it can be written, the outcomes are the same. -/
theorem sendAll_outcomes (e : LoggedExecutor ε) (sent : List (Moment × Query)) :
    (e.sendAll sent).1 = (executeAll e.inner (sent.map Prod.snd)).1 ∧
      (e.sendAll sent).2.inner = (executeAll e.inner (sent.map Prod.snd)).2 := by
  induction sent generalizing e with
  | nil => exact ⟨rfl, rfl⟩
  | cons s rest ih =>
    obtain ⟨now, q⟩ := s
    obtain ⟨houtcomes, hinner⟩ := ih (execute { e with now } q).2
    exact ⟨congrArg _ houtcomes, hinner⟩

theorem logged_sendAll (hdir : e.dir = some dir) {sent : List (Moment × Query)}
    (h : ∀ s ∈ sent, canLog e.tree dir s.1 = true) (day : Moment) :
    logged (e.sendAll sent).2.tree dir day = logged e.tree dir day ++
      (String.join (entriesOf ((exchanges e.inner sent).filter (Exchange.isOn day)))).toUTF8 := by
  -- What carries the induction: every log that is still to come can be opened after this entry.
  induction sent generalizing e with
  | nil => exact ByteArray.append_empty.symm
  | cons s rest ih =>
    obtain ⟨now, q⟩ := s
    obtain ⟨hnow, hrest⟩ := List.forall_mem_cons.mp h
    let opened : LoggedExecutor ε := { e with now }
    let reply := (Executor.ask e.inner q).1
    have hfirst := logged_log (e := opened) hdir hnow q reply day
    have hlater := ih (e := (execute opened q).2) hdir
      fun s hs => canLog_log (e := opened) hdir hnow q reply (hrest s hs)
    have htree : (execute opened q).2.tree = opened.log q reply := rfl
    have hsent : (e.sendAll ((now, q) :: rest)).2 = ((execute opened q).2.sendAll rest).2 := rfl
    have hexchanges : exchanges e.inner ((now, q) :: rest) =
        [⟨now, q, reply.outcome q⟩] ++ exchanges (execute opened q).2.inner rest := rfl
    have hbytes : ∀ s s' : String, (s ++ s').toUTF8 = s.toUTF8 ++ s'.toUTF8 :=
      fun _ _ => String.toByteArray_append
    rw [hsent, hlater, htree, hfirst, hexchanges, List.filter_append, entriesOf_append,
      String.join_append, hbytes, ByteArray.append_assoc]

/-- To the one who asks, a log makes no difference. Every query that is answered in time has one
entry, in the log of its day and in the order of the run; a query whose time is up has none. -/
theorem answers_logged_once (hdir : e.dir = some dir) {sent : List (Moment × Query)}
    (h : ∀ s ∈ sent, canLog e.tree dir s.1 = true) :
    (e.sendAll sent).1 = (executeAll e.inner (sent.map Prod.snd)).1 ∧
      ((exchanges e.inner sent).map (fun x => (x.now, x.query)) = sent ∧
        (exchanges e.inner sent).map Exchange.outcome = (e.sendAll sent).1) ∧
      (∀ day, logged (e.sendAll sent).2.tree dir day = logged e.tree dir day ++
        (String.join (entriesOf ((exchanges e.inner sent).filter (Exchange.isOn day)))).toUTF8) ∧
      (entriesOf (exchanges e.inner sent)).length +
        (exchanges e.inner sent).countP Exchange.timedOut = sent.length := by
  have houtcomes := (sendAll_outcomes e sent).1
  have hexchanges := exchanges_outcomes e.inner sent
  refine ⟨houtcomes, ⟨exchanges_sent e.inner sent, hexchanges.trans houtcomes.symm⟩, ?_, ?_⟩
  · exact logged_sendAll hdir h
  · exact length_entriesOf_exchanges e.inner sent

/-- Three queries in one second: rows, no answer, a failure. -/
theorem answers_logged_once_three :
    let now : Moment := ⟨2024, 2, 29, 12, 0, 5⟩
    let ask (text : String) : Moment × Query := (now, ⟨.allLabels, text, 20⟩)
    let rules : List Rule := [⟨["slow"], .silence, none⟩, ⟨["bad"], .failure "no luck", none⟩,
      ⟨[], .rows [], none⟩]
    let e : LoggedExecutor Script := ⟨.ofRules rules, some "logs", now, .empty⟩
    (∀ s ∈ [ask " good ", ask "slow", ask "bad"], canLog e.tree "logs" s.1 = true) ∧
      logged (e.sendAll [ask " good ", ask "slow", ask "bad"]).2.tree "logs" now =
        ("2024-02-29 12:00:05 | OK rows=0\ngood\n\n" ++
          "2024-02-29 12:00:05 | ERR no luck\nbad\n\n").toUTF8 := by
  intro now ask rules e
  have hopen : ∀ s ∈ [ask " good ", ask "slow", ask "bad"], canLog e.tree "logs" s.1 = true := by
    decide +kernel
  obtain ⟨-, -, hlog, -⟩ := answers_logged_once rfl hopen
  refine ⟨hopen, ?_⟩
  rw [hlog now]
  decide +kernel

/-- The log of a day is as it was after a query whose time was up: it has no entry for it, whatever
the status. -/
theorem timeout_leaves_no_entry :
    let now : Moment := ⟨2024, 2, 29, 12, 0, 5⟩
    let q : Query := ⟨.allLabels, "MATCH (n) RETURN n", 20⟩
    let e : LoggedExecutor FixedReply := ⟨⟨.silence⟩, some "logs", now, .empty⟩
    canLog e.tree "logs" now = true ∧
      (e.sendAll [(now, q)]).1 = [.error (.timeout 20)] ∧
      ∀ status, logged (e.sendAll [(now, q)]).2.tree "logs" now ≠
        logged e.tree "logs" now ++ (logEntry now q status).toUTF8 := by
  intro now q e
  have hsame : logged (e.sendAll [(now, q)]).2.tree "logs" now = logged e.tree "logs" now := rfl
  refine ⟨by decide +kernel, rfl, ?_⟩
  intro status hlogged
  have hempty : (logEntry now q status).toUTF8 = .empty := by
    rw [hsame] at hlogged
    exact (ByteArray.append_right_inj _).mp (hlogged.symm.trans ByteArray.append_empty.symm)
  have hentry : logEntry now q status = "" := String.toByteArray_inj.mp hempty
  simp [logEntry] at hentry

end LoggedExecutor

end SchemaWalk
