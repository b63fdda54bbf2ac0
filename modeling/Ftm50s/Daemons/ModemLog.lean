import Ftm50s.Daemons.Nwcause

set_option autoImplicit false

namespace Ftm50s.Daemons
open Lib.Text Lib.Filter Lib.Decimal Lib.Daemon

-- awk prints NR for an empty file too, so rows is never the empty string.
def initModemLogTurn (_ : Unit) : Prog Op Ans Unit := do
  let present ← isFile modemLog
  if present then
    let log ← cat modemLog
    if 150 ≤ (lines log).length then
      killLoggers
      startLogger
    else return ()
  else return ()

-- The log file, whether a cat of the modem's tty writes to it, and the file
-- nwcause_dmon checks before it looks into the log.
structure LogWorld where
  log : Option Bytes
  logging : Bool
  nwcause : Bytes
deriving DecidableEq

def appendLine (world : LogWorld) (line : Bytes) : LogWorld :=
  { world with log := world.log.map fun text => text ++ (line ++ [10]) }

def logEffect (world : LogWorld) : Event Op Ans → Option LogWorld
  | ⟨.isFile name, answer⟩ => if name = modemLog ∧ answer ≠ world.log.isSome then none else some world
  | ⟨.cat name, text⟩ =>
      if name = modemLog ∧ text ≠ world.log.getD [] then none
      else if name = nwcauseFile ∧ text ≠ world.nwcause then none
      else some world
  | ⟨.echo text name, _⟩ => some (if name = nwcauseFile then { world with nwcause := text ++ [10] } else world)
  | ⟨.killLoggers, _⟩ => some { world with logging := false }
  | ⟨.startLogger, _⟩ => some { world with log := some [], logging := true }
  | _ => some world

def lineAdded (before after : LogWorld) : Bytes :=
  ((after.log.getD []).drop (before.log.getD []).length).dropLast

-- The modem says a line: it reaches the file only while a logger runs.
def logDrifts (before after : LogWorld) : Bool :=
  before.logging && !(lineAdded before after).contains 10 && decide (after = appendLine before (lineAdded before after))

abbrev Logging := System LogWorld Op Ans Unit DmonState

abbrev LogStage := Stage LogWorld Op Ans Unit DmonState

abbrev logStep : Logging → Label Op Ans → Logging → Prop := Step logEffect logDrifts initModemLogTurn nwcauseDmonTurn

abbrev logPath : Logging → List LogStage → Logging → Prop := Path logEffect logDrifts initModemLogTurn nwcauseDmonTurn

def logStart (world : LogWorld) : Logging := ⟨world, .done (), .done .starting⟩

def isRunning : Prog Op Ans DmonState → Bool
  | .done .starting => false
  | .done .ended => false
  | _ => true

def restart : Label Op Ans := .left (some ⟨.startLogger, ()⟩)

def poll (text : Bytes) : Label Op Ans := .right (some ⟨.cat modemLog, text⟩)

def Keeps (line : Bytes) (world : LogWorld) : Prop :=
  ∃ front back, world.log = some (front ++ (line ++ 10 :: back))

theorem keeps_append (line : Bytes) (world : LogWorld) (other : Bytes) (keeps : Keeps line world) :
    Keeps line (appendLine world other) := by
  obtain ⟨front, back, same⟩ := keeps
  exact ⟨front, back ++ (other ++ [10]), by simp [appendLine, same]⟩

theorem keeps_effect (line : Bytes) (world after : LogWorld) (event : Event Op Ans)
    (act : logEffect world event = some after) (kept : event.op ≠ .startLogger) (keeps : Keeps line world) :
    Keeps line after := by
  obtain ⟨op, answer⟩ := event
  cases op with
  | startLogger => exact absurd rfl kept
  | killLoggers => cases act; exact keeps
  | isFile name =>
      rw [logEffect] at act
      split at act
      · cases act
      · cases act; exact keeps
  | cat name =>
      rw [logEffect] at act
      split at act
      · cases act
      · split at act
        · cases act
        · cases act; exact keeps
  | echo text name =>
      rw [logEffect] at act
      split at act
      · cases act; exact keeps
      · cases act; exact keeps
  | _ => cases act; exact keeps

theorem drift_line (before after : LogWorld) (moved : logDrifts before after = true) :
    (10 : UInt8) ∉ lineAdded before after ∧ after = appendLine before (lineAdded before after) := by
  simp only [logDrifts, Bool.and_eq_true, decide_eq_true_eq] at moved
  exact ⟨by simpa using moved.1.2, moved.2⟩

def NoRestart : Prog Op Ans DmonState → Prop := Confined (fun _ => True) (· ≠ .startLogger) (fun _ => True)

theorem dmon_no_restart (state : DmonState) : NoRestart (nwcauseDmonTurn state) := by
  cases state with
  | starting => simp [NoRestart, nwcauseDmonTurn]
  | polling => simp [NoRestart, nwcauseDmonTurn]
  | ended => simp [NoRestart, nwcauseDmonTurn]

theorem no_restart_step (before after : Logging) (label : Label Op Ans) (quiet : NoRestart before.right)
    (step : logStep before label after) : NoRestart after.right := by
  cases step with
  | leftActs world changed op answer next right act => exact quiet
  | leftAgain world state right => exact quiet
  | rightActs world changed op answer next left act => exact quiet.2 answer trivial
  | rightAgain world state left => exact dmon_no_restart state
  | drift world changed left right moved => exact quiet

theorem keeps_step (line : Bytes) (before after : Logging) (label : Label Op Ans) (inv : NoRestart before.right ∧
    Keeps line before.world) (kept : label ≠ restart) (step : logStep before label after) :
    NoRestart after.right ∧ Keeps line after.world := by
  refine ⟨no_restart_step before after label inv.1 step, ?_⟩
  obtain ⟨quiet, keeps⟩ := inv
  cases step with
  | leftActs world changed op answer next right act =>
      refine keeps_effect line world changed _ act (fun same => kept ?_) keeps
      simp only at same
      subst same
      rfl
  | leftAgain world state right => exact keeps
  | rightActs world changed op answer next left act => exact keeps_effect line world changed _ act quiet.1 keeps
  | rightAgain world state left => exact keeps
  | drift world changed left right moved =>
      rw [(drift_line world changed moved).2]
      exact keeps_append line world _ keeps

theorem poll_text (sys after : Logging) (text : Bytes) (step : logStep sys (poll text) after) :
    text = sys.world.log.getD [] := by
  generalize shape : poll text = label at step
  cases step with
  | rightActs world changed op answer next left act =>
      cases shape
      by_cases same : text = world.log.getD []
      · exact same
      · rw [logEffect, if_pos ⟨rfl, same⟩] at act
        cases act
  | leftActs => cases shape
  | leftAgain => cases shape
  | rightAgain => cases shape
  | drift => cases shape

def CountsMany (event : Event Op Ans) : Prop :=
  ∃ counted, event = ⟨.cat modemLog, counted⟩ ∧ 150 ≤ (lines counted).length

def killed : Event Op Ans := ⟨.killLoggers, ()⟩

theorem init_counts_first (state : Unit) : Preceded CountsMany (· = .killLoggers) False (initModemLogTurn state) := by
  simp +contextual [initModemLogTurn, killLoggers, startLogger, CountsMany]

theorem init_kills_first (state : Unit) : Preceded (· = killed) (· = .startLogger) False (initModemLogTurn state) := by
  simp [initModemLogTurn, killLoggers, startLogger, killed]

theorem left_events_append (front back : List LogStage) : leftEvents (front ++ back) = leftEvents front ++
    leftEvents back :=
  List.filterMap_append

theorem restart_counted (world : LogWorld) (stages : List LogStage) (sys after : Logging)
    (path : logPath (logStart world) stages sys) (step : logStep sys restart after) :
    ∃ earlier counted, leftEvents stages = earlier ++ [⟨.cat modemLog, counted⟩, killed] ∧
    150 ≤ (lines counted).length := by
  have whole : logPath (logStart world) (stages ++ [⟨sys, restart⟩]) after :=
    (path_append _ _ _ _ _ _ _ _).mpr ⟨sys, path, rfl, after, step, rfl⟩
  have events : leftEvents (stages ++ [⟨sys, restart⟩]) = leftEvents stages ++ [⟨.startLogger, ()⟩] :=
    left_events_append _ _
  cases path_preceded _ _ _ _ _ _ False init_kills_first _ _ _ whole trivial _ [] _ events rfl with
  | inl none => exact none.2.elim
  | inr kills =>
      obtain ⟨front, _, shape, rfl⟩ := kills
      rw [shape, List.append_assoc, List.singleton_append] at events
      cases path_preceded _ _ _ _ _ _ False init_counts_first _ _ _ whole trivial _ _ _ events rfl with
      | inl none => exact none.2.elim
      | inr counts =>
          obtain ⟨earlier, _, rfl, counted, rfl, many⟩ := counts
          exact ⟨earlier, counted, by rw [shape, List.append_assoc]; rfl, many⟩

theorem append_keeps (before after : LogWorld) (moved : logDrifts before after = true)
    (rejects : occurs rejectMark (lineAdded before after) = true) : Keeps (lineAdded before after) after := by
  obtain ⟨_, same⟩ := drift_line before after moved
  cases log : before.log with
  | none =>
      have empty : after.log = none := by rw [same, appendLine, log]; rfl
      rw [lineAdded, empty, log] at rejects
      cases rejects
  | some text =>
      have added : after.log = (appendLine before (lineAdded before after)).log := congrArg LogWorld.log same
      exact ⟨text, [], added.trans (by simp [appendLine, log])⟩

theorem keeps_found (line : Bytes) (world : LogWorld) (plain : (10 : UInt8) ∉ line)
    (rejects : occurs rejectMark line = true) (keeps : Keeps line world) : line ++ [10] <:+: world.log.getD [] ∧
    isNwcause (world.log.getD []) = true := by
  obtain ⟨front, back, same⟩ := keeps
  rw [same, Option.getD_some]
  refine ⟨⟨front, back, by simp⟩, ?_⟩
  obtain ⟨part, member⟩ := lines_end front line back plain
  exact List.any_eq_true.mpr ⟨_, member, occurs_append rejectMark part line rejects⟩

-- Nothing but a restart takes a line out of the log, and a restart comes only
-- from a count of 150 rows or more. Whether a poll falls before it is up to
-- the schedule.
theorem reject_line_stays (world : LogWorld) (early between : List LogStage) (first second third : Logging)
    (before : logPath (logStart world) early first) (append : logStep first .drift second)
    (rejects : occurs rejectMark (lineAdded first.world second.world) = true)
    (later : logPath second between third) (kept : ∀ stage ∈ between, stage.label ≠ restart) :
    (∀ stage ∈ between, ∀ text, stage.label = poll text →
      lineAdded first.world second.world ++ [10] <:+: text ∧ isNwcause text = true) ∧
    (∀ after, logStep third restart after → ∃ earlier counted,
      leftEvents (early ++ between) = earlier ++ [⟨.cat modemLog, counted⟩, killed] ∧
      150 ≤ (lines counted).length) := by
  have whole : logPath (logStart world) (early ++ ⟨first, .drift⟩ :: between) third :=
    (path_append _ _ _ _ _ _ _ _).mpr ⟨first, before, rfl, second, append, later⟩
  have quiet := (path_invariant logEffect logDrifts initModemLogTurn nwcauseDmonTurn (fun sys => NoRestart sys.right)
    (fun _ => True)
    (fun old label new quiet _ => no_restart_step old new label quiet) _ _ early before (fun _ _ => trivial) trivial).1
  refine ⟨fun stage member text polled => ?_, fun after step => ?_⟩
  · obtain ⟨next, step⟩ := path_step _ _ _ _ _ _ between later stage member
    rw [polled] at step
    rw [poll_text stage.before next text step]
    generalize drifted : Label.drift = label at append
    cases append with
    | drift world changed left right moved =>
        have start := append_keeps world changed moved rejects
        have keeps := (path_invariant logEffect logDrifts initModemLogTurn nwcauseDmonTurn
          (fun sys => NoRestart sys.right ∧ Keeps (lineAdded world changed) sys.world) (fun stage =>
            stage.label ≠ restart)
          (fun old label new inv kept => keeps_step _ old new label inv kept) _ _ between later kept ⟨quiet,
          start⟩).2 stage member
        exact keeps_found _ _ (drift_line world changed moved).1 rejects keeps.2
    | leftActs => cases drifted
    | leftAgain => cases drifted
    | rightActs => cases drifted
    | rightAgain => cases drifted
  · obtain ⟨earlier, counted, shape, many⟩ := restart_counted world _ third after whole step
    exact ⟨earlier, counted, by rw [← shape, left_events_append, left_events_append]; rfl, many⟩

def isRestart : Label Op Ans → Bool
  | .left (some event) => event.op == .startLogger
  | _ => false

def isPoll : Label Op Ans → Bool
  | .right (some ⟨.cat name, _⟩) => name == modemLog
  | _ => false

theorem poll_of (label : Label Op Ans) (polls : isPoll label = true) : ∃ text, label = poll text := by
  match label with
  | .right (some ⟨.cat name, text⟩) =>
      have same : name = modemLog := by simpa [isPoll] using polls
      exact ⟨text, by rw [same]; rfl⟩

theorem not_restart (label : Label Op Ans) (other : isRestart label = false) : label ≠ restart := by
  intro same
  rw [same] at other
  cases other

def fullLog : LogWorld := ⟨some (List.replicate 149 10), true, ascii "sending" ++ [10]⟩

def rejectedLog : LogWorld := appendLine fullLog rejectMark

def watching (world : LogWorld) : Logging := ⟨world, .done (), .done .polling⟩

def logReply (world : LogWorld) : (op : Op) → Ans op
  | .cat name => if name = modemLog then world.log.getD [] else world.nwcause
  | op => dialling op

theorem full_log_start : ∃ early, logPath (logStart { fullLog with nwcause := [] }) early (watching fullLog) :=
  ⟨_, play_path _ _ _ _ (List.replicate 2 (.right (logReply fullLog))) _ _ _ rfl⟩

theorem full_log_append : logStep (watching fullLog) .drift (watching rejectedLog) :=
  .drift fullLog rejectedLog _ _ (by decide +kernel)

-- The reject is row 150: init_modem_log counts it, kills the logger and
-- restarts the log before nwcause_dmon wakes up for its next poll.
theorem reject_line_lost : ¬∀ (world : LogWorld) (early between : List LogStage) (first second third after : Logging),
    logPath (logStart world) early first → isRunning first.right = true → logStep first .drift second →
    occurs rejectMark (lineAdded first.world second.world) = true → logPath second between third →
    (∀ stage ∈ between, stage.label ≠ restart) → logStep third restart after →
      ∃ stage ∈ between, ∃ text, stage.label = poll text ∧ lineAdded first.world second.world ++ [10] <:+: text := by
  intro all
  obtain ⟨early, before⟩ := full_log_start
  obtain ⟨between, third, later, tests⟩ := play_exists logEffect logDrifts initModemLogTurn nwcauseDmonTurn
    (List.replicate 4 (.left (logReply rejectedLog))) (watching rejectedLog)
    (fun stages last => (stages.all fun stage => !isRestart stage.label && !isPoll stage.label) &&
    nextOp last.left == some .startLogger)
    (by decide +kernel)
  simp only [Bool.and_eq_true, List.all_eq_true, Bool.not_eq_true'] at tests
  obtain ⟨quiet, starts⟩ := tests
  obtain ⟨world, left, right⟩ := third
  cases left with
  | done state => cases starts
  | call op next =>
      have same : op = .startLogger := by simpa [nextOp] using starts
      subst same
      have restarts : logStep ⟨world, .call .startLogger next, right⟩ restart _ :=
        .leftActs world _ .startLogger () next right rfl
      obtain ⟨stage, member, text, polled, _⟩ :=
        all _ early between _ _ _ _ before rfl full_log_append (by decide +kernel) later
        (fun stage member => not_restart stage.label (quiet stage member).1) restarts
      have silent := (quiet stage member).2
      rw [polled] at silent
      cases silent

theorem reject_line_stays_polled : ∃ (between : List LogStage) (last : Logging) (stage : LogStage) (text : Bytes),
    logPath (watching rejectedLog) between last ∧ stage ∈ between ∧ stage.label = poll text ∧ isNwcause text =
    true := by
  obtain ⟨early, before⟩ := full_log_start
  obtain ⟨between, last, later, tests⟩ := play_exists logEffect logDrifts initModemLogTurn nwcauseDmonTurn
    (List.replicate 3 (.right (logReply rejectedLog))) (watching rejectedLog)
    (fun stages _ => (stages.all fun stage => !isRestart stage.label) && stages.any fun stage => isPoll stage.label)
      (by decide +kernel)
  simp only [Bool.and_eq_true, List.all_eq_true, List.any_eq_true, Bool.not_eq_true'] at tests
  obtain ⟨kept, stage, member, polls⟩ := tests
  obtain ⟨text, polled⟩ := poll_of stage.label polls
  have stays := reject_line_stays _ early between _ _ last before full_log_append (by decide +kernel) later
    fun stage member => not_restart stage.label (kept stage member)
  exact ⟨between, last, stage, text, later, member, polled, (stays.1 stage member text polled).2⟩

end Ftm50s.Daemons
