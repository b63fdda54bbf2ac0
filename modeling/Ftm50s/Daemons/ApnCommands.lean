import Ftm50s.Daemons.Sms

set_option autoImplicit false

namespace Ftm50s.Daemons
open Lib.Text Lib.Filter Lib.Decimal Lib.Daemon

abbrev SmsSystem := System Modem Op Ans SmsVars Unit

abbrev SmsStage := Stage Modem Op Ans SmsVars Unit

def idle (_ : Unit) : Prog Op Ans Unit := .done ()

abbrev smsStep : SmsSystem → Label Op Ans → SmsSystem → Prop := Step smsEffect smsDrifts smsDmonTurn idle

abbrev smsPath : SmsSystem → List SmsStage → SmsSystem → Prop := Path smsEffect smsDrifts smsDmonTurn idle

def smsStart (slots : List (Option Sms)) (log : List Bytes) : SmsSystem :=
  ⟨⟨slots.map fun slot => slot.map fun sms => ⟨sms, 0⟩, log, []⟩, .done startSms, .done ()⟩

def issues (command : Bytes) : Label Op Ans := .left (some ⟨.echo command ttyS1, ()⟩)

def Deletes (command : Bytes) (slot : Nat) : Prop := command = deleteEvery ∨ command = deleteFirst ∧ slot = 0

def Sms.isCommand : Sms → Bool
  | .readable _ text => occurs smsapn text
  | .unreadable _ => false

-- Both settings of a line of the message have been issued since it came in.
def Served (modem : Modem) (stored : Stored) : Prop :=
  ∃ header text line, stored.sms = .readable header text ∧ line ∈ lines text ∧ occurs smsapn line = true ∧
    cgdcont (apnOf line) ∈ modem.sent.drop stored.since ∧ cgeqreq (qosOf line) ∈ modem.sent.drop stored.since

def DeletesServed (stage : SmsStage) : Prop :=
  ∀ command slot stored, stage.label = issues command → Deletes command slot →
    stage.before.world.slots[slot]? = some (some stored) → stored.sms.isCommand = true →
    Served stage.before.world stored

def PurgesNoCommand (stage : SmsStage) : Prop :=
  stage.label = issues deleteEvery → ∀ stored, some stored ∈ stage.before.world.slots → stored.sms.isCommand = false

def Timed (modem : Modem) : Prop := ∀ stored, some stored ∈ modem.slots → stored.since ≤ modem.sent.length

-- What arrivals and other rows of the log leave alone: the message in slot 1,
-- the commands issued, and the answer to the last AT+CMGR=1.
structure SmsRely (before now : Modem) : Prop where
  timed : Timed now
  sent : now.sent = before.sent
  first : ∀ stored, before.slots[0]? = some (some stored) → now.slots[0]? = some (some stored)
  log : ∃ added, now.log = before.log ++ added ∧ ∀ row ∈ added, occurs cmgr row = false

theorem sms_rely_refl (modem : Modem) (timed : Timed modem) : SmsRely modem modem :=
  ⟨timed, rfl, fun _ found => found, [], by simp, by simp⟩

theorem sms_rely_trans (first second third : Modem) (early : SmsRely first second) (late : SmsRely second third) :
    SmsRely first third := by
  obtain ⟨added, firstLog, quiet⟩ := early.log
  obtain ⟨more, secondLog, moreQuiet⟩ := late.log
  refine ⟨late.timed, late.sent.trans early.sent, fun stored found => late.first stored (early.first stored found),
    added ++ more, ?_, ?_⟩
  · rw [secondLog, firstLog, List.append_assoc]
  · exact List.forall_mem_append.mpr ⟨quiet, moreQuiet⟩

theorem receive_rely (modem : Modem) (sms : Sms) (timed : Timed modem) : SmsRely modem (modem.receive sms) := by
  refine ⟨?_, rfl, ?_, [], by simp [Modem.receive], by simp⟩
  · intro stored member
    cases List.mem_or_eq_of_mem_set member with
    | inl old => exact timed stored old
    | inr new => cases new; exact Nat.le_refl _
  · intro stored found
    -- an occupied slot 1 is not the lowest free one
    obtain ⟨slots, log, sent⟩ := modem
    cases slots with
    | nil => cases found
    | cons slot slots =>
        have occupied : slot = some stored := by simpa using found
        simp [Modem.receive, List.findIdx_cons, occupied]

theorem sms_drift_rely (before after : Modem) (timed : Timed before) (moved : smsDrifts before after = true) :
    SmsRely before after := by
  rw [smsDrifts, Bool.or_eq_true] at moved
  cases moved with
  | inl arrival =>
      rw [arrives] at arrival
      split at arrival
      · rename_i stored _
        rw [of_decide_eq_true arrival]
        exact receive_rely before stored.sms timed
      · cases arrival
  | inr rows =>
      rw [Bool.and_eq_true, decide_eq_true_eq] at rows
      obtain ⟨same, quiet⟩ := rows
      have each : ∀ row ∈ rowsAdded before after, occurs cmgr row = false := by simpa using quiet
      have slots : after.slots = before.slots := (congrArg Modem.slots same :)
      have sent : after.sent = before.sent := (congrArg Modem.sent same :)
      refine ⟨?_, sent, fun stored found => slots ▸ found, rowsAdded before after, congrArg Modem.log same, each⟩
      rw [Timed, slots, sent]
      exact timed

theorem command_timed (modem : Modem) (text : Bytes) (timed : Timed modem) : Timed (modem.command text) := by
  intro stored member
  have old : some stored ∈ modem.slots := by
    rw [Modem.command] at member
    split at member
    · simp at member
    · split at member
      · cases List.mem_or_eq_of_mem_set member with
        | inl old => exact old
        | inr new => cases new
      · exact member
  exact Nat.le_trans (timed stored old) (by simp [Modem.command])

theorem effect_timed (modem after : Modem) (event : Event Op Ans) (timed : Timed modem)
    (act : smsEffect modem event = some after) :
    Timed after := by
  obtain ⟨op, answer⟩ := event
  cases op with
  | echo text file =>
      rw [smsEffect] at act
      split at act
      · cases act; exact command_timed modem text timed
      · cases act; exact timed
  | script path =>
      rw [smsEffect] at act
      split at act
      · cases act
      · cases act; exact timed
  | _ => cases act; exact timed

-- The message the daemon works on, and the line it took the values from.
structure Takes (modem : Modem) (apnText qosText : Bytes) (stored : Stored) (line : Bytes) : Prop where
  first : modem.slots[0]? = some (some stored)
  body : ∃ header text, stored.sms = .readable header text ∧ line ∈ lines text
  hit : occurs smsapn line = true
  apn : apnText = apnOf line
  qos : qosText = qosOf line

def Done (modem : Modem) (stored : Stored) (command : Bytes) : Prop := command ∈ modem.sent.drop stored.since

def Phase (vars : SmsVars) (modem : Modem) : Prop :=
  match vars.state with
  | .settingApn => ∃ stored line, Takes modem vars.apnText vars.qosText stored line
  | .settingQos =>
      ∃ stored line, Takes modem vars.apnText vars.qosText stored line ∧ Done modem stored (cgdcont vars.apnText)
  | .deleteSms =>
      ∃ stored line, Takes modem vars.apnText vars.qosText stored line ∧ Done modem stored (cgdcont vars.apnText) ∧
      Done modem stored (cgeqreq vars.qosText)
  | _ => True

theorem takes_rely (before now : Modem) (apnText qosText line : Bytes) (stored : Stored) (rely : SmsRely before now)
    (takes : Takes before apnText qosText stored line) : Takes now apnText qosText stored line :=
  ⟨rely.first stored takes.first, takes.body, takes.hit, takes.apn, takes.qos⟩

theorem done_rely (before now : Modem) (stored : Stored) (command : Bytes) (rely : SmsRely before now)
    (done : Done before stored command) : Done now stored command := by
  rwa [Done, rely.sent]

theorem phase_rely (vars : SmsVars) (before now : Modem) (rely : SmsRely before now) (phase : Phase vars before) :
    Phase vars now := by
  obtain ⟨state, apnText, qosText⟩ := vars
  cases state with
  | settingApn =>
      obtain ⟨stored, line, takes⟩ := phase
      exact ⟨stored, line, takes_rely _ _ _ _ _ _ rely takes⟩
  | settingQos =>
      obtain ⟨stored, line, takes, apn⟩ := phase
      exact ⟨stored, line, takes_rely _ _ _ _ _ _ rely takes, done_rely _ _ _ _ rely apn⟩
  | deleteSms =>
      obtain ⟨stored, line, takes, apn, qos⟩ := phase
      exact ⟨stored, line, takes_rely _ _ _ _ _ _ rely takes, done_rely _ _ _ _ rely apn, done_rely _ _ _ _ rely qos⟩
  | _ => trivial

-- Every deletion names CMGD, so a command with another fifth byte deletes nothing.
theorem command_slots (modem : Modem) (text : Bytes) (other : text[4]? ≠ some 77) :
    (modem.command text).slots = modem.slots := by
  have notEvery : text ≠ deleteEvery := fun same => other (by rw [same]; decide)
  have notFirst : text ≠ deleteFirst := fun same => other (by rw [same]; decide)
  rw [Modem.command]
  simp only [if_neg notEvery, if_neg notFirst]

theorem takes_command (modem : Modem) (apnText qosText line text : Bytes) (stored : Stored) (other : text[4]? ≠ some 77)
    (takes : Takes modem apnText qosText stored line) : Takes (modem.command text) apnText qosText stored line :=
  ⟨by rw [command_slots modem text other]; exact takes.first, takes.body, takes.hit, takes.apn, takes.qos⟩

theorem done_command (modem : Modem) (stored : Stored) (text command : Bytes) (done : Done modem stored command) :
    Done (modem.command text) stored command := by
  rw [Done, Modem.command, List.drop_append]
  exact List.mem_append_left _ done

theorem done_now (modem : Modem) (stored : Stored) (text : Bytes) (timed : stored.since ≤ modem.sent.length) :
    Done (modem.command text) stored text := by
  rw [Done, Modem.command, List.drop_append_of_le_length timed]
  exact List.mem_append_right _ (List.mem_singleton.mpr rfl)

theorem cgdcont_keeps (apn : Bytes) : (cgdcont apn)[4]? ≠ some 77 := by
  rw [cgdcont, List.append_assoc, List.getElem?_append_left (by decide)]
  decide

theorem cgeqreq_keeps (qos : Bytes) : (cgeqreq qos)[4]? ≠ some 77 := by
  rw [cgeqreq, List.getElem?_append_left (by decide)]
  decide

def SmsFit (now : Modem) : Prog Op Ans SmsVars → Prop
  | .done vars => Phase vars now
  | .call op _ => op = .echo deleteFirst ttyS1 → ∀ stored, now.slots[0]? = some (some stored) → Served now stored

abbrev SmsThroughout : Prog Op Ans SmsVars → Modem → Prop := Throughout smsEffect SmsRely SmsFit

theorem done_throughout (vars : SmsVars) (modem : Modem) (phase : Phase vars modem) :
    SmsThroughout (.done vars) modem :=
  fun now rely => phase_rely vars modem now rely phase

theorem issue_throughout (text : Bytes) (next : Unit → Prog Op Ans SmsVars) (modem : Modem) (other : text ≠ deleteFirst)
    (rest : ∀ now, SmsRely modem now → SmsThroughout (next ()) (now.command text)) :
    SmsThroughout (.call (.echo text ttyS1) next) modem := by
  intro now rely
  refine ⟨fun same => ?_, fun answer after act => ?_⟩
  · injection same with sameText
    exact absurd sameText other
  · have same : now.command text = after := by simpa [smsEffect] using act
    rw [← same]
    exact rest now rely

theorem new_sms_takes (read now : Modem) (rely : SmsRely (read.command readFirst) now)
    (found : smsapnLine (backquote (getNewSmsSh now.log)) ≠ []) : ∃ stored line, Takes now
      (apnOf (echoed (smsapnLine (backquote (getNewSmsSh now.log)))))
      (qosOf (echoed (smsapnLine (backquote (getNewSmsSh now.log))))) stored line := by
  obtain ⟨added, log, quiet⟩ := rely.log
  have rows : now.log = read.log ++ readFirst :: firstReply read.slots ++ added := log
  have mentions : Mentions (backquote (getNewSmsSh now.log)) := by
    by_contra silent
    exact found (if_neg silent)
  have whole : smsapnLine (backquote (getNewSmsSh now.log)) = echoed (backquote (getNewSmsSh now.log)) :=
    if_pos mentions
  rw [whole]
  simp only [values_echoed]
  rw [rows] at mentions ⊢
  obtain ⟨header, text, since, line, first, member, hit, output⟩ :=
    new_sms_source read.slots read.log added quiet mentions
  rw [output]
  refine ⟨⟨.readable header text, since⟩, line, rely.first _ first, ⟨header, text, rfl, member⟩, hit, ?_, ?_⟩
  · exact (values_echoed line).1
  · exact (values_echoed line).2

theorem check_sms_throughout (apnText qosText : Bytes) (modem : Modem) :
    SmsThroughout (smsDmonTurn ⟨.checkSms, apnText, qosText⟩) modem := by
  simp only [smsDmonTurn, getNewSms, echo_bind, script_bind, call_bind, ite_bind, pure_done, done_bind]
  refine issue_throughout readFirst _ modem (by decide) fun read _ => ?_
  intro now rely
  refine ⟨(fun same => by cases same), fun output after act => ?_⟩
  have answered : output = getNewSmsSh now.log ∧ now = after := by simpa [smsEffect] using act
  obtain ⟨rfl, rfl⟩ := answered
  simp only [throughout_ite]
  have waits : SmsThroughout (.done ⟨.wait, apnText, qosText⟩) now := done_throughout _ now trivial
  refine ⟨fun _ => waits, fun _ => ⟨fun _ => waits, fun _ => ⟨fun _ => ?_, fun found => ?_⟩⟩⟩
  · exact issue_throughout deleteEvery _ now (by decide) fun later _ => done_throughout _ _ trivial
  · refine done_throughout _ now ?_
    simp only [Phase]
    exact new_sms_takes read now rely found

theorem sms_turn_throughout (vars : SmsVars) (modem : Modem) (phase : Phase vars modem) :
    SmsThroughout (smsDmonTurn vars) modem := by
  obtain ⟨state, apnText, qosText⟩ := vars
  cases state with
  | uninitialized =>
      simp only [smsDmonTurn, isModemExist, echo_bind, script_bind, call_bind, pure_done, done_bind]
      refine issue_throughout _ _ modem (by decide) fun now _ => ?_
      intro later _
      refine ⟨(fun same => by cases same), fun output after act => ?_⟩
      rw [throughout_ite]
      exact ⟨fun _ => done_throughout _ after trivial, fun _ => done_throughout _ after trivial⟩
  | setTextMode => exact issue_throughout _ _ modem (by decide) fun now _ => done_throughout _ _ trivial
  | checkSms => exact check_sms_throughout apnText qosText modem
  | settingApn =>
      obtain ⟨stored, line, takes⟩ := phase
      refine issue_throughout (cgdcont apnText) _ modem (fun same =>
        cgdcont_keeps apnText (by rw [same]; decide)) fun now rely => ?_
      have held := takes_rely _ _ _ _ _ _ rely takes
      refine done_throughout _ _ ⟨stored, line, ?_,
        done_now now stored _ (rely.timed stored (List.mem_of_getElem? held.first))⟩
      exact takes_command now _ _ line _ stored (cgdcont_keeps apnText) held
  | settingQos =>
      obtain ⟨stored, line, takes, apn⟩ := phase
      refine issue_throughout (cgeqreq qosText) _ modem (fun same =>
        cgeqreq_keeps qosText (by rw [same]; decide)) fun now rely => ?_
      have held := takes_rely _ _ _ _ _ _ rely takes
      intro later more
      refine ⟨(fun same => by cases same), fun answer after act => ?_⟩
      have same : later = after := by simpa [smsEffect] using act
      subst same
      have phase : Phase ⟨.deleteSms, apnText, qosText⟩ (now.command (cgeqreq qosText)) :=
        ⟨stored, line, takes_command now _ _ line _ stored (cgeqreq_keeps qosText) held, done_command now stored _ _
          (done_rely _ _ _ _ rely apn),
          done_now now stored _ (rely.timed stored (List.mem_of_getElem? held.first))⟩
      exact done_throughout _ later (phase_rely _ _ later more phase)
  | deleteSms =>
      intro now rely
      obtain ⟨stored, line, takes, apn, qos⟩ := phase_rely _ _ now rely phase
      refine ⟨fun _ other found => ?_, fun answer after act => done_throughout _ after trivial⟩
      have same : stored = other := by simpa [takes.first] using found
      obtain ⟨header, text, readable, member⟩ := takes.body
      have apnLine : apnText = apnOf line := takes.apn
      have qosLine : qosText = qosOf line := takes.qos
      rw [← same]
      exact ⟨header, text, line, readable, member, takes.hit, apnLine ▸ apn, qosLine ▸ qos⟩
  | wait => exact done_throughout _ modem trivial

def SmsSound (sys : SmsSystem) : Prop := Timed sys.world ∧ sys.right = .done () ∧ SmsThroughout sys.left sys.world

theorem sms_sound_step (before after : SmsSystem) (label : Label Op Ans) (sound : SmsSound before)
    (step : smsStep before label after) :
    SmsSound after := by
  obtain ⟨timed, quiet, fits⟩ := sound
  cases step with
  | leftActs world changed op answer next right act =>
      exact ⟨effect_timed world changed _ timed act, quiet, throughout_act _ _ _ op next world changed answer
        (sms_rely_refl world timed) act fits⟩
  | leftAgain world state right =>
      exact ⟨timed, quiet, sms_turn_throughout state world
        (throughout_now _ _ _ _ world (sms_rely_refl world timed) fits)⟩
  | rightActs world changed op answer next left act => cases quiet
  | rightAgain world state left => exact ⟨timed, rfl, fits⟩
  | drift world changed left right moved =>
      have rely := sms_drift_rely world changed timed moved
      exact ⟨rely.timed, quiet, throughout_rely _ _ _ sms_rely_trans left world changed rely fits⟩

theorem sms_start_sound (slots : List (Option Sms)) (log : List Bytes) : SmsSound (smsStart slots log) := by
  refine ⟨fun stored member => ?_, rfl, done_throughout startSms _ trivial⟩
  obtain ⟨slot, _, same⟩ := List.mem_map.mp member
  obtain ⟨sms, _, rfl⟩ := Option.map_eq_some_iff.mp same
  exact Nat.zero_le _

-- A command that leaves the modem has been carried out, as long as every purge
-- comes at a time when the modem holds no command.
theorem no_command_dropped (slots : List (Option Sms)) (log : List Bytes) (stages : List SmsStage) (last : SmsSystem)
    (path : smsPath (smsStart slots log) stages last) (clear : ∀ stage ∈ stages, PurgesNoCommand stage) :
    ∀ stage ∈ stages, DeletesServed stage := by
  intro stage member
  obtain ⟨_, each⟩ := path_invariant _ _ _ _ SmsSound (fun _ => True) (fun before label after sound _ =>
    sms_sound_step before after label sound)
    _ _ stages path (fun _ _ => trivial) (sms_start_sound slots log)
  obtain ⟨timed, _, fits⟩ := each stage member
  obtain ⟨after, step⟩ := path_step _ _ _ _ _ _ stages path stage member
  intro command slot stored label deletes found holds
  cases deletes with
  | inl every =>
      have none := clear stage member (every ▸ label) stored (List.mem_of_getElem? found)
      rw [none] at holds
      cases holds
  | inr first =>
      obtain ⟨rfl, rfl⟩ := first
      rw [label] at step
      generalize stage.before = before at step timed fits found
      cases step with
      | leftActs world changed op answer next right act =>
          exact throughout_now _ _ _ _ world (sms_rely_refl world timed) fits rfl stored found

def hello : Sms := .readable (ascii "\"REC UNREAD\"") (ascii "hello")

def setApn : Sms := .readable (ascii "\"REC UNREAD\"") (ascii "smsapn:internet:8:384:2")

def smsAnswers (printed : String) : (op : Op) → Ans op
  | .script path => if path = newSmsPath then ascii printed else ascii "true\n"
  | .cat _ => []
  | .isFile _ => true
  | .mmd _ => []
  | .pidof _ => []
  | .echo _ _ => ()
  | .kill15 _ => ()
  | .killall _ => ()
  | .pppd _ => ()
  | .killLoggers => ()
  | .startLogger => ()

def daemonMoves (count : Nat) (printed : String) : List (Move Modem Op Ans) :=
  List.replicate count (.left (smsAnswers printed))

def isIssue (command : Bytes) (stage : SmsStage) : Bool :=
  match stage.label with
  | .left (some ⟨.echo text file, _⟩) => decide (text = command ∧ file = ttyS1)
  | _ => false

theorem is_issue_iff (command : Bytes) (stage : SmsStage) :
    isIssue command stage = true ↔ stage.label = issues command := by
  rw [isIssue, issues]
  split
  · rename_i text file _ same
    rw [same, decide_eq_true_eq]
    refine ⟨fun both => by rw [both.1, both.2], fun both => ?_⟩
    injection both with event
    injection event with event
    injection event with op
    injection op with sameText sameFile
    exact ⟨sameText, sameFile⟩
  · rename_i other
    exact ⟨(fun no => by cases no), fun same => absurd same (other command ttyS1 ())⟩

def holdsCommand (modem : Modem) : Bool := modem.slots.any fun slot => slot.any fun stored => stored.sms.isCommand

theorem purges_no_command (stage : SmsStage) (clear : (isIssue deleteEvery stage && holdsCommand stage.before.world) =
    false) :
    PurgesNoCommand stage := by
  intro label stored member
  rw [(is_issue_iff deleteEvery stage).mpr label, Bool.true_and, holdsCommand] at clear
  simpa using List.any_eq_false.mp clear (some stored) member

-- Slot 1 holds an ordinary message and slot 2 a command: the answer to the
-- first makes the daemon delete both.
theorem command_dropped : ¬∀ (slots : List (Option Sms)) (log : List Bytes) (stages : List SmsStage) (last : SmsSystem),
    smsPath (smsStart slots log) stages last → ∀ stage ∈ stages, DeletesServed stage := by
  intro all
  obtain ⟨stages, last, path, lost⟩ := play_exists smsEffect smsDrifts smsDmonTurn idle (daemonMoves 9 "hello\n")
    (smsStart [some hello, some setApn] []) (fun stages _ => stages.any fun stage => isIssue deleteEvery stage &&
      decide (stage.before.world.slots[1]? = some (some (Stored.mk setApn 0))) &&
      stage.before.world.sent.all fun command => !(ascii "AT+CGDCONT").isPrefixOf command) (by decide +kernel)
  obtain ⟨stage, member, lost⟩ := List.any_eq_true.mp lost
  simp only [Bool.and_eq_true, decide_eq_true_eq] at lost
  obtain ⟨⟨issued, found⟩, unset⟩ := lost
  obtain ⟨_, _, line, _, _, _, sent, _⟩ :=
    all _ _ stages last path stage member deleteEvery 1 _ ((is_issue_iff _ stage).mp issued)
    (Or.inl rfl) found (by decide)
  have starts : (ascii "AT+CGDCONT").isPrefixOf (cgdcont (apnOf line)) = true := rfl
  have missing := List.all_eq_true.mp unset _ (List.mem_of_mem_drop sent)
  rw [starts] at missing
  cases missing

def purged : Modem where
  slots := [none]
  log := ["AT", "OK", "AT+CMGF=1", "OK", "AT+CMGR=1", "+CMGR: \"REC UNREAD\"", "hello", "OK", "AT+CMGD=1,4",
  "OK"].map ascii
  sent := ["AT", "AT+CMGF=1", "AT+CMGR=1", "AT+CMGD=1,4"].map ascii

def purgeThenServe : List (Move Modem Op Ans) :=
  daemonMoves 9 "hello\n" ++ .drift (purged.receive setApn) :: daemonMoves 17 "smsapn:internet:8:384:2\n"

theorem no_command_dropped_served : ∃ (stages : List SmsStage) (last : SmsSystem),
    smsPath (smsStart [some hello] []) stages last ∧ (∃ stage ∈ stages, stage.label = issues deleteFirst ∧
    stage.before.world.slots[0]? = some (some (Stored.mk setApn 4))) ∧ ∀ stage ∈ stages, DeletesServed stage := by
  obtain ⟨stages, last, path, both⟩ := play_exists smsEffect smsDrifts smsDmonTurn idle purgeThenServe
    (smsStart [some hello] [])
    (fun stages _ => (stages.all fun stage => !(isIssue deleteEvery stage && holdsCommand stage.before.world)) &&
      stages.any fun stage => isIssue deleteFirst stage &&
      decide (stage.before.world.slots[0]? = some (some (Stored.mk setApn 4))))
    (by decide +kernel)
  rw [Bool.and_eq_true] at both
  obtain ⟨clear, deletes⟩ := both
  obtain ⟨stage, member, deletes⟩ := List.any_eq_true.mp deletes
  rw [Bool.and_eq_true, decide_eq_true_eq] at deletes
  refine ⟨stages, last, path, ⟨stage, member, (is_issue_iff _ stage).mp deletes.1, deletes.2⟩, ?_⟩
  refine no_command_dropped _ _ stages last path fun other within => purges_no_command other ?_
  exact (Bool.not_eq_true' _).mp (List.all_eq_true.mp clear other within)

end Ftm50s.Daemons
