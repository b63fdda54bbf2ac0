import Ftm50s.Daemons.NewMmon
import Mathlib.Algebra.Order.Group.Int

set_option autoImplicit false

namespace Ftm50s.Daemons
open Lib.Text Lib.Filter Lib.Decimal Lib.Daemon

def isLaunch : Op → Bool
  | .pppd _ => true
  | _ => false

def launches (events : List (Event Op Ans)) : Nat := events.countP fun event => isLaunch event.op

def InRange (vars : Vars) : Prop := (0 ≤ vars.retry ∧ vars.retry ≤ 3) ∧ 0 ≤ vars.rssiRetry ∧ vars.rssiRetry ≤ 3

def readsNwcause (text : Bytes) : Event Op Ans := ⟨.cat nwcauseFile, text⟩

def launched : Event Op Ans := ⟨.pppd "file /etc/ppp/scripts/uc864-e", ()⟩

theorem change_stat_eq (vars : Vars) : changeStat vars = { vars with stat := vars.nextStat } := by
  obtain ⟨stat, nextStat, retry, rssiRetry⟩ := vars
  by_cases same : stat = nextStat
  · subst same; simp [changeStat]
  · simp [changeStat, same]

theorem launches_none (events : List (Event Op Ans)) (quiet : ∀ event ∈ events, isLaunch event.op = false) :
    launches events = 0 := by
  rw [launches, List.countP_eq_zero]
  intro event member
  rw [quiet event member]
  decide

-- Every state but the two that dial: no launch, RETRY as before, and
-- RSSI_RETRY back in its range.
def Calm (vars next : Vars) : Prop :=
  next.retry = vars.retry ∧ (0 ≤ vars.rssiRetry ∧ vars.rssiRetry ≤ 3 → 0 ≤ next.rssiRetry ∧ next.rssiRetry ≤ 3)

def Quiet (vars : Vars) : Prog Op Ans Vars → Prop :=
  Confined (fun _ => True) (fun op => isLaunch op = false) (Calm vars)

theorem rssi_check_quiet (vars : Vars) : Quiet vars (statRssiCheck vars) := by
  simp [Quiet, statRssiCheck, getRssi, connectIs, isPppConnected, killPppd, kill15, isLaunch, Calm, rssiMaxRetry]
  omega

theorem quiet_case (vars : Vars) (idle : vars.stat ≠ .registered) (unchecked : vars.stat ≠ .checkPppd) :
    Quiet vars (caseStat vars) := by
  cases stat : vars.stat with
  | uninitialized => simp [caseStat, stat, Quiet, statUninitialized, isModemExist, connectIs, isLaunch, Calm]
  | initQos => simp [caseStat, stat, Quiet, statInitQos, isReady, initQos, isLaunch, Calm]
  | initApn => simp [caseStat, stat, Quiet, statInitApn, isReady, initApn, isLaunch, Calm]
  | rssiCheck => simpa [caseStat, stat] using rssi_check_quiet vars
  | initialized => simp [caseStat, stat, Quiet, statInitialized, isReady, connectIs, isLaunch, Calm]
  | simReady => simp [caseStat, stat, Quiet, statSimReady, isRegistered, connectIs, isLaunch, Calm]
  | registered => exact absurd stat idle
  | waitingForPppConnectionCompleted => simp [caseStat, stat, Quiet, statWaiting, connectIs, isLaunch, Calm]
  | longtermWaiting => simp [caseStat, stat, Quiet, statLongtermWaiting, connectIs, isLaunch, Calm]
  | checkPppd => exact absurd stat unchecked
  | pppConnectionCompleted => simp [caseStat, stat, Quiet, statPppConnectionCompleted, connectIs, isLaunch, Calm]
  | pppIsDisconnected => simp [caseStat, stat, Quiet, statPppIsDisconnected, connectIs, isLaunch, Calm]

-- Both dialling states end with the read of /tmp/nwcause and the launch. What
-- they ask before that differs: ppp0 in REGISTERED, pidof in CHECK_PPPD.
theorem registered_spec (vars : Vars) : Ensures (statRegistered vars) fun events next =>
    (launches events = 0 ∧ next.retry = vars.retry ∧ next.rssiRetry = vars.rssiRetry ∧
      (next.nextStat = .pppConnectionCompleted ∨ next.nextStat = .longtermWaiting)) ∨
    (∃ dev text, events = [⟨.echo (ascii "stop") "/tmp/ppp.connect", ()⟩, ⟨.cat "/proc/net/dev", dev⟩, readsNwcause text, launched] ∧
      hasPpp0 dev = false ∧ backquote text = sending ∧
      next = { vars with nextStat := .waitingForPppConnectionCompleted, retry := 0 }) := by
  simp only [statRegistered, connectIs, isPppConnected, launchPppd, echo_bind, cat_bind, call_bind, pppd_bind,
    pure_done,
    done_bind, ensures_call, ensures_ite]
  refine fun _ dev => ⟨fun _ => Or.inl ⟨rfl, rfl, rfl, Or.inl rfl⟩, fun absent text => ⟨fun read _ => ?_, fun _ => ?_⟩⟩
  · exact Or.inr ⟨dev, text, rfl, by simpa using absent, read, rfl⟩
  · exact Or.inl ⟨rfl, rfl, rfl, Or.inr rfl⟩

theorem check_pppd_spec (vars : Vars) : Ensures (statCheckPppd vars) fun events next =>
    (launches events = 0 ∧ next.rssiRetry = vars.rssiRetry ∧
    ((next = vars) ∨ (next.retry = vars.retry ∨ next.retry = 0) ∧ (next.nextStat = .pppConnectionCompleted ∨
    next.nextStat = .longtermWaiting))) ∨ (∃ pids text, events = [⟨.echo (ascii "running") "/tmp/ppp.connect", ()⟩,
    ⟨.pidof "pppd", pids⟩, readsNwcause text, launched] ∧ backquote pids = [] ∧ backquote text = sending ∧
    vars.retry < 3 ∧ next = { vars with nextStat := .waitingForPppConnectionCompleted, retry := vars.retry + 1 }) := by
  simp only [statCheckPppd, connectIs, isPppConnected, launchPppd, echo_bind, pidof_bind, cat_bind, call_bind,
    pppd_bind, pure_done,
    done_bind, ensures_call, ensures_ite]
  refine fun _ pids => ⟨fun dead => ⟨fun left text => ⟨fun read _ => ?_, fun _ => ?_⟩, fun _ => ?_⟩, fun _ dev =>
    ⟨fun _ => ?_, fun _ => ?_⟩⟩
  · exact Or.inr ⟨pids, text, rfl, dead, read, left, rfl⟩
  · exact Or.inl ⟨rfl, rfl, Or.inr ⟨Or.inl rfl, Or.inr rfl⟩⟩
  · exact Or.inl ⟨rfl, rfl, Or.inr ⟨Or.inr rfl, Or.inr rfl⟩⟩
  · exact Or.inl ⟨rfl, rfl, Or.inr ⟨Or.inl rfl, Or.inl rfl⟩⟩
  · exact Or.inl ⟨rfl, rfl, Or.inl rfl⟩

def settle (vars : Vars) : Vars := { vars with stat := vars.nextStat }

theorem settle_stat (vars : Vars) : (settle vars).stat = vars.nextStat := rfl

theorem turn_ensures (vars : Vars) (post : List (Event Op Ans) → Vars → Prop) :
    Ensures (newMmonTurn vars) post ↔ Ensures (caseStat vars) fun events next => post events (settle next) := by
  rw [newMmonTurn, ensures_bind]
  simp only [pure_done, ensures_done, List.append_nil, change_stat_eq, settle]

-- NEXT_STAT and STAT agree whenever the loop starts over; branches that leave
-- NEXT_STAT alone therefore stay where they are.
def Ready (vars : Vars) : Prop := vars.nextStat = vars.stat ∧ InRange vars

theorem ready_settle (vars : Vars) (range : InRange vars) : Ready (settle vars) := ⟨rfl, range⟩

def Visits (stat : Stat) : Prop := stat = .pppConnectionCompleted ∨ stat = .longtermWaiting

-- How many launches can still come before the next visit.
def budget (stat : Stat) (retry : Int) : Nat :=
  match stat with
  | .longtermWaiting => 0
  | .pppConnectionCompleted => 0
  | .waitingForPppConnectionCompleted => (3 - retry).toNat
  | .checkPppd => (3 - retry).toNat
  | _ => 4

theorem budget_visit (stat : Stat) (retry : Int) (visits : Visits stat) : budget stat retry = 0 := by
  cases visits with
  | inl same => subst same; rfl
  | inr same => subst same; rfl

theorem budget_le (stat : Stat) (retry : Int) (low : 0 ≤ retry) : budget stat retry ≤ 4 := by
  unfold budget
  split <;> omega

theorem launches_dial (first second : Event Op Ans) (text : Bytes) (firstQuiet : isLaunch first.op = false)
    (secondQuiet : isLaunch second.op = false) : launches [first, second, readsNwcause text, launched] = 1 := by
  have third : isLaunch (readsNwcause text).op = false := rfl
  have fourth : isLaunch launched.op = true := rfl
  simp [launches, firstQuiet, secondQuiet, third, fourth]

def TurnSpec (vars : Vars) (events : List (Event Op Ans)) (next : Vars) : Prop :=
  Ready next ∧ (¬Visits vars.stat → launches events + budget next.stat next.retry ≤ budget vars.stat vars.retry)

theorem registered_turn (vars : Vars) (range : InRange vars) (stat : vars.stat = .registered) :
    Ensures (newMmonTurn vars) (TurnSpec vars) := by
  rw [turn_ensures, caseStat, stat]
  refine ensures_mono _ _ _ (registered_spec vars) fun events next spec => ?_
  have full : budget vars.stat vars.retry = 4 := by rw [stat]; rfl
  cases spec with
  | inl quiet =>
      obtain ⟨none, retry, rssi, stops⟩ := quiet
      refine ⟨ready_settle next ?_, fun _ => ?_⟩
      · rw [InRange, retry, rssi]
        exact range
      · rw [none, full, settle_stat, budget_visit _ _ stops]
        decide
  | inr dials =>
      obtain ⟨dev, text, shape, _, read, rfl⟩ := dials
      refine ⟨ready_settle _ ⟨⟨Int.le_refl 0, Int.zero_le_ofNat 3⟩, range.2⟩, fun _ => ?_⟩
      rw [full, shape, launches_dial _ _ _ rfl rfl]
      exact Nat.le_refl 4

theorem check_pppd_turn (vars : Vars) (ready : Ready vars) (stat : vars.stat = .checkPppd) :
    Ensures (newMmonTurn vars) (TurnSpec vars) := by
  obtain ⟨settled, ⟨low, high⟩, rssiRange⟩ := ready
  rw [turn_ensures, caseStat, stat]
  refine ensures_mono _ _ _ (check_pppd_spec vars) fun events next spec => ?_
  cases spec with
  | inl quiet =>
      obtain ⟨none, rssi, ends⟩ := quiet
      cases ends with
      | inl same =>
          subst same
          refine ⟨ready_settle next ⟨⟨low, high⟩, rssiRange⟩, fun _ => ?_⟩
          rw [none, Nat.zero_add, settle, settled]
      | inr stops =>
          obtain ⟨retry, stops⟩ := stops
          refine ⟨ready_settle next ⟨by omega, by omega⟩, fun _ => ?_⟩
          rw [none, settle_stat, budget_visit _ _ stops]
          exact Nat.zero_le _
  | inr dials =>
      obtain ⟨pids, text, shape, _, read, more, rfl⟩ := dials
      refine ⟨ready_settle _ ⟨⟨Int.le_add_one low, Int.add_one_le_of_lt more⟩, rssiRange⟩, fun _ => ?_⟩
      rw [shape, launches_dial _ _ _ rfl rfl, stat]
      change 1 + (3 - (vars.retry + 1)).toNat ≤ (3 - vars.retry).toNat
      omega

theorem quiet_turn (vars : Vars) (range : InRange vars) (idle : vars.stat ≠ .registered)
    (unchecked : vars.stat ≠ .checkPppd) :
    Ensures (newMmonTurn vars) (TurnSpec vars) := by
  rw [turn_ensures]
  by_cases waiting : vars.stat = .waitingForPppConnectionCompleted
  · rw [caseStat, waiting]
    intro answer
    refine ⟨ready_settle _ range, fun _ => ?_⟩
    rw [waiting, settle, budget, budget]
    exact Nat.le_of_eq (Nat.zero_add _)
  · refine ensures_mono _ _ _ (confined_ensures _ _ _ (quiet_case vars idle unchecked)) fun events next spec => ?_
    obtain ⟨quiet, retry, kept⟩ := spec
    have none := launches_none events quiet
    refine ⟨ready_settle next ⟨retry ▸ range.1, kept range.2⟩, fun away => ?_⟩
    have full : budget vars.stat vars.retry = 4 := by
      unfold budget
      split <;> simp_all [Visits]
    rw [none, full, Nat.zero_add]
    exact budget_le _ _ (retry ▸ range.1.1)

theorem turn_spec (vars : Vars) (ready : Ready vars) : Ensures (newMmonTurn vars) (TurnSpec vars) := by
  by_cases registered : vars.stat = .registered
  · exact registered_turn vars ready.2 registered
  · by_cases checks : vars.stat = .checkPppd
    · exact check_pppd_turn vars ready checks
    · exact quiet_turn vars ready.2 registered checks

def ReadsSending (event : Event Op Ans) : Prop := ∃ text, event = readsNwcause text ∧ backquote text = sending

theorem turn_preceded (vars : Vars) : Preceded ReadsSending (fun op => isLaunch op = true) False
    (newMmonTurn vars) := by
  refine preceded_map _ _ _ _ _ ?_
  by_cases registered : vars.stat = .registered
  · rw [caseStat, registered]
    simp +contextual [statRegistered, connectIs, isPppConnected, launchPppd, ReadsSending, readsNwcause, isLaunch]
  · by_cases checks : vars.stat = .checkPppd
    · rw [caseStat, checks]
      simp +contextual [statCheckPppd, connectIs, isPppConnected, launchPppd, ReadsSending, readsNwcause, isLaunch]
    · refine confined_preceded _ _ _ (Calm vars) _ ?_
      simpa [Quiet] using quiet_case vars registered checks

theorem start_ready : Ready startVars := ⟨rfl, ⟨by decide, by decide⟩, by decide, by decide⟩

theorem run_ready (turns : List (Turn Vars Op Ans)) (last : Vars) (run : Runs newMmonTurn startVars turns last) :
    Ready last ∧ ∀ turn ∈ turns, Ready turn.before :=
  runs_invariant newMmonTurn Ready (fun vars ready => ensures_mono _ _ _ (turn_spec vars ready) fun _ _ spec => spec.1)
    startVars last turns run start_ready

-- A stretch of turns without a visit spends the budget of the state it starts
-- in, and that is never more than four.
theorem bounded_dialling (turns : List (Turn Vars Op Ans)) (last : Vars) (run : Runs newMmonTurn startVars turns last) :
    (InRange last ∧ ∀ turn ∈ turns, InRange turn.before) ∧
    (∀ turn ∈ turns, ∀ before event after, turn.events = before ++ event :: after → isLaunch event.op = true →
      ∃ earlier text, before = earlier ++ [readsNwcause text] ∧ backquote text = sending) ∧
    (∀ before stretch after, turns = before ++ stretch ++ after → (∀ turn ∈ stretch, ¬Visits turn.before.stat) →
      (stretch.map fun turn => launches turn.events).sum ≤ 4) := by
  obtain ⟨final, each⟩ := run_ready turns last run
  refine ⟨⟨final.2, fun turn member => (each turn member).2⟩, fun turn member =>
    ?_, fun before stretch after split away => ?_⟩
  · intro before event after split launch
    obtain ⟨next, does⟩ := runs_turn _ _ _ turns run turn member
    cases preceded_does _ _ False _ (turn_preceded turn.before) _ before after event next does split launch with
    | inl start => exact start.2.elim
    | inr read =>
        obtain ⟨earlier, _, rfl, text, rfl, same⟩ := read
        exact ⟨earlier, text, rfl, same⟩
  · rw [split] at run each
    obtain ⟨second, front, _⟩ := (runs_append _ _ _ _ _).mp run
    obtain ⟨first, early, mid⟩ := (runs_append _ _ _ _ _).mp front
    have spent := runs_budget newMmonTurn launches (fun vars => budget vars.stat vars.retry)
      (fun vars => Ready vars ∧ ¬Visits vars.stat)
      (fun vars paid => ensures_mono _ _ _ (turn_spec vars paid.1) fun _ _ spec => spec.2 paid.2)
      first second stretch mid
      (fun turn member => ⟨each turn (List.mem_append_left after (List.mem_append_right before member)),
      away turn member⟩)
    have start := budget_le first.stat first.retry (run_ready before first early).1.2.1.1
    omega

-- One fixed set of readings: the modem is there, the SIM ready and registered;
-- the signal, ppp0, /tmp/nwcause and pidof answer as given.
def scene (level dev nwcause pids : String) : (op : Op) → Ans op
  | .script path =>
      if path = "/www/cgi-bin/scripts/is_modem.sh" then ascii "true"
      else if path = "/www/cgi-bin/scripts/usim.sh" then ascii "+CPIN: READY"
      else if path = "/www/cgi-bin/scripts/is_registered.sh" then ascii "+CREG: 0,1"
      else ascii ("#RFSTS: 450,08,10713,255,-7," ++ level)
  | .cat file => if file = nwcauseFile then ascii nwcause else ascii dev
  | .pidof _ => ascii pids
  | .mmd _ => ascii "OK"
  | .isFile _ => true
  | .echo _ _ => ()
  | .kill15 _ => ()
  | .killall _ => ()
  | .pppd _ => ()
  | .killLoggers => ()
  | .startLogger => ()

def dialScene : (op : Op) → Ans op := scene "-70" "eth0: 0" "sending" ""

theorem bounded_dialling_all_four :
    let turns := (replayTurns newMmonTurn (List.replicate 13 dialScene) startVars).1
    (turns.map fun turn => launches turn.events).sum = 4 ∧ (turns.map fun turn => launches turn.events).sum ≤ 4 := by
  intro turns
  refine ⟨by decide +kernel, ?_⟩
  have bound := (bounded_dialling turns _ (runs_replay newMmonTurn _ startVars)).2.2 [] turns [] (by simp)
  exact bound (by unfold Visits; decide +kernel)

-- A STAT_RSSI_CHECK turn that read a weak signal with ppp0 up and sent the
-- signal to pppd.
def WeakKill (events : List (Event Op Ans)) : Prop :=
  (∃ status, ⟨.script "/www/cgi-bin/scripts/network_status.sh", status⟩ ∈ events ∧ isWeak (rssiOf status) = true) ∧
    (∃ dev, ⟨.cat "/proc/net/dev", dev⟩ ∈ events ∧ hasPpp0 dev = true) ∧ ∃ pids, ⟨.kill15 pids, ()⟩ ∈ events

def BacksOff (after : Vars) : Prop :=
  ∀ between dial last, Runs newMmonTurn after (between ++ [dial]) last → (∀ turn ∈ between, launches turn.events = 0) →
    0 < launches dial.events → ∃ turn ∈ between, turn.before.stat = .longtermWaiting

theorem weak_kill_spec (vars : Vars) : Ensures (statRssiCheck vars) fun events next => WeakKill events →
    next.nextStat = if vars.rssiRetry < 3 then .initialized else .longtermWaiting := by
  simp only [statRssiCheck, getRssi, connectIs, isPppConnected, echo_bind, script_bind, cat_bind, call_bind, pure_done,
    done_bind,
    ensures_call, ensures_ite]
  refine fun _ status => ⟨fun _ => ⟨fun weak _ dev => ?_, fun strong dev => ?_⟩, fun _ killed => ?_⟩
  · by_cases left : vars.rssiRetry < 3
    · simp [left, killPppd, kill15, rssiMaxRetry, ensures_ite]
    · simp [left, killPppd, kill15, rssiMaxRetry, ensures_ite]
  · refine ⟨fun _ killed => ?_, fun _ killed => ?_⟩
    · obtain ⟨⟨other, member, weak⟩, _⟩ := killed
      simp at member
      exact absurd (member ▸ weak) strong
    · obtain ⟨⟨other, member, weak⟩, _⟩ := killed
      simp at member
      exact absurd (member ▸ weak) strong
  · simp [WeakKill] at killed

theorem quiet_launches (vars : Vars) (events : List (Event Op Ans)) (next : Vars) (idle : vars.stat ≠ .registered)
    (unchecked : vars.stat ≠ .checkPppd) (turn : Does (newMmonTurn vars) events next) : launches events = 0 := by
  have quiet := (turn_ensures vars fun events _ => launches events = 0).mpr <|
    ensures_mono _ _ _ (confined_ensures _ _ _ (quiet_case vars idle unchecked)) fun events _ spec =>
      launches_none events spec.1
  exact (ensures_iff _ _).mp quiet events next turn

theorem redials (retry rssiRetry : Int) : ¬BacksOff ⟨.initialized, .initialized, retry, rssiRetry⟩ := by
  intro backs
  let first : Vars := ⟨.initialized, .initialized, retry, rssiRetry⟩
  let between := replayTurns newMmonTurn [dialScene, dialScene] first
  let dial := replay dialScene (newMmonTurn between.2)
  have run : Runs newMmonTurn first (between.1 ++ [⟨between.2, dial.1⟩]) dial.2 :=
    (runs_append _ _ _ _ _).mpr ⟨between.2, runs_replay _ _ _, rfl, dial.2, does_replay _ _, rfl⟩
  have stats : between.1.map (fun turn => turn.before.stat) = [.initialized, .simReady] := rfl
  have quiet : between.1.map (fun turn => launches turn.events) = [0, 0] := rfl
  have dials : launches dial.1 = 1 := rfl
  obtain ⟨turn, member, waits⟩ := backs between.1 _ _ run
    (fun turn member => by simpa [quiet] using List.mem_map_of_mem (f := fun turn => launches turn.events) member)
    (dials ▸ Nat.one_pos)
  have visited : .longtermWaiting ∈ between.1.map fun turn => turn.before.stat := List.mem_map.mpr ⟨turn, member, waits⟩
  rw [stats] at visited
  simp at visited

theorem waits_long (after : Vars) (stat : after.stat = .longtermWaiting) : BacksOff after := by
  intro between dial last run _ dials
  cases between with
  | nil =>
      obtain ⟨head, next, does, _⟩ := run
      have none := quiet_launches after dial.events next (by simp [stat]) (by simp [stat]) does
      omega
  | cons turn others => exact ⟨turn, List.mem_cons_self, run.1 ▸ stat⟩

-- Only a full counter leaves the assignment of STAT_LONGTERM_WAITING standing.
theorem weak_signal_back_off (turns : List (Turn Vars Op Ans)) (vars after : Vars) (events : List (Event Op Ans))
    (run : Runs newMmonTurn startVars turns vars) (stat : vars.stat = .rssiCheck)
    (turn : Does (newMmonTurn vars) events after) (killed : WeakKill events) : BacksOff after ↔ vars.rssiRetry = 3 := by
  have range := (run_ready turns vars run).1.2.2
  have spec := (turn_ensures vars fun events next => WeakKill events →
      next.nextStat = next.stat ∧ next.stat = if vars.rssiRetry < 3 then .initialized else .longtermWaiting).mpr (by
    rw [caseStat, stat]
    exact ensures_mono _ _ _ (weak_kill_spec vars) fun _ _ next weak => ⟨rfl, next weak⟩)
  obtain ⟨settled, next⟩ := (ensures_iff _ _).mp spec events after turn killed
  by_cases full : vars.rssiRetry = 3
  · rw [if_neg (by omega)] at next
    exact ⟨fun _ => full, fun _ => waits_long after next⟩
  · rw [if_pos (by omega)] at next
    obtain ⟨afterStat, afterNext, retry, rssiRetry⟩ := after
    simp only at next settled
    subst next settled
    exact ⟨fun backs => absurd backs (redials retry rssiRetry), fun same => absurd same full⟩

def upScene : (op : Op) → Ans op := scene "-70" "ppp0: 0" "sending" "77"

def weakScene : (op : Op) → Ans op := scene "-95" "ppp0: 0" "sending" "77"

theorem weak_scene_kills (retry rssiRetry : Int) :
    WeakKill (replay weakScene (newMmonTurn ⟨.rssiCheck, .rssiCheck, retry, rssiRetry⟩)).1 := by
  refine ⟨⟨ascii "#RFSTS: 450,08,10713,255,-7,-95", List.mem_of_getElem? (i := 1) rfl, by decide +kernel⟩,
    ⟨ascii "ppp0: 0", List.mem_of_getElem? (i := 3) rfl, by decide +kernel⟩, ascii "77", List.mem_of_getElem? (i :=
    5) rfl⟩

-- The link comes up, the signal drops to -95 dBm, pppd is killed, and with
-- RSSI_RETRY at 0 the machine is back to dialling after three turns.
theorem weak_signal_redials : ¬∀ (turns : List (Turn Vars Op Ans)) (vars after : Vars) (events : List (Event Op Ans)),
    Runs newMmonTurn startVars turns vars → vars.stat = .rssiCheck → Does (newMmonTurn vars) events after →
      WeakKill events → BacksOff after := by
  intro all
  have up : (replayTurns newMmonTurn (List.replicate 5 dialScene ++ List.replicate 3 upScene) startVars).2 =
      ⟨.rssiCheck, .rssiCheck, 0, 0⟩ := by decide +kernel
  have run := runs_replay newMmonTurn (List.replicate 5 dialScene ++ List.replicate 3 upScene) startVars
  rw [up] at run
  have after : (replay weakScene (newMmonTurn ⟨.rssiCheck, .rssiCheck, 0, 0⟩)).2 = ⟨.initialized, .initialized, 0,
    1⟩ := by
    decide +kernel
  have turn := does_replay weakScene (newMmonTurn ⟨.rssiCheck, .rssiCheck, 0, 0⟩)
  have backs := all _ _ _ _ run rfl turn (weak_scene_kills 0 0)
  rw [after] at backs
  exact redials 0 1 backs

theorem weak_signal_back_off_full :
    let vars := (replayTurns newMmonTurn (List.replicate 16 weakScene) startVars).2
    vars = ⟨.rssiCheck, .rssiCheck, 0, 3⟩ ∧ BacksOff (replay weakScene (newMmonTurn vars)).2 := by
  intro vars
  have reached : vars = ⟨.rssiCheck, .rssiCheck, 0, 3⟩ := by decide +kernel
  have run := runs_replay newMmonTurn (List.replicate 16 weakScene) startVars
  have settled := weak_signal_back_off _ vars _ _ run (by rw [reached]) (does_replay weakScene _)
    (reached ▸ weak_scene_kills 0 3)
  exact ⟨reached, settled.mpr (by rw [reached])⟩

end Ftm50s.Daemons
