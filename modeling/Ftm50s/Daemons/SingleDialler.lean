import Ftm50s.Daemons.Dialling

set_option autoImplicit false

namespace Ftm50s.Daemons
open Lib.Text Lib.Filter Lib.Decimal Lib.Daemon

-- An event together with the number of pppd processes alive just before it.
structure Moment where
  alive : Nat
  event : Event Op Ans

def spawned (event : Event Op Ans) : Nat := if isLaunch event.op then 1 else 0

-- What a reading can be: pidof lists the processes that are alive, and ppp0 is
-- there only while some pppd runs. A pppd may run without ppp0.
def admits (moment : Moment) : Bool :=
  match moment.event with
  | ⟨.pidof _, pids⟩ => decide (backquote pids ≠ [] ↔ 0 < moment.alive)
  | ⟨.cat file, text⟩ => decide (file = "/proc/net/dev" → hasPpp0 text = true → 0 < moment.alive)
  | _ => true

-- Between two events processes can only vanish; a launch adds one.
def timeline : Nat → List Moment → Bool
  | _, [] => true
  | alive, moment :: moments =>
      decide (moment.alive ≤ alive) && admits moment && timeline (moment.alive + spawned moment.event) moments

def aliveAfter (alive : Nat) (moments : List Moment) : Nat :=
  match moments.getLast? with
  | none => alive
  | some moment => moment.alive + spawned moment.event

structure TimedTurn where
  before : Vars
  moments : List Moment

def TimedTurn.turn (timed : TimedTurn) : Turn Vars Op Ans := ⟨timed.before, timed.moments.map Moment.event⟩

def TimedRun (turns : List TimedTurn) (last : Vars) : Prop :=
  Runs newMmonTurn startVars (turns.map TimedTurn.turn) last ∧ timeline 0 (turns.flatMap TimedTurn.moments) = true

def Single (moments : List Moment) : Prop :=
  ∀ moment ∈ moments, (isLaunch moment.event.op = true → moment.alive = 0) ∧ moment.alive + spawned moment.event ≤ 1

def DialsAlone (timed : TimedTurn) : Prop :=
  timed.before.stat = .registered → ∀ moment ∈ timed.moments, ∀ text, moment.event = readsNwcause text →
    backquote text = sending → moment.alive = 0

theorem alive_after_cons (alive : Nat) (moment : Moment) (moments : List Moment) :
    aliveAfter alive (moment :: moments) = aliveAfter (moment.alive + spawned moment.event) moments := by
  cases moments with
  | nil => rfl
  | cons second others => rfl

theorem timeline_append (alive : Nat) (front back : List Moment) :
    timeline alive (front ++ back) = (timeline alive front && timeline (aliveAfter alive front) back) := by
  induction front generalizing alive with
  | nil => rfl
  | cons moment front ih => simp only [List.cons_append, timeline, ih, alive_after_cons, Bool.and_assoc]

theorem timeline_quiet (alive : Nat) (moments : List Moment) (valid : timeline alive moments = true)
    (quiet : ∀ moment ∈ moments, isLaunch moment.event.op = false) :
    (∀ moment ∈ moments, moment.alive ≤ alive) ∧ aliveAfter alive moments ≤ alive := by
  induction moments generalizing alive with
  | nil => exact ⟨fun _ member => absurd member List.not_mem_nil, Nat.le_refl alive⟩
  | cons moment moments ih =>
      rw [List.forall_mem_cons] at quiet
      simp only [timeline, Bool.and_eq_true, decide_eq_true_eq] at valid
      have idle : spawned moment.event = 0 := by rw [spawned, quiet.1]; rfl
      rw [idle, Nat.add_zero] at valid
      obtain ⟨each, after⟩ := ih moment.alive valid.2 quiet.2
      rw [alive_after_cons, idle, Nat.add_zero, List.forall_mem_cons]
      exact ⟨⟨valid.1.1, fun other member => Nat.le_trans (each other member) valid.1.1⟩, Nat.le_trans after valid.1.1⟩

theorem single_quiet (alive : Nat) (moments : List Moment) (valid : timeline alive moments = true) (few : alive ≤ 1)
    (quiet : ∀ moment ∈ moments, isLaunch moment.event.op = false) :
    Single moments ∧ aliveAfter alive moments ≤ 1 := by
  obtain ⟨each, after⟩ := timeline_quiet alive moments valid quiet
  refine ⟨fun moment member => ⟨fun launch => ?_, ?_⟩, Nat.le_trans after few⟩
  · rw [quiet moment member] at launch
    cases launch
  · rw [spawned, quiet moment member]
    exact Nat.le_trans (each moment member) few

theorem single_append (front back : List Moment) : Single (front ++ back) ↔ Single front ∧ Single back :=
  List.forall_mem_append

theorem launched_moment (moment : Moment) (event : moment.event = launched) :
    isLaunch moment.event.op = true ∧ spawned moment.event = 1 := by
  rw [event]
  exact ⟨rfl, rfl⟩

theorem single_launch (alive : Nat) (front : List Moment) (last : Moment) (few : alive ≤ 1)
    (valid : timeline alive (front ++ [last]) = true) (quiet : ∀ moment ∈ front, isLaunch moment.event.op = false)
    (event : last.event = launched) (gone : aliveAfter alive front = 0) :
    Single (front ++ [last]) ∧ aliveAfter alive (front ++ [last]) ≤ 1 := by
  rw [timeline_append, gone, Bool.and_eq_true] at valid
  have dead : last.alive = 0 := by
    have bound := valid.2
    simp only [timeline, Bool.and_eq_true, decide_eq_true_eq] at bound
    omega
  obtain ⟨_, one⟩ := launched_moment last event
  refine ⟨(single_append _ _).mpr ⟨(single_quiet alive front valid.1 few quiet).1, ?_⟩, ?_⟩
  · rw [Single, List.forall_mem_singleton]
    exact ⟨fun _ => dead, by omega⟩
  · simp [aliveAfter, dead, one]

theorem dial_moments (moments : List Moment) (first second : Event Op Ans) (text : Bytes)
    (shape : moments.map Moment.event = [first, second, readsNwcause text, launched]) :
    ∃ a b c d, moments = [⟨a, first⟩, ⟨b, second⟩, ⟨c, readsNwcause text⟩] ++ [⟨d, launched⟩] := by
  match moments with
  | [⟨a, _⟩, ⟨b, _⟩, ⟨c, _⟩, ⟨d, _⟩] =>
      simp only [List.map_cons, List.map_nil, List.cons.injEq, and_true] at shape
      obtain ⟨rfl, rfl, rfl, rfl⟩ := shape
      exact ⟨a, b, c, d, rfl⟩
  | [] => simp at shape
  | [_] => simp at shape
  | [_, _] => simp at shape
  | [_, _, _] => simp at shape
  | _ :: _ :: _ :: _ :: _ :: _ => simp at shape

theorem turn_dials (vars : Vars) : Ensures (newMmonTurn vars) fun events _ => launches events = 0 ∨
    (vars.stat = .registered ∧ ∃ dev text, backquote text = sending ∧
    events = [⟨.echo (ascii "stop") "/tmp/ppp.connect", ()⟩, ⟨.cat "/proc/net/dev", dev⟩, readsNwcause text,
    launched]) ∨ (vars.stat = .checkPppd ∧ ∃ pids text, backquote pids = [] ∧
    events = [⟨.echo (ascii "running") "/tmp/ppp.connect", ()⟩, ⟨.pidof "pppd", pids⟩, readsNwcause text,
    launched]) := by
  rw [turn_ensures]
  by_cases registered : vars.stat = .registered
  · rw [caseStat, registered]
    refine ensures_mono _ _ _ (registered_spec vars) fun events next spec => ?_
    cases spec with
    | inl quiet => exact Or.inl quiet.1
    | inr dials =>
        obtain ⟨dev, text, shape, _, read, _⟩ := dials
        exact Or.inr (Or.inl ⟨rfl, dev, text, read, shape⟩)
  · by_cases checks : vars.stat = .checkPppd
    · rw [caseStat, checks]
      refine ensures_mono _ _ _ (check_pppd_spec vars) fun events next spec => ?_
      cases spec with
      | inl quiet => exact Or.inl quiet.1
      | inr dials =>
          obtain ⟨pids, text, shape, dead, _⟩ := dials
          exact Or.inr (Or.inr ⟨rfl, pids, text, dead, shape⟩)
    · refine ensures_mono _ _ _ (confined_ensures _ _ _ (quiet_case vars registered checks)) fun events next spec => ?_
      exact Or.inl (launches_none events spec.1)

-- In REGISTERED the count at the read of /tmp/nwcause is zero by assumption; in
-- CHECK_PPPD it is zero because pidof came back empty just before.
theorem turn_single (timed : TimedTurn) (next : Vars) (alive : Nat) (few : alive ≤ 1)
    (does : Does (newMmonTurn timed.before) timed.turn.events next) (valid : timeline alive timed.moments = true)
    (alone : DialsAlone timed) : Single timed.moments ∧ aliveAfter alive timed.moments ≤ 1 := by
  cases (ensures_iff _ _).mp (turn_dials timed.before) _ _ does with
  | inl quiet =>
      refine single_quiet alive _ valid few fun moment member => ?_
      rw [launches, List.countP_eq_zero] at quiet
      simpa using quiet moment.event (List.mem_map_of_mem member)
  | inr dials =>
      cases dials with
      | inl registered =>
          obtain ⟨stat, dev, text, read, shape⟩ := registered
          obtain ⟨a, b, c, d, moments⟩ := dial_moments _ _ _ _ shape
          have dead : c = 0 := alone stat ⟨c, readsNwcause text⟩ (by simp [moments]) text rfl read
          rw [moments] at valid ⊢
          exact single_launch alive _ _ few valid (by simp [readsNwcause, isLaunch]) rfl
            (by simp [aliveAfter, dead, spawned, readsNwcause, isLaunch])
      | inr checks =>
          obtain ⟨_, pids, text, none, shape⟩ := checks
          obtain ⟨a, b, c, d, moments⟩ := dial_moments _ _ _ _ shape
          rw [moments] at valid ⊢
          have dead : c = 0 := by
            simp [timeline, admits, none, spawned, isLaunch] at valid
            omega
          exact single_launch alive _ _ few valid (by simp [readsNwcause, isLaunch]) rfl
            (by simp [aliveAfter, dead, spawned, readsNwcause, isLaunch])

theorem run_single (turns : List TimedTurn) (first last : Vars) (alive : Nat) (few : alive ≤ 1)
    (run : Runs newMmonTurn first (turns.map TimedTurn.turn) last)
    (valid : timeline alive (turns.flatMap TimedTurn.moments) = true) (alone : ∀ timed ∈ turns, DialsAlone timed) :
    ∀ timed ∈ turns, Single timed.moments := by
  induction turns generalizing first alive with
  | nil => exact fun _ member => absurd member List.not_mem_nil
  | cons timed turns ih =>
      obtain ⟨rfl, next, does, tail⟩ := run
      rw [List.flatMap_cons, timeline_append, Bool.and_eq_true] at valid
      rw [List.forall_mem_cons] at alone ⊢
      obtain ⟨single, after⟩ := turn_single timed next alive few does valid.1 alone.1
      exact ⟨single, ih next _ after tail valid.2 alone.2⟩

theorem registered_dials (vars : Vars) : Ensures (statRegistered vars) fun events _ =>
    (∃ text, readsNwcause text ∈ events ∧ backquote text = sending) → ∃ dev text, events =
    [⟨.echo (ascii "stop") "/tmp/ppp.connect", ()⟩, ⟨.cat "/proc/net/dev", dev⟩, readsNwcause text, launched] := by
  simp only [statRegistered, connectIs, isPppConnected, launchPppd, echo_bind, cat_bind, call_bind, pppd_bind,
    pure_done,
    done_bind, ensures_call, ensures_ite]
  refine fun _ dev => ⟨fun _ reads => ?_, fun _ text => ⟨fun _ _ _ => ⟨dev, text, rfl⟩, fun other reads => ?_⟩⟩
  · obtain ⟨read, member, _⟩ := reads
    simp [readsNwcause, nwcauseFile] at member
  · obtain ⟨read, member, same⟩ := reads
    simp [readsNwcause, nwcauseFile] at member
    exact absurd (member ▸ same) other

-- The launch comes right after the read, so a process that is alive at the
-- read can still be alive at the launch.
theorem launch_beside (front : List TimedTurn) (timed : TimedTurn) (last : Vars)
    (run : TimedRun (front ++ [timed]) last) (crowded : ¬DialsAlone timed) :
    ∃ moments, TimedRun (front ++ [⟨timed.before, moments⟩]) last ∧ ¬Single moments := by
  simp only [DialsAlone, not_forall] at crowded
  obtain ⟨stat, moment, member, text, event, read, living⟩ := crowded
  obtain ⟨runs, valid⟩ := run
  rw [List.map_append] at runs
  obtain ⟨mid, early, head, next, does, rfl⟩ := (runs_append _ _ _ _ _).mp runs
  have start : timed.before = mid := head
  subst start
  have dials := (turn_ensures timed.before fun events _ => (∃ text, readsNwcause text ∈ events ∧ backquote text =
    sending) →
      ∃ dev text, events = [⟨.echo (ascii "stop") "/tmp/ppp.connect", ()⟩, ⟨.cat "/proc/net/dev", dev⟩,
      readsNwcause text, launched]).mpr
    (by rw [caseStat, stat]; exact registered_dials timed.before)
  have reads : readsNwcause text ∈ timed.turn.events := event ▸ List.mem_map_of_mem member
  obtain ⟨dev, answer, shape⟩ := (ensures_iff _ _).mp dials _ next does ⟨text, reads, read⟩
  obtain ⟨a, b, c, d, moments⟩ := dial_moments _ _ _ _ shape
  have alive : 0 < c := by
    rw [moments] at member
    simp only [List.cons_append, List.nil_append, List.mem_cons, List.not_mem_nil, or_false] at member
    rcases member with rfl | rfl | rfl | rfl
    · cases event
    · simp [readsNwcause, nwcauseFile] at event
    · exact Nat.pos_of_ne_zero living
    · cases event
  let beside : List Moment := [⟨a, ⟨.echo (ascii "stop") "/tmp/ppp.connect", ()⟩⟩, ⟨b, ⟨.cat "/proc/net/dev", dev⟩⟩,
    ⟨c, readsNwcause answer⟩] ++
    [⟨c, launched⟩]
  refine ⟨beside, ⟨?_, ?_⟩, fun single => ?_⟩
  · rw [List.map_append]
    refine (runs_append _ _ _ _ _).mpr ⟨timed.before, early, rfl, next, ?_, rfl⟩
    exact (show (TimedTurn.turn ⟨timed.before, beside⟩).events = timed.turn.events from shape.symm) ▸ does
  · rw [List.flatMap_append, timeline_append, Bool.and_eq_true] at valid ⊢
    refine ⟨valid.1, ?_⟩
    have old := valid.2
    rw [List.flatMap_singleton, moments, timeline_append, Bool.and_eq_true] at old
    rw [List.flatMap_singleton, timeline_append, Bool.and_eq_true]
    exact ⟨old.1, by simp [timeline, aliveAfter, admits, launched, spawned, readsNwcause, isLaunch]⟩
  · have last := (single ⟨c, launched⟩ (by simp [beside])).1 rfl
    exact absurd last (Nat.pos_iff_ne_zero.mp alive)

theorem single_dialler (turns : List TimedTurn) (last : Vars) (run : TimedRun turns last) :
    ((∀ timed ∈ turns, DialsAlone timed) → ∀ timed ∈ turns, Single timed.moments) ∧
    (∀ front timed, turns = front ++ [timed] → ¬DialsAlone timed →
      ∃ moments, TimedRun (front ++ [⟨timed.before, moments⟩]) last ∧ ¬Single moments) := by
  refine ⟨run_single turns startVars last 0 (Nat.zero_le 1) run.1 run.2, fun front timed split crowded => ?_⟩
  exact launch_beside front timed last (split ▸ run) crowded

def timedReplay : List (Nat × ((op : Op) → Ans op)) → Vars → List TimedTurn
  | [], _ => []
  | (alive, reply) :: script, vars =>
      let (events, next) := replay reply (newMmonTurn vars)
      ⟨vars, events.map (Moment.mk alive)⟩ :: timedReplay script next

theorem timed_replay_turns (script : List (Nat × ((op : Op) → Ans op))) (vars : Vars) :
    (timedReplay script vars).map TimedTurn.turn = (replayTurns newMmonTurn (script.map Prod.snd) vars).1 := by
  induction script generalizing vars with
  | nil => rfl
  | cons entry script ih => simp [timedReplay, replayTurns, TimedTurn.turn, ih, Function.comp_def]

theorem timed_replay_run (script : List (Nat × ((op : Op) → Ans op)))
    (valid : timeline 0 ((timedReplay script startVars).flatMap TimedTurn.moments) = true) :
    ∃ last, TimedRun (timedReplay script startVars) last := by
  have run := runs_replay newMmonTurn (script.map Prod.snd) startVars
  rw [← timed_replay_turns] at run
  exact ⟨_, run, valid⟩

def dialUp : List (Nat × ((op : Op) → Ans op)) := List.replicate 5 (0, dialScene) ++ List.replicate 3 (1, upScene)

def staleScene : (op : Op) → Ans op := scene "-70" "eth0: 0" "sending" "77"

-- ppp0 is gone but pppd has not exited yet: the machine goes round through
-- STAT_REGISTERED and starts a second one.
theorem second_dialler : ¬∀ (turns : List TimedTurn) (last : Vars), TimedRun turns last →
    ∀ timed ∈ turns, Single timed.moments := by
  intro all
  have valid : timeline 0 ((timedReplay (dialUp ++
    List.replicate 4 (1, staleScene)) startVars).flatMap TimedTurn.moments) = true := by
    decide +kernel
  have two : ((timedReplay (dialUp ++ List.replicate 4 (1, staleScene)) startVars).all fun timed =>
      timed.moments.all fun moment => decide (moment.alive + spawned moment.event ≤ 1)) = false := by decide +kernel
  obtain ⟨last, run⟩ := timed_replay_run _ valid
  have one : ((timedReplay (dialUp ++ List.replicate 4 (1, staleScene)) startVars).all fun timed =>
      timed.moments.all fun moment => decide (moment.alive + spawned moment.event ≤ 1)) = true := by
    simp only [List.all_eq_true, decide_eq_true_eq]
    exact fun timed member moment inside => (all _ last run timed member moment inside).2
  rw [two] at one
  cases one

theorem single_dialler_dial_up : ∃ last, TimedRun (timedReplay dialUp startVars) last ∧
    ∀ timed ∈ timedReplay dialUp startVars, Single timed.moments := by
  obtain ⟨last, run⟩ := timed_replay_run dialUp (by decide +kernel)
  have alone : ((timedReplay dialUp startVars).all fun timed =>
      decide (timed.before.stat = .registered → ∀ moment ∈ timed.moments, moment.alive = 0)) = true := by decide +kernel
  simp only [List.all_eq_true, decide_eq_true_eq] at alone
  refine ⟨last, run, (single_dialler _ last run).1 ?_⟩
  exact fun timed member stat moment inside _ _ _ => alone timed member stat moment inside

end Ftm50s.Daemons
