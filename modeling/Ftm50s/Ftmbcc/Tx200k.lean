import Ftm50s.Lib.Daemon
import Mathlib.Data.Int.Basic

set_option autoImplicit false

namespace Ftm50s.Ftmbcc

open Lib.Daemon

inductive Signal where
  | none | start | stop
deriving DecidableEq, Repr

inductive Stat where
  | uninitialized | modemChecked | initializing | running | stopped
deriving DecidableEq, Repr

-- The state letter of /proc/<pid>/status; PRCS_U also stands for no such process.
inductive PrcState where
  | u | d | r | t | z | w | n | l | s | other
deriving DecidableEq, Repr

inductive TaskStat where
  | uninitialized | initializing | running | stopped
deriving DecidableEq, Repr

structure Data where
  stat : Stat
  nTimer : Int
  nPID : Int
deriving DecidableEq, Repr

-- What TX200K_Main asks for: the signal in the shared memory, the answer of
-- TX200K_ConnectionCheck, /var/run/ppp0.pid (none if it cannot be opened, else
-- what fscanf returns and leaves in nPID) and getProcessState.
inductive Op where
  | signal | connectionCheck | pidFile | processState (nPID : Int) | pppdCall | sleep
deriving DecidableEq, Repr

abbrev Ans : Op → Type
  | .signal => Signal
  | .connectionCheck => Int
  | .pidFile => Option (Int × Int)
  | .processState _ => PrcState
  | .pppdCall => Unit
  | .sleep => Unit

inductive Task where
  | looping (data : Data)
  | returned (ret : Int) (data : Data)
deriving DecidableEq, Repr

def Task.data : Task → Data
  | .looping data => data
  | .returned _ data => data

-- XFTS_UNINITIALIZED would stand for a value that no case has.
def isTaskAlive (task : Task) : TaskStat :=
  match task.data.stat with
  | .modemChecked => .initializing
  | .initializing => .initializing
  | .running => .running
  | .uninitialized => .stopped
  | .stopped => .stopped

def tx200kInit (data : Data) : Prog Op Ans Task :=
  .call .pppdCall fun _ => .done (.returned 0 { data with stat := .initializing, nTimer := 10 })

-- The switch over the link state; INITIALIZING leaves nPID unset when fscanf
-- meets the end of the file, and asks for that process all the same.
def linkSwitch (data : Data) : Prog Op Ans Data :=
  match data.stat with
  | .uninitialized =>
      .call .connectionCheck fun answer => .done (if answer = 0 then { data with stat := .modemChecked } else data)
  | .modemChecked => .done data
  | .initializing =>
      .call .pidFile fun file =>
        match file with
        | none => .done data
        | some (scanned, nPID) =>
            if scanned ≠ 0 then
              .call (.processState nPID) fun nState =>
                .done (if nState = .r ∨ nState = .s then ⟨.running, 10, nPID⟩ else data)
            else .done data
  | .running =>
      let data := { data with nTimer := data.nTimer - 1 }
      if data.nTimer ≤ 0 then
        .call (.processState data.nPID) fun nState =>
          .done (if nState = .z ∨ nState = .u then { data with stat := .stopped } else data)
      else .done data
  | .stopped => .done data

def linkTurn (data : Data) : Prog Op Ans Task := do
  let data ← linkSwitch data
  .call .sleep fun _ => .done (.looping data)

def serving (data : Data) : Bool := data.stat = .modemChecked || data.stat = .stopped

-- One turn of the loop of TX200K_Main. Serving XFTC_START is a return as well.
def mainTurn : Task → Prog Op Ans Task
  | .returned ret data => .done (.returned ret data)
  | .looping data =>
      .call .signal fun signal =>
        match signal with
        | .start => if serving data then tx200kInit data else linkTurn data
        | .stop => .done (.returned 0 data)
        | .none => linkTurn data

def startTask : Task := .looping ⟨.uninitialized, 5, 0⟩

-- What monitoring has to do in one turn, by the state it starts from
structure Watches (before : Data) (events : List (Event Op Ans)) (after : Task) : Prop where
  asksFile : before.stat = .initializing → ∃ file, ⟨.pidFile, file⟩ ∈ events
  comesUp : before.stat = .initializing → ∀ scanned nPID nState, ⟨.pidFile, some (scanned, nPID)⟩ ∈ events →
  scanned ≠ 0 →
    ⟨.processState nPID, nState⟩ ∈ events → (nState = .r ∨ nState = .s) → isTaskAlive after = .running ∧
    after.data.nPID = nPID
  asksState : before.stat = .running → before.nTimer ≤ 1 → ∃ nState, ⟨.processState before.nPID, nState⟩ ∈ events
  goesDown : before.stat = .running → ∀ nState, ⟨.processState before.nPID, nState⟩ ∈ events →
  (nState = .z ∨ nState = .u) →
    isTaskAlive after = .stopped

theorem link_turn_watches (data : Data) : Ensures (linkTurn data) fun events after =>
    (∃ next, after = .looping next) ∧ (∀ signal, ⟨.signal, signal⟩ ∉ events) ∧ ⟨.pppdCall, ()⟩ ∉ events ∧
      Watches data events after := by
  obtain ⟨stat, nTimer, nPID⟩ := data
  cases stat with
  | uninitialized =>
      intro answer _
      exact ⟨⟨_, rfl⟩, by simp, by simp, by simp, by simp, by simp, by simp⟩
  | modemChecked =>
      intro _
      exact ⟨⟨_, rfl⟩, by simp, by simp, by simp, by simp, by simp, by simp⟩
  | stopped =>
      intro _
      exact ⟨⟨_, rfl⟩, by simp, by simp, by simp, by simp, by simp, by simp⟩
  | initializing =>
      intro file
      cases file with
      | none =>
          intro _
          exact ⟨⟨_, rfl⟩, by simp, by simp, by simp, by simp, by simp, by simp⟩
      | some read =>
          obtain ⟨scanned, found⟩ := read
          by_cases matched : scanned ≠ 0
          · simp only [if_pos matched]
            intro nState _
            refine ⟨⟨_, rfl⟩, by simp, by simp, by simp, ?_, by simp, by simp⟩
            intro _ ret pid letter file _ asked alive
            obtain ⟨rfl, same⟩ : pid = found ∧ letter ≍ nState := by simpa using asked
            obtain rfl := eq_of_heq same
            rw [if_pos alive]
            exact ⟨rfl, rfl⟩
          · simp only [if_neg matched]
            intro _
            refine ⟨⟨_, rfl⟩, by simp, by simp, by simp, ?_, by simp, by simp⟩
            intro _ ret pid letter _ _ asked
            simp at asked
  | running =>
      have turn : linkTurn ⟨.running, nTimer, nPID⟩ =
          if nTimer - 1 ≤ 0 then
            .call (.processState nPID) fun nState => .call .sleep fun _ =>
              .done (.looping (if nState = .z ∨ nState = .u then ⟨.stopped, nTimer - 1, nPID⟩ else ⟨.running,
                nTimer - 1, nPID⟩))
          else .call .sleep fun _ => .done (.looping ⟨.running, nTimer - 1, nPID⟩) := by
        simp only [linkTurn, linkSwitch, ite_bind, call_bind, done_bind]
      rw [turn, ensures_ite]
      refine ⟨fun _ nState _ => ?_, fun late _ => ?_⟩
      · refine ⟨⟨_, rfl⟩, by simp, by simp, by simp, by simp, fun _ _ => ⟨nState, by simp⟩, ?_⟩
        intro _ letter asked dead
        obtain rfl : letter = nState := by simpa using asked
        rw [if_pos dead]
        rfl
      · refine ⟨⟨_, rfl⟩, by simp, by simp, by simp, by simp, fun _ due => ?_, by simp⟩
        have early : nTimer ≤ 1 := due
        omega

theorem watches_later (before : Data) (signal : Signal) (events : List (Event Op Ans)) (after : Task)
    (watches : Watches before events after) :
    Watches before (⟨.signal, signal⟩ :: events) after := by
  obtain ⟨asksFile, comesUp, asksState, goesDown⟩ := watches
  refine ⟨fun stat => ?_, fun stat => ?_, fun stat due => ?_, fun stat => ?_⟩
  · obtain ⟨file, member⟩ := asksFile stat
    exact ⟨file, List.mem_cons_of_mem _ member⟩
  · intro scanned nPID nState file matched asked
    exact comesUp stat scanned nPID nState (by simpa using file) matched (by simpa using asked)
  · obtain ⟨nState, member⟩ := asksState stat due
    exact ⟨nState, List.mem_cons_of_mem _ member⟩
  · intro nState asked
    exact goesDown stat nState (by simpa using asked)

theorem main_turn_cases (data : Data) : Ensures (mainTurn (.looping data)) fun events after =>
    (events = [⟨.signal, .stop⟩] ∧ after = .returned 0 data) ∨
      (serving data = true ∧ events = [⟨.signal, .start⟩, ⟨.pppdCall, ()⟩] ∧
        after = .returned 0 { data with stat := .initializing, nTimer := 10 }) ∨
      ((∃ next, after = .looping next) ∧ (serving data = true → ⟨.signal, .start⟩ ∉ events) ∧ ⟨.pppdCall, ()⟩ ∉ events ∧
        Watches data events after) := by
  have link : ∀ signal, (serving data = true → signal ≠ .start) → Ensures (linkTurn data) fun events after =>
      (∃ next, after = .looping next) ∧ (serving data = true →
        ⟨.signal, .start⟩ ∉ (⟨.signal, signal⟩ :: events : List (Event Op Ans))) ∧
        ⟨.pppdCall, ()⟩ ∉ (⟨.signal, signal⟩ :: events : List (Event Op Ans)) ∧
        Watches data (⟨.signal, signal⟩ :: events) after := by
    intro signal other
    refine ensures_mono _ _ _ (link_turn_watches data) fun events after spec => ?_
    obtain ⟨goesOn, unseen, uncalled, watches⟩ := spec
    refine ⟨goesOn, fun served => ?_, by simpa using uncalled, watches_later data signal events after watches⟩
    simpa using ⟨Ne.symm (other served), unseen .start⟩
  intro signal
  cases signal with
  | none => exact ensures_mono _ _ _ (link .none nofun) fun events after spec => Or.inr (Or.inr spec)
  | stop => exact Or.inl ⟨rfl, rfl⟩
  | start =>
      by_cases served : serving data = true
      · simp only [if_pos served]
        exact fun _ => Or.inr (Or.inl ⟨served, rfl, rfl⟩)
      · simp only [if_neg served]
        exact ensures_mono _ _ _ (link .start fun yes => absurd yes served) fun events after spec =>
          Or.inr (Or.inr spec)

-- The task is left only on XFTC_STOP, and every turn that has called pppd goes on;
-- a turn in the loop watches the link.
structure LifeCycle (turns : List (Turn Task Op Ans)) (last : Task) : Prop where
  stops : ∀ ret data, last = .returned ret data → ∃ turn ∈ turns, ⟨.signal, .stop⟩ ∈ turn.events
  goesOn : ∀ turn ∈ turns, ⟨.pppdCall, ()⟩ ∈ turn.events → ∀ after, Does (mainTurn turn.before) turn.events after →
    ∃ next, after = .looping next
  watches : ∀ turn ∈ turns, ∀ data, turn.before = .looping data → ∀ next, Does (mainTurn turn.before) turn.events
    (.looping next) →
    Watches data turn.events (.looping next)

def Serves (turn : Turn Task Op Ans) : Prop :=
  ∃ data, turn.before = .looping data ∧ serving data = true ∧ ⟨.signal, .start⟩ ∈ turn.events

theorem serves_returns (turn : Turn Task Op Ans) (after : Task) (does : Does (mainTurn turn.before) turn.events after)
    (serves : Serves turn) : ⟨.pppdCall, ()⟩ ∈ turn.events ∧ ¬ ∃ next, after = .looping next := by
  obtain ⟨data, before, served, seen⟩ := serves
  rw [before] at does
  rcases (ensures_iff _ _).mp (main_turn_cases data) _ _ does with ⟨stop, _⟩ | ⟨_, start, rfl⟩ | ⟨_, unseen, _⟩
  · rw [stop] at seen
    simp at seen
  · exact ⟨by rw [start]; simp, nofun⟩
  · exact absurd seen (unseen served)

theorem returned_turn (first last : Task) (turns : List (Turn Task Op Ans)) (run : Runs mainTurn first turns last)
    (start : ∃ data, first = .looping data) (ret : Int) (data : Data) (ended : last = .returned ret data) :
    ∃ turn ∈ turns, ⟨.signal, .stop⟩ ∈ turn.events ∨ Serves turn := by
  induction turns generalizing first with
  | nil =>
      obtain ⟨other, rfl⟩ := start
      cases (show Task.looping other = last from run).trans ended
  | cons turn turns ih =>
      obtain ⟨rfl, mid, does, tail⟩ := run
      obtain ⟨before, same⟩ := start
      have here := does
      rw [same] at here
      rcases (ensures_iff _ _).mp (main_turn_cases before) _ _ here with ⟨stop, _⟩ | ⟨served, start, _⟩ | ⟨looping, _⟩
      · exact ⟨turn, List.mem_cons_self, Or.inl (by rw [stop]; simp)⟩
      · exact ⟨turn, List.mem_cons_self, Or.inr ⟨before, same, served, by rw [start]; simp⟩⟩
      · obtain ⟨found, member, seen⟩ := ih mid tail looping
        exact ⟨found, List.mem_cons_of_mem _ member, seen⟩

theorem life_cycle_iff (turns : List (Turn Task Op Ans)) (last : Task) (run : Runs mainTurn startTask turns last) :
    LifeCycle turns last ↔ ∀ turn ∈ turns, ¬ Serves turn := by
  constructor
  · intro cycle turn member serves
    obtain ⟨after, does⟩ := runs_turn mainTurn _ _ turns run turn member
    obtain ⟨called, left⟩ := serves_returns turn after does serves
    exact left (cycle.goesOn turn member called after does)
  · intro unserved
    refine ⟨fun ret data ended => ?_, fun turn member called after does => ?_, fun turn _ data before next does => ?_⟩
    · obtain ⟨turn, member, stop | serves⟩ := returned_turn startTask last turns run ⟨_, rfl⟩ ret data ended
      · exact ⟨turn, member, stop⟩
      · exact absurd serves (unserved turn member)
    · cases before : turn.before with
      | returned ret data =>
          rw [before] at does
          rw [does.1] at called
          cases called
      | looping data =>
          have here := does
          rw [before] at here
          rcases (ensures_iff _ _).mp (main_turn_cases data) _ _ here with ⟨stop, _⟩ | ⟨served, start, _⟩ | ⟨looping, _⟩
          · rw [stop] at called
            simp at called
          · exact absurd ⟨data, before, served, by rw [start]; simp⟩ (unserved turn member)
          · exact looping
    · rw [before] at does
      rcases (ensures_iff _ _).mp (main_turn_cases data) _ _ does with ⟨_, returned⟩ | ⟨_, _, returned⟩ | ⟨_, _, _,
        watches⟩
      · cases returned
      · cases returned
      · exact watches

-- A modem that answers, and pppd running as process 77
def scene (signal : Signal) : (op : Op) → Ans op
  | .signal => signal
  | .connectionCheck => 0
  | .pidFile => some (1, 77)
  | .processState _ => .s
  | .pppdCall => ()
  | .sleep => ()

theorem life_cycle_stopped :
    let run := replayTurns mainTurn [scene .start, scene .none, scene .stop] startTask
    run.2 = .returned 0 ⟨.modemChecked, 5, 0⟩ ∧ LifeCycle run.1 run.2 := by
  intro run
  refine ⟨rfl, (life_cycle_iff run.1 run.2 (runs_replay mainTurn _ startTask)).mpr fun turn member => ?_⟩
  have turns : run.1 = [⟨startTask, [⟨.signal, .start⟩, ⟨.connectionCheck, (0 : Int)⟩, ⟨.sleep, ()⟩]⟩,
      ⟨.looping ⟨.modemChecked, 5, 0⟩, [⟨.signal, .none⟩, ⟨.sleep, ()⟩]⟩, ⟨.looping ⟨.modemChecked, 5, 0⟩,
      [⟨.signal, .stop⟩]⟩] := rfl
  rw [turns] at member
  rintro ⟨data, before, served, seen⟩
  simp only [List.mem_cons, List.not_mem_nil, or_false] at member
  rcases member with rfl | rfl | rfl
  · obtain rfl := Task.looping.inj before
    cases served
  · simp at seen
  · simp at seen

-- The modem is checked, XFTC_START comes, and the task is gone: pppd runs, but
-- the task is reported as initializing for ever.
theorem start_leaves_task :
    ¬ (∀ (turns : List (Turn Task Op Ans)) (last : Task), Runs mainTurn startTask turns last →
    LifeCycle turns last) := by
  intro always
  have cycle := always _ _ (runs_replay mainTurn [scene .none, scene .start] startTask)
  have last : (replayTurns mainTurn [scene .none, scene .start] startTask).2 = .returned 0 ⟨.initializing, 10, 0⟩ := rfl
  obtain ⟨turn, member, stop⟩ := cycle.stops _ _ last
  have turns : (replayTurns mainTurn [scene .none, scene .start] startTask).1 =
      [⟨startTask, [⟨.signal, .none⟩, ⟨.connectionCheck, (0 : Int)⟩, ⟨.sleep, ()⟩]⟩,
        ⟨.looping ⟨.modemChecked, 5, 0⟩, [⟨.signal, .start⟩, ⟨.pppdCall, ()⟩]⟩] := rfl
  rw [turns] at member
  simp only [List.mem_cons, List.not_mem_nil, or_false] at member
  rcases member with rfl | rfl
  · simp at stop
  · simp at stop

end Ftm50s.Ftmbcc
