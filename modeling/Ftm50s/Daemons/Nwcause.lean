import Ftm50s.Daemons.Dialling
import Ftm50s.Lib.Interleave

set_option autoImplicit false

namespace Ftm50s.Daemons
open Lib.Text Lib.Filter Lib.Decimal Lib.Daemon

inductive DmonState where
  | starting | polling | ended
deriving DecidableEq, Repr

def modemLog : String := "/var/log/modem"

def rejectMark : Bytes := ascii "#NWCAUSE: \"SM\",0,8"

def isNwcause (log : Bytes) : Bool := (lines log).any (occurs rejectMark)

-- The misspelt text is the source's own.
def nwcauseDmonTurn : DmonState → Prog Op Ans DmonState
  | .starting => do
      echo (ascii "sending") nwcauseFile
      return .polling
  | .polling => do
      let nwcause ← cat nwcauseFile
      if backquote nwcause = sending then
        let log ← cat modemLog
        if isNwcause log then
          echo (ascii "seding stop") nwcauseFile
          killall "pppd"
          return .polling
        else return .polling
      else return .ended
  | .ended => return .ended

-- What the two daemons share: a read of /tmp/nwcause sees the last write, and
-- every other answer is free.
def nwcauseEffect (file : Bytes) : Event Op Ans → Option Bytes
  | ⟨.cat name, text⟩ => if name = nwcauseFile ∧ text ≠ file then none else some file
  | ⟨.echo text name, _⟩ => some (if name = nwcauseFile then text ++ [10] else file)
  | _ => some file

abbrev Pair := System Bytes Op Ans Vars DmonState

abbrev PairStage := Stage Bytes Op Ans Vars DmonState

abbrev dialStep : Pair → Label Op Ans → Pair → Prop := Step nwcauseEffect (fun _ _ => false) newMmonTurn nwcauseDmonTurn

abbrev dialPath : Pair → List PairStage → Pair → Prop :=
  Path nwcauseEffect (fun _ _ => false) newMmonTurn nwcauseDmonTurn

def booted (file : Bytes) : Pair := ⟨file, .done startVars, .done .starting⟩

def Launching (prog : Prog Op Ans Vars) : Prop := ∃ op next, prog = .call op next ∧ isLaunch op = true

def writesNwcause : Op → Bool
  | .echo _ name => name == nwcauseFile
  | _ => false

def Stopped (file : Bytes) : Prop := backquote file ≠ sending

theorem effect_silent (file after : Bytes) (event : Event Op Ans) (act : nwcauseEffect file event = some after)
    (silent : writesNwcause event.op = false) : after = file := by
  obtain ⟨op, answer⟩ := event
  cases op with
  | cat name =>
      rw [nwcauseEffect] at act
      split at act
      · cases act
      · exact (Option.some.inj act).symm
  | echo text name =>
      have other : ¬name = nwcauseFile := by simpa [writesNwcause] using silent
      rw [nwcauseEffect, if_neg other] at act
      exact (Option.some.inj act).symm
  | _ => exact (Option.some.inj act).symm

theorem effect_stopped (file after : Bytes) (event : Event Op Ans) (act : nwcauseEffect file event = some after)
    (stopped : Stopped file) : ¬ReadsSending event := by
  intro reads
  obtain ⟨text, rfl, same⟩ := reads
  by_cases seen : text = file
  · exact stopped (seen ▸ same)
  · rw [readsNwcause, nwcauseEffect, if_pos ⟨rfl, seen⟩] at act
    cases act

def Silent : Prog Op Ans Vars → Prop := Confined (fun _ => True) (fun op => writesNwcause op = false) (fun _ => True)

theorem turn_silent (vars : Vars) : Silent (newMmonTurn vars) := by
  rw [Silent, newMmonTurn, confined_bind]
  cases stat : vars.stat with
  | uninitialized =>
      simp [caseStat, stat, statUninitialized, isModemExist, connectIs, writesNwcause, ttyS1, nwcauseFile]
  | initQos => simp [caseStat, stat, statInitQos, isReady, initQos, writesNwcause, ttyS1, nwcauseFile]
  | initApn => simp [caseStat, stat, statInitApn, isReady, initApn, writesNwcause, ttyS1, nwcauseFile]
  | rssiCheck =>
      simp [caseStat, stat, statRssiCheck, getRssi, connectIs, isPppConnected, killPppd, kill15, writesNwcause, ttyS1,
        nwcauseFile]
  | initialized => simp [caseStat, stat, statInitialized, isReady, connectIs, writesNwcause, ttyS1, nwcauseFile]
  | simReady => simp [caseStat, stat, statSimReady, isRegistered, connectIs, writesNwcause, ttyS1, nwcauseFile]
  | registered =>
      simp [caseStat, stat, statRegistered, connectIs, isPppConnected, launchPppd, writesNwcause, nwcauseFile]
  | waitingForPppConnectionCompleted => simp [caseStat, stat, statWaiting, connectIs, writesNwcause, nwcauseFile]
  | longtermWaiting => simp [caseStat, stat, statLongtermWaiting, connectIs, writesNwcause, nwcauseFile]
  | checkPppd => simp [caseStat, stat, statCheckPppd, connectIs, isPppConnected, launchPppd, writesNwcause, nwcauseFile]
  | pppConnectionCompleted => simp [caseStat, stat, statPppConnectionCompleted, connectIs, writesNwcause, nwcauseFile]
  | pppIsDisconnected => simp [caseStat, stat, statPppIsDisconnected, connectIs, writesNwcause, nwcauseFile]

def Quelled : Prog Op Ans DmonState → Prop :=
  Confined (fun event => ¬ReadsSending event) (fun op => writesNwcause op = false) (fun state => state ≠ .starting)

theorem dmon_quelled (state : DmonState) (started : state ≠ .starting) : Quelled (nwcauseDmonTurn state) := by
  cases state with
  | starting => exact absurd rfl started
  | polling => simp +contextual [Quelled, nwcauseDmonTurn, ReadsSending, readsNwcause, writesNwcause]
  | ended => simp [Quelled, nwcauseDmonTurn]

-- The kill comes after the write, and nothing comes after the kill.
def KillFits (file : Bytes) (prog : Prog Op Ans DmonState) : Prop :=
  ∀ next, prog = .call (.killall "pppd") next → Stopped file ∧ Quelled (next ())

theorem dmon_kill_fits (state : DmonState) (file : Bytes) :
    Throughout nwcauseEffect Eq KillFits (nwcauseDmonTurn state) file := by
  have written : Stopped (ascii "seding stop" ++ [10]) := by unfold Stopped; decide
  cases state with
  | starting => simp [nwcauseDmonTurn, KillFits]
  | polling =>
      simp only [nwcauseDmonTurn, cat_bind, echo_bind, killall_bind, pure_done, throughout_call, throughout_ite,
        throughout_done,
        forall_eq']
      have free : ∀ file op next, op ≠ .killall "pppd" → KillFits file (.call op next) := by
        intro file op next other rest same
        injection same with sameOp
        exact absurd sameOp other
      have ended : ∀ file state, KillFits file (.done state) := fun file state next same => by cases same
      refine ⟨free _ _ _ (by simp), fun text _ _ =>
        ⟨fun _ => ⟨free _ _ _ (by simp), fun log _ _ => ⟨fun _ => ?_, fun _ => ended _ _⟩⟩, fun _ => ended _ _⟩⟩
      refine ⟨free _ _ _ (by simp), fun _ after wrote => ⟨fun next same => ?_, fun _ _ _ => ended _ _⟩⟩
      have stopped : after = ascii "seding stop" ++ [10] := by simpa [nwcauseEffect] using wrote.symm
      cases same
      exact ⟨stopped ▸ written, fun started => by cases started⟩
  | ended => simp [nwcauseDmonTurn, KillFits]

def Dials (armed : Prop) : Prog Op Ans Vars → Prop := Preceded ReadsSending (fun op => isLaunch op = true) armed

-- Before the reject: new_mmon_0624 launches only right after reading sending
-- and never writes the file, and nwcause_dmon is on its way to the kill.
def Sound (sys : Pair) : Prop :=
  (∃ armed, Dials armed sys.left) ∧ Silent sys.left ∧ Throughout nwcauseEffect Eq KillFits sys.right sys.world

theorem sound_step (before after : Pair) (label : Label Op Ans) (sound : Sound before)
    (step : dialStep before label after) : Sound after := by
  obtain ⟨⟨armed, dials⟩, silent, fits⟩ := sound
  cases step with
  | leftActs world changed op answer next right act =>
      have same : changed = world := effect_silent _ _ _ act silent.1
      exact ⟨⟨_, dials.2 answer⟩, silent.2 answer trivial, same ▸ fits⟩
  | leftAgain world state right => exact ⟨⟨False, turn_preceded state⟩, turn_silent state, fits⟩
  | rightActs world changed op answer next left act =>
      exact ⟨⟨armed, dials⟩, silent, throughout_act _ _ _ op next world changed answer rfl act fits⟩
  | rightAgain world state left => exact ⟨⟨armed, dials⟩, silent, dmon_kill_fits state world⟩
  | drift world changed left right moved => exact absurd moved (by decide)

-- After it: the file stays stopped, so no read arms a launch any more.
def Final (sys : Pair) : Prop := Stopped sys.world ∧ Dials False sys.left ∧ Silent sys.left ∧ Quelled sys.right

theorem final_step (before after : Pair) (label : Label Op Ans) (final : Final before)
    (step : dialStep before label after) : Final after := by
  obtain ⟨stopped, dials, silent, quelled⟩ := final
  cases step with
  | leftActs world changed op answer next right act =>
      have same : changed = world := effect_silent _ _ _ act silent.1
      have unread : ReadsSending ⟨op, answer⟩ = False := eq_false (effect_stopped _ _ _ act stopped)
      exact ⟨same ▸ stopped, unread ▸ dials.2 answer, silent.2 answer trivial, quelled⟩
  | leftAgain world state right => exact ⟨stopped, turn_preceded state, turn_silent state, quelled⟩
  | rightActs world changed op answer next left act =>
      have same : changed = world := effect_silent _ _ _ act quelled.1
      exact ⟨same ▸ stopped, dials, silent, quelled.2 answer (effect_stopped _ _ _ act stopped)⟩
  | rightAgain world state left => exact ⟨stopped, dials, silent, dmon_quelled state quelled⟩
  | drift world changed left right moved => exact absurd moved (by decide)

theorem final_idle (sys : Pair) (final : Final sys) : ¬Launching sys.left := by
  intro launching
  obtain ⟨op, next, same, launch⟩ := launching
  have dials := final.2.1
  rw [same] at dials
  exact dials.1 launch

theorem booted_sound (file : Bytes) : Sound (booted file) :=
  ⟨⟨False, trivial⟩, trivial, fun _ _ _ same => by cases same⟩

-- The kill is final unless new_mmon_0624 stands between its read of sending
-- and the launch: then the launch is its next step.
theorem reject_is_final (file : Bytes) (stages : List PairStage) (sys : Pair) (next : Unit → Prog Op Ans DmonState)
    (path : dialPath (booted file) stages sys) (kills : sys.right = .call (.killall "pppd") next) :
    (∀ rest later, dialPath ⟨sys.world, sys.left, next ()⟩ rest later → ¬Launching later.left) ↔
    ¬Launching sys.left := by
  obtain ⟨⟨⟨armed, dials⟩, silent, fits⟩, _⟩ := path_invariant _ _ _ _ Sound (fun _ => True)
    (fun before label after sound _ => sound_step before after label sound) _ _ stages path (fun _ _ => trivial)
      (booted_sound file)
  obtain ⟨stopped, quelled⟩ := throughout_now _ _ _ _ _ rfl fits next kills
  refine ⟨fun never => never [] ⟨sys.world, sys.left, next ()⟩ rfl, fun idle rest later after => ?_⟩
  have unarmed : Dials False sys.left := by
    refine preceded_disarm _ _ armed sys.left dials fun op rest same launch => ?_
    exact idle ⟨op, rest, same, launch⟩
  have start : Final ⟨sys.world, sys.left, next ()⟩ := ⟨stopped, unarmed, silent, quelled⟩
  have final := path_invariant _ _ _ _ Final (fun _ => True)
    (fun before label after final _ => final_step before after label final) _ _ rest after (fun _ _ => trivial) start
  exact final_idle later final.1

def isKilling (prog : Prog Op Ans DmonState) : Bool := nextOp prog == some (.killall "pppd")

def isLaunching (prog : Prog Op Ans Vars) : Bool := (nextOp prog).any isLaunch

theorem killing_next (prog : Prog Op Ans DmonState) (kills : isKilling prog = true) :
    ∃ next, prog = .call (.killall "pppd") next := by
  cases prog with
  | done state => cases kills
  | call op next =>
      have same : op = .killall "pppd" := by simpa [isKilling, nextOp] using kills
      subst same
      exact ⟨next, rfl⟩

theorem launching_iff (prog : Prog Op Ans Vars) : Launching prog ↔ isLaunching prog = true := by
  cases prog with
  | done state => simp [Launching, isLaunching, nextOp]
  | call op next => simp [Launching, isLaunching, nextOp]

def dialling : (op : Op) → Ans op := scene "-70" "eth0: 0" "sending\n" ""

def rejecting : (op : Op) → Ans op
  | .cat name => if name = modemLog then rejectMark else dialling (.cat name)
  | op => dialling op

-- nwcause_dmon starts; new_mmon_0624 gets as far as its read of sending; then
-- nwcause_dmon polls, finds the reject and is about to kill.
def lostRace : List (Move Bytes Op Ans) :=
  List.replicate 2 (.right rejecting) ++ List.replicate 24 (.left dialling) ++ List.replicate 4 (.right rejecting)

theorem reject_lost : ¬∀ (file : Bytes) (stages : List PairStage) (sys : Pair) (next : Unit → Prog Op Ans DmonState),
    dialPath (booted file) stages sys → sys.right = .call (.killall "pppd") next →
      ∀ rest later, dialPath ⟨sys.world, sys.left, next ()⟩ rest later → ¬Launching later.left := by
  intro all
  obtain ⟨stages, sys, path, both⟩ := play_exists nwcauseEffect (fun _ _ => false) newMmonTurn nwcauseDmonTurn lostRace
    (booted [])
    (fun _ sys => isKilling sys.right && isLaunching sys.left) (by decide +kernel)
  rw [Bool.and_eq_true] at both
  obtain ⟨next, kills⟩ := killing_next sys.right both.1
  exact all [] stages sys next path kills [] ⟨sys.world, sys.left, next ()⟩ rfl ((launching_iff sys.left).mpr both.2)

theorem reject_is_final_idle : ∃ (stages : List PairStage) (sys : Pair) (next : Unit → Prog Op Ans DmonState),
    dialPath (booted []) stages sys ∧ sys.right = .call (.killall "pppd") next ∧
      ∀ rest later, dialPath ⟨sys.world, sys.left, next ()⟩ rest later → ¬Launching later.left := by
  obtain ⟨stages, sys, path, both⟩ := play_exists nwcauseEffect (fun _ _ => false) newMmonTurn nwcauseDmonTurn
    (List.replicate 6 (.right rejecting)) (booted []) (fun _ sys => isKilling sys.right && !isLaunching sys.left)
      (by decide +kernel)
  rw [Bool.and_eq_true, Bool.not_eq_true'] at both
  obtain ⟨next, kills⟩ := killing_next sys.right both.1
  refine ⟨stages, sys, next, path, kills, (reject_is_final [] stages sys next path kills).mpr ?_⟩
  rw [launching_iff, both.2]
  decide

end Ftm50s.Daemons
