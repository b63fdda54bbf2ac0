import Ftm50s.Lib.Daemon
import Mathlib.Data.Int.Basic

set_option autoImplicit false

namespace Ftm50s.Mmon
open Lib.Daemon

inductive MmState where
  | init | running | stopped | reset | abnormal | failed | unknown
deriving DecidableEq, Repr

inductive Xp3State where
  | stopped | running
deriving DecidableEq, Repr

-- The five calls that leave the process. Each runs /usr/bin/service and
-- answers with what that prints, so any answer can come back at any time.
inductive Op where
  | mdmStart | mdmRestart | mdmIsLive | xp3Start | xp3Status
deriving DecidableEq, Repr

abbrev Ans : Op → Type
  | .mdmStart => Unit
  | .mdmRestart => Unit
  | .mdmIsLive => Bool
  | .xp3Start => Xp3State
  | .xp3Status => Xp3State

def mdmIsLive : Prog Op Ans Bool := .call .mdmIsLive .done

def xp3Start : Prog Op Ans Xp3State := .call .xp3Start .done

def xp3Status : Prog Op Ans Xp3State := .call .xp3Status .done

structure Xcfg where
  nBootWaitTime : Int

-- The counted polling loop. What is left of the counter is the only record of
-- how the loop ended: zero after the last poll answered no.
def pollLive : Nat → Prog Op Ans Int
  | 0 => pure 0
  | i + 1 => do
      let live ← mdmIsLive
      if live then return (i + 1 : Nat) else pollLive i

def waitLive (cfg : Xcfg) : Prog Op Ans Int :=
  if 0 < cfg.nBootWaitTime then pollLive cfg.nBootWaitTime.toNat else pure cfg.nBootWaitTime

def bringUp (cfg : Xcfg) (launch : Op) (onFailure : MmState) : Prog Op Ans MmState := do
  let _ ← perform launch
  let i ← waitLive cfg
  if i ≠ 0 then
    let xp3 ← xp3Start
    if xp3 = .running then return .running else return onFailure
  else return onFailure

def mmonTurn (cfg : Xcfg) : MmState → Prog Op Ans MmState
  | .init => bringUp cfg .mdmStart .abnormal
  | .abnormal => bringUp cfg .mdmRestart .failed
  | .running => do
      let xp3 ← xp3Status
      if xp3 ≠ .running then return .reset else return .running
  | .stopped => do
      let xp3 ← xp3Status
      if xp3 = .running then return .running else return .stopped
  | .reset => bringUp cfg .mdmRestart .abnormal
  -- The switch has no case for these two.
  | .failed => pure .failed
  | .unknown => pure .unknown

def liveAnswers (events : List (Event Op Ans)) : List Bool :=
  events.filterMap fun event =>
    match event with
    | ⟨.mdmIsLive, live⟩ => some live
    | _ => none

def isLinkAction (event : Event Op Ans) : Bool :=
  match event.op with
  | .mdmIsLive => false
  | _ => true

def Acts (events : List (Event Op Ans)) : Prop := ∃ event ∈ events, isLinkAction event = true

-- A bring-up as it must go: the modem is started or restarted first, one of at
-- most nBootWaitTime polls says it is live, and the link then comes up.
def Linked (cfg : Xcfg) (launch : Op) (events : List (Event Op Ans)) : Prop :=
  events.head?.map Event.op = some launch ∧ ((liveAnswers events).length : Int) ≤ cfg.nBootWaitTime ∧
    true ∈ liveAnswers events ∧ events.getLast? = some ⟨.xp3Start, .running⟩

theorem poll_live_spec (count : Nat) :
    Ensures (pollLive count) fun events i => ∃ misses, events = List.replicate misses ⟨.mdmIsLive, false⟩ ++
      (if i = 0 then [] else [⟨.mdmIsLive, true⟩]) ∧ (misses : Int) + i = count ∧ 0 ≤ i := by
  induction count with
  | zero => exact ⟨0, rfl, rfl, Int.le_refl 0⟩
  | succ count ih =>
      simp only [pollLive, mdmIsLive, call_bind, done_bind, ensures_call]
      intro live
      cases live with
      | true =>
          have positive : ((count + 1 : Nat) : Int) ≠ 0 := by omega
          refine ⟨0, ?_, by simp, by omega⟩
          rw [if_neg positive]
          rfl
      | false =>
          refine ensures_mono _ _ _ ih fun events i spec => ?_
          obtain ⟨misses, shape, sum, nonneg⟩ := spec
          refine ⟨misses + 1, ?_, by push_cast; omega, nonneg⟩
          rw [shape, List.replicate_succ, List.cons_append]

theorem live_answers_polls (misses : Nat) (hits after : List (Event Op Ans)) :
    liveAnswers (List.replicate misses ⟨.mdmIsLive, false⟩ ++ hits ++ after) =
      List.replicate misses false ++ liveAnswers hits ++ liveAnswers after := by
  rw [liveAnswers, List.filterMap_append, List.filterMap_append, List.filterMap_replicate]
  rfl

theorem wait_live_spec (cfg : Xcfg) (positive : 1 ≤ cfg.nBootWaitTime) :
    Ensures (waitLive cfg) fun events i => ∃ misses, events = List.replicate misses ⟨.mdmIsLive, false⟩ ++
      (if i = 0 then [] else [⟨.mdmIsLive, true⟩]) ∧ (misses : Int) + i = cfg.nBootWaitTime ∧ 0 ≤ i := by
  rw [waitLive, if_pos (by omega)]
  refine ensures_mono _ _ _ (poll_live_spec cfg.nBootWaitTime.toNat) fun events i spec => ?_
  obtain ⟨misses, shape, sum, nonneg⟩ := spec
  exact ⟨misses, shape, by omega, nonneg⟩

-- The events of a bring-up are the launch, the polls and, if one of them said
-- yes, the call that starts pppd; reading Linked off that shape decides it.
theorem bring_up_spec (cfg : Xcfg) (launch : Op) (onFailure : MmState) (positive : 1 ≤ cfg.nBootWaitTime)
    (starts : launch = .mdmStart ∨ launch = .mdmRestart) :
    Ensures (bringUp cfg launch onFailure) fun events next =>
      (Linked cfg launch events ∧ next = .running) ∨ (¬Linked cfg launch events ∧ next = onFailure) := by
  have unpolled : ∀ answer rest, liveAnswers (⟨launch, answer⟩ :: rest) = liveAnswers rest := by
    cases starts with
    | inl same => subst same; intro answer rest; rfl
    | inr same => subst same; intro answer rest; rfl
  simp only [bringUp, perform_bind, ensures_call, ensures_bind]
  intro answer
  refine ensures_mono _ _ _ (wait_live_spec cfg positive) fun events i spec => ?_
  obtain ⟨misses, shape, sum, nonneg⟩ := spec
  by_cases missed : i = 0
  · rw [if_neg (by simpa using missed)]
    refine Or.inr ⟨fun linked => ?_, rfl⟩
    obtain ⟨_, _, live, _⟩ := linked
    rw [unpolled, shape, if_pos missed, live_answers_polls] at live
    simp [liveAnswers] at live
  · rw [if_pos missed]
    simp only [xp3Start, call_bind, done_bind, ensures_call]
    intro xp3
    cases xp3 with
    | running =>
        left
        refine ⟨⟨rfl, ?_, ?_, ?_⟩, rfl⟩
        · rw [unpolled, shape, if_neg missed, live_answers_polls]
          simp [liveAnswers]
          omega
        · rw [unpolled, shape, if_neg missed, live_answers_polls]
          simp [liveAnswers]
        · rw [← List.cons_append]
          exact List.getLast?_concat
    | stopped =>
        right
        refine ⟨fun linked => ?_, rfl⟩
        have final := linked.2.2.2
        rw [← List.cons_append, List.getLast?_concat] at final
        simp at final

end Ftm50s.Mmon
