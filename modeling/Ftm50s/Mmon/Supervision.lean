import Ftm50s.Mmon.Main

set_option autoImplicit false

namespace Ftm50s.Mmon
open Lib.Daemon

def linkUp : Event Op Ans := ⟨.xp3Start, .running⟩

theorem wait_live_polls (cfg : Xcfg) : Ensures (waitLive cfg) fun events _ => linkUp ∉ events := by
  rw [waitLive, ensures_ite]
  refine ⟨fun _ => ?_, fun _ => List.not_mem_nil⟩
  refine ensures_mono _ _ _ (poll_live_spec cfg.nBootWaitTime.toNat) fun events i spec => ?_
  obtain ⟨misses, shape, _⟩ := spec
  rw [shape]
  split <;> simp [linkUp]

theorem bring_up_ends (cfg : Xcfg) (launch : Op) (onFailure : MmState)
    (starts : launch = .mdmStart ∨ launch = .mdmRestart) :
    Ensures (bringUp cfg launch onFailure) fun events next =>
      Acts events ∧ ((linkUp ∈ events ∧ next = .running) ∨ (linkUp ∉ events ∧ next = onFailure)) := by
  have action : ∀ answer, isLinkAction ⟨launch, answer⟩ = true ∧ linkUp ≠ ⟨launch, answer⟩ := by
    cases starts with
    | inl same => subst same; exact fun answer => ⟨rfl, by simp [linkUp]⟩
    | inr same => subst same; exact fun answer => ⟨rfl, by simp [linkUp]⟩
  simp only [bringUp, perform_bind, ensures_call, ensures_bind]
  intro answer
  refine ensures_mono _ _ _ (wait_live_polls cfg) fun events i quiet => ?_
  have acts : ∀ rest, Acts (⟨launch, answer⟩ :: rest) := fun rest =>
    ⟨_, List.mem_cons_self, (action answer).1⟩
  rw [ensures_ite]
  refine ⟨fun _ => ?_, fun _ => ⟨acts _, Or.inr ⟨?_, rfl⟩⟩⟩
  · simp only [xp3Start, call_bind, done_bind, ensures_call]
    intro xp3
    cases xp3 with
    | running => exact ⟨acts _, Or.inl ⟨by simp [linkUp], rfl⟩⟩
    | stopped =>
        refine ⟨acts _, Or.inr ⟨?_, rfl⟩⟩
        simp only [List.mem_cons, List.mem_append, not_or]
        exact ⟨(action answer).2, quiet, by simp [linkUp]⟩
  · rw [List.append_nil, List.mem_cons, not_or]
    exact ⟨(action answer).2, quiet⟩

-- The states the switch can enter. Of these only FAILED has no case.
def Entered (state : MmState) : Prop := state ≠ .stopped ∧ state ≠ .unknown

theorem turn_entered (cfg : Xcfg) (state : MmState) (entered : Entered state) :
    Ensures (mmonTurn cfg state) fun _ next => Entered next := by
  have bringsUp : ∀ launch onFailure, (launch = .mdmStart ∨ launch = .mdmRestart) → Entered onFailure →
      Ensures (bringUp cfg launch onFailure) fun _ next => Entered next := by
    intro launch onFailure starts fallback
    refine ensures_mono _ _ _ (bring_up_ends cfg launch onFailure starts) fun events next spec => ?_
    cases spec.2 with
    | inl up => exact up.2 ▸ ⟨by decide, by decide⟩
    | inr down => exact down.2 ▸ fallback
  cases state with
  | init => exact bringsUp _ _ (Or.inl rfl) ⟨by decide, by decide⟩
  | reset => exact bringsUp _ _ (Or.inr rfl) ⟨by decide, by decide⟩
  | abnormal => exact bringsUp _ _ (Or.inr rfl) ⟨by decide, by decide⟩
  | running =>
      simp only [mmonTurn, xp3Status, call_bind, done_bind, ensures_call]
      intro xp3
      cases xp3 with
      | running => exact ⟨by decide, by decide⟩
      | stopped => exact ⟨by decide, by decide⟩
  | failed => exact entered
  | stopped => exact absurd rfl entered.1
  | unknown => exact absurd rfl entered.2

theorem running_turn (cfg : Xcfg) : Ensures (mmonTurn cfg .running) fun events next =>
    Acts events ∧ (next = .running ∨ (next = .reset ∧ ⟨.xp3Status, .stopped⟩ ∈ events)) := by
  simp only [mmonTurn, xp3Status, call_bind, done_bind, ensures_call]
  intro xp3
  cases xp3 with
  | running => exact ⟨⟨_, List.mem_cons_self, rfl⟩, Or.inl rfl⟩
  | stopped => exact ⟨⟨_, List.mem_cons_self, rfl⟩, Or.inr ⟨rfl, List.mem_cons_self⟩⟩

theorem modem_supervision (cfg : Xcfg) (positive : 1 ≤ cfg.nBootWaitTime) (turns : List (Turn MmState Op Ans))
    (state next : MmState) (events : List (Event Op Ans)) (run : Runs (mmonTurn cfg) .init turns state)
    (turn : Does (mmonTurn cfg state) events next) :
    (state ≠ .running → (next = .running ↔ (state = .init ∧ Linked cfg .mdmStart events) ∨
      ((state = .reset ∨ state = .abnormal) ∧ Linked cfg .mdmRestart events))) ∧
    (state = .running → next ≠ .running → next = .reset ∧ ∃ answer, answer ≠ .running ∧ ⟨.xp3Status, answer⟩ ∈ events) ∧
    (state = .init ∨ state = .reset → next ≠ .running → next = .abnormal) ∧
    (state = .abnormal → next ≠ .running → next = .failed) ∧
    (Entered state ∧ Entered next) := by
  have entered : Entered state :=
    (runs_invariant _ Entered (turn_entered cfg) _ _ turns run ⟨by decide, by decide⟩).1
  have last : Entered next := (ensures_iff _ _).mp (turn_entered cfg state entered) events next turn
  have bringsUp : ∀ launch onFailure, (launch = .mdmStart ∨ launch = .mdmRestart) →
      Does (bringUp cfg launch onFailure) events next →
      (Linked cfg launch events ∧ next = .running) ∨ (¬Linked cfg launch events ∧ next = onFailure) :=
    fun launch onFailure starts => (ensures_iff _ _).mp (bring_up_spec cfg launch onFailure positive starts) events next
  cases state with
  | init =>
      cases bringsUp _ _ (Or.inl rfl) turn with
      | inl up => obtain ⟨linked, rfl⟩ := up; simp [linked, entered, last]
      | inr down => obtain ⟨unlinked, rfl⟩ := down; simp [unlinked, entered, last]
  | reset =>
      cases bringsUp _ _ (Or.inr rfl) turn with
      | inl up => obtain ⟨linked, rfl⟩ := up; simp [linked, entered, last]
      | inr down => obtain ⟨unlinked, rfl⟩ := down; simp [unlinked, entered, last]
  | abnormal =>
      cases bringsUp _ _ (Or.inr rfl) turn with
      | inl up => obtain ⟨linked, rfl⟩ := up; simp [linked, entered, last]
      | inr down => obtain ⟨unlinked, rfl⟩ := down; simp [unlinked, entered, last]
  | running =>
      cases ((ensures_iff _ _).mp (running_turn cfg) events next turn).2 with
      | inl same => subst same; simp [entered]
      | inr left =>
          obtain ⟨rfl, stopped⟩ := left
          refine ⟨fun away => absurd rfl away, fun _ _ => ⟨rfl, .stopped, by decide, stopped⟩, ?_⟩
          simp [entered, last]
  | failed =>
      obtain ⟨rfl, rfl⟩ := turn
      simp [entered]
  | stopped => exact absurd rfl entered.1
  | unknown => exact absurd rfl entered.2

theorem modem_supervision_third_poll :
    let cfg : Xcfg := ⟨3⟩
    let events : List (Event Op Ans) := [⟨.mdmStart, ()⟩, ⟨.mdmIsLive, false⟩, ⟨.mdmIsLive, false⟩, ⟨.mdmIsLive, true⟩,
      ⟨.xp3Start, .running⟩]
    Does (mmonTurn cfg .init) events .running ∧ Linked cfg .mdmStart events ∧ Entered .init := by
  intro cfg events
  have turn : Does (mmonTurn cfg .init) events .running :=
    ⟨(), _, rfl, false, _, rfl, false, _, rfl, true, _, rfl, .running, _, rfl, rfl, rfl⟩
  have settled := modem_supervision cfg (by decide) [] .init .running events rfl turn
  cases (settled.1 (by decide)).mp rfl with
  | inl linked => exact ⟨turn, linked.2, settled.2.2.2.2.1⟩
  | inr other => exact absurd other.1 (by decide)

theorem entered_acts (cfg : Xcfg) (state : MmState) (entered : Entered state) (handled : state ≠ .failed) :
    Ensures (mmonTurn cfg state) fun events next =>
      Acts events ∧ (next = .failed ↔ state = .abnormal ∧ linkUp ∉ events) := by
  have bringsUp : ∀ launch onFailure, (launch = .mdmStart ∨ launch = .mdmRestart) →
      Ensures (bringUp cfg launch onFailure) fun events next =>
        Acts events ∧ (next = .failed ↔ onFailure = .failed ∧ linkUp ∉ events) := by
    intro launch onFailure starts
    refine ensures_mono _ _ _ (bring_up_ends cfg launch onFailure starts) fun events next spec => ?_
    obtain ⟨acts, ends⟩ := spec
    cases ends with
    | inl up => obtain ⟨linked, rfl⟩ := up; exact ⟨acts, by simp [linked]⟩
    | inr down => obtain ⟨unlinked, rfl⟩ := down; exact ⟨acts, by simp [unlinked]⟩
  cases state with
  | init =>
      refine ensures_mono _ _ _ (bringsUp .mdmStart .abnormal (Or.inl rfl)) fun events next spec => ?_
      simpa using spec
  | reset =>
      refine ensures_mono _ _ _ (bringsUp .mdmRestart .abnormal (Or.inr rfl)) fun events next spec => ?_
      simpa using spec
  | abnormal =>
      refine ensures_mono _ _ _ (bringsUp .mdmRestart .failed (Or.inr rfl)) fun events next spec => ?_
      simpa using spec
  | running =>
      refine ensures_mono _ _ _ (running_turn cfg) fun events next spec => ?_
      obtain ⟨acts, ends⟩ := spec
      cases ends with
      | inl same => subst same; exact ⟨acts, by simp⟩
      | inr left => obtain ⟨rfl, _⟩ := left; exact ⟨acts, by simp⟩
  | failed => exact absurd rfl handled
  | stopped => exact absurd rfl entered.1
  | unknown => exact absurd rfl entered.2

theorem failed_idles (cfg : Xcfg) (turns : List (Turn MmState Op Ans)) (last : MmState)
    (run : Runs (mmonTurn cfg) .failed turns last) : last = .failed ∧ ∀ turn ∈ turns, turn.events = [] := by
  have stays := runs_invariant (mmonTurn cfg) (· = .failed) (fun state same => by subst same; rfl) _ _ turns run rfl
  refine ⟨stays.1, fun turn member => ?_⟩
  obtain ⟨after, does⟩ := runs_turn _ _ _ turns run turn member
  rw [stays.2 turn member] at does
  exact does.1

-- An ABNORMAL turn without XP3_Start answering RUNNING enters FAILED, so the
-- turn after it is idle; as long as none does, every turn has a case.
theorem supervision_acts (cfg : Xcfg) (turns : List (Turn MmState Op Ans)) (last : MmState)
    (run : Runs (mmonTurn cfg) .init turns last) :
    (∀ turn ∈ turns, Acts turn.events) ↔
      ∀ turn ∈ turns.dropLast, turn.before = .abnormal → linkUp ∈ turn.events := by
  have general : ∀ first, Entered first → first ≠ .failed → Runs (mmonTurn cfg) first turns last →
      ((∀ turn ∈ turns, Acts turn.events) ↔
        ∀ turn ∈ turns.dropLast, turn.before = .abnormal → linkUp ∈ turn.events) := by
    clear run
    induction turns with
    | nil => simp
    | cons turn turns ih =>
        intro first entered handled run
        obtain ⟨rfl, mid, does, tail⟩ := run
        obtain ⟨acts, fails⟩ := (ensures_iff _ _).mp (entered_acts cfg _ entered handled) _ _ does
        have next : Entered mid := (ensures_iff _ _).mp (turn_entered cfg _ entered) _ _ does
        cases turns with
        | nil => simpa using acts
        | cons second others =>
            rw [List.forall_mem_cons, List.dropLast_cons_cons, List.forall_mem_cons (l := (second :: others).dropLast)]
            by_cases dead : mid = .failed
            · subst dead
              have idle := (failed_idles cfg _ last tail).2 second List.mem_cons_self
              obtain ⟨abnormal, unlinked⟩ := fails.mp rfl
              refine ⟨fun all => ?_, fun all => absurd (all.1 abnormal) unlinked⟩
              obtain ⟨event, member, _⟩ := all.2 second List.mem_cons_self
              rw [idle] at member
              cases member
            · have linked : turn.before = .abnormal → linkUp ∈ turn.events := fun abnormal =>
                by_contra fun unlinked => dead (fails.mpr ⟨abnormal, unlinked⟩)
              rw [ih mid next dead tail]
              exact ⟨fun all => ⟨linked, all.2⟩, fun all => ⟨acts, all.2⟩⟩
  exact general .init ⟨by decide, by decide⟩ (by decide) run

def answering (live : Bool) (xp3 : Xp3State) : (op : Op) → Ans op
  | .mdmStart => ()
  | .mdmRestart => ()
  | .mdmIsLive => live
  | .xp3Start => xp3
  | .xp3Status => xp3

-- A modem that never answers: INIT and ABNORMAL fail, and the third turn of
-- the loop finds no case for FAILED.
theorem supervision_stops : ¬∀ (cfg : Xcfg) (turns : List (Turn MmState Op Ans)) (last : MmState),
    Runs (mmonTurn cfg) .init turns last → ∀ turn ∈ turns, Acts turn.events := by
  intro all
  have run := runs_replay (mmonTurn ⟨1⟩) (List.replicate 3 (answering false .stopped)) .init
  have idle : ⟨.failed, []⟩ ∈ (replayTurns (mmonTurn ⟨1⟩) (List.replicate 3 (answering false .stopped)) .init).1 := by
    simp [replayTurns, replay, mmonTurn, bringUp, waitLive, pollLive, answering, mdmIsLive]
  obtain ⟨event, member, _⟩ := all ⟨1⟩ _ _ run ⟨.failed, []⟩ idle
  cases member

theorem supervision_acts_recovered :
    let turns := (replayTurns (mmonTurn ⟨1⟩) [answering false .stopped, answering true .running,
      answering true .running] .init).1
    turns.length = 3 ∧ ∀ turn ∈ turns, Acts turn.events := by
  intro turns
  refine ⟨rfl, (supervision_acts ⟨1⟩ turns _ (runs_replay _ _ _)).mpr ?_⟩
  simp [turns, replayTurns, replay, mmonTurn, bringUp, waitLive, pollLive, answering, mdmIsLive, xp3Start, xp3Status,
    linkUp]

end Ftm50s.Mmon
