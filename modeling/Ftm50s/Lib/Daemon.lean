import Mathlib.Algebra.GroupWithZero.Nat
import Mathlib.Data.List.Basic
import Mathlib.Logic.Relation
import Mathlib.Tactic.Common

set_option autoImplicit false

namespace Lib.Daemon

-- A program that touches its surroundings only through operations and goes on
-- with whatever they answer. The surroundings are not part of the program, so
-- a statement over every answer is a statement over every environment.
inductive Prog (Op : Type) (Ans : Op → Type) (Result : Type) : Type where
  | done (result : Result)
  | call (op : Op) (next : Ans op → Prog Op Ans Result)

structure Event (Op : Type) (Ans : Op → Type) where
  op : Op
  answer : Ans op

variable {Op : Type} {Ans : Op → Type} {Result Next State : Type}

def Prog.bind (prog : Prog Op Ans Result) (rest : Result → Prog Op Ans Next) : Prog Op Ans Next :=
  match prog with
  | .done result => rest result
  | .call op next => .call op fun answer => (next answer).bind rest

instance : Monad (Prog Op Ans) where
  pure := Prog.done
  bind := Prog.bind

def perform (op : Op) : Prog Op Ans (Ans op) := .call op .done

-- One execution from start to end: the operations with their answers, in
-- order, and the result.
def Does : Prog Op Ans Result → List (Event Op Ans) → Result → Prop
  | .done value, events, result => events = [] ∧ value = result
  | .call op next, events, result => ∃ answer rest, events = ⟨op, answer⟩ :: rest ∧ Does (next answer) rest result

-- The weakest condition under which every execution ends as `post` says.
def Ensures : Prog Op Ans Result → (List (Event Op Ans) → Result → Prop) → Prop
  | .done result, post => post [] result
  | .call op next, post => ∀ answer, Ensures (next answer) fun events result => post (⟨op, answer⟩ :: events) result

def replay (reply : (op : Op) → Ans op) : Prog Op Ans Result → List (Event Op Ans) × Result
  | .done result => ([], result)
  | .call op next =>
      let (events, result) := replay reply (next (reply op))
      (⟨op, reply op⟩ :: events, result)

@[simp]
theorem pure_done (result : Result) : (pure result : Prog Op Ans Result) = .done result := rfl

@[simp]
theorem done_bind (result : Result) (rest : Result → Prog Op Ans Next) : (Prog.done result >>= rest) = rest result :=
  rfl

@[simp]
theorem call_bind (op : Op) (next : Ans op → Prog Op Ans Result) (rest : Result → Prog Op Ans Next) :
    (Prog.call op next >>= rest) = .call op fun answer => next answer >>= rest := rfl

@[simp]
theorem perform_bind (op : Op) (rest : Ans op → Prog Op Ans Next) : (perform op >>= rest) = .call op rest := rfl

@[simp]
theorem ite_bind (p : Prop) [Decidable p] (yes no : Prog Op Ans Result) (rest : Result → Prog Op Ans Next) :
    ((if p then yes else no) >>= rest) = if p then yes >>= rest else no >>= rest := by
  split <;> rfl

theorem does_call (op : Op) (next : Ans op → Prog Op Ans Result) (events : List (Event Op Ans)) (result : Result) :
    Does (.call op next) events result ↔ ∃ answer rest, events = ⟨op, answer⟩ :: rest ∧
    Does (next answer) rest result := Iff.rfl

@[simp]
theorem ensures_done (result : Result) (post : List (Event Op Ans) → Result → Prop) :
    Ensures (.done result) post ↔ post [] result := Iff.rfl

@[simp]
theorem ensures_call (op : Op) (next : Ans op → Prog Op Ans Result) (post : List (Event Op Ans) → Result → Prop) :
    Ensures (.call op next) post ↔
      ∀ answer, Ensures (next answer) fun events result => post (⟨op, answer⟩ :: events) result := Iff.rfl

theorem ensures_ite (p : Prop) [Decidable p] (yes no : Prog Op Ans Result) (post : List (Event Op Ans) → Result →
    Prop) :
    Ensures (if p then yes else no) post ↔ (p → Ensures yes post) ∧ (¬p → Ensures no post) := by
  by_cases holds : p
  · simp [holds]
  · simp [holds]

theorem ensures_bind (prog : Prog Op Ans Result) (rest : Result → Prog Op Ans Next)
    (post : List (Event Op Ans) → Next → Prop) :
    Ensures (prog >>= rest) post ↔
      Ensures prog fun events result => Ensures (rest result) fun later next => post (events ++ later) next := by
  induction prog generalizing post with
  | done result => rfl
  | call op next ih => exact forall_congr' fun answer => ih answer _

theorem ensures_mono (prog : Prog Op Ans Result) (post weaker : List (Event Op Ans) → Result → Prop)
    (ensured : Ensures prog post) (implied : ∀ events result, post events result → weaker events result) :
    Ensures prog weaker := by
  induction prog generalizing post weaker with
  | done result => exact implied [] result ensured
  | call op next ih =>
      intro answer
      exact ih answer _ _ (ensured answer) fun events result => implied (⟨op, answer⟩ :: events) result

theorem ensures_iff (prog : Prog Op Ans Result) (post : List (Event Op Ans) → Result → Prop) :
    Ensures prog post ↔ ∀ events result, Does prog events result → post events result := by
  induction prog generalizing post with
  | done value =>
      refine ⟨fun ensured events result does => ?_, fun all => all [] value ⟨rfl, rfl⟩⟩
      obtain ⟨rfl, rfl⟩ := does
      exact ensured
  | call op next ih =>
      refine ⟨fun ensured events result does => ?_, fun all answer => ?_⟩
      · obtain ⟨answer, rest, rfl, tail⟩ := does
        exact (ih answer _).mp (ensured answer) rest result tail
      · exact (ih answer _).mpr fun rest result tail => all _ result ⟨answer, rest, rfl, tail⟩

-- A program that may break off, and what follows it if it does not
def goOn {Stop : Type} (rest : Result → Prog Op Ans (Except Stop Next)) :
    Except Stop Result → Prog Op Ans (Except Stop Next)
  | .error stop => .done (.error stop)
  | .ok result => rest result

def Prog.andThen {Stop : Type} (prog : Prog Op Ans (Except Stop Result))
    (rest : Result → Prog Op Ans (Except Stop Next)) :
    Prog Op Ans (Except Stop Next) := prog >>= goOn rest

@[simp]
theorem go_on_error {Stop : Type} (rest : Result → Prog Op Ans (Except Stop Next)) (stop : Stop) :
    goOn rest (.error stop) = .done (.error stop) := rfl

@[simp]
theorem go_on_ok {Stop : Type} (rest : Result → Prog Op Ans (Except Stop Next)) (result : Result) :
    goOn rest (.ok result) = rest result := rfl

theorem ensures_and_then {Stop : Type} (prog : Prog Op Ans (Except Stop Result))
    (rest : Result → Prog Op Ans (Except Stop Next)) (post : List (Event Op Ans) → Except Stop Next → Prop) :
    Ensures (prog.andThen rest) post ↔ Ensures prog fun events outcome =>
      Ensures (goOn rest outcome) fun later next => post (events ++ later) next := ensures_bind prog (goOn rest) post

-- A structural bound: as long as the answers are possible ones, only allowed
-- operations are called, and the result is as `post` says.
def Confined (possible : Event Op Ans → Prop) (allowed : Op → Prop) (post : Result → Prop) : Prog Op Ans Result → Prop
  | .done result => post result
  | .call op next => allowed op ∧ ∀ answer, possible ⟨op, answer⟩ → Confined possible allowed post (next answer)

section
variable (possible : Event Op Ans → Prop) (allowed : Op → Prop) (post : Result → Prop)

@[simp]
theorem confined_done (result : Result) : Confined possible allowed post (.done result) ↔ post result := Iff.rfl

@[simp]
theorem confined_call (op : Op) (next : Ans op → Prog Op Ans Result) :
    Confined possible allowed post (.call op next) ↔
      allowed op ∧ ∀ answer, possible ⟨op, answer⟩ → Confined possible allowed post (next answer) := Iff.rfl

@[simp]
theorem confined_ite (p : Prop) [Decidable p] (yes no : Prog Op Ans Result) :
    Confined possible allowed post (if p then yes else no) ↔
      (p → Confined possible allowed post yes) ∧ (¬p → Confined possible allowed post no) := by
  by_cases holds : p
  · simp [holds]
  · simp [holds]

theorem confined_bind (prog : Prog Op Ans Next) (rest : Next → Prog Op Ans Result) :
    Confined possible allowed post (prog >>= rest) ↔
      Confined possible allowed (fun result => Confined possible allowed post (rest result)) prog := by
  induction prog with
  | done result => rfl
  | call op next ih =>
      refine and_congr_right fun _ => forall_congr' fun answer => ?_
      exact imp_congr_right fun _ => ih answer

theorem confined_ensures (prog : Prog Op Ans Result) (confined : Confined (fun _ => True) allowed post prog) :
    Ensures prog fun events result => (∀ event ∈ events, allowed event.op) ∧ post result := by
  induction prog with
  | done result => exact ⟨fun _ member => absurd member List.not_mem_nil, confined⟩
  | call op next ih =>
      intro answer
      refine ensures_mono _ _ _ (ih answer (confined.2 answer trivial)) fun events result spec => ?_
      exact ⟨List.forall_mem_cons.mpr ⟨confined.1, spec.1⟩, spec.2⟩

end

-- Every guarded operation comes right after a triggering event. `armed` says
-- whether the event before the program was one.
def Preceded (trigger : Event Op Ans → Prop) (guarded : Op → Prop) (armed : Prop) : Prog Op Ans Result → Prop
  | .done _ => True
  | .call op next => (guarded op → armed) ∧ ∀ answer, Preceded trigger guarded (trigger ⟨op, answer⟩) (next answer)

section
variable (trigger : Event Op Ans → Prop) (guarded : Op → Prop)

@[simp]
theorem preceded_done (armed : Prop) (result : Result) :
    Preceded trigger guarded armed (.done result : Prog Op Ans Result) := trivial

@[simp]
theorem preceded_call (armed : Prop) (op : Op) (next : Ans op → Prog Op Ans Result) :
    Preceded trigger guarded armed (.call op next) ↔
      (guarded op → armed) ∧ ∀ answer, Preceded trigger guarded (trigger ⟨op, answer⟩) (next answer) := Iff.rfl

@[simp]
theorem preceded_ite (armed p : Prop) [Decidable p] (yes no : Prog Op Ans Result) :
    Preceded trigger guarded armed (if p then yes else no) ↔
      (p → Preceded trigger guarded armed yes) ∧ (¬p → Preceded trigger guarded armed no) := by
  by_cases holds : p
  · simp [holds]
  · simp [holds]

theorem preceded_map (armed : Prop) (prog : Prog Op Ans Result) (f : Result → Next)
    (preceded : Preceded trigger guarded armed prog) : Preceded trigger guarded armed (prog >>= fun result =>
      .done (f result)) := by
  induction prog generalizing armed with
  | done result => trivial
  | call op next ih => exact ⟨preceded.1, fun answer => ih answer _ (preceded.2 answer)⟩

theorem confined_preceded (armed : Prop) (post : Result → Prop) (prog : Prog Op Ans Result)
    (confined : Confined (fun _ => True) (fun op => ¬guarded op) post prog) : Preceded trigger guarded armed prog := by
  induction prog generalizing armed with
  | done result => trivial
  | call op next ih => exact ⟨fun hit => absurd hit confined.1, fun answer => ih answer _ (confined.2 answer trivial)⟩

theorem preceded_disarm (armed : Prop) (prog : Prog Op Ans Result) (preceded : Preceded trigger guarded armed prog)
    (free : ∀ op next, prog = .call op next → ¬guarded op) : Preceded trigger guarded False prog := by
  cases prog with
  | done result => trivial
  | call op next => exact ⟨fun hit => free op next rfl hit, preceded.2⟩

theorem preceded_does (armed : Prop) (prog : Prog Op Ans Result) (preceded : Preceded trigger guarded armed prog)
    (events before after : List (Event Op Ans)) (event : Event Op Ans) (result : Result)
      (does : Does prog events result) (split : events = before ++ event :: after) (hit : guarded event.op) :
    (before = [] ∧ armed) ∨ ∃ earlier last, before = earlier ++ [last] ∧ trigger last := by
  induction prog generalizing armed events before with
  | done value =>
      rw [does.1] at split
      simp at split
  | call op next ih =>
      obtain ⟨answer, rest, rfl, tail⟩ := does
      cases before with
      | nil =>
          obtain ⟨rfl, rfl⟩ := List.cons.inj split
          exact Or.inl ⟨rfl, preceded.1 hit⟩
      | cons first before =>
          obtain ⟨rfl, same⟩ := List.cons.inj split
          cases ih answer _ (preceded.2 answer) rest before tail same with
          | inl start => exact Or.inr ⟨[], _, by rw [start.1]; rfl, start.2⟩
          | inr later =>
              obtain ⟨earlier, last, rfl, fired⟩ := later
              exact Or.inr ⟨_ :: earlier, last, rfl, fired⟩

end

theorem does_replay (reply : (op : Op) → Ans op) (prog : Prog Op Ans Result) :
    Does prog (replay reply prog).1 (replay reply prog).2 := by
  induction prog with
  | done result => exact ⟨rfl, rfl⟩
  | call op next ih => exact ⟨reply op, (replay reply (next (reply op))).1, rfl, ih (reply op)⟩

-- A daemon runs its body for ever: each turn starts from the variables the
-- turn before left behind. A run is any finite number of whole turns.
structure Turn (State Op : Type) (Ans : Op → Type) where
  before : State
  events : List (Event Op Ans)

def Runs (body : State → Prog Op Ans State) : State → List (Turn State Op Ans) → State → Prop
  | first, [], last => first = last
  | first, turn :: turns, last =>
      turn.before = first ∧ ∃ mid, Does (body first) turn.events mid ∧ Runs body mid turns last

def replayTurns (body : State → Prog Op Ans State) :
    List ((op : Op) → Ans op) → State → List (Turn State Op Ans) × State
  | [], state => ([], state)
  | reply :: replies, state =>
      let (events, mid) := replay reply (body state)
      let (turns, last) := replayTurns body replies mid
      (⟨state, events⟩ :: turns, last)

variable (body : State → Prog Op Ans State)

theorem runs_replay (replies : List ((op : Op) → Ans op)) (state : State) :
    Runs body state (replayTurns body replies state).1 (replayTurns body replies state).2 := by
  induction replies generalizing state with
  | nil => rfl
  | cons reply replies ih => exact ⟨rfl, _, does_replay reply (body state), ih _⟩

theorem runs_append (first last : State) (before after : List (Turn State Op Ans)) :
    Runs body first (before ++ after) last ↔ ∃ mid, Runs body first before mid ∧ Runs body mid after last := by
  induction before generalizing first with
  | nil => exact ⟨fun tail => ⟨first, rfl, tail⟩, fun ⟨mid, same, tail⟩ => same ▸ tail⟩
  | cons turn before ih =>
      refine ⟨fun run => ?_, fun run => ?_⟩
      · obtain ⟨head, next, does, tail⟩ := run
        obtain ⟨mid, front, back⟩ := (ih next).mp tail
        exact ⟨mid, ⟨head, next, does, front⟩, back⟩
      · obtain ⟨mid, ⟨head, next, does, front⟩, back⟩ := run
        exact ⟨head, next, does, (ih next).mpr ⟨mid, front, back⟩⟩

theorem runs_invariant (inv : State → Prop)
    (step : ∀ state, inv state → Ensures (body state) fun _ next => inv next)
    (first last : State) (turns : List (Turn State Op Ans)) (run : Runs body first turns last) (start : inv first) :
    inv last ∧ ∀ turn ∈ turns, inv turn.before := by
  induction turns generalizing first with
  | nil =>
      have same : first = last := run
      exact ⟨same ▸ start, fun _ member => absurd member List.not_mem_nil⟩
  | cons turn turns ih =>
      obtain ⟨head, mid, does, tail⟩ := run
      obtain ⟨final, others⟩ := ih mid tail ((ensures_iff _ _).mp (step first start) _ _ does)
      refine ⟨final, fun other member => ?_⟩
      cases List.mem_cons.mp member with
      | inl same => exact same ▸ head ▸ start
      | inr later => exact others other later

theorem runs_turn (first last : State) (turns : List (Turn State Op Ans)) (run : Runs body first turns last)
    (turn : Turn State Op Ans) (member : turn ∈ turns) : ∃ after, Does (body turn.before) turn.events after := by
  obtain ⟨before, after, split⟩ := List.append_of_mem member
  rw [split] at run
  obtain ⟨mid, _, head, next, does, _⟩ := (runs_append body first last before _).mp run
  exact ⟨next, head ▸ does⟩

theorem runs_budget (cost : List (Event Op Ans) → Nat) (budget : State → Nat) (paid : State → Prop)
    (step : ∀ state, paid state → Ensures (body state) fun events next => cost events + budget next ≤ budget state)
    (first last : State) (turns : List (Turn State Op Ans)) (run : Runs body first turns last)
    (each : ∀ turn ∈ turns, paid turn.before) :
    (turns.map fun turn => cost turn.events).sum + budget last ≤ budget first := by
  induction turns generalizing first with
  | nil =>
      have same : first = last := run
      simp [same]
  | cons turn turns ih =>
      obtain ⟨head, mid, does, tail⟩ := run
      have here : paid first := head ▸ each turn List.mem_cons_self
      have now := (ensures_iff _ _).mp (step first here) _ _ does
      have later := ih mid tail fun other member => each other (List.mem_cons_of_mem turn member)
      rw [List.map_cons, List.sum_cons]
      omega

end Lib.Daemon
