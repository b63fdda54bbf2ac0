import Ftm50s.Lib.Daemon

set_option autoImplicit false

namespace Lib.Daemon

-- Two daemons over one shared world. A step is one operation of either, the
-- silent move of a finished turn to the next one, or a change of the world
-- that neither of them makes. `effect` says what an operation does to the
-- world, and refuses answers that the world does not give.
structure System (World Op : Type) (Ans : Op → Type) (Left Right : Type) where
  world : World
  left : Prog Op Ans Left
  right : Prog Op Ans Right

inductive Label (Op : Type) (Ans : Op → Type) where
  | left (event : Option (Event Op Ans))
  | right (event : Option (Event Op Ans))
  | drift

variable {World Op : Type} {Ans : Op → Type} {Left Right Result : Type}

structure Stage (World Op : Type) (Ans : Op → Type) (Left Right : Type) where
  before : System World Op Ans Left Right
  label : Label Op Ans

section
variable (effect : World → Event Op Ans → Option World) (drifts : World → World → Bool)
  (leftBody : Left → Prog Op Ans Left) (rightBody : Right → Prog Op Ans Right)

inductive Step : System World Op Ans Left Right → Label Op Ans → System World Op Ans Left Right → Prop where
  | leftActs (world after : World) (op : Op) (answer : Ans op) (next : Ans op → Prog Op Ans Left)
    (right : Prog Op Ans Right)
      (act : effect world ⟨op, answer⟩ = some after) :
      Step ⟨world, .call op next, right⟩ (.left (some ⟨op, answer⟩)) ⟨after, next answer, right⟩
  | leftAgain (world : World) (state : Left) (right : Prog Op Ans Right) :
      Step ⟨world, .done state, right⟩ (.left none) ⟨world, leftBody state, right⟩
  | rightActs (world after : World) (op : Op) (answer : Ans op) (next : Ans op → Prog Op Ans Right)
    (left : Prog Op Ans Left)
      (act : effect world ⟨op, answer⟩ = some after) :
      Step ⟨world, left, .call op next⟩ (.right (some ⟨op, answer⟩)) ⟨after, left, next answer⟩
  | rightAgain (world : World) (state : Right) (left : Prog Op Ans Left) :
      Step ⟨world, left, .done state⟩ (.right none) ⟨world, left, rightBody state⟩
  | drift (world after : World) (left : Prog Op Ans Left) (right : Prog Op Ans Right) (moved : drifts world after =
    true) :
      Step ⟨world, left, right⟩ .drift ⟨after, left, right⟩

-- An interleaving: each step with the system it was taken in.
def Path : System World Op Ans Left Right → List (Stage World Op Ans Left Right) → System World Op Ans Left Right → Prop
  | first, [], last => first = last
  | first, stage :: stages, last => stage.before = first ∧
      ∃ mid, Step effect drifts leftBody rightBody first stage.label mid ∧ Path mid stages last

theorem path_append (first last : System World Op Ans Left Right)
    (before after : List (Stage World Op Ans Left Right)) :
    Path effect drifts leftBody rightBody first (before ++ after) last ↔
      ∃ mid, Path effect drifts leftBody rightBody first before mid ∧
      Path effect drifts leftBody rightBody mid after last := by
  induction before generalizing first with
  | nil => exact ⟨fun tail => ⟨first, rfl, tail⟩, fun ⟨mid, same, tail⟩ => same ▸ tail⟩
  | cons stage before ih =>
      refine ⟨fun path => ?_, fun path => ?_⟩
      · obtain ⟨head, next, step, tail⟩ := path
        obtain ⟨mid, front, back⟩ := (ih next).mp tail
        exact ⟨mid, ⟨head, next, step, front⟩, back⟩
      · obtain ⟨mid, ⟨head, next, step, front⟩, back⟩ := path
        exact ⟨head, next, step, (ih next).mpr ⟨mid, front, back⟩⟩

theorem path_invariant (inv : System World Op Ans Left Right → Prop) (held : Stage World Op Ans Left Right → Prop)
    (kept : ∀ before label after, inv before → held ⟨before, label⟩ →
    Step effect drifts leftBody rightBody before label after → inv after) (first last : System World Op Ans Left Right)
      (stages : List (Stage World Op Ans Left Right)) (path : Path effect drifts leftBody rightBody first stages last)
        (each : ∀ stage ∈ stages, held stage) (start : inv first) :
    inv last ∧ ∀ stage ∈ stages, inv stage.before := by
  induction stages generalizing first with
  | nil =>
      have same : first = last := path
      exact ⟨same ▸ start, fun _ member => absurd member List.not_mem_nil⟩
  | cons stage stages ih =>
      obtain ⟨rfl, mid, step, tail⟩ := path
      rw [List.forall_mem_cons] at each
      obtain ⟨final, others⟩ := ih mid tail each.2 (kept _ _ _ start each.1 step)
      exact ⟨final, List.forall_mem_cons.mpr ⟨start, others⟩⟩

theorem path_step (first last : System World Op Ans Left Right) (stages : List (Stage World Op Ans Left Right))
    (path : Path effect drifts leftBody rightBody first stages last) (stage : Stage World Op Ans Left Right)
    (member : stage ∈ stages) : ∃ after, Step effect drifts leftBody rightBody stage.before stage.label after := by
  obtain ⟨before, later, rfl⟩ := List.append_of_mem member
  obtain ⟨mid, _, rfl, next, step, _⟩ := (path_append effect drifts leftBody rightBody _ _ _ _).mp path
  exact ⟨next, step⟩

def leftEvents (stages : List (Stage World Op Ans Left Right)) : List (Event Op Ans) :=
  stages.filterMap fun stage =>
    match stage.label with
    | .left event => event
    | _ => none

theorem path_preceded (trigger : Event Op Ans → Prop) (guarded : Op → Prop) (armed : Prop)
    (bodies : ∀ state, Preceded trigger guarded False (leftBody state)) (first last : System World Op Ans Left Right)
    (stages : List (Stage World Op Ans Left Right)) (path : Path effect drifts leftBody rightBody first stages last)
    (start : Preceded trigger guarded armed first.left) (before after : List (Event Op Ans)) (event : Event Op Ans)
    (split : leftEvents stages = before ++ event :: after) (hit : guarded event.op) :
    (before = [] ∧ armed) ∨ ∃ earlier last, before = earlier ++ [last] ∧ trigger last := by
  induction stages generalizing first armed before with
  | nil => simp [leftEvents] at split
  | cons stage stages ih =>
      obtain ⟨stageBefore, label⟩ := stage
      obtain ⟨rfl, mid, step, tail⟩ := path
      cases step with
      | leftActs world changed op answer next right act =>
          have shape : (⟨op, answer⟩ : Event Op Ans) :: leftEvents stages = before ++ event :: after := split
          cases before with
          | nil =>
              obtain ⟨rfl, _⟩ := List.cons.inj shape
              exact Or.inl ⟨rfl, start.1 hit⟩
          | cons head before =>
              obtain ⟨rfl, rest⟩ := List.cons.inj shape
              cases ih (trigger ⟨op, answer⟩) _ tail (start.2 answer) before rest with
              | inl first => exact Or.inr ⟨[], _, by rw [first.1]; rfl, first.2⟩
              | inr later =>
                  obtain ⟨earlier, last, rfl, fired⟩ := later
                  exact Or.inr ⟨_ :: earlier, last, rfl, fired⟩
      | leftAgain world state right =>
          cases ih False _ tail (bodies state) before split with
          | inl none => exact none.2.elim
          | inr later => exact Or.inr later
      | rightActs world changed op answer next left act => exact ih armed _ tail start before split
      | rightAgain world state left => exact ih armed _ tail start before split
      | drift world changed left right moved => exact ih armed _ tail start before split

-- A schedule names who moves and what the world answers, so that one
-- interleaving can be computed.
inductive Move (World Op : Type) (Ans : Op → Type) where
  | left (reply : (op : Op) → Ans op)
  | right (reply : (op : Op) → Ans op)
  | drift (after : World)

def move (sys : System World Op Ans Left Right) :
    Move World Op Ans → Option (Label Op Ans × System World Op Ans Left Right)
  | .left reply =>
      match sys.left with
      | .done state => some (.left none, { sys with left := leftBody state })
      | .call op next => (effect sys.world ⟨op, reply op⟩).map fun after =>
          (.left (some ⟨op, reply op⟩), ⟨after, next (reply op), sys.right⟩)
  | .right reply =>
      match sys.right with
      | .done state => some (.right none, { sys with right := rightBody state })
      | .call op next => (effect sys.world ⟨op, reply op⟩).map fun after =>
          (.right (some ⟨op, reply op⟩), ⟨after, sys.left, next (reply op)⟩)
  | .drift after => if drifts sys.world after then some (.drift, { sys with world := after }) else none

def play (sys : System World Op Ans Left Right) :
    List (Move World Op Ans) → Option (List (Stage World Op Ans Left Right) × System World Op Ans Left Right)
  | [] => some ([], sys)
  | turn :: turns =>
      match move effect drifts leftBody rightBody sys turn with
      | none => none
      | some (label, next) => (play next turns).map fun (stages, last) => (⟨sys, label⟩ :: stages, last)

theorem move_step (sys next : System World Op Ans Left Right) (turn : Move World Op Ans) (label : Label Op Ans)
    (moved : move effect drifts leftBody rightBody sys turn = some (label, next)) :
    Step effect drifts leftBody rightBody sys label next := by
  obtain ⟨world, left, right⟩ := sys
  cases turn with
  | left reply =>
      cases left with
      | done state => cases moved; exact .leftAgain world state right
      | call op rest =>
          obtain ⟨after, act, same⟩ := Option.map_eq_some_iff.mp moved
          cases same
          exact .leftActs world after op (reply op) rest right act
  | right reply =>
      cases right with
      | done state => cases moved; exact .rightAgain world state left
      | call op rest =>
          obtain ⟨after, act, same⟩ := Option.map_eq_some_iff.mp moved
          cases same
          exact .rightActs world after op (reply op) rest left act
  | drift after =>
      by_cases allowed : drifts world after = true
      · rw [move, if_pos allowed] at moved
        cases moved
        exact .drift world after left right allowed
      · rw [move, if_neg allowed] at moved
        cases moved

theorem play_path (turns : List (Move World Op Ans)) (first last : System World Op Ans Left Right)
    (stages : List (Stage World Op Ans Left Right)) (played : play effect drifts leftBody rightBody first turns =
    some (stages, last)) :
    Path effect drifts leftBody rightBody first stages last := by
  induction turns generalizing first stages with
  | nil => cases played; rfl
  | cons turn turns ih =>
      rw [play] at played
      cases moved : move effect drifts leftBody rightBody first turn with
      | none => rw [moved] at played; cases played
      | some result =>
          obtain ⟨label, next⟩ := result
          rw [moved] at played
          obtain ⟨⟨rest, final⟩, tail, same⟩ := Option.map_eq_some_iff.mp played
          cases same
          exact ⟨rfl, next, move_step effect drifts leftBody rightBody first next turn label moved, ih next rest tail⟩

theorem play_exists (turns : List (Move World Op Ans)) (first : System World Op Ans Left Right)
    (test : List (Stage World Op Ans Left Right) → System World Op Ans Left Right → Bool)
    (passed : (play effect drifts leftBody rightBody first turns).any (fun (stages, last) => test stages last) = true) :
    ∃ stages last, Path effect drifts leftBody rightBody first stages last ∧ test stages last = true := by
  obtain ⟨⟨stages, last⟩, played, holds⟩ := (Option.any_eq_true _ _).mp passed
  exact ⟨stages, last, play_path effect drifts leftBody rightBody turns first last stages played, holds⟩

end

def nextOp : Prog Op Ans Result → Option Op
  | .done _ => none
  | .call op _ => some op

-- A condition on the world and the rest of the program that holds at every
-- point of a turn, however the others change the world between two operations
-- (`rely`).
def Throughout (effect : World → Event Op Ans → Option World) (rely : World → World → Prop)
    (fit : World → Prog Op Ans Result → Prop) : Prog Op Ans Result → World → Prop
  | .done result, world => ∀ now, rely world now → fit now (.done result)
  | .call op next, world => ∀ now, rely world now → fit now (.call op next) ∧
      ∀ answer after, effect now ⟨op, answer⟩ = some after → Throughout effect rely fit (next answer) after

section
variable (effect : World → Event Op Ans → Option World) (rely : World → World → Prop)
    (fit : World → Prog Op Ans Result → Prop)

@[simp]
theorem throughout_done (result : Result) (world : World) :
    Throughout effect rely fit (.done result) world ↔ ∀ now, rely world now → fit now (.done result) := Iff.rfl

@[simp]
theorem throughout_call (op : Op) (next : Ans op → Prog Op Ans Result) (world : World) :
    Throughout effect rely fit (.call op next) world ↔ ∀ now, rely world now → fit now (.call op next) ∧
      ∀ answer after, effect now ⟨op, answer⟩ = some after → Throughout effect rely fit (next answer) after := Iff.rfl

@[simp]
theorem throughout_ite (p : Prop) [Decidable p] (yes no : Prog Op Ans Result) (world : World) :
    Throughout effect rely fit (if p then yes else no) world ↔
      (p → Throughout effect rely fit yes world) ∧ (¬p → Throughout effect rely fit no world) := by
  by_cases holds : p
  · simp [holds]
  · simp [holds]

theorem throughout_now (prog : Prog Op Ans Result) (world : World) (same : rely world world)
    (holds : Throughout effect rely fit prog world) : fit world prog := by
  cases prog with
  | done result => exact holds world same
  | call op next => exact (holds world same).1

theorem throughout_act (op : Op) (next : Ans op → Prog Op Ans Result) (world after : World) (answer : Ans op)
    (same : rely world world) (act : effect world ⟨op, answer⟩ = some after)
    (holds : Throughout effect rely fit (.call op next) world) : Throughout effect rely fit (next answer) after :=
  (holds world same).2 answer after act

theorem throughout_rely (trans : ∀ first second third, rely first second → rely second third → rely first third)
    (prog : Prog Op Ans Result) (world now : World) (change : rely world now)
      (holds : Throughout effect rely fit prog world) :
    Throughout effect rely fit prog now := by
  cases prog with
  | done result => exact fun later more => holds later (trans world now later change more)
  | call op next => exact fun later more => holds later (trans world now later change more)

end

end Lib.Daemon
