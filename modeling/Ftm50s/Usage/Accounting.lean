import Ftm50s.Usage.PppData

set_option autoImplicit false

namespace Ftm50s.Usage
open Lib.Text Lib.Filter Lib.Decimal Ftm50s.Daemons

-- What can happen to the accounting: ppp0 comes and goes, data_dmon takes a
-- turn while the counters stand at rx and tx, or one of the scripts runs.
inductive Happening where
  | connect
  | tick (rx tx : Nat) (ifconfig : Bytes)
  | disconnect
  | sumData
  | killpppd
  | reboot

def happen (data : PppData) : Happening → PppData
  | .connect => { data with connected := true }
  | .tick _ _ ifconfig => dataDmon data ifconfig
  | .disconnect => { data with connected := false }
  | .sumData => sumData data
  | .killpppd => killpppd data
  | .reboot => reboot data

-- The same history in numbers. `closed` and `last` are the true account, the
-- counts last recorded for the finished sessions and for the running one;
-- `init` and `cur` are what the two files say, and `summed` tells whether a
-- script has run in this session since the last record.
structure Books where
  connected : Bool
  closed : List (Nat × Nat)
  last : Option (Nat × Nat)
  init : Nat × Nat
  cur : Nat × Nat
  summed : Bool
deriving DecidableEq

def addSummed (books : Books) : Books := { books with init := addPair books.init books.cur, summed := books.connected }

def keep (books : Books) : Happening → Books
  | .connect => { books with connected := true, last := none, summed := false }
  | .tick rx tx _ =>
      if books.connected then { books with last := some (rx, tx), cur := (rx, tx), summed := false } else books
  | .disconnect =>
      { books with connected := false, closed := books.last.getD (0, 0) :: books.closed, last := none, summed := false }
  | .sumData => addSummed books
  | .killpppd => addSummed books
  | .reboot => addSummed books

def startData : PppData := ⟨showPair (0, 0), showPair (0, 0), false⟩

def startBooks : Books := ⟨false, [], none, (0, 0), (0, 0), false⟩

def dataAfter (events : List Happening) : PppData := events.foldl happen startData

def booksAfter (events : List Happening) : Books := events.foldl keep startBooks

def sumPairs (pairs : List (Nat × Nat)) : Nat × Nat := pairs.foldr addPair (0, 0)

def total (books : Books) : Nat × Nat := addPair (sumPairs books.closed) (books.last.getD (0, 0))

-- A history as it can occur: sessions follow one another, each has a tick
-- before it ends, and ifconfig shows the counters.
def Proper (books : Books) : Happening → Prop
  | .connect => books.connected = false
  | .tick rx tx ifconfig => getRxTx ifconfig = decimal rx ++ 32 :: decimal tx
  | .disconnect => books.connected = true ∧ books.last.isSome = true
  | _ => True

def Fits (books : Books) : Prop := Small (addPair books.init books.cur)

-- One script run in each session, after its last tick; a record of zero bytes
-- may be added or left out at will.
def Meets (books : Books) : Happening → Prop
  | .connect => True
  | .tick _ _ _ => books.cur = (0, 0) ∨ books.summed = false
  | .disconnect => books.cur = (0, 0) ∨ books.summed = true
  | _ => books.cur = (0, 0) ∨ (books.connected = true ∧ books.last.isSome = true ∧ books.summed = false)

def Along (holds : Books → Happening → Prop) (books : Books) : List Happening → Prop
  | [] => True
  | event :: events => holds books event ∧ Along holds (keep books event) events

def isTick : Happening → Bool
  | .tick _ _ _ => true
  | _ => false

def Moment (event : Happening) (books : Books) : Prop := isTick event = true ∨ books.connected = false

-- Right at every moment that counts: after a tick and whenever ppp0 is down.
def Accounted (events : List Happening) : Prop :=
  ∀ before event after, events = before ++ event :: after → Moment event (booksAfter (before ++ [event])) →
    getPppData (dataAfter (before ++ [event])) = showPair (total (booksAfter (before ++ [event])))

def Agrees (data : PppData) (books : Books) : Prop :=
  data.connected = books.connected ∧ data.initData = showPair books.init ∧ data.curData = showPair books.cur

def printed (books : Books) : Nat × Nat := if books.connected then addPair books.init books.cur else books.init

theorem agrees_printed (data : PppData) (books : Books) (agrees : Agrees data books) (fits : Fits books) :
    getPppData data = showPair (printed books) := by
  obtain ⟨link, init, cur⟩ := agrees
  by_cases up : books.connected = true
  · rw [printed, if_pos up]
    exact get_ppp_data_up data books.init books.cur init cur fits (link.trans up)
  · rw [printed, if_neg up]
    exact get_ppp_data_down data books.init init (link.trans (Bool.not_eq_true _ ▸ up))

theorem agrees_sum (data : PppData) (books : Books) (agrees : Agrees data books) (fits : Fits books) :
    Agrees (addCurrent data) (addSummed books) :=
  ⟨agrees.1, add_current_shown data books.init books.cur agrees.2.1 agrees.2.2 fits, agrees.2.2⟩

theorem agrees_step (data : PppData) (books : Books) (event : Happening) (agrees : Agrees data books)
    (proper : Proper books event) (fits : Fits books) : Agrees (happen data event) (keep books event) := by
  cases event with
  | connect => exact ⟨rfl, agrees.2⟩
  | disconnect => exact ⟨rfl, agrees.2⟩
  | sumData => exact agrees_sum data books agrees fits
  | killpppd => exact agrees_sum data books agrees fits
  | reboot => exact agrees_sum data books agrees fits
  | tick rx tx ifconfig =>
      obtain ⟨link, init, cur⟩ := agrees
      by_cases up : books.connected = true
      · have shown : getRxTx ifconfig = decimal rx ++ 32 :: decimal tx := proper
        rw [happen, dataDmon, keep, if_pos up, if_pos (link.trans up), shown]
        exact ⟨link, init, echo_shown rx tx⟩
      · rw [happen, dataDmon, keep, if_neg up, if_neg (link ▸ up)]
        exact ⟨link, init, cur⟩

-- What holds as long as every step meets the condition: the total file has
-- every finished session once, and the running one if a script added it.
structure Balanced (books : Books) : Prop where
  init : books.init = addPair (sumPairs books.closed) (if books.summed then books.cur else (0, 0))
  current : ∀ pair, books.last = some pair → books.cur = pair
  down : books.connected = false → books.summed = false ∧ books.last = none

theorem add_zero_pair (pair : Nat × Nat) : addPair pair (0, 0) = pair := rfl

theorem add_pair_comm (left right : Nat × Nat) : addPair left right = addPair right left :=
  Prod.ext (Nat.add_comm _ _) (Nat.add_comm _ _)

theorem start_balanced : Balanced startBooks := ⟨rfl, by simp [startBooks], by simp [startBooks]⟩

theorem balanced_sum (books : Books) (balanced : Balanced books)
    (meets : books.cur = (0, 0) ∨ (books.connected = true ∧ books.last.isSome = true ∧ books.summed = false)) :
    Balanced (addSummed books) := by
  obtain ⟨init, current, down⟩ := balanced
  refine ⟨?_, current, fun off => ⟨off, (down off).2⟩⟩
  cases meets with
  | inl zero => simp [addSummed, init, zero, add_zero_pair]
  | inr once =>
      rw [once.2.2, if_neg (by decide), add_zero_pair] at init
      simp [addSummed, init, once.1]

theorem balanced_step (books : Books) (event : Happening) (balanced : Balanced books) (proper : Proper books event)
    (meets : Meets books event) : Balanced (keep books event) := by
  cases event with
  | sumData => exact balanced_sum books balanced meets
  | killpppd => exact balanced_sum books balanced meets
  | reboot => exact balanced_sum books balanced meets
  | connect =>
      have off := (balanced.down proper).1
      have init := balanced.init
      rw [off] at init
      exact ⟨init, by simp [keep], by simp [keep]⟩
  | tick rx tx ifconfig =>
      by_cases up : books.connected = true
      · have init : books.init = sumPairs books.closed := by
          have init := balanced.init
          cases meets with
          | inl zero => rw [init, zero, ite_self, add_zero_pair]
          | inr unsummed => rw [init, unsummed, if_neg (by decide), add_zero_pair]
        rw [keep, if_pos up]
        exact ⟨init, by simp, by simp [up]⟩
      · rw [keep, if_neg up]
        exact balanced
  | disconnect =>
      obtain ⟨up, ticked⟩ := proper
      obtain ⟨pair, last⟩ := Option.isSome_iff_exists.mp ticked
      have same := balanced.current pair last
      refine ⟨?_, by simp [keep], by simp [keep]⟩
      have init : books.init = addPair (sumPairs books.closed) pair := by
        have init := balanced.init
        cases meets with
        | inl zero => rw [init, zero, ite_self, ← zero, same]
        | inr summed => rw [init, summed, if_pos rfl, same]
      simp only [keep, last, Option.getD_some, Bool.false_eq_true, if_false, add_zero_pair]
      rw [init, add_pair_comm]
      rfl

theorem balanced_right (books : Books) (event : Happening) (balanced : Balanced (keep books event))
    (moment : Moment event (keep books event)) : printed (keep books event) = total (keep books event) := by
  by_cases up : (keep books event).connected = true
  · cases event with
    | tick rx tx ifconfig =>
        by_cases before : books.connected = true
        · have init := balanced.init
          rw [keep, if_pos before] at init ⊢
          simp only [printed, before, if_true, total, Option.getD_some]
          simp only [Bool.false_eq_true, if_false, add_zero_pair] at init
          rw [init]
        · rw [keep, if_neg before] at up
          exact absurd up before
    | _ => simp_all [Moment, isTick]
  · have off : (keep books event).connected = false := by simpa using up
    obtain ⟨unsummed, none⟩ := balanced.down off
    rw [printed, if_neg up, balanced.init, unsummed, total, none]
    rfl

-- A wrong amount in the total file that has not shown yet: the session goes
-- on, and whatever comes next to count shows it.
def Spoiled (books : Books) : Prop :=
  books.connected = true ∧ ((total books).1 < books.init.1 ∨ (total books).2 < books.init.2)

def Wrong (event : Happening) (books : Books) : Prop := Moment event books ∧ printed books ≠ total books

def Pending (event : Happening) (books : Books) : Prop := Spoiled books ∧ isTick event = false

theorem pending_no_moment (event : Happening) (books : Books) (pending : Pending event books) :
    ¬Moment event books := by
  intro moment
  cases moment with
  | inl tick => exact absurd (tick.symm.trans pending.2) (by decide)
  | inr off => exact absurd (off.symm.trans pending.1.1) (by decide)

theorem spoiled_sum (books : Books) (spoiled : Spoiled books) : Spoiled (addSummed books) := by
  obtain ⟨up, excess⟩ := spoiled
  refine ⟨up, ?_⟩
  simp only [addSummed, total, addPair] at excess ⊢
  omega

theorem spoiled_step (books : Books) (event : Happening) (spoiled : Spoiled books) (proper : Proper books event) :
    Wrong event (keep books event) ∨ Pending event (keep books event) := by
  cases event with
  | sumData => exact Or.inr ⟨spoiled_sum books spoiled, rfl⟩
  | killpppd => exact Or.inr ⟨spoiled_sum books spoiled, rfl⟩
  | reboot => exact Or.inr ⟨spoiled_sum books spoiled, rfl⟩
  | connect => exact absurd (proper.symm.trans spoiled.1) (by decide)
  | tick rx tx ifconfig =>
      obtain ⟨up, excess⟩ := spoiled
      refine Or.inl ⟨Or.inl rfl, ?_⟩
      simp only [total, addPair] at excess
      simp only [keep, printed, up, if_true, total, Option.getD_some, addPair, ne_eq, Prod.mk.injEq]
      omega
  | disconnect =>
      obtain ⟨up, excess⟩ := spoiled
      refine Or.inl ⟨Or.inr rfl, fun same => ?_⟩
      have paid : books.init = total books := by
        rw [keep, printed, if_neg (by simp)] at same
        simp only [total, Option.getD_none, add_zero_pair] at same
        rw [same, total, add_pair_comm]
        rfl
      rw [paid] at excess
      omega

theorem unmet_sum (books : Books) (event : Happening) (balanced : Balanced books)
    (script : keep books event = addSummed books) (untimed : isTick event = false) (unmet : ¬(books.cur = (0, 0) ∨
    (books.connected = true ∧ books.last.isSome = true ∧ books.summed = false))) :
    Wrong event (keep books event) ∨ Pending event (keep books event) := by
  obtain ⟨init, current, down⟩ := balanced
  obtain ⟨nonzero, twice⟩ := not_or.mp unmet
  have some : 0 < books.cur.1 ∨ 0 < books.cur.2 := by
    by_contra none
    exact nonzero (Prod.ext (by omega) (by omega))
  have first : books.init.1 = (sumPairs books.closed).1 + (if books.summed then books.cur else (0, 0)).1 :=
    congrArg Prod.fst init
  have second : books.init.2 = (sumPairs books.closed).2 + (if books.summed then books.cur else (0, 0)).2 :=
    congrArg Prod.snd init
  rw [script]
  by_cases up : books.connected = true
  · refine Or.inr ⟨⟨up, ?_⟩, untimed⟩
    simp only [addSummed, total, addPair]
    cases last : books.last with
    | none =>
        simp only [Option.getD_none]
        omega
    | some pair =>
        have summed : books.summed = true := by simpa [up, last] using twice
        rw [summed, if_pos rfl] at first second
        rw [Option.getD_some, ← current pair last]
        omega
  · have off : books.connected = false := by simpa using up
    obtain ⟨unsummed, none⟩ := down off
    rw [unsummed, if_neg (by decide)] at first second
    refine Or.inl ⟨Or.inr off, fun same => ?_⟩
    simp only [addSummed, printed, off, Bool.false_eq_true, if_false, total, none, Option.getD_none, addPair,
      Prod.mk.injEq] at same
    omega

theorem unmet_step (books : Books) (event : Happening) (balanced : Balanced books) (proper : Proper books event)
    (unmet : ¬Meets books event) : Wrong event (keep books event) ∨ Pending event (keep books event) := by
  cases event with
  | sumData => exact unmet_sum books _ balanced rfl rfl unmet
  | killpppd => exact unmet_sum books _ balanced rfl rfl unmet
  | reboot => exact unmet_sum books _ balanced rfl rfl unmet
  | connect => exact absurd trivial unmet
  | tick rx tx ifconfig =>
      obtain ⟨nonzero, twice⟩ := not_or.mp unmet
      have summed : books.summed = true := by simpa using twice
      have up : books.connected = true := by
        by_contra off
        have unsummed := (balanced.down (by simpa using off)).1
        rw [summed] at unsummed
        cases unsummed
      refine Or.inl ⟨Or.inl rfl, fun same => nonzero ?_⟩
      have init := balanced.init
      rw [summed, if_pos rfl] at init
      simp only [keep, printed, up, if_true, total, Option.getD_some, init, addPair, Prod.mk.injEq] at same
      exact Prod.ext (by omega) (by omega)
  | disconnect =>
      obtain ⟨nonzero, unsummed⟩ := not_or.mp unmet
      obtain ⟨up, ticked⟩ := proper
      obtain ⟨pair, last⟩ := Option.isSome_iff_exists.mp ticked
      refine Or.inl ⟨Or.inr rfl, fun same => nonzero ?_⟩
      have init := balanced.init
      rw [if_neg unsummed, add_zero_pair] at init
      rw [balanced.current pair last]
      simp only [keep, printed, Bool.false_eq_true, if_false, total, last, Option.getD_some, Option.getD_none,
        add_zero_pair, init] at same
      have first : (sumPairs books.closed).1 = pair.1 + (sumPairs books.closed).1 := congrArg Prod.fst same
      have second : (sumPairs books.closed).2 = pair.2 + (sumPairs books.closed).2 := congrArg Prod.snd same
      exact Prod.ext (by omega) (by omega)

def AccountedFrom (data : PppData) (books : Books) (events : List Happening) : Prop :=
  ∀ before event after, events = before ++ event :: after → Moment event ((before ++ [event]).foldl keep books) →
    getPppData ((before ++ [event]).foldl happen data) = showPair (total ((before ++ [event]).foldl keep books))

theorem accounted_cons (data : PppData) (books : Books) (event : Happening) (events : List Happening) :
    AccountedFrom data books (event :: events) ↔
      (Moment event (keep books event) → getPppData (happen data event) = showPair (total (keep books event))) ∧
        AccountedFrom (happen data event) (keep books event) events := by
  refine ⟨fun all => ⟨fun moment => all [] event events rfl moment, fun before other after split => ?_⟩,
    fun both before other after split => ?_⟩
  · exact all (event :: before) other after (by rw [split]; rfl)
  · cases before with
    | nil =>
        obtain ⟨rfl, _⟩ := List.cons.inj split
        exact both.1
    | cons head before =>
        obtain ⟨rfl, rest⟩ := List.cons.inj split
        exact both.2 before other after rest

def FitsStep (books : Books) (event : Happening) : Prop := Fits books ∧ Fits (keep books event)

theorem met_accounted (events : List Happening) (data : PppData) (books : Books) (agrees : Agrees data books)
    (balanced : Balanced books) (proper : Along Proper books events) (fits : Along FitsStep books events)
    (meets : Along Meets books events) : AccountedFrom data books events := by
  induction events generalizing data books with
  | nil => exact fun before event after split => by simp at split
  | cons event events ih =>
      have nextAgrees := agrees_step data books event agrees proper.1 fits.1.1
      have nextBalanced := balanced_step books event balanced proper.1 meets.1
      refine (accounted_cons data books event events).mpr ⟨fun moment =>
        ?_, ih _ _ nextAgrees nextBalanced proper.2 fits.2 meets.2⟩
      rw [agrees_printed _ _ nextAgrees fits.1.2, balanced_right books event nextBalanced moment]

theorem wrong_not_accounted (data : PppData) (books : Books) (event : Happening) (events : List Happening)
    (agrees : Agrees (happen data event) (keep books event)) (fits : Fits (keep books event))
      (wrong : Wrong event (keep books event)) :
    ¬AccountedFrom data books (event :: events) := by
  intro accounted
  have right := ((accounted_cons data books event events).mp accounted).1 wrong.1
  rw [agrees_printed _ _ agrees fits] at right
  exact wrong.2 (show_pair_injective _ _ right)

-- The history has come to a point that counts, or nothing has happened yet.
def Ends (books : Books) (events : List Happening) : Prop :=
  ∀ event, events.getLast? = some event → Moment event (events.foldl keep books)

theorem ends_tail (books : Books) (event : Happening) (events : List Happening) (nonempty : events ≠ [])
    (ends : Ends books (event :: events)) : Ends (keep books event) events := by
  intro last final
  exact ends last (by rw [List.getLast?_cons_of_ne_nil nonempty]; exact final)

theorem pending_run (events : List Happening) (data : PppData) (books : Books) (agrees : Agrees data books)
    (spoiled : Spoiled books) (nonempty : events ≠ []) (proper : Along Proper books events)
      (fits : Along FitsStep books events) (ends : Ends books events) :
    ¬AccountedFrom data books events := by
  induction events generalizing data books with
  | nil => exact absurd rfl nonempty
  | cons event events ih =>
      have nextAgrees := agrees_step data books event agrees proper.1 fits.1.1
      cases spoiled_step books event spoiled proper.1 with
      | inl wrong => exact wrong_not_accounted data books event events nextAgrees fits.1.2 wrong
      | inr pending =>
          intro accounted
          cases events with
          | nil => exact pending_no_moment event _ pending (ends event rfl)
          | cons second others =>
              have later := ((accounted_cons data books event _).mp accounted).2
              exact ih _ _ nextAgrees pending.1 (by simp) proper.2 fits.2 (ends_tail books event _ (by simp) ends) later

theorem accounted_met (events : List Happening) (data : PppData) (books : Books) (agrees : Agrees data books)
    (balanced : Balanced books) (proper : Along Proper books events) (fits : Along FitsStep books events)
    (ends : Ends books events) (accounted : AccountedFrom data books events) : Along Meets books events := by
  induction events generalizing data books with
  | nil => trivial
  | cons event events ih =>
      have nextAgrees := agrees_step data books event agrees proper.1 fits.1.1
      have later := ((accounted_cons data books event events).mp accounted).2
      by_cases meets : Meets books event
      · refine ⟨meets, ?_⟩
        cases events with
        | nil => trivial
        | cons second others =>
            exact ih _ _ nextAgrees (balanced_step books event balanced proper.1 meets) proper.2 fits.2
              (ends_tail books event _ (by simp) ends) later
      · exfalso
        cases unmet_step books event balanced proper.1 meets with
        | inl wrong => exact wrong_not_accounted data books event events nextAgrees fits.1.2 wrong accounted
        | inr pending =>
            cases events with
            | nil => exact pending_no_moment event _ pending (ends event rfl)
            | cons second others =>
                exact pending_run _ _ _ nextAgrees pending.1 (by simp) proper.2 fits.2
                  (ends_tail books event _ (by simp) ends) later

theorem start_agrees : Agrees startData startBooks := ⟨rfl, rfl, rfl⟩

theorem usage_accounting (events : List Happening) (proper : Along Proper startBooks events)
    (fits : Along FitsStep startBooks events) :
    (Along Meets startBooks events → Accounted events) ∧
      (Ends startBooks events → Accounted events → Along Meets startBooks events) :=
  ⟨met_accounted events startData startBooks start_agrees start_balanced proper fits,
    accounted_met events startData startBooks start_agrees start_balanced proper fits⟩

def ifconfigFirst : Bytes := ascii "ppp0      Link encap:Point-to-Point Protocol\n          RX bytes:100 (100.0 B)  TX bytes:50 (50.0 B)\n"

def ifconfigSecond : Bytes := ascii "ppp0      Link encap:Point-to-Point Protocol\n          RX bytes:7 (7.0 B)  TX bytes:3 (3.0 B)\n"

theorem session_forgotten : ¬∀ events, Along Proper startBooks events → Accounted events := by
  intro all
  have proper : Along Proper startBooks [.connect, .tick 100 50 ifconfigFirst, .disconnect] :=
    ⟨rfl, (by decide +kernel : getRxTx ifconfigFirst = _), ⟨rfl, rfl⟩, trivial⟩
  have right := all _ proper [.connect, .tick 100 50 ifconfigFirst] .disconnect [] rfl (Or.inr rfl)
  exact absurd right (by decide +kernel)

theorem usage_accounting_two_sessions :
    let events : List Happening :=
      [.connect, .tick 100 50 ifconfigFirst, .killpppd, .disconnect, .connect, .tick 7 3 ifconfigSecond]
    Accounted events ∧ getPppData (dataAfter events) = showPair (107, 53) := by
  intro events
  have proper : Along Proper startBooks events :=
    ⟨rfl, (by decide +kernel : getRxTx ifconfigFirst = _), trivial, ⟨rfl, rfl⟩, rfl,
      (by decide +kernel : getRxTx ifconfigSecond = _), trivial⟩
  have fits : Along FitsStep startBooks events := by
    simp [events, Along, FitsStep, Fits, Small, keep, addSummed, startBooks, addPair]
  have meets : Along Meets startBooks events := by
    simp [events, Along, Meets, keep, addSummed, startBooks]
  have accounted := (usage_accounting events proper fits).1 meets
  exact ⟨accounted, accounted [.connect, .tick 100 50 ifconfigFirst, .killpppd, .disconnect, .connect] _ [] rfl
    (Or.inl rfl)⟩

end Ftm50s.Usage
