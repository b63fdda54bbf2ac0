import Ftm50s.Lib.Text
import Ftm50s.Lib.Daemon
import Mathlib.Algebra.Order.BigOperators.Group.List
import Mathlib.Algebra.Order.Group.Nat

set_option autoImplicit false

namespace Ftm50s.Xcom

open Lib.Text Lib.Daemon

-- A read of one byte answers 1 with the byte, 0, or -1.
inductive ReadResult where
  | byte (c : UInt8)
  | zero
  | error
deriving DecidableEq, Repr

inductive Op where
  | gettimeofday | read | usleep
deriving DecidableEq, Repr

structure Timeval where
  tvSec : BitVec 32
  tvUsec : BitVec 32
deriving DecidableEq, Repr

abbrev Ans : Op → Type
  | .gettimeofday => Timeval
  | .read => ReadResult
  | .usleep => Unit

-- The time in microseconds, modulo the 32 bits of an unsigned long
def micros (tv : Timeval) : BitVec 32 := tv.tvSec * 1000000#32 + tv.tvUsec

-- nTimeout is converted to unsigned long for the comparison.
def expired (start now : Timeval) (nTimeout : BitVec 32) : Bool := nTimeout.ult (micros now - micros start)

-- What ch holds when the test of read is passed. An error passes it too, and
-- leaves ch as it was.
def passed (ch : UInt8) : ReadResult → Option UInt8
  | .byte c => some c
  | .zero => none
  | .error => some ch

-- Both loops of XCOM_Read from a read of the inner one on, with the given number
-- of places left in lpszBuf; buf is what has been stored. The inner loop goes on
-- while reads pass the test, the outer one looks at the clock after each byte that
-- the second read has brought. Without a place left a passed read sets nStop.
def fill (start : Timeval) (nTimeout : BitVec 32) : Nat → UInt8 → Bytes → Prog Op Ans Bytes
  | 0, ch, buf =>
      .call .read fun result =>
        match passed ch result with
        | some _ => .call .usleep fun _ => .done buf
        | none => .call .usleep fun _ => .call .read fun _ => .done buf
  | room + 1, ch, buf =>
      .call .read fun result =>
        match passed ch result with
        | some ch => fill start nTimeout room ch (buf ++ [ch])
        | none =>
            .call .usleep fun _ => .call .read fun again =>
              match passed ch again with
              | some ch =>
                  .call .gettimeofday fun now =>
                    if expired start now nTimeout then .done (buf ++ [ch])
                    else fill start nTimeout room ch (buf ++ [ch])
              | none => .done buf

-- ch is not initialised. The result is what stands in lpszBuf before the NUL,
-- nReadCount its length.
def xcomRead (nMaxBuf : Nat) (nTimeout : BitVec 32) (ch : UInt8) : Prog Op Ans Bytes :=
  .call .gettimeofday fun start =>
    .call .gettimeofday fun now =>
      if expired start now nTimeout then .done [] else fill start nTimeout nMaxBuf ch []

-- Every byte stored, with its index; the NUL is the last.
def writes (buf : Bytes) : List (UInt8 × Nat) := (buf ++ [0]).zipIdx

def received (events : List (Event Op Ans)) : Bytes :=
  events.filterMap fun event =>
    match event with
    | ⟨.read, .byte c⟩ => some c
    | _ => none

def isFailure (event : Event Op Ans) : Bool :=
  match event with
  | ⟨.read, .error⟩ => true
  | _ => false

def failures (events : List (Event Op Ans)) : Nat := events.countP isFailure

theorem writes_below (buf : Bytes) (nMaxBuf : Nat) :
    (∀ write ∈ writes buf, write.2 < nMaxBuf) ↔ buf.length < nMaxBuf := by
  constructor
  · intro below
    have last : ((0 : UInt8), buf.length) ∈ writes buf := by
      rw [writes, List.mem_zipIdx_iff_getElem?]
      simp
    exact below _ last
  · intro short write member
    have inside := List.snd_lt_of_mem_zipIdx member
    rw [List.length_append, List.length_singleton] at inside
    omega

-- What a call has stored, by what it has received and how many reads have failed
structure Stored (room : Nat) (events : List (Event Op Ans)) (more : Bytes) : Prop where
  bound : more.length ≤ room
  unfilled : more.length < room → more.length = (received events).length + failures events
  clean : failures events = 0 → more = (received events).take room

theorem stored_none (room : Nat) (events : List (Event Op Ans)) (nothing : received events = [])
    (failed : failures events = 0) :
    Stored room events [] := by
  refine ⟨Nat.zero_le _, fun _ => ?_, fun _ => ?_⟩
  · rw [nothing, failed]
    rfl
  · rw [nothing, List.take_nil]

theorem stored_full (events : List (Event Op Ans)) : Stored 0 events [] := ⟨Nat.le_refl 0, nofun, fun _ => rfl⟩

theorem stored_read (room : Nat) (ch next : UInt8) (result : ReadResult) (events : List (Event Op Ans)) (more : Bytes)
    (brings : passed ch result = some next) (later : Stored room events more) :
    Stored (room + 1) (⟨.read, result⟩ :: events) (next :: more) := by
  obtain ⟨bound, unfilled, clean⟩ := later
  cases result with
  | zero => cases brings
  | byte c =>
      obtain rfl := Option.some.inj brings
      have bytes : received (⟨.read, .byte c⟩ :: events) = c :: received events := rfl
      have none : failures (⟨.read, .byte c⟩ :: events) = failures events :=
        List.countP_cons_of_neg (by simp [isFailure])
      refine ⟨by simpa using bound, fun short => ?_, fun zero => ?_⟩
      · rw [List.length_cons] at short
        rw [bytes, none, List.length_cons, List.length_cons, unfilled (by omega)]
        omega
      · rw [none] at zero
        rw [bytes, List.take_succ_cons, ← clean zero]
  | error =>
      have bytes : received (⟨.read, .error⟩ :: events) = received events := rfl
      have one : failures (⟨.read, .error⟩ :: events) = failures events + 1 := List.countP_cons_of_pos rfl
      refine ⟨by simpa using bound, fun short => ?_, fun zero => ?_⟩
      · rw [List.length_cons] at short
        rw [bytes, one, List.length_cons, unfilled (by omega), Nat.add_assoc]
      · rw [one] at zero
        cases zero

theorem stored_same (room : Nat) (events others : List (Event Op Ans)) (more : Bytes)
    (bytes : received others = received events) (failed : failures others = failures events)
      (stored : Stored room events more) : Stored room others more := by
  obtain ⟨bound, unfilled, clean⟩ := stored
  rw [← bytes, ← failed] at unfilled
  rw [← bytes, ← failed] at clean
  exact ⟨bound, unfilled, clean⟩

theorem stored_pause (room : Nat) (slept : Unit) (events : List (Event Op Ans)) (more : Bytes)
    (stored : Stored room events more) :
    Stored room (⟨.read, .zero⟩ :: ⟨.usleep, slept⟩ :: events) more := stored_same room events _ more rfl rfl stored

theorem again_stored (start : Timeval) (nTimeout : BitVec 32) (room : Nat) (ch : UInt8) (buf : Bytes)
    (later : ∀ next, Ensures (fill start nTimeout room next (buf ++ [next])) fun events result =>
      ∃ more, result = buf ++ [next] ++ more ∧ Stored room events more) (again : ReadResult) (slept : Unit) :
    Ensures (match passed ch again with
      | some ch =>
          .call .gettimeofday fun now =>
            if expired start now nTimeout then .done (buf ++ [ch]) else fill start nTimeout room ch (buf ++ [ch])
      | none => .done buf) fun events result => ∃ more, result = buf ++ more ∧
        Stored (room + 1) (⟨.read, .zero⟩ :: ⟨.usleep, slept⟩ :: ⟨.read, again⟩ :: events) more := by
  cases second : passed ch again with
  | none =>
      obtain rfl : again = .zero := by cases again <;> first | rfl | cases second
      exact ⟨[], (List.append_nil buf).symm, stored_none (room + 1) _ rfl rfl⟩
  | some next =>
      rw [ensures_call]
      intro now
      rw [ensures_ite]
      refine ⟨fun _ => ?_, fun _ => ?_⟩
      · have last := stored_read room ch next again [⟨.gettimeofday, now⟩] [] second (stored_none room _ rfl rfl)
        exact ⟨[next], rfl, stored_pause (room + 1) slept _ [next] last⟩
      · refine ensures_mono _ _ _ (later next) fun events filled spec => ?_
        obtain ⟨more, rfl, stored⟩ := spec
        have timed := stored_same room events (⟨.gettimeofday, now⟩ :: events) more rfl rfl stored
        have last := stored_read room ch next again _ more second timed
        exact ⟨next :: more, by simp, stored_pause (room + 1) slept _ (next :: more) last⟩

-- Induction on the places left; every byte that is stored takes one.
theorem fill_stored (start : Timeval) (nTimeout : BitVec 32) (room : Nat) (ch : UInt8) (buf : Bytes) :
    Ensures (fill start nTimeout room ch buf) fun events result => ∃ more, result = buf ++ more ∧
    Stored room events more := by
  induction room generalizing ch buf with
  | zero =>
      rw [fill, ensures_call]
      intro result
      cases passed ch result with
      | some next => exact fun _ => ⟨[], (List.append_nil buf).symm, stored_full _⟩
      | none => exact fun _ _ => ⟨[], (List.append_nil buf).symm, stored_full _⟩
  | succ room ih =>
      rw [fill, ensures_call]
      intro result
      cases brought : passed ch result with
      | some next =>
          refine ensures_mono _ _ _ (ih next (buf ++ [next])) fun events filled spec => ?_
          obtain ⟨more, rfl, stored⟩ := spec
          exact ⟨next :: more, by simp, stored_read room ch next result events more brought stored⟩
      | none =>
          obtain rfl : result = .zero := by cases result <;> first | rfl | cases brought
          rw [ensures_call]
          intro slept
          rw [ensures_call]
          intro again
          exact again_stored start nTimeout room ch buf (fun next => ih next (buf ++ [next])) again slept

theorem read_stored (nMaxBuf : Nat) (nTimeout : BitVec 32) (ch : UInt8) :
    Ensures (xcomRead nMaxBuf nTimeout ch) fun events buf => Stored nMaxBuf events buf := by
  rw [xcomRead, ensures_call]
  intro start
  rw [ensures_call]
  intro now
  rw [ensures_ite]
  refine ⟨fun _ => stored_none nMaxBuf _ rfl rfl, fun _ => ?_⟩
  refine ensures_mono _ _ _ (fill_stored start nTimeout nMaxBuf ch []) fun events buf spec => ?_
  obtain ⟨more, same, stored⟩ := spec
  rw [List.nil_append] at same
  subst same
  exact stored_same nMaxBuf events _ buf rfl rfl stored

structure Call where
  nMaxBuf : Nat
  nTimeout : BitVec 32
  ch : UInt8
  events : List (Event Op Ans)
  stored : Bytes

def Call.Done (call : Call) : Prop := Does (xcomRead call.nMaxBuf call.nTimeout call.ch) call.events call.stored

def incoming (calls : List Call) : Bytes := calls.flatMap fun call => received call.events

-- Every call stays in its array and stores a stretch of the incoming bytes, and
-- together the calls store all of them and nothing else.
def Faithful (calls : List Call) : Prop :=
  (∀ call ∈ calls, (∀ write ∈ writes call.stored, write.2 < call.nMaxBuf) ∧ call.stored <:+: incoming calls) ∧
    calls.flatMap Call.stored = incoming calls

-- No read has failed, and the bytes leave room for the NUL.
def Call.Clean (call : Call) : Prop := failures call.events = 0 ∧ (received call.events).length < call.nMaxBuf

theorem clean_stored (call : Call) (done : call.Done) (clean : call.Clean) :
    call.stored = received call.events ∧ call.stored.length < call.nMaxBuf := by
  have stored := (ensures_iff _ _).mp (read_stored call.nMaxBuf call.nTimeout call.ch) _ _ done
  have same := stored.clean clean.1
  rw [List.take_of_length_le (Nat.le_of_lt clean.2)] at same
  exact ⟨same, same ▸ clean.2⟩

-- A call that stays in its array has stored at least as many bytes as it has
-- received, so the sums over all calls can only agree call by call.
theorem unfailed_of_faithful (calls : List Call) (done : ∀ call ∈ calls, call.Done)
    (inside : ∀ call ∈ calls, call.stored.length < call.nMaxBuf)
    (lengths : (calls.flatMap Call.stored).length ≤ (incoming calls).length) : ∀ call ∈ calls, call.Clean := by
  have each : ∀ call ∈ calls, call.stored.length = (received call.events).length + failures call.events :=
    fun call member =>
    ((ensures_iff _ _).mp (read_stored call.nMaxBuf call.nTimeout call.ch) _ _ (done call member)).unfilled
      (inside call member)
  have most : ∀ rest : List Call, (∀ call ∈ rest, call ∈ calls) →
      (incoming rest).length + (rest.map fun call => failures call.events).sum = (rest.flatMap Call.stored).length := by
    intro rest
    induction rest with
    | nil => exact fun _ => rfl
    | cons call rest ih =>
        intro within
        have here := each call (within call List.mem_cons_self)
        have later := ih fun other member => within other (List.mem_cons_of_mem _ member)
        rw [incoming] at later ⊢
        rw [List.flatMap_cons, List.flatMap_cons, List.map_cons, List.sum_cons, List.length_append, List.length_append]
        omega
  have total := most calls fun _ member => member
  intro call member
  have none : failures call.events = 0 := by
    have part := List.le_sum_of_mem (List.mem_map_of_mem (f := fun call => failures call.events) member)
    omega
  have here := each call member
  have room := inside call member
  exact ⟨none, by omega⟩

theorem serial_read_iff (calls : List Call) (done : ∀ call ∈ calls, call.Done) :
    Faithful calls ↔ ∀ call ∈ calls, call.Clean := by
  constructor
  · rintro ⟨each, whole⟩
    exact unfailed_of_faithful calls done (fun call member => (writes_below _ _).mp (each call member).1)
      (Nat.le_of_eq (congrArg List.length whole))
  · intro clean
    have same : calls.flatMap Call.stored = incoming calls :=
      List.flatMap_congr fun call member => (clean_stored call (done call member) (clean call member)).1
    refine ⟨fun call member => ?_, same⟩
    refine ⟨(writes_below _ _).mpr (clean_stored call (done call member) (clean call member)).2, ?_⟩
    rw [← same]
    exact List.infix_of_mem_flatten (List.mem_map_of_mem member)

def okCall (nMaxBuf : Nat) : Call where
  nMaxBuf := nMaxBuf
  nTimeout := 1000000#32
  ch := 0x55
  events := [⟨.gettimeofday, ⟨7#32, 0#32⟩⟩, ⟨.gettimeofday, ⟨7#32, 9#32⟩⟩, ⟨.read, .byte 0x4F⟩, ⟨.read, .byte 0x4B⟩,
  ⟨.read, .zero⟩, ⟨.usleep, ()⟩,
    ⟨.read, .zero⟩]
  stored := ascii "OK"

theorem read_in_time (start now : Timeval) (nMaxBuf : Nat) (nTimeout : BitVec 32) (ch : UInt8)
    (rest : List (Event Op Ans)) (result : Bytes) (inTime : expired start now nTimeout = false)
      (later : Does (fill start nTimeout nMaxBuf ch []) rest result) :
    Does (xcomRead nMaxBuf nTimeout ch) (⟨.gettimeofday, start⟩ :: ⟨.gettimeofday, now⟩ :: rest) result := by
  rw [xcomRead, does_call]
  refine ⟨start, _, rfl, ?_⟩
  rw [does_call]
  refine ⟨now, _, rfl, ?_⟩
  rw [if_neg (by rw [inTime]; exact Bool.false_ne_true)]
  exact later

theorem ok_call_done (room : Nat) : (okCall (room + 2)).Done := by
  have spelled : ascii "OK" = [79, 75] := rfl
  refine read_in_time ⟨7#32, 0#32⟩ ⟨7#32, 9#32⟩ (room + 2) 1000000#32 0x55 _ _ (by decide) ?_
  cases room with
  | zero => simp [okCall, Does, fill, passed, spelled]
  | succ room => simp [okCall, Does, fill, passed, spelled]

theorem ok_call_faithful : Faithful [okCall 64, okCall 1024] :=
  (serial_read_iff [okCall 64, okCall 1024] (by simpa using ⟨ok_call_done 62, ok_call_done 1022⟩)).mpr
    (by simpa using ⟨⟨by decide, by decide⟩, by decide, by decide⟩)

-- The first read fails, and what happens to be in ch is stored.
def failedCall : Call where
  nMaxBuf := 64
  nTimeout := 1000000#32
  ch := 0x55
  events := [⟨.gettimeofday, ⟨7#32, 0#32⟩⟩, ⟨.gettimeofday, ⟨7#32, 9#32⟩⟩, ⟨.read, .error⟩, ⟨.read, .zero⟩,
  ⟨.usleep, ()⟩, ⟨.read, .zero⟩]
  stored := [0x55]

theorem failed_call_done : failedCall.Done := by
  have stored : ∀ room, Does (fill ⟨7#32, 0#32⟩ 1000000#32 (room + 2) 0x55 [])
      [⟨.read, .error⟩, ⟨.read, .zero⟩, ⟨.usleep, ()⟩, ⟨.read, .zero⟩] [0x55] := by
    intro room
    simp [Does, fill, passed]
  exact read_in_time ⟨7#32, 0#32⟩ ⟨7#32, 9#32⟩ 64 1000000#32 0x55 _ _ (by decide) (stored 62)

-- Two bytes fill an array of two, and the NUL goes behind it.
theorem full_array_overrun :
    ¬ (∀ calls : List Call, (∀ call ∈ calls, 0 < call.nMaxBuf ∧ call.Done) → Faithful calls) ∧
      failedCall.Done ∧ ¬ Faithful [failedCall] := by
  refine ⟨fun always => ?_, failed_call_done, ?_⟩
  · have faithful := always [okCall 2] (by simpa using ⟨by decide, ok_call_done 0⟩)
    have inside := (writes_below _ _).mp (faithful.1 (okCall 2) List.mem_cons_self).1
    exact absurd inside (by decide)
  · exact fun faithful => absurd faithful.2 (by decide)

end Ftm50s.Xcom
