import Ftm50s.Lib.Filter

set_option autoImplicit false

namespace Ftm50s.Serial

open Lib.Text Lib.Filter

-- A result of read(): none for -1, no bytes for 0.
abbrev Read := Option Bytes

def streamOf (reads : List Read) : Bytes := (reads.filterMap id).flatten

-- The chain of strstr calls on the buffer: the first awaited word that is there
def firstWord (awaited : List Bytes) (buf : Bytes) : Option Bytes := awaited.find? fun word => occurs word (cstr buf)

-- The loop that FTMC_OTA, IOT_HSDPA and timer_handler share: read into the same
-- buffer each time, end the text with buf[res] = 0, look for the words. none when
-- that byte lies outside the buffer, some none while no word has come.
def pollLoop (awaited : List Bytes) (size : Nat) : List Read → Option (Option Bytes)
  | [] => some none
  | none :: _ => none
  | some piece :: rest =>
      if size ≤ piece.length then none
      else
        match firstWord awaited piece with
        | some word => some (some word)
        | none => pollLoop awaited size rest

-- TX200K_ConnectionCheck: every read of 0 or -1 ends one of five rounds.
def connectionCheck (awaited : List Bytes) (size : Nat) : Nat → List Read → Option (Option Bytes)
  | 0, _ => some none
  | _ + 1, [] => some none
  | loop + 1, none :: rest => connectionCheck awaited size loop rest
  | loop + 1, some piece :: rest =>
      if piece = [] then connectionCheck awaited size loop rest
      else if size ≤ piece.length then none
      else
        match firstWord awaited piece with
        | some word => some (some word)
        | none => connectionCheck awaited size (loop + 1) rest

inductive ReplyLoop where
  | ftmcOta
  | iotHsdpa
  | timerHandler
  | tx200kConnectionCheck
deriving DecidableEq, Repr

def awaited : ReplyLoop → List Bytes
  | .ftmcOta => [ascii "#105", ascii "#308:3", ascii "#308:7"]
  | .iotHsdpa => [ascii "OK", ascii "ERROR"]
  | .timerHandler => [ascii "OK", ascii "ERROR"]
  | .tx200kConnectionCheck => [ascii "OK"]

def bufSize : ReplyLoop → Nat
  | .ftmcOta => 255
  | .iotHsdpa => 255
  | .timerHandler => 255
  | .tx200kConnectionCheck => 128

def readSize : ReplyLoop → Nat
  | .ftmcOta => 255
  | .iotHsdpa => 255
  | .timerHandler => 255
  | .tx200kConnectionCheck => 127

def recognise (loop : ReplyLoop) (reads : List Read) : Option (Option Bytes) :=
  match loop with
  | .tx200kConnectionCheck => connectionCheck (awaited loop) (bufSize loop) 5 reads
  | _ => pollLoop (awaited loop) (bufSize loop) reads

-- The cuts make no difference: the word is the one that the whole stream has,
-- and nothing is stored outside the buffer.
def Independent (loop : ReplyLoop) (reads : List Read) : Prop :=
  recognise loop reads = some (firstWord (awaited loop) (streamOf reads))

instance (loop : ReplyLoop) (reads : List Read) : Decidable (Independent loop reads) :=
  inferInstanceAs (Decidable (_ = _))

theorem first_word_nil (loop : ReplyLoop) : firstWord (awaited loop) [] = none := by
  cases loop <;> decide

theorem one_read (loop : ReplyLoop) (stream : Bytes) (fits : stream.length < bufSize loop) :
    Independent loop [some stream] := by
  have whole : streamOf [some stream] = stream := by simp [streamOf]
  have room : ¬ bufSize loop ≤ stream.length := by omega
  have poll : pollLoop (awaited loop) (bufSize loop) [some stream] = some (firstWord (awaited loop) stream) := by
    rw [pollLoop, if_neg room]
    cases firstWord (awaited loop) stream <;> rfl
  rw [Independent, whole]
  cases loop with
  | ftmcOta => exact poll
  | iotHsdpa => exact poll
  | timerHandler => exact poll
  | tx200kConnectionCheck =>
      rw [recognise, connectionCheck]
      by_cases empty : stream = []
      · rw [if_pos empty, empty, first_word_nil]
        rfl
      · rw [if_neg empty, if_neg room]
        cases firstWord (awaited .tx200kConnectionCheck) stream <;> rfl

def Quiet (words : List Bytes) (size : Nat) (read : Read) : Prop :=
  ∃ piece, read = some piece ∧ piece.length < size ∧ firstWord words piece = none

theorem poll_loop_quiet (words : List Bytes) (size : Nat) (front reads : List Read)
    (quiet : ∀ read ∈ front, Quiet words size read) :
    pollLoop words size (front ++ reads) = pollLoop words size reads := by
  induction front with
  | nil => rfl
  | cons read front ih =>
      obtain ⟨piece, rfl, fits, none⟩ := quiet read (by simp)
      have room : ¬ size ≤ piece.length := by omega
      rw [List.cons_append, pollLoop, if_neg room, none]
      exact ih fun other member => quiet other (by simp [member])

theorem poll_loop_cases (words : List Bytes) (size : Nat) (reads : List Read) (result : Option Bytes)
    (run : pollLoop words size reads = some result) :
    (result = none ∧ ∀ read ∈ reads, Quiet words size read) ∨
      ∃ word front piece back, result = some word ∧ reads = front ++ some piece :: back ∧
        (∀ read ∈ front, Quiet words size read) ∧ piece.length < size ∧ firstWord words piece = some word := by
  induction reads with
  | nil => exact Or.inl ⟨(Option.some.inj run).symm, by simp⟩
  | cons read reads ih =>
      cases read with
      | none => cases run
      | some piece =>
          rw [pollLoop] at run
          by_cases wide : size ≤ piece.length
          · rw [if_pos wide] at run
            cases run
          · rw [if_neg wide] at run
            cases first : firstWord words piece with
            | some word =>
                rw [first] at run
                exact Or.inr ⟨word, [], piece, reads, (Option.some.inj run).symm, rfl, by simp, by omega, first⟩
            | none =>
                rw [first] at run
                have here : Quiet words size (some piece) := ⟨piece, rfl, by omega, first⟩
                rcases ih run with ⟨waiting, quiet⟩ | ⟨word, front, hit, back, found, rfl, quiet, fits, holds⟩
                · exact Or.inl ⟨waiting, List.forall_mem_cons.mpr ⟨here, quiet⟩⟩
                · exact Or.inr ⟨word, some piece :: front, hit, back, found, rfl, List.forall_mem_cons.mpr ⟨here,
                    quiet⟩, fits,
                    holds⟩

theorem poll_loop_iff (words : List Bytes) (size : Nat) (reads : List Read) (result : Option Bytes) :
    pollLoop words size reads = some result ↔
      (result = none ∧ ∀ read ∈ reads, Quiet words size read) ∨
        ∃ word front piece back, result = some word ∧ reads = front ++ some piece :: back ∧
          (∀ read ∈ front, Quiet words size read) ∧ piece.length < size ∧ firstWord words piece = some word := by
  constructor
  · exact poll_loop_cases words size reads result
  · rintro (⟨rfl, quiet⟩ | ⟨word, front, piece, back, rfl, rfl, quiet, fits, holds⟩)
    · have all := poll_loop_quiet words size reads [] quiet
      rw [List.append_nil] at all
      exact all
    · have room : ¬ size ≤ piece.length := by omega
      rw [poll_loop_quiet words size front (some piece :: back) quiet, pollLoop, if_neg room, holds]

def misses (reads : List Read) : Nat := reads.countP fun read => read = none ∨ read = some []

theorem misses_cons (read : Read) (reads : List Read) : misses (read :: reads) = misses [read] + misses reads := by
  rw [misses, misses, misses, ← List.countP_append, List.singleton_append]

-- A word comes in one piece before the rounds are used up.
def Heard (words : List Bytes) (rounds : Nat) (reads : List Read) : Prop :=
  ∃ front piece back, reads = front ++ some piece :: back ∧ misses front < rounds ∧ firstWord words piece ≠ none

theorem heard_cons (words : List Bytes) (rounds : Nat) (read : Read) (reads : List Read)
    (no_word : ∀ piece, read = some piece → firstWord words piece = none) :
    Heard words rounds (read :: reads) ↔ Heard words (rounds - misses [read]) reads := by
  constructor
  · rintro ⟨front, piece, back, cut, early, word⟩
    cases front with
    | nil =>
        obtain ⟨rfl, rfl⟩ := List.cons.inj cut
        exact absurd (no_word piece rfl) word
    | cons first front =>
        obtain ⟨rfl, rfl⟩ := List.cons.inj cut
        have count := misses_cons read front
        exact ⟨front, piece, back, rfl, by omega, word⟩
  · rintro ⟨front, piece, back, rfl, early, word⟩
    have count := misses_cons read front
    exact ⟨read :: front, piece, back, rfl, by omega, word⟩

theorem connection_check_heard (words : List Bytes) (size rounds : Nat) (reads : List Read)
    (nothing : firstWord words [] = none) (sized : ∀ piece, some piece ∈ reads → piece.length < size) :
    ∃ result, connectionCheck words size rounds reads = some result ∧ (∀ word ∈ result, word ∈ words) ∧
      (result ≠ none ↔ Heard words rounds reads) := by
  induction reads generalizing rounds with
  | nil =>
      have silent : connectionCheck words size rounds [] = some none := by cases rounds <;> rfl
      exact ⟨none, silent, by simp, by simp [Heard]⟩
  | cons read reads ih =>
      have later : ∀ piece, some piece ∈ reads → piece.length < size :=
        fun piece member => sized piece (by simp [member])
      cases rounds with
      | zero => exact ⟨none, rfl, by simp, by simp [Heard]⟩
      | succ rounds =>
          cases read with
          | none =>
              rw [heard_cons words _ none reads (by simp), connectionCheck]
              exact ih rounds later
          | some piece =>
              have room : ¬ size ≤ piece.length := by
                have fits := sized piece (by simp)
                omega
              by_cases empty : piece = []
              · subst empty
                rw [heard_cons words _ (some []) reads (by simpa using nothing), connectionCheck, if_pos rfl]
                exact ih rounds later
              · rw [connectionCheck, if_neg empty, if_neg room]
                cases first : firstWord words piece with
                | some word =>
                    have heard : Heard words (rounds + 1) (some piece :: reads) :=
                      ⟨[], piece, reads, rfl, by simp [misses], by simp [first]⟩
                    have one : ∀ other ∈ some word, other ∈ words := by
                      rintro other ⟨⟩
                      exact List.mem_of_find?_eq_some first
                    exact ⟨some word, rfl, one, fun _ => heard, fun _ => Option.some_ne_none word⟩
                | none =>
                    have none_ends : misses [some piece] = 0 := by simp [misses, empty]
                    rw [heard_cons words _ (some piece) reads (by simpa using first), none_ends]
                    exact ih (rounds + 1) later

def Settles (loop : ReplyLoop) (reads : List Read) : Prop :=
  match loop with
  | .tx200kConnectionCheck => firstWord (awaited loop) (streamOf reads) ≠ none ↔ Heard (awaited loop) 5 reads
  | _ =>
      (firstWord (awaited loop) (streamOf reads) = none ∧ ∀ read ∈ reads, Quiet (awaited loop) (bufSize loop) read) ∨
        ∃ word front piece back, firstWord (awaited loop) (streamOf reads) = some word ∧
          reads = front ++ some piece :: back ∧
          (∀ read ∈ front, Quiet (awaited loop) (bufSize loop) read) ∧ piece.length < bufSize loop ∧
          firstWord (awaited loop) piece = some word

theorem one_word (word : Bytes) (left right : Option Bytes) (left_is : ∀ found ∈ left, found ∈ [word])
    (right_is : ∀ found ∈ right, found ∈ [word]) : left = right ↔ (right ≠ none ↔ left ≠ none) := by
  cases left with
  | none => cases right <;> simp
  | some left =>
      cases right with
      | none => simp
      | some right =>
          have same_left := List.mem_singleton.mp (left_is left rfl)
          have same_right := List.mem_singleton.mp (right_is right rfl)
          simp [same_left, same_right]

theorem reply_outcome (loop : ReplyLoop) (reads : List Read)
    (sized : ∀ piece, some piece ∈ reads → piece.length ≤ readSize loop) :
    Independent loop reads ↔ Settles loop reads := by
  cases loop with
  | ftmcOta => exact poll_loop_iff _ _ reads _
  | iotHsdpa => exact poll_loop_iff _ _ reads _
  | timerHandler => exact poll_loop_iff _ _ reads _
  | tx200kConnectionCheck =>
      have fits : ∀ piece, some piece ∈ reads → piece.length < bufSize .tx200kConnectionCheck :=
        fun piece member => Nat.lt_succ_of_le (sized piece member)
      obtain ⟨result, run, word, heard⟩ := connection_check_heard (awaited .tx200kConnectionCheck) _ 5 reads
        (first_word_nil _) fits
      rw [Independent, recognise, run, Settles, ← heard, Option.some_inj]
      exact one_word (ascii "OK") result _ word fun found first => List.mem_of_find?_eq_some first

theorem reply_outcome_cut_before_word : Independent .iotHsdpa [some (ascii "#HSDPA: 1"), some (ascii "OK")] := by
  have sized : ∀ piece, some piece ∈ [some (ascii "#HSDPA: 1"), some (ascii "OK")] →
    piece.length ≤ readSize .iotHsdpa := by
    simp only [List.mem_cons, Option.some.injEq, List.not_mem_nil, or_false]
    rintro piece (rfl | rfl) <;> decide
  have quiet : ∀ read ∈ [some (ascii "#HSDPA: 1")], Quiet (awaited .iotHsdpa) (bufSize .iotHsdpa) read := by
    simp only [List.mem_singleton]
    rintro read rfl
    exact ⟨_, rfl, by decide, by decide⟩
  exact (reply_outcome .iotHsdpa _ sized).mpr
    (Or.inr ⟨ascii "OK", [some (ascii "#HSDPA: 1")], ascii "OK", [], by decide, rfl, quiet, by decide, by decide⟩)

-- A failed read, a word cut in two, a full buffer, and again a word cut in two
theorem reply_depends_on_cuts : ¬ ∃ loop, ∀ reads, (∀ piece, some piece ∈ reads → piece.length ≤ readSize loop) →
    Independent loop reads := by
  rintro ⟨loop, always⟩
  cases loop with
  | ftmcOta =>
      have same := always [none, some (ascii "#105")] (by simp [show (ascii "#105").length = 4 from rfl, readSize])
      cases same
  | iotHsdpa =>
      have same := always [some (ascii "O"), some (ascii "K")] (by
        simp [show (ascii "O").length = 1 from rfl, show (ascii "K").length = 1 from rfl, readSize])
      exact absurd same (by decide)
  | timerHandler =>
      obtain ⟨full, wide⟩ : ∃ full : Bytes, full.length = 255 := ⟨List.replicate 255 0x41, List.length_replicate⟩
      have same := always [some full] (by simp [readSize, wide])
      have outside : recognise .timerHandler [some full] = none := if_pos (Nat.le_of_eq wide.symm)
      rw [Independent, outside] at same
      cases same
  | tx200kConnectionCheck =>
      have same := always [some (ascii "O"), some (ascii "K")] (by
        simp [show (ascii "O").length = 1 from rfl, show (ascii "K").length = 1 from rfl, readSize])
      exact absurd same (by decide)

end Ftm50s.Serial
