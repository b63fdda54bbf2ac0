import Ftm50s.Lib.Text
import Mathlib.Data.List.Basic

set_option autoImplicit false

namespace Ftm50s.Modem

open Lib.Text

-- strchr looks no further than the NUL.
def strchr (c : UInt8) (text : Bytes) : Option Nat := (cstr text).findIdx? (· == c)

def strlen (text : Bytes) : Nat := (cstr text).length

-- The fields of MDM_RESP while MDM_ParseResponse fills them, and lpszPos. The
-- entries of lpszSplits point into szBuf, so they are offsets here.
structure Parse where
  szBuf : Bytes
  lpszPos : Nat
  lpszSplits : List Nat
deriving DecidableEq, Repr

-- One turn of the loop; an entry stored behind the sixteenth lies outside
-- lpszSplits.
inductive ParseTurn where
  | ends
  | next (parse : Parse)
  | overrun
deriving DecidableEq, Repr

def storeSplit (szBuf : Bytes) (lpszPos lpszNewLine : Nat) (lpszSplits : List Nat) : ParseTurn :=
  if lpszSplits.length < 16 then .next ⟨szBuf, lpszNewLine + 1, lpszSplits ++ [lpszPos]⟩ else .overrun

-- Without a line feed nothing moves, and the next turn finds what this one did.
def parseTurn (lpszEnd : Nat) (parse : Parse) : ParseTurn :=
  if parse.lpszPos < lpszEnd then
    match strchr 10 (parse.szBuf.drop parse.lpszPos) with
    | none => .next parse
    | some offset =>
        let lpszNewLine := parse.lpszPos + offset
        let szBuf := parse.szBuf.set lpszNewLine 0
        let last := szBuf.getD (lpszNewLine - 1) 0
        if 1 < strlen (szBuf.drop parse.lpszPos) then
          if last = 13 ∨ last = 10 then storeSplit
            (szBuf.set (lpszNewLine - 1) 0) parse.lpszPos lpszNewLine parse.lpszSplits
          else storeSplit szBuf parse.lpszPos lpszNewLine parse.lpszSplits
        else if strlen (szBuf.drop parse.lpszPos) = 1 then
          if last ≠ 13 ∧ last ≠ 10 then storeSplit szBuf parse.lpszPos lpszNewLine parse.lpszSplits
          else .next ⟨szBuf, lpszNewLine + 1, parse.lpszSplits⟩
        else .next ⟨szBuf, lpszNewLine + 1, parse.lpszSplits⟩
  else .ends

inductive Parsed where
  | ended (parse : Parse)
  | overran
deriving DecidableEq, Repr

-- none while the loop is still running when the allowed turns are used up
def parseLoop (lpszEnd : Nat) : Nat → Parse → Option Parsed
  | 0, _ => none
  | turns + 1, parse =>
      match parseTurn lpszEnd parse with
      | .ends => some (.ended parse)
      | .next parse => parseLoop lpszEnd turns parse
      | .overrun => some .overran

def startParse (reply : Bytes) : Parse := ⟨reply ++ [0], 0, []⟩

-- The reply is copied into szBuf with strcpy first.
def parseRun (turns : Nat) (reply : Bytes) : Option Parsed :=
  if reply.length < 4096 then parseLoop reply.length turns (startParse reply) else some .overran

structure Resp where
  lpszSplits : List Bytes
  bOK : Bool
deriving DecidableEq, Repr

def splitTexts (szBuf : Bytes) (lpszSplits : List Nat) : List Bytes :=
  lpszSplits.map fun offset => cstr (szBuf.drop offset)

def startsOK (text : Bytes) : Bool := (ascii "OK").isPrefixOf text

def respOf (parse : Parse) : Resp :=
  let texts := splitTexts parse.szBuf parse.lpszSplits
  ⟨texts, texts.getLast?.any startsOK⟩

inductive Response where
  | done (resp : Resp)
  | hangs
  | overran
deriving DecidableEq, Repr

-- Every turn that moves lpszPos moves it by at least one byte, so a loop that is
-- still running after this many turns never ends.
def mdmParseResponse (reply : Bytes) : Response :=
  match parseRun (reply.length + 1) reply with
  | some (.ended parse) => .done (respOf parse)
  | some .overran => .overran
  | none => .hangs

def stripCr (line : Bytes) : Bytes := if line.getLast? = some 13 then line.dropLast else line

-- What the reply says: its lines without their CR and without the empty ones
def responseLines (reply : Bytes) : List Bytes := ((reply.splitOn 10).map stripCr).filter (· ≠ [])

def isText (line : Bytes) : Bool := decide (line ≠ [] ∧ line ≠ [13])

theorem strip_cr_concat (front : Bytes) (last : UInt8) :
    stripCr (front ++ [last]) = if last = 13 then front else front ++ [last] := by
  simp [stripCr]

theorem text_concat (front : Bytes) (last : UInt8) : isText (front ++ [last]) = true ↔ front ≠ [] ∨ last ≠ 13 := by
  cases front with
  | nil => simp [isText]
  | cons first rest => simp [isText]

theorem strip_text (line : Bytes) : stripCr line ≠ [] ↔ isText line = true := by
  rcases List.eq_nil_or_concat' line with rfl | ⟨front, last, rfl⟩
  · decide
  · rw [strip_cr_concat, text_concat]
    by_cases cr : last = 13
    · simp [cr]
    · simp [cr]

-- What a turn leaves of a line: the line feed becomes the NUL, and so does the
-- CR before it unless it stands alone.
def cutLine (line : Bytes) : Bytes :=
  if 1 < line.length ∧ line.getLast? = some 13 then line.dropLast ++ [0] else line

theorem cut_line_concat (front : Bytes) (last : UInt8) :
    cutLine (front ++ [last]) = if front ≠ [] ∧ last = 13 then front ++ [0] else front ++ [last] := by
  have long : 1 < (front ++ [last]).length ↔ front ≠ [] := by
    rw [List.length_append, List.length_singleton, ← List.length_pos_iff]
    omega
  simp only [cutLine, long, List.getLast?_concat, Option.some.injEq, List.dropLast_concat]

theorem cut_line_length (line : Bytes) : (cutLine line).length = line.length := by
  unfold cutLine
  split
  · rw [List.length_append, List.length_dropLast, List.length_singleton]
    omega
  · rfl

theorem cstr_append_nul (text more : Bytes) (noNul : (0 : UInt8) ∉ text) : cstr (text ++ 0 :: more) = text := by
  have each : ∀ c ∈ text, (c != 0) = true := by
    intro c member
    rw [bne_iff_ne]
    exact fun zero => noNul (zero ▸ member)
  rw [cstr, List.takeWhile_append_of_pos each]
  simp

theorem cstr_cut_line (line more : Bytes) (noNul : (0 : UInt8) ∉ line) (text : isText line = true) :
    cstr (cutLine line ++ 0 :: more) = stripCr line := by
  rcases List.eq_nil_or_concat' line with rfl | ⟨front, last, rfl⟩
  · cases text
  · rw [text_concat] at text
    have frontNoNul : (0 : UInt8) ∉ front := fun member => noNul (List.mem_append_left _ member)
    rw [cut_line_concat, strip_cr_concat]
    by_cases cr : last = 13
    · rw [if_pos ⟨text.resolve_right (not_not_intro cr), cr⟩, if_pos cr, List.append_assoc, List.singleton_append,
        cstr_append_nul front _ frontNoNul]
    · rw [if_neg fun both => cr both.2, if_neg cr, cstr_append_nul _ more noNul]

theorem strchr_line (line more : Bytes) (plain : (10 : UInt8) ∉ line) (noNul : (0 : UInt8) ∉ line) :
    strchr 10 (line ++ 10 :: more) = some line.length := by
  have each : ∀ c ∈ line, (c != 0) = true := by
    intro c member
    rw [bne_iff_ne]
    exact fun zero => noNul (zero ▸ member)
  have absent : line.findIdx? (· == 10) = none := by
    rw [List.findIdx?_eq_none_iff]
    intro c member
    rw [beq_eq_false_iff_ne]
    exact fun feed => plain (feed ▸ member)
  rw [strchr, cstr, List.takeWhile_append_of_pos each, List.findIdx?_append, absent]
  simp [List.findIdx?_cons]

theorem strchr_absent (text : Bytes) (plain : (10 : UInt8) ∉ text) : strchr 10 (text ++ [0]) = none := by
  rw [strchr, List.findIdx?_eq_none_iff]
  intro c member
  rw [beq_eq_false_iff_ne]
  rintro rfl
  have inside := (List.takeWhile_prefix _).subset member
  simp [plain] at inside

theorem parse_turn_line (lpszEnd : Nat) (cut line more : Bytes) (splits : List Nat) (inside : cut.length < lpszEnd)
    (plain : (10 : UInt8) ∉ line) (noNul : (0 : UInt8) ∉ line) :
    parseTurn lpszEnd ⟨cut ++ (line ++ 10 :: more), cut.length, splits⟩ =
      if isText line then storeSplit (cut ++ (cutLine line ++ 0 :: more)) cut.length (cut.length + line.length) splits
      else .next ⟨cut ++ (cutLine line ++ 0 :: more), cut.length + line.length + 1, splits⟩ := by
  have zeroed : (cut ++ (line ++ 10 :: more)).set (cut.length + line.length) 0 = cut ++ (line ++ 0 :: more) := by
    rw [List.set_append_right _ _ (by omega), Nat.add_sub_cancel_left, List.set_append_right _ _ (by omega)]
    simp
  have length : strlen ((cut ++ (line ++ 0 :: more)).drop cut.length) = line.length := by
    rw [List.drop_left, strlen, cstr_append_nul line more noNul]
  simp only [parseTurn, if_pos inside, List.drop_left, strchr_line line more plain noNul, zeroed]
  rw [List.drop_left] at length
  rw [length]
  rcases List.eq_nil_or_concat' line with rfl | ⟨front, last, rfl⟩
  · simp [isText, cutLine]
  · have feed : last ≠ 10 := fun same => plain (by simp [same])
    have back : cut.length + (front ++ [last]).length - 1 = (cut ++ front).length := by
      rw [List.length_append, List.length_append, List.length_singleton]
      omega
    have before : (cut ++ ((front ++ [last]) ++ 0 :: more)).getD (cut ++ front).length 0 = last := by
      rw [List.append_assoc, ← List.append_assoc]
      simp
    have nulled : (cut ++ ((front ++ [last]) ++ 0 :: more)).set (cut ++ front).length 0 = cut ++
      ((front ++ [0]) ++ 0 :: more) := by
      rw [List.append_assoc, ← List.append_assoc, List.set_append_right _ _ (Nat.le_refl _), Nat.sub_self]
      simp
    rw [back, before, nulled, cut_line_concat]
    simp only [text_concat]
    cases front with
    | nil =>
        by_cases cr : last = 13
        · simp [cr]
        · simp [cr, feed]
    | cons first rest =>
        by_cases cr : last = 13
        · simp [cr]
        · simp [cr, feed]

-- The entries stored so far read as the given texts, whatever stands behind the
-- part of the buffer that has been cut.
def Holds (cut : Bytes) (splits : List Nat) (texts : List Bytes) : Prop :=
  ∀ more, splitTexts (cut ++ more) splits = texts

theorem holds_longer (cut added : Bytes) (splits : List Nat) (texts : List Bytes) (holds : Holds cut splits texts) :
    Holds (cut ++ added) splits texts := by
  intro more
  rw [List.append_assoc]
  exact holds (added ++ more)

theorem holds_stored (cut line : Bytes) (splits : List Nat) (texts : List Bytes) (noNul : (0 : UInt8) ∉ line)
    (text : isText line = true) (holds : Holds cut splits texts) :
    Holds (cut ++ (cutLine line ++ [0])) (splits ++ [cut.length]) (texts ++ [stripCr line]) := by
  intro more
  have stored := cstr_cut_line line more noNul text
  have earlier := holds (cutLine line ++ [0] ++ more)
  rw [splitTexts] at earlier
  rw [splitTexts, List.map_append, List.append_assoc, earlier, List.map_singleton, List.drop_left, List.append_assoc,
    List.singleton_append, stored]

theorem parse_loop_line (lpszEnd turns : Nat) (cut line more : Bytes) (splits : List Nat)
    (inside : cut.length < lpszEnd) (plain : (10 : UInt8) ∉ line) (noNul : (0 : UInt8) ∉ line) :
    parseLoop lpszEnd (turns + 1) ⟨cut ++ (line ++ 10 :: more), cut.length, splits⟩ =
      if isText line then
        if splits.length < 16 then
          parseLoop lpszEnd turns ⟨cut ++ (cutLine line ++ [0]) ++ more, (cut ++ (cutLine line ++ [0])).length,
            splits ++ [cut.length]⟩
        else some .overran
      else parseLoop lpszEnd turns ⟨cut ++ (cutLine line ++ [0]) ++ more, (cut ++ (cutLine line ++ [0])).length,
      splits⟩ := by
  have shape : cut ++ (cutLine line ++ 0 :: more) = cut ++ (cutLine line ++ [0]) ++ more := by simp
  have next : cut.length + line.length + 1 = (cut ++ (cutLine line ++ [0])).length := by
    rw [List.length_append, List.length_append, cut_line_length, List.length_singleton, Nat.add_assoc]
  rw [parseLoop, parse_turn_line lpszEnd cut line more splits inside plain noNul, shape]
  by_cases text : isText line = true
  · rw [if_pos text, if_pos text, storeSplit]
    by_cases room : splits.length < 16
    · rw [if_pos room, if_pos room, next]
    · rw [if_neg room, if_neg room]
  · rw [if_neg text, if_neg text, next]

theorem unlines_cons (line : Bytes) (pieces : List Bytes) (tail : Bytes) :
    unlines (line :: pieces) ++ tail = line ++ 10 :: (unlines pieces ++ tail) := by
  simp [unlines]

-- Induction on the lines of the reply; what has been cut is carried along.
theorem parse_run_fits (lpszEnd : Nat) (pieces : List Bytes) (tail cut : Bytes) (splits : List Nat) (texts : List Bytes)
    (ends : lpszEnd = cut.length + (unlines pieces ++ tail).length) (plain : ∀ piece ∈ pieces, (10 : UInt8) ∉ piece)
    (noNul : ∀ piece ∈ pieces, (0 : UInt8) ∉ piece) (room : splits.length + pieces.countP isText ≤ 16)
    (holds : Holds cut splits texts) :
    ∃ after later, (∀ turns, parseLoop lpszEnd (pieces.length + turns) ⟨cut ++ (unlines pieces ++ (tail ++ [0])),
    cut.length, splits⟩ =
        parseLoop lpszEnd turns ⟨after ++ (tail ++ [0]), after.length, later⟩) ∧
      lpszEnd = after.length + tail.length ∧ later.length = splits.length + pieces.countP isText ∧
      Holds after later (texts ++ (pieces.filter isText).map stripCr) := by
  induction pieces generalizing cut splits texts with
  | nil =>
      have empty : unlines [] = [] := rfl
      rw [empty, List.nil_append] at ends
      exact ⟨cut, splits, by simp [empty], ends, by simp, by simpa using holds⟩
  | cons line pieces ih =>
      have linePlain := plain line List.mem_cons_self
      have lineNoNul := noNul line List.mem_cons_self
      rw [unlines_cons, List.length_append, List.length_cons] at ends
      have step := fun turns => parse_loop_line lpszEnd (pieces.length + turns) cut line (unlines pieces ++
        (tail ++ [0])) splits
        (by omega) linePlain lineNoNul
      have length : (cut ++ (cutLine line ++ [0])).length = cut.length + (line.length + 1) := by
        rw [List.length_append, List.length_append, cut_line_length, List.length_singleton]
      have rest := fun splits texts => ih (cut ++ (cutLine line ++ [0])) splits texts (by omega)
        (fun piece member => plain piece (List.mem_cons_of_mem _ member))
        fun piece member => noNul piece (List.mem_cons_of_mem _ member)
      have first := fun turns => (congrArg (parseLoop lpszEnd · _) (Nat.add_right_comm pieces.length 1 turns)).trans
        (step turns)
      rw [List.length_cons, unlines_cons]
      by_cases text : isText line = true
      · rw [List.countP_cons_of_pos text] at room ⊢
        rw [List.filter_cons_of_pos text]
        obtain ⟨after, later, run, whole, count, read⟩ := rest (splits ++ [cut.length]) (texts ++ [stripCr line])
          (by rw [List.length_append, List.length_singleton]; omega)
            (holds_stored cut line splits texts lineNoNul text holds)
        refine ⟨after, later, fun turns => ?_, whole, ?_, ?_⟩
        · rw [first turns, if_pos text, if_pos (by omega), run turns]
        · rw [count, List.length_append, List.length_singleton]
          omega
        · rw [List.map_cons]
          simpa using read
      · rw [List.countP_cons_of_neg text] at room ⊢
        rw [List.filter_cons_of_neg text]
        obtain ⟨after, later, run, others⟩ := rest splits texts room (holds_longer cut _ splits texts holds)
        refine ⟨after, later, fun turns => ?_, others⟩
        rw [first turns, if_neg text, run turns]

theorem parse_run_over (lpszEnd turns : Nat) (pieces : List Bytes) (tail cut : Bytes) (splits : List Nat)
    (ends : lpszEnd = cut.length + (unlines pieces ++ tail).length) (plain : ∀ piece ∈ pieces, (10 : UInt8) ∉ piece)
    (noNul : ∀ piece ∈ pieces, (0 : UInt8) ∉ piece) (stored : splits.length ≤ 16)
    (tooMany : 16 < splits.length + pieces.countP isText) :
    parseLoop lpszEnd (pieces.length + turns) ⟨cut ++ (unlines pieces ++ (tail ++ [0])), cut.length, splits⟩ =
    some .overran := by
  induction pieces generalizing cut splits with
  | nil =>
      rw [List.countP_nil] at tooMany
      omega
  | cons line pieces ih =>
      rw [unlines_cons, List.length_append, List.length_cons] at ends
      have length : (cut ++ (cutLine line ++ [0])).length = cut.length + (line.length + 1) := by
        rw [List.length_append, List.length_append, cut_line_length, List.length_singleton]
      have rest := fun splits => ih (cut ++ (cutLine line ++ [0])) splits (by omega)
        (fun piece member => plain piece (List.mem_cons_of_mem _ member))
        fun piece member => noNul piece (List.mem_cons_of_mem _ member)
      rw [List.length_cons, Nat.add_right_comm, unlines_cons,
        parse_loop_line lpszEnd (pieces.length + turns) cut line (unlines pieces ++ (tail ++ [0])) splits (by omega)
          (plain line List.mem_cons_self) (noNul line List.mem_cons_self)]
      by_cases text : isText line = true
      · rw [List.countP_cons_of_pos text] at tooMany
        rw [if_pos text]
        by_cases room : splits.length < 16
        · rw [if_pos room]
          apply rest
          · rw [List.length_append, List.length_singleton]
            omega
          · rw [List.length_append, List.length_singleton]
            omega
        · rw [if_neg room]
      · rw [List.countP_cons_of_neg text] at tooMany
        rw [if_neg text]
        exact rest splits stored tooMany

theorem parse_loop_more (lpszEnd turns more : Nat) (parse : Parse) (result : Parsed)
    (run : parseLoop lpszEnd turns parse = some result) : parseLoop lpszEnd (more + turns) parse = some result := by
  induction turns generalizing parse with
  | zero => cases run
  | succ turns ih =>
      rw [← Nat.add_assoc, parseLoop]
      rw [parseLoop] at run
      cases turn : parseTurn lpszEnd parse with
      | ends =>
          rw [turn] at run
          exact run
      | next parse =>
          rw [turn] at run
          exact ih parse run
      | overrun =>
          rw [turn] at run
          exact run

-- The end of the reply without a line feed keeps lpszPos below lpszEnd for ever.
theorem parse_tail_hangs (lpszEnd turns : Nat) (after tail : Bytes) (splits : List Nat) (plain : (10 : UInt8) ∉ tail)
    (whole : lpszEnd = after.length + tail.length) (nonempty : tail ≠ []) :
    parseLoop lpszEnd turns ⟨after ++ (tail ++ [0]), after.length, splits⟩ = none := by
  have inside : after.length < lpszEnd := by
    have := List.length_pos_iff.mpr nonempty
    omega
  have still : parseTurn lpszEnd ⟨after ++ (tail ++ [0]), after.length, splits⟩ =
      .next ⟨after ++ (tail ++ [0]), after.length, splits⟩ := by
    simp only [parseTurn, if_pos inside, List.drop_left, strchr_absent tail plain]
  induction turns with
  | zero => rfl
  | succ turns ih =>
      rw [parseLoop, still]
      exact ih

theorem parse_tail_ends (turns : Nat) (after : Bytes) (splits : List Nat) :
    parseLoop after.length (turns + 1) ⟨after ++ [0], after.length, splits⟩ =
      some (.ended ⟨after ++ [0], after.length, splits⟩) := by
  rw [parseLoop, parseTurn, if_neg (Nat.lt_irrefl _)]

-- A reply in parts: its whole lines, and what follows the last line feed
structure Parts (reply : Bytes) (pieces : List Bytes) (tail : Bytes) : Prop where
  whole : reply = unlines pieces ++ tail
  plain : ∀ piece ∈ pieces, (10 : UInt8) ∉ piece
  last : (10 : UInt8) ∉ tail

theorem parts_exist (reply : Bytes) : ∃ pieces tail, Parts reply pieces tail := by
  induction reply with
  | nil => exact ⟨[], [], rfl, by simp, by simp⟩
  | cons c rest ih =>
      obtain ⟨pieces, tail, rfl, plain, last⟩ := ih
      by_cases feed : c = 10
      · subst feed
        exact ⟨[] :: pieces, tail, by simp [unlines], by simpa using plain, last⟩
      · cases pieces with
        | nil => exact ⟨[], c :: tail, rfl, by simp, by simpa using ⟨Ne.symm feed, last⟩⟩
        | cons line pieces =>
            refine ⟨(c :: line) :: pieces, tail, by simp [unlines], ?_, last⟩
            simp only [List.forall_mem_cons] at plain ⊢
            exact ⟨by simpa using ⟨Ne.symm feed, plain.1⟩, plain.2⟩

theorem parts_split (reply tail : Bytes) (pieces : List Bytes) (parts : Parts reply pieces tail) :
    reply.splitOn 10 = pieces ++ [tail] := by
  obtain ⟨rfl, plain, last⟩ := parts
  have absent : ∀ text : Bytes, (10 : UInt8) ∉ text → ∀ c ∈ text, (c == 10) = false := by
    intro text plain c member
    rw [beq_eq_false_iff_ne]
    exact fun feed => plain (feed ▸ member)
  rw [List.splitOn_eq_splitOnP]
  induction pieces with
  | nil => exact List.splitOnP_eq_singleton (absent tail last)
  | cons line pieces ih =>
      rw [unlines_cons, List.splitOnP_append_cons_of_forall_mem (absent line (plain line List.mem_cons_self)) 10 rfl,
        ih fun piece member => plain piece (List.mem_cons_of_mem _ member)]
      rfl

theorem parts_closed (reply tail : Bytes) (pieces : List Bytes) (parts : Parts reply pieces tail) :
    (reply = [] ∨ reply.getLast? = some 10) ↔ tail = [] := by
  obtain ⟨rfl, plain, last⟩ := parts
  rcases List.eq_nil_or_concat' tail with rfl | ⟨front, c, rfl⟩
  · rcases List.eq_nil_or_concat' pieces with rfl | ⟨before, line, rfl⟩
    · simp [unlines]
    · simp [unlines]
  · have feed : c ≠ 10 := fun same => last (by simp [same])
    rw [← List.append_assoc, List.getLast?_concat]
    simp [feed]

theorem parts_no_nul (reply tail : Bytes) (pieces : List Bytes) (parts : Parts reply pieces tail)
    (noNul : (0 : UInt8) ∉ reply) :
    ∀ piece ∈ pieces, (0 : UInt8) ∉ piece := by
  intro piece member zero
  apply noNul
  rw [parts.whole, unlines]
  exact List.mem_append_left _ (List.mem_flatMap.mpr ⟨piece, member, List.mem_append_left _ zero⟩)

theorem parts_texts (reply tail : Bytes) (pieces : List Bytes) (parts : Parts reply pieces tail) (closed : tail = []) :
    responseLines reply = (pieces.filter isText).map stripCr ∧ (reply.splitOn 10).countP isText =
    pieces.countP isText := by
  subst closed
  have same : ∀ line, decide (stripCr line ≠ []) = isText line := by
    intro line
    rw [Bool.eq_iff_iff, decide_eq_true_iff]
    exact strip_text line
  rw [responseLines, parts_split reply [] pieces parts]
  constructor
  · rw [List.map_append, List.filter_append, List.filter_map]
    simp only [Function.comp_def, same]
    simp [stripCr]
  · rw [List.countP_append]
    rfl

theorem start_parts (reply tail : Bytes) (pieces : List Bytes) (parts : Parts reply pieces tail) :
    startParse reply = ⟨[] ++ (unlines pieces ++ (tail ++ [0])), ([] : Bytes).length, []⟩ := by
  rw [startParse, parts.whole, List.append_assoc]
  rfl

theorem parts_over (reply tail : Bytes) (pieces : List Bytes) (turns : Nat) (parts : Parts reply pieces tail)
    (noNul : (0 : UInt8) ∉ reply) (tooMany : 16 < pieces.countP isText) :
    parseLoop reply.length (pieces.length + turns) (startParse reply) = some .overran := by
  rw [start_parts reply tail pieces parts]
  apply parse_run_over
  · rw [← parts.whole]
    simp
  · exact parts.plain
  · exact parts_no_nul reply tail pieces parts noNul
  · simp
  · simpa using tooMany

theorem parts_fit (reply tail : Bytes) (pieces : List Bytes) (parts : Parts reply pieces tail)
    (noNul : (0 : UInt8) ∉ reply) (few : pieces.countP isText ≤ 16) :
    ∃ after later, (∀ turns, parseLoop reply.length (pieces.length + turns) (startParse reply) =
        parseLoop reply.length turns ⟨after ++ (tail ++ [0]), after.length, later⟩) ∧
      reply.length = after.length + tail.length ∧ later.length = pieces.countP isText ∧
      Holds after later ((pieces.filter isText).map stripCr) := by
  have run := parse_run_fits reply.length pieces tail [] [] [] (by rw [← parts.whole]; simp) parts.plain
    (parts_no_nul reply tail pieces parts noNul) (by simpa using few) fun _ => rfl
  rw [← start_parts reply tail pieces parts] at run
  simpa using run

theorem parts_hang (reply tail : Bytes) (pieces : List Bytes) (turns : Nat) (parts : Parts reply pieces tail)
    (noNul : (0 : UInt8) ∉ reply) (few : pieces.countP isText ≤ 16) (unended : tail ≠ []) :
    parseLoop reply.length turns (startParse reply) = none := by
  obtain ⟨after, later, run, whole, _⟩ := parts_fit reply tail pieces parts noNul few
  cases ended : parseLoop reply.length turns (startParse reply) with
  | none => rfl
  | some result =>
      have longer := parse_loop_more reply.length turns pieces.length (startParse reply) result ended
      rw [run, parse_tail_hangs reply.length turns after tail later parts.last whole unended] at longer
      cases longer

theorem parts_done (reply : Bytes) (pieces : List Bytes) (parts : Parts reply pieces []) (noNul : (0 : UInt8) ∉ reply)
    (few : pieces.countP isText ≤ 16) :
    ∃ parse, (∀ turns, parseLoop reply.length (pieces.length + (turns + 1)) (startParse reply) = some (.ended parse)) ∧
      parse.lpszSplits.length ≤ 16 ∧ splitTexts parse.szBuf parse.lpszSplits = responseLines reply := by
  obtain ⟨after, later, run, whole, count, holds⟩ := parts_fit reply [] pieces parts noNul few
  rw [List.length_nil, Nat.add_zero] at whole
  refine ⟨⟨after ++ [0], after.length, later⟩, fun turns => ?_, by rw [count]; exact few, ?_⟩
  · rw [run (turns + 1), whole, List.nil_append]
    exact parse_tail_ends turns after later
  · rw [(parts_texts reply [] pieces parts rfl).1]
    exact holds [0]

theorem pieces_length (pieces : List Bytes) : pieces.length ≤ (unlines pieces).length := by
  induction pieces with
  | nil => exact Nat.le_refl _
  | cons line pieces ih =>
      have shape := unlines_cons line pieces []
      rw [List.append_nil, List.append_nil] at shape
      rw [shape, List.length_append, List.length_cons, List.length_cons]
      omega

-- The loop is left, and every store was into lpszSplits.
def Total (reply : Bytes) : Prop := ∃ turns parse, parseRun turns reply = some (.ended parse) ∧
    parse.lpszSplits.length ≤ 16

theorem total_iff (reply : Bytes) (noNul : (0 : UInt8) ∉ reply) (short : reply.length < 4096) :
    Total reply ↔ (reply = [] ∨ reply.getLast? = some 10) ∧ (reply.splitOn 10).countP isText ≤ 16 := by
  obtain ⟨pieces, tail, parts⟩ := parts_exist reply
  rw [parts_closed reply tail pieces parts]
  constructor
  · rintro ⟨turns, parse, ended, _⟩
    rw [parseRun, if_pos short] at ended
    by_cases few : pieces.countP isText ≤ 16
    · by_cases closed : tail = []
      · exact ⟨closed, (parts_texts reply tail pieces parts closed).2 ▸ few⟩
      · rw [parts_hang reply tail pieces turns parts noNul few closed] at ended
        cases ended
    · have longer := parse_loop_more reply.length turns pieces.length (startParse reply) _ ended
      rw [parts_over reply tail pieces turns parts noNul (by omega)] at longer
      cases longer
  · rintro ⟨rfl, few⟩
    rw [(parts_texts reply [] pieces parts rfl).2] at few
    obtain ⟨parse, run, bound, _⟩ := parts_done reply pieces parts noNul few
    exact ⟨_, parse, by rw [parseRun, if_pos short]; exact run 0, bound⟩

theorem parse_total_iff (reply : Bytes) (noNul : (0 : UInt8) ∉ reply) (short : reply.length < 1024) :
    Total reply ↔ (reply = [] ∨ reply.getLast? = some 10) ∧ (reply.splitOn 10).countP isText ≤ 16 :=
  total_iff reply noNul (by omega)

theorem ok_reply_total : Total (ascii "AT\r\r\nOK\r\n") :=
  (parse_total_iff (ascii "AT\r\r\nOK\r\n") (by decide) (by decide)).mpr (by decide)

-- A reply whose end is still on the line, and one of seventeen lines
theorem cut_reply_hangs :
    ¬ (∀ reply : Bytes, (0 : UInt8) ∉ reply → reply.length < 1024 → Total reply) ∧
      (∀ turns, parseRun turns (ascii "AT\r\r\nOK") = none) ∧
      parseRun 17 (List.replicate 17 (ascii "x\n")).flatten = some .overran := by
  refine ⟨fun always => ?_, fun turns => ?_, by decide⟩
  · have total := always (ascii "OK") (by decide) (by decide)
    rw [total_iff _ (by decide) (by decide)] at total
    exact absurd total.1 (by decide)
  · exact parts_hang (ascii "AT\r\r\nOK") (ascii "OK") [ascii "AT\r\r"] turns ⟨by decide, by decide, by decide⟩
      (by decide)
      (by decide) (by decide)

-- The whole lines decide whether lpszSplits overflows, what follows the last line
-- feed whether the loop ends.
theorem parse_response_cases (reply : Bytes) (noNul : (0 : UInt8) ∉ reply) (short : reply.length < 4096) :
    mdmParseResponse reply =
      if 16 < (reply.splitOn 10).dropLast.countP isText then .overran
      else if reply = [] ∨ reply.getLast? = some 10 then
        .done ⟨responseLines reply, (responseLines reply).getLast?.any startsOK⟩
      else .hangs := by
  obtain ⟨pieces, tail, parts⟩ := parts_exist reply
  have room : pieces.length ≤ reply.length := by
    have bound := pieces_length pieces
    rw [parts.whole, List.length_append]
    omega
  have turns : reply.length + 1 = pieces.length + (reply.length - pieces.length + 1) := by omega
  rw [mdmParseResponse, parseRun, if_pos short, parts_split reply tail pieces parts, List.dropLast_concat]
  simp only [parts_closed reply tail pieces parts]
  by_cases tooMany : 16 < pieces.countP isText
  · rw [if_pos tooMany, turns, parts_over reply tail pieces _ parts noNul tooMany]
  · rw [if_neg tooMany]
    by_cases closed : tail = []
    · subst closed
      obtain ⟨parse, run, _, texts⟩ := parts_done reply pieces parts noNul (by omega)
      rw [if_pos rfl, turns, run]
      simp only [respOf, texts]
    · rw [if_neg closed, parts_hang reply tail pieces _ parts noNul (by omega) closed]

theorem parse_response_done (reply : Bytes) (noNul : (0 : UInt8) ∉ reply) (short : reply.length < 4096)
    (closed : reply = [] ∨ reply.getLast? = some 10) (few : (reply.splitOn 10).countP isText ≤ 16) :
    mdmParseResponse reply = .done ⟨responseLines reply, (responseLines reply).getLast?.any startsOK⟩ := by
  have whole : (reply.splitOn 10).dropLast.countP isText ≤ 16 := (List.dropLast_sublist _).countP_le.trans few
  rw [parse_response_cases reply noNul short, if_neg (by omega), if_pos closed]

theorem parse_splits (reply : Bytes) (noNul : (0 : UInt8) ∉ reply) (short : reply.length < 4096)
    (closed : reply = [] ∨ reply.getLast? = some 10) (few : (reply.splitOn 10).countP isText ≤ 16) :
    ∃ resp, mdmParseResponse reply = .done resp ∧ resp.lpszSplits = responseLines reply ∧
      (resp.bOK = true ↔ ∃ last, (responseLines reply).getLast? = some last ∧ ascii "OK" <+: last) := by
  refine ⟨_, parse_response_done reply noNul short closed few, rfl, ?_⟩
  simp only [Option.any_eq_true, startsOK, List.isPrefixOf_iff_prefix]

theorem echo_reply_splits : ∃ resp, mdmParseResponse (ascii "AT+GMM\r\r\nUC864-E\r\n\r\nOK\r\n") = .done resp ∧
    resp.lpszSplits = [ascii "AT+GMM\r", ascii "UC864-E", ascii "OK"] ∧ resp.bOK = true := by
  obtain ⟨resp, done, texts, ok⟩ := parse_splits (ascii "AT+GMM\r\r\nUC864-E\r\n\r\nOK\r\n") (by decide) (by decide)
    (by decide)
    (by decide)
  exact ⟨resp, done, texts, ok.mpr ⟨ascii "OK", by decide, by decide⟩⟩

end Ftm50s.Modem
