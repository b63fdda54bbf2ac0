import Ftm50s.Cgi.Request
import Ftm50s.Lib.Scan

set_option autoImplicit false

namespace Ftm50s.Syslog

open Lib.Text Lib.Filter Lib.Scan Ftm50s.Cgi

-- none is the pointer that the loop starts with, NULL.
structure Entity where
  szTime : Bytes
  szProcess : Bytes
  lpszContent : Option Bytes
deriving DecidableEq, Repr

def cutAt (c : UInt8) (text : Bytes) : Bytes := text.takeWhile (· != c)

-- One turn of the loop in FTMC_Syslog. The arrays for the words have 64 bytes;
-- none when a word does not fit.
def syslogLine (raw : Bytes) : Option Entity :=
  let line := cstr raw
  let szTime := line.take 15
  let lpszBuf := line.drop szTime.length
  let scanned := (words lpszBuf).take 3
  let szProcess := scanned.getD 2 []
  if scanned.all fun word => decide (word.length < 64) then
    some
      { szTime := szTime
        szProcess := cutAt 58 (cutAt 91 szProcess)
        lpszContent :=
          if scanned.length = 3 then (strstr szProcess lpszBuf).map fun found =>
            (found.drop szProcess.length).dropWhile isSpace
          else none }
  else none

def syslogEntities (output : Bytes) : Option (List Entity) := (fgets 1024 output).mapM syslogLine

def entityText (entity : Entity) : Bytes :=
  ascii "<ENTITY>\n" ++ element (ascii "TIME") entity.szTime ++ element (ascii "PROCESS") entity.szProcess ++
    element (ascii "LOG") (shown entity.lpszContent) ++ ascii "</ENTITY>\n"

-- A line of the log: a time of fifteen bytes and three words
structure Parses (text device level process : Bytes) : Prop where
  plain : (10 : UInt8) ∉ text
  noNul : (0 : UInt8) ∉ text
  stamped : 15 ≤ text.length
  split : ∃ more, words (text.drop 15) = device :: level :: process :: more
  short : device.length < 64 ∧ level.length < 64 ∧ process.length < 64

-- What follows the third word, newline included, without the blanks in front
def message (rest : Bytes) : Bytes := (afterWord (afterWord (afterWord rest))).dropWhile isSpace

def ReadsRight (text process : Bytes) : Prop :=
  syslogEntities (text ++ [10]) =
    some [⟨text.take 15, process.takeWhile (fun c => c != 91 && c != 58), some (message (text.drop 15 ++ [10]))⟩]

def PrintsNoNull (text : Bytes) : Prop :=
  ∃ entities, syslogEntities (text ++ [10]) = some entities ∧ ∀ entity ∈ entities, entity.lpszContent ≠ none

theorem cut_twice (text : Bytes) : cutAt 58 (cutAt 91 text) = text.takeWhile fun c => c != 91 && c != 58 := by
  rw [cutAt, cutAt, List.takeWhile_takeWhile]
  congr 1
  funext c
  cases first : (c != 91) <;> cases second : (c != 58) <;> simp_all

theorem three_words (rest device level process : Bytes) (more : List Bytes)
    (split : words rest = device :: level :: process :: more) :
    ∃ gap between before, Opens rest gap device ∧ Opens (afterWord rest) between level ∧
      Opens (afterWord (afterWord rest)) before process := by
  obtain ⟨first, later⟩ := words_open rest device _ split
  obtain ⟨second, last⟩ := words_open _ level _ later
  obtain ⟨third, _⟩ := words_open _ process _ last
  exact ⟨_, _, _, first, second, third⟩

-- The search finds the third word unless it is part of one of the words before.
theorem content_right_iff (rest device level process : Bytes) (more : List Bytes)
    (split : words rest = device :: level :: process :: more) :
    (strstr process rest).map (fun found => (found.drop process.length).dropWhile isSpace) = some (message rest) ↔
      occurs process device = false ∧ occurs process level = false := by
  obtain ⟨gap, between, before, first, second, third⟩ := three_words rest device level process more split
  have word := third.isWord
  obtain ⟨c, tail, cons⟩ := List.exists_cons_of_ne_nil (word_nonempty process word)
  have letter : isSpace c = false := by
    by_contra space
    exact word_spaceless process word c (by simpa using space) (by rw [cons]; exact List.mem_cons_self)
  have longer : ∀ front, ((front ++ (process ++
    afterWord (afterWord (afterWord rest)))).dropWhile isSpace).length ≠ (message rest).length := by
    intro front
    have kept := drop_blanks_keeps front (tail ++ afterWord (afterWord (afterWord rest))) c letter
    have shrunk : (message rest).length ≤ (afterWord (afterWord (afterWord rest))).length :=
      (List.dropWhile_suffix isSpace).length_le
    rw [cons]
    rw [List.length_cons, List.length_append] at kept
    rw [List.cons_append]
    omega
  have start : strstr process rest = strstr process (device ++ afterWord rest) := by
    conv_lhs => rw [first.whole, strstr_gap process gap _ word first.blank]
  by_cases inDevice : occurs process device = true
  · obtain ⟨back, found⟩ := strstr_word_found process device _ word first.closed inDevice
    rw [start, found, Option.map_some, List.drop_left]
    constructor
    · intro same
      refine absurd (congrArg List.length (Option.some.inj same)) ?_
      rw [second.whole, third.whole]
      have shape := longer (back ++ between ++ level ++ before)
      simpa only [List.append_assoc] using shape
    · intro absent
      rw [inDevice] at absent
      cases absent.1
  · have absentDevice : occurs process device = false := by simpa using inDevice
    have middle : strstr process rest = strstr process (level ++ afterWord (afterWord rest)) := by
      rw [start, strstr_word_absent process device _ word first.closed absentDevice]
      conv_lhs => rw [second.whole, strstr_gap process between _ word second.blank]
    by_cases inLevel : occurs process level = true
    · obtain ⟨back, found⟩ := strstr_word_found process level _ word second.closed inLevel
      rw [middle, found, Option.map_some, List.drop_left]
      constructor
      · intro same
        refine absurd (congrArg List.length (Option.some.inj same)) ?_
        rw [third.whole]
        have shape := longer (back ++ before)
        simpa only [List.append_assoc] using shape
      · intro absent
        rw [inLevel] at absent
        cases absent.2
    · have absentLevel : occurs process level = false := by simpa using inLevel
      have last : strstr process rest = some (process ++ afterWord (afterWord (afterWord rest))) := by
        rw [middle, strstr_word_absent process level _ word second.closed absentLevel]
        conv_lhs => rw [third.whole, strstr_gap process before _ word third.blank]
        exact strstr_here process _ (word_nonempty process word)
      rw [last, Option.map_some, List.drop_left, message]
      exact ⟨fun _ => ⟨absentDevice, absentLevel⟩, fun _ => rfl⟩

theorem syslog_line_time (text : Bytes) (noNul : (0 : UInt8) ∉ text) (stamped : 15 ≤ text.length) :
    cstr (text ++ [10]) = text ++ [10] ∧ (text ++ [10]).take 15 = text.take 15 ∧
      (text ++ [10]).drop (text.take 15).length = text.drop 15 ++ [10] := by
  have nul : (0 : UInt8) ∉ text ++ [10] := by simp [noNul]
  have full : (text.take 15).length = 15 := by
    rw [List.length_take]
    omega
  refine ⟨cstr_plain _ nul, List.take_append_of_le_length stamped, ?_⟩
  rw [full, List.drop_append_of_le_length stamped]

theorem syslog_line_right_iff (text device level process : Bytes) (parses : Parses text device level process) :
    syslogLine (text ++ [10]) =
        some ⟨text.take 15, process.takeWhile (fun c => c != 91 && c != 58), some (message (text.drop 15 ++ [10]))⟩ ↔
      occurs process device = false ∧ occurs process level = false := by
  obtain ⟨more, split⟩ := parses.split
  obtain ⟨whole, time, rest⟩ := syslog_line_time text parses.noNul parses.stamped
  have closed : words (text.drop 15 ++ [10]) = device :: level :: process :: more := by
    rw [words_space _ [] 10 rfl, split]
    exact List.append_nil _
  rw [← content_right_iff (text.drop 15 ++ [10]) device level process more closed]
  have short : (([device, level, process] : List Bytes).all fun word => decide (word.length < 64)) = true := by
    simp [parses.short]
  have three : (words (text.drop 15 ++ [10])).take 3 = [device, level, process] := by
    rw [closed]
    rfl
  simp only [syslogLine, whole, time, rest, three, short, if_true, List.getD_cons_succ, List.getD_cons_zero,
    List.length_cons,
    List.length_nil, cut_twice]
  constructor
  · intro same
    exact (Entity.mk.inj (Option.some.inj same)).2.2
  · intro same
    rw [same]

theorem long_line_split (text : Bytes) (long : 1022 < text.length) (raw : Bytes) :
    fgets 1024 (text ++ [10]) ≠ [raw] := by
  intro single
  have bound := fgets_length 1024 (text ++ [10]) raw (by omega) (by rw [single]; exact List.mem_singleton_self raw)
  have all := fgets_whole 1024 (text ++ [10])
  rw [single, List.flatten_singleton] at all
  have length := congrArg List.length all
  rw [List.length_append, List.length_singleton] at length
  omega

theorem reads_right_iff (text device level process : Bytes) (parses : Parses text device level process) :
    ReadsRight text process ↔
      text.length ≤ 1022 ∧ occurs process device = false ∧ occurs process level = false := by
  rw [← syslog_line_right_iff text device level process parses]
  by_cases short : text.length ≤ 1022
  · have single : fgets 1024 (text ++ [10]) = [text ++ [10]] := fgets_line 1024 text [] parses.plain (by omega)
    rw [ReadsRight, syslogEntities, single]
    constructor
    · intro run
      obtain ⟨raw, same, found⟩ := map_m_singleton _ _ _ run
      obtain rfl := (List.cons.inj same).1
      exact ⟨short, found⟩
    · intro found
      rw [List.mapM_cons, found.2]
      rfl
  · constructor
    · intro run
      obtain ⟨raw, same, _⟩ := map_m_singleton _ _ _ run
      exact absurd same (long_line_split text (by omega) raw)
    · exact fun found => absurd found.1 short

theorem few_words_null (raw : Bytes) (entity : Entity) (few : (words ((cstr raw).drop 15)).length < 3)
    (found : syslogLine raw = some entity) : entity.lpszContent = none := by
  have skipped : (cstr raw).drop ((cstr raw).take 15).length = (cstr raw).drop 15 := by
    rw [List.length_take]
    by_cases long : 15 ≤ (cstr raw).length
    · rw [Nat.min_eq_left long]
    · rw [Nat.min_eq_right (by omega), List.drop_length, List.drop_eq_nil_of_le (by omega)]
  have missing : ((words ((cstr raw).drop 15)).take 3).length ≠ 3 := by
    rw [List.length_take]
    omega
  simp only [syslogLine, skipped, if_neg missing] at found
  split at found
  · rw [← Option.some.inj found]
  · cases found

-- The first record is all or the front of the line, so it has no third word either.
theorem null_printed (text : Bytes) (noNul : (0 : UInt8) ∉ text) (few : (words (text.drop 15)).length < 3) :
    ¬ PrintsNoNull text := by
  rintro ⟨entities, run, given⟩
  have all := fgets_whole 1024 (text ++ [10])
  cases records : fgets 1024 (text ++ [10]) with
  | nil =>
      rw [records] at all
      simp at all
  | cons raw others =>
      rw [records, List.flatten_cons] at all
      rw [syslogEntities, records, List.mapM_cons] at run
      obtain ⟨entity, found, run⟩ := Option.bind_eq_some_iff.mp run
      obtain ⟨later, _, run⟩ := Option.bind_eq_some_iff.mp run
      have member : entity ∈ entities := by
        rw [← Option.some.inj run]
        exact List.mem_cons_self
      refine given entity member (few_words_null raw entity ?_ found)
      have plain : cstr raw = raw := by
        apply cstr_plain
        intro inside
        have within : (0 : UInt8) ∈ text ++ [10] := by
          rw [← all]
          exact List.mem_append_left _ inside
        simp [noNul] at within
      have counted : words ((text ++ [10]).drop 15) = words (text.drop 15) := by
        by_cases stamped : 15 ≤ text.length
        · rw [List.drop_append_of_le_length stamped, words_space _ [] 10 rfl]
          exact List.append_nil _
        · rw [List.drop_eq_nil_of_le (by rw [List.length_append, List.length_singleton]; omega),
            List.drop_eq_nil_of_le (by omega)]
      have bound := words_length_le (raw.drop 15) (others.flatten.drop (15 - raw.length))
      rw [← List.drop_append, all, counted] at bound
      rw [plain]
      omega

theorem log_lines_exact (text : Bytes) (noNul : (0 : UInt8) ∉ text) :
    (∀ device level process, Parses text device level process →
      (ReadsRight text process ↔
        text.length ≤ 1022 ∧ occurs process device = false ∧ occurs process level = false)) ∧
    ((words (text.drop 15)).length < 3 → ¬ PrintsNoNull text) :=
  ⟨reads_right_iff text, null_printed text noNul⟩

def cronLine : Bytes := ascii "Jan  1 00:00:00 FTM50S cron.info cron[12]: started"

theorem cron_line_read : ReadsRight cronLine (ascii "cron[12]:") ∧ ¬ PrintsNoNull (ascii "Jan  1 00:00:00 FTM50S") := by
  have parses : Parses cronLine (ascii "FTM50S") (ascii "cron.info") (ascii "cron[12]:") :=
    ⟨by decide, by decide, by decide, ⟨[ascii "started"], by decide⟩, by decide⟩
  exact ⟨((log_lines_exact cronLine (by decide)).1 _ _ _ parses).mpr (by decide),
    (log_lines_exact (ascii "Jan  1 00:00:00 FTM50S") (by decide)).2 (by decide)⟩

def daemonLine : Bytes := ascii "Jan  1 00:00:00 FTM50S daemon.info daemon started"

theorem daemon_line_misread :
    Parses daemonLine (ascii "FTM50S") (ascii "daemon.info") (ascii "daemon") ∧
    ¬ ReadsRight daemonLine (ascii "daemon") ∧
      syslogEntities (daemonLine ++ [10]) =
        some [⟨ascii "Jan  1 00:00:00", ascii "daemon", some (ascii ".info daemon started\n")⟩] ∧
      syslogEntities (ascii "Jan  1 00:00:00 FTM50S\n") = some [⟨ascii "Jan  1 00:00:00", [], none⟩] := by
  have parses : Parses daemonLine (ascii "FTM50S") (ascii "daemon.info") (ascii "daemon") :=
    ⟨by decide, by decide, by decide, ⟨[ascii "started"], by decide⟩, by decide⟩
  refine ⟨parses, ?_, by decide, by decide⟩
  rw [reads_right_iff _ _ _ _ parses]
  decide

end Ftm50s.Syslog
