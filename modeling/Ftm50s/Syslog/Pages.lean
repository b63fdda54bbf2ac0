import Ftm50s.Lib.Decimal
import Ftm50s.Lib.Filter

set_option autoImplicit false

namespace Ftm50s.Syslog

open Lib.Text Lib.Decimal Lib.Filter

-- The lines with their newlines and their numbers, so that equal lines of the
-- log stay apart.
def numbered (messages : Bytes) : List (Bytes × Nat) := (cutFrom lineEnds [] messages).zipIdx 1

-- start_index and count of get_syslog.sh
def window (total index count : Nat) : Nat × Nat :=
  if index + count ≤ total then (total - index - count, count)
  else if index ≤ total then (0, total - index)
  else (0, 0)

-- tail -n +k begins with the k-th line, and +0 with the first.
def tailFrom (k : Nat) (rows : List (Bytes × Nat)) : List (Bytes × Nat) := rows.drop (k - 1)

def headLines (n : Nat) (rows : List (Bytes × Nat)) : List (Bytes × Nat) := rows.take n

def pickedLines (messages : Bytes) (index count : Nat) : List (Bytes × Nat) :=
  let picked := window (messages.count 10) index count
  headLines picked.2 (tailFrom picked.1 (numbered messages))

-- The five commands of sed, in their order
def escape (line : Bytes) : Bytes :=
  replaceAll [34] (ascii "&quot;") (replaceAll [39] (ascii "&apos;") (replaceAll [38] (ascii "&amp;")
    (replaceAll [62] (ascii "&lt;") (replaceAll [60] (ascii "&gt;") line))))

def getSyslogSh (messages : Option Bytes) (index count : Nat) : Bytes :=
  match messages with
  | some file => (pickedLines file index count).flatMap fun line => escape line.1
  | none => []

-- onGetLog
def pageLines (messages : Bytes) (page : Nat) : List (Bytes × Nat) := pickedLines messages ((page - 1) * 20) 20

def pageCount (total : Nat) : Nat := (total + 19) / 20

-- The first page has the newest lines, and all pages, the last one first, are
-- the file.
def Paginates (messages : Bytes) : Prop :=
  pageLines messages 1 = (numbered messages).drop (messages.count 10 - 20) ∧
    (List.range' 1 (pageCount (messages.count 10))).reverse.flatMap (pageLines messages) = numbered messages

theorem cut_unlines (rows : List Bytes) (plain : ∀ row ∈ rows, (10 : UInt8) ∉ row) :
    cutFrom lineEnds [] (unlines rows) = rows.map fun row => row ++ [10] := by
  induction rows with
  | nil => rfl
  | cons row rest ih =>
      have first : unlines (row :: rest) = row ++ 10 :: unlines rest := by simp [unlines, List.flatMap_cons]
      rw [first, cut_from_record lineEnds row (unlines rest) 10
        (fun part within _ => prefix_not_line_end row part (plain row (by simp)) within) (by simp [lineEnds]),
        ih fun other member => plain other (by simp [member]), List.map_cons]

theorem newline_count (rows : List Bytes) (plain : ∀ row ∈ rows, (10 : UInt8) ∉ row) :
    (unlines rows).count 10 = rows.length := by
  induction rows with
  | nil => rfl
  | cons row rest ih =>
      have own : row.count 10 = 0 := List.count_eq_zero.mpr (plain row (by simp))
      have later := ih fun other member => plain other (by simp [member])
      rw [unlines] at later ⊢
      rw [List.flatMap_cons, List.count_append, List.count_append, own, later, List.length_cons]
      simp
      omega

theorem numbered_line (messages : Bytes) (i : Nat) (line : Bytes × Nat) (found : (numbered messages)[i]? = some line) :
    line.2 = i + 1 := by
  rw [numbered, List.getElem?_zipIdx] at found
  obtain ⟨_, _, rfl⟩ := Option.map_eq_some_iff.mp found
  exact Nat.add_comm 1 i

theorem numbered_length (rows : List Bytes) (plain : ∀ row ∈ rows, (10 : UInt8) ∉ row) :
    (numbered (unlines rows)).length = rows.length := by
  rw [numbered, cut_unlines rows plain, List.length_zipIdx, List.length_map]

theorem full_page_shifted (rows : List Bytes) (plain : ∀ row ∈ rows, (10 : UInt8) ∉ row) (long : 20 < rows.length) :
    pageLines (unlines rows) 1 ≠ (numbered (unlines rows)).drop ((unlines rows).count 10 - 20) := by
  intro same
  have length := numbered_length rows plain
  rw [newline_count rows plain, pageLines, pickedLines, newline_count rows plain] at same
  have picked : window rows.length ((1 - 1) * 20) 20 = (rows.length - 20, 20) := by
    rw [window, if_pos (by omega)]
    rfl
  rw [picked, headLines, tailFrom] at same
  have heads := congrArg (fun lines => lines[0]?) same
  simp only [List.getElem?_take, List.getElem?_drop, Nat.zero_lt_succ, if_true, Nat.add_zero] at heads
  have inside : rows.length - 20 < (numbered (unlines rows)).length := by omega
  have right := List.getElem?_eq_getElem inside
  have rightNumber := numbered_line _ _ _ right
  have leftNumber := numbered_line _ _ _ (heads.trans right)
  omega

theorem single_page (rows : List Bytes) (plain : ∀ row ∈ rows, (10 : UInt8) ∉ row) (short : rows.length ≤ 20) :
    pageLines (unlines rows) 1 = numbered (unlines rows) := by
  have length := numbered_length rows plain
  have picked : window rows.length ((1 - 1) * 20) 20 = (0, rows.length) := by
    unfold window
    split
    · simp
      omega
    · rw [if_pos (by omega)]
      simp
  rw [pageLines, pickedLines, newline_count rows plain, picked]
  exact List.take_of_length_le (by rw [tailFrom, List.length_drop]; omega)

theorem log_pages (rows : List Bytes) (plain : ∀ row ∈ rows, (10 : UInt8) ∉ row) (nonempty : 1 ≤ rows.length) :
    Paginates (unlines rows) ↔ rows.length ≤ 20 := by
  constructor
  · intro pages
    by_contra long
    exact full_page_shifted rows plain (by omega) pages.1
  · intro short
    have whole := single_page rows plain short
    have one : pageCount rows.length = 1 := by
      rw [pageCount]
      omega
    refine ⟨?_, ?_⟩
    · rw [whole, newline_count rows plain, Nat.sub_eq_zero_of_le short, List.drop_zero]
    · rw [newline_count rows plain, one]
      simpa using whole

theorem log_pages_short : Paginates (ascii "boot\neth0 up\nboot\n") :=
  (log_pages [ascii "boot", ascii "eth0 up", ascii "boot"] (by decide) (by decide)).mpr (by decide)

def longLog : List Bytes := (List.range 21).map decimal

-- With 21 lines the newest is on no page and the oldest on both.
theorem log_pages_lose_line : ¬ ∀ rows : List Bytes, (∀ row ∈ rows, (10 : UInt8) ∉ row) → 1 ≤ rows.length →
    Paginates (unlines rows) := by
  intro always
  have plain : ∀ row ∈ longLog, (10 : UInt8) ∉ row := by
    intro row member newline
    obtain ⟨n, _, rfl⟩ := List.mem_map.mp member
    exact absurd (decimal_digits n 10 newline) (by decide)
  exact full_page_shifted longLog plain (by decide) (always longLog plain (by decide)).1

end Ftm50s.Syslog
