import Ftm50s.Cgi.Request
import Ftm50s.Lib.Printf
import Ftm50s.Lib.Scan

set_option autoImplicit false

namespace Ftm50s.Page

open Lib.Text Lib.Filter Lib.Scan Lib.Printf Ftm50s.Cgi

-- What fopen finds under a name
abbrev Files := Bytes → Option Bytes

def baseName : Bytes := ascii "/www/contents/base"

-- snprintf into szInnerFileName, which has 1024 bytes
def scriptName (lpszCmd : Option Bytes) : Bytes := (ascii "/www/scripts/" ++ shown lpszCmd ++ ascii ".js").take 1023

def contentName (lpszCmd : Option Bytes) : Bytes := (ascii "/www/contents/" ++ shown lpszCmd).take 1023

inductive Mark where
  | script
  | content
deriving DecidableEq, Repr

-- strstr looks for the marks in front of a NUL.
def markOf (szBuf : Bytes) : Option Mark :=
  if occurs (ascii "###SCRIPT###") (cstr szBuf) then some .script
  else if occurs (ascii "###CONTENT###") (cstr szBuf) then some .content
  else none

def innerName (lpszCmd : Option Bytes) : Mark → Bytes
  | .script => scriptName lpszCmd
  | .content => contentName lpszCmd

def frontOf : Mark → Bytes
  | .script => ascii "<script type='text/javascript'>\n"
  | .content => []

def backOf : Mark → Bytes
  | .script => ascii "</script>\n"
  | .content => []

-- printf(szBuf) for every record of the inner file
def printFile (file : Bytes) : Option Bytes :=
  ((fgets 1024 file).mapM fun szBuf => printf (cstr szBuf)).map List.flatten

def pageLine (files : Files) (lpszCmd : Option Bytes) (szBuf : Bytes) : Option Bytes :=
  match markOf szBuf with
  | some mark =>
      match files (innerName lpszCmd mark) with
      | none => some []
      | some inner => (printFile inner).map fun shown => frontOf mark ++ shown ++ backOf mark
  | none => printf (cstr szBuf)

-- FTMC_Page: the body of the answer
def ftmcPage (files : Files) (req : Request) : Option Bytes :=
  match files baseName with
  | none => some []
  | some base => ((fgets 1024 base).mapM (pageLine files (getstr req "cmd"))).map List.flatten

-- The page as it is meant: a line with a mark gives way to the whole inner file.
def assembledLine (files : Files) (lpszCmd : Option Bytes) (row : Bytes) : Bytes :=
  match markOf row with
  | some mark =>
      match files (innerName lpszCmd mark) with
      | none => []
      | some inner => frontOf mark ++ inner ++ backOf mark
  | none => row

def assembledPage (files : Files) (lpszCmd : Option Bytes) (base : Bytes) : Bytes :=
  ((rows base).map (assembledLine files lpszCmd)).flatten

def ShortLines (file : Bytes) : Prop := ∀ row ∈ rows file, (chomp row).length < 1023

-- No percent sign, and no NUL to end the text early
def Clean (text : Bytes) : Prop := (37 : UInt8) ∉ text ∧ (0 : UInt8) ∉ text

def CleanLine (files : Files) (lpszCmd : Option Bytes) (row : Bytes) : Prop :=
  match markOf row with
  | some mark => ∀ inner, files (innerName lpszCmd mark) = some inner → Clean inner
  | none => Clean row

theorem rows_flatten (file : Bytes) : (rows file).flatten = file := cut_from_flatten _ [] file

theorem print_file_copies (file : Bytes) (short : ShortLines file) : Copies (printFile file) file (Clean file) := by
  have each := copies_list (rows file) (fun szBuf => printf (cstr szBuf)) id Clean fun row _ => printf_copies row
  rw [List.map_id, rows_flatten] at each
  have all : (∀ row ∈ rows file, Clean row) ↔ Clean file := by
    conv_rhs => rw [← rows_flatten file, Clean, List.mem_flatten, List.mem_flatten]
    simp only [Clean]
    grind
  rw [printFile, fgets_rows 1024 file fun row member => by have := short row member; omega]
  rw [all] at each
  exact each

theorem page_line_copies (files : Files) (lpszCmd : Option Bytes) (row : Bytes)
    (short : ∀ mark inner, files (innerName lpszCmd mark) = some inner → ShortLines inner) :
    Copies (pageLine files lpszCmd row) (assembledLine files lpszCmd row) (CleanLine files lpszCmd row) := by
  unfold pageLine assembledLine CleanLine
  cases markOf row with
  | none => exact printf_copies row
  | some mark =>
      cases found : files (innerName lpszCmd mark) with
      | none =>
          simp only [found]
          refine ⟨fun _ => rfl, ?_⟩
          intro shown ran
          obtain rfl := Option.some.inj ran
          exact ⟨Nat.le_refl _, fun _ => nofun⟩
      | some inner =>
          have copies := copies_wrap _ _ (frontOf mark) (backOf mark) _
            (print_file_copies inner (short mark inner found))
          simp only [found, Option.some.injEq, forall_eq']
          exact copies

theorem page_verbatim_iff (files : Files) (req : Request) (base : Bytes) (opened : files baseName = some base)
    (baseShort : ShortLines base)
    (innerShort : ∀ mark inner, files (innerName (getstr req "cmd") mark) = some inner → ShortLines inner) :
    ftmcPage files req = some (assembledPage files (getstr req "cmd") base) ↔
      ∀ row ∈ rows base, CleanLine files (getstr req "cmd") row := by
  have copies := copies_list (rows base) (pageLine files (getstr req "cmd")) (assembledLine files (getstr req "cmd"))
    (CleanLine files (getstr req "cmd")) fun row _ => page_line_copies files (getstr req "cmd") row innerShort
  have read : fgets 1024 base = rows base := fgets_rows 1024 base fun row member => by
    have := baseShort row member
    omega
  rw [← copies_iff _ _ _ copies, ftmcPage, opened]
  simp only [read]
  rfl

def pageBase : Bytes := ascii "<div>\n<!-- ###CONTENT### -->\n</div>\n"

def pageFiles (content : String) : Files := fun name =>
  if name = baseName then some pageBase
  else if name = ascii "/www/contents/usage" then some (ascii content)
  else none

def usageRequest : Request := ⟨[(ascii "cmd", ascii "usage")]⟩

theorem page_files_short (content : String) (short : ShortLines (ascii content)) :
    ShortLines pageBase ∧
      ∀ mark inner, pageFiles content (innerName (getstr usageRequest "cmd") mark) = some inner → ShortLines inner := by
  have cmd : getstr usageRequest "cmd" = some (ascii "usage") := by decide
  refine ⟨?_, ?_⟩
  · have small : (rows pageBase).all (fun row => decide ((chomp row).length < 1023)) = true := by
      decide
    intro row member
    exact of_decide_eq_true (List.all_eq_true.mp small row member)
  · intro mark inner found
    rw [cmd] at found
    cases mark with
    | script =>
        have missing : pageFiles content (innerName (some (ascii "usage")) .script) = none := by
          rw [pageFiles, if_neg (by decide), if_neg (by decide)]
        rw [missing] at found
        cases found
    | content =>
        have present : pageFiles content (innerName (some (ascii "usage")) .content) = some (ascii content) := by
          rw [pageFiles, if_neg (by decide), if_pos (by decide)]
        rw [present] at found
        rw [← Option.some.inj found]
        exact short

theorem page_base_rows : rows pageBase = [ascii "<div>\n", ascii "<!-- ###CONTENT### -->\n", ascii "</div>\n"] := by
    decide

theorem usage_page_verbatim :
    ftmcPage (pageFiles "<b>ok</b>\n") usageRequest =
        some (assembledPage (pageFiles "<b>ok</b>\n") (getstr usageRequest "cmd") pageBase) ∧
      assembledPage (pageFiles "<b>ok</b>\n") (getstr usageRequest "cmd") pageBase =
      ascii "<div>\n<b>ok</b>\n</div>\n" := by
  have short : ShortLines (ascii "<b>ok</b>\n") := by
    have small : (rows (ascii "<b>ok</b>\n")).all (fun row => decide ((chomp row).length < 1023)) = true := by decide
    intro row member
    exact of_decide_eq_true (List.all_eq_true.mp small row member)
  obtain ⟨baseShort, innerShort⟩ := page_files_short "<b>ok</b>\n" short
  refine ⟨(page_verbatim_iff (pageFiles "<b>ok</b>\n") usageRequest pageBase rfl baseShort innerShort).mpr ?_, by decide⟩
  intro row member
  rw [page_base_rows] at member
  simp only [List.mem_cons, List.not_mem_nil, or_false] at member
  rcases member with rfl | rfl | rfl
  · rw [CleanLine, show markOf (ascii "<div>\n") = none by decide]
    exact ⟨by decide, by decide⟩
  · rw [CleanLine, show markOf (ascii "<!-- ###CONTENT### -->\n") = some .content by decide]
    intro inner found
    have present : pageFiles "<b>ok</b>\n" (innerName (getstr usageRequest "cmd") .content) =
      some (ascii "<b>ok</b>\n") := by decide
    rw [present] at found
    rw [← Option.some.inj found]
    exact ⟨by decide, by decide⟩
  · rw [CleanLine, show markOf (ascii "</div>\n") = none by decide]
    exact ⟨by decide, by decide⟩

theorem percent_page_changed :
    ftmcPage (pageFiles "100%%\n") usageRequest ≠
        some (assembledPage (pageFiles "100%%\n") (getstr usageRequest "cmd") pageBase) ∧
      ftmcPage (pageFiles "100%%\n") usageRequest = some (ascii "<div>\n100%\n</div>\n") ∧
      ftmcPage (pageFiles "50% done\n") usageRequest = none := by
  decide

end Ftm50s.Page
