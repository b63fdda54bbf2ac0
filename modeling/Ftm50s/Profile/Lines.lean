import Ftm50s.Profile.Config

set_option autoImplicit false

namespace Ftm50s.Profile

open Lib.Text Lib.Decimal Ftm50s.Cgi

-- What a line of the file declares for a tag: the text behind the tag, which
-- the readers then trim or scan.
def lineRest (tag raw : Bytes) : Option Bytes :=
  if (cstr raw).head? = some 35 then none
  else
    match words (cstr raw) with
    | [] => none
    | word :: _ => if word = tag then some ((cstr raw).drop tag.length) else none

def lastRest (tag : Bytes) : List Bytes → Option Bytes
  | [] => none
  | raw :: rest => (lastRest tag rest).or (lineRest tag raw)

def tagFits (raw : Bytes) : Bool := (cstr raw).head? == some 35 || (words (cstr raw)).head?.all (·.length < 32)

def lineTimeout (stale : Stale) (raw : Bytes) : Option Int :=
  (lineRest (ascii "timeout:") raw).map fun rest => (scanInt rest).getD (stale.nTimeout (cstr raw)).toInt

def field (width : Nat) (rest : Bytes) : Bytes := (trim rest).take width

def applyLine (stale : Stale) (config : Config) (raw : Bytes) : Config :=
  { config with
    szLocation := ((lineRest (ascii "location:") raw).map (field maxLocationLen)).getD config.szLocation
    szUserID := ((lineRest (ascii "userid:") raw).map (field maxUserIdLen)).getD config.szUserID
    szPasswd := ((lineRest (ascii "passwd:") raw).map (field maxPwLen)).getD config.szPasswd
    nTimeout := ((lineTimeout stale raw).filter (· < 0)).getD config.nTimeout }

theorem line_rest_comment (tag raw : Bytes) (comment : (cstr raw).head? = some 35) : lineRest tag raw = none := by
  rw [lineRest, if_pos comment]

theorem line_rest_blank (tag raw : Bytes) (blank : words (cstr raw) = []) : lineRest tag raw = none := by
  simp [lineRest, blank]

theorem line_rest_tag (tag raw word : Bytes) (others : List Bytes) (live : (cstr raw).head? ≠ some 35)
    (first : words (cstr raw) = word :: others) :
    lineRest tag raw = if word = tag then some ((cstr raw).drop tag.length) else none := by
  simp only [lineRest, if_neg live, first]

theorem load_line_fits (stale : Stale) (state : LoadState) (raw : Bytes) (fits : tagFits raw = true) :
    ∃ szBuf, loadLine stale state raw = some ⟨applyLine stale state.config raw, szBuf⟩ := by
  by_cases comment : (cstr raw).head? = some 35
  · refine ⟨cstr raw, ?_⟩
    simp [loadLine, applyLine, comment, line_rest_comment _ raw comment, lineTimeout]
  · cases first : words (cstr raw) with
    | nil =>
        refine ⟨cstr raw, ?_⟩
        simp [loadLine, applyLine, comment, first, line_rest_blank _ raw first, lineTimeout]
    | cons word others =>
        have short : ¬ 32 ≤ word.length := by
          simpa [tagFits, comment, first] using fits
        have rest := fun tag => line_rest_tag tag raw word others comment first
        simp only [loadLine, if_neg comment, first, if_neg short, applyLine, lineTimeout, rest]
        by_cases location : word = ascii "location:"
        · subst location
          exact ⟨_, rfl⟩
        · by_cases userid : word = ascii "userid:"
          · subst userid
            exact ⟨_, rfl⟩
          · by_cases passwd : word = ascii "passwd:"
            · subst passwd
              exact ⟨_, rfl⟩
            · by_cases timeout : word = ascii "timeout:"
              · subst timeout
                simp only [if_neg location, if_neg userid, if_neg passwd, if_true, Option.map_some, Option.map_none,
                  Option.getD_none]
                by_cases negative :
                    (scanInt ((cstr raw).drop (ascii "timeout:").length)).getD (stale.nTimeout (cstr raw)).toInt < 0
                · exact ⟨_, by rw [if_pos negative]; simp [Option.filter, negative]; rfl⟩
                · exact ⟨_, by rw [if_neg negative]; simp [Option.filter, negative]; rfl⟩
              · simp only [if_neg location, if_neg userid, if_neg passwd, if_neg timeout]
                exact ⟨_, rfl⟩

theorem load_line_overrun (stale : Stale) (state : LoadState) (raw : Bytes) (wide : tagFits raw = false) :
    loadLine stale state raw = none := by
  have live : (cstr raw).head? ≠ some 35 := by
    intro comment
    simp [tagFits, comment] at wide
  cases first : words (cstr raw) with
  | nil => simp [tagFits, first] at wide
  | cons word others =>
      have long : 32 ≤ word.length := by
        simpa [tagFits, live, first] using wide
      simp only [loadLine, if_neg live, first, if_pos long]

theorem load_lines_fits (stale : Stale) (records : List Bytes) (state : LoadState)
    (fits : ∀ raw ∈ records, tagFits raw = true) :
    ∃ szBuf, records.foldlM (loadLine stale) state = some ⟨records.foldl (applyLine stale) state.config, szBuf⟩ := by
  induction records generalizing state with
  | nil => exact ⟨state.szBuf, rfl⟩
  | cons raw rest ih =>
      obtain ⟨szBuf, line⟩ := load_line_fits stale state raw (fits raw (by simp))
      obtain ⟨last, run⟩ := ih ⟨applyLine stale state.config raw, szBuf⟩ fun other member =>
        fits other (by simp [member])
      refine ⟨last, ?_⟩
      rw [List.foldlM_cons, line]
      exact run

theorem load_lines_defined (stale : Stale) (records : List Bytes) (state next : LoadState)
    (loaded : records.foldlM (loadLine stale) state = some next) : ∀ raw ∈ records, tagFits raw = true := by
  induction records generalizing state with
  | nil => simp
  | cons raw rest ih =>
      cases fits : tagFits raw with
      | false =>
          rw [List.foldlM_cons, load_line_overrun stale state raw fits] at loaded
          cases loaded
      | true =>
          obtain ⟨szBuf, line⟩ := load_line_fits stale state raw fits
          rw [List.foldlM_cons, line] at loaded
          intro other member
          rcases List.mem_cons.mp member with rfl | later
          · exact fits
          · exact ih _ loaded other later

theorem apply_lines_field (stale : Stale) (records : List Bytes) (config : Config) :
    (records.foldl (applyLine stale) config).szLocation =
        ((lastRest (ascii "location:") records).map (field maxLocationLen)).getD config.szLocation ∧
      (records.foldl (applyLine stale) config).szUserID =
        ((lastRest (ascii "userid:") records).map (field maxUserIdLen)).getD config.szUserID ∧
      (records.foldl (applyLine stale) config).szPasswd =
        ((lastRest (ascii "passwd:") records).map (field maxPwLen)).getD config.szPasswd := by
  induction records generalizing config with
  | nil => simp [lastRest]
  | cons raw rest ih =>
      obtain ⟨location, userid, passwd⟩ := ih (applyLine stale config raw)
      have merge : ∀ (later earlier : Option Bytes) (width : Nat) (old : Bytes),
          (later.map (field width)).getD ((earlier.map (field width)).getD old) =
            ((later.or earlier).map (field width)).getD old := by
        intro later earlier width old
        cases later <;> rfl
      rw [List.foldl_cons, location, userid, passwd]
      exact ⟨merge _ _ _ _, merge _ _ _ _, merge _ _ _ _⟩

def IsInt (n : Int) : Prop := -2147483648 ≤ n ∧ n ≤ 2147483647

theorem apply_line_timeout (stale : Stale) (config : Config) (raw : Bytes) (range : IsInt config.nTimeout) :
    IsInt (applyLine stale config raw).nTimeout := by
  have choice : (applyLine stale config raw).nTimeout = config.nTimeout ∨
      lineTimeout stale raw = some (applyLine stale config raw).nTimeout := by
    cases found : (lineTimeout stale raw).filter (· < 0) with
    | none => exact Or.inl (by simp [applyLine, found])
    | some n => exact Or.inr (by simpa [applyLine, found] using (Option.filter_eq_some_iff.mp found).1)
  rcases choice with same | line
  · rwa [same]
  · obtain ⟨rest, _, value⟩ := Option.map_eq_some_iff.mp line
    rw [← value]
    cases scanned : scanInt rest with
    | some n => exact scan_int_range rest n scanned
    | none =>
        have low := (stale.nTimeout (cstr raw)).le_toInt
        have high := (stale.nTimeout (cstr raw)).toInt_lt
        simp only [IsInt, Option.getD_none]
        omega

theorem apply_lines_timeout (stale : Stale) (records : List Bytes) (config : Config) (range : IsInt config.nTimeout) :
    IsInt (records.foldl (applyLine stale) config).nTimeout := by
  induction records generalizing config with
  | nil => exact range
  | cons raw rest ih => exact ih _ (apply_line_timeout stale config raw range)

theorem last_rest_append (tag : Bytes) (before after : List Bytes) :
    lastRest tag (before ++ after) = (lastRest tag after).or (lastRest tag before) := by
  induction before with
  | nil => simp [lastRest]
  | cons raw rest ih => rw [List.cons_append, lastRest, ih, lastRest, Option.or_assoc]

end Ftm50s.Profile
