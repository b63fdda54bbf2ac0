import Ftm50s.Lib.Decimal
import Ftm50s.Lib.Directive
import Ftm50s.Lib.Scan
import Ftm50s.Mmon.Main

set_option autoImplicit false

namespace Ftm50s.Mmon

open Lib.Text Lib.Decimal Lib.Directive Lib.Scan

-- XCFG with all its fields
structure Settings where
  bRun : Int
  szDevice : Bytes
  nBaudrate : Int
  nTimeout : Int
  nLiveCheckInterval : Int
  nBootWaitTime : Int
deriving DecidableEq

def zeroed : Settings := ⟨0, [], 0, 0, 0, 0⟩

def setDefault : Settings := { zeroed with nBootWaitTime := 10, nLiveCheckInterval := 10 }

def atoi (text : Bytes) : Int := (scanInt text).getD 0

def validBootWait (nTime : Int) : Bool := decide (1 ≤ nTime ∧ nTime ≤ 60)

def validLiveCheck (nTime : Int) : Bool := decide (0 < nTime)

def assign (config : Settings) (szField szContent : Bytes) : Settings :=
  if szField = ascii "device:" then { config with szDevice := szContent.take 1023 }
  else if szField = ascii "run:" then { config with bRun := if szContent = ascii "yes" then 1 else 0 }
  else if szField = ascii "boot_wait:" then
    if validBootWait (atoi szContent) then { config with nBootWaitTime := atoi szContent } else config
  else if szField = ascii "live_check:" then
    if validLiveCheck (atoi szContent) then { config with nLiveCheckInterval := atoi szContent } else config
  else config

-- sscanf(szBuf, "%s %s", szField, szContent). A first word of 64 bytes runs over
-- szField, which none stands for; the second has the room of a whole line.
def readLine (config : Settings) (szBuf : Bytes) : Option Settings :=
  match words szBuf with
  | [] => some config
  | szField :: rest =>
      if 64 ≤ szField.length then none
      else
        match rest with
        | [] => some config
        | szContent :: _ => if szField.head? = some 35 then some config else some (assign config szField szContent)

-- none is a file that cannot be opened.
def xcfgLoad (config : Settings) : Option Bytes → Option (Settings × Int)
  | none => some (config, -1)
  | some file => (((fgets 1024 file).map cstr).foldlM readLine setDefault).map fun loaded => (loaded, 0)

-- The configuration that main hands to MMON_Main
def mainSettings (file : Option Bytes) : Option Settings :=
  (xcfgLoad zeroed file).map fun loaded =>
    if loaded.2 < 0 then
      { bRun := 1, szDevice := ascii "/dev/ttyS1", nBaudrate := 115200, nTimeout := 1000 * 1000,
        nLiveCheckInterval := 10, nBootWaitTime := 10 }
    else loaded.1

-- The value that a line has for a field, if it is one that the field takes
def settingOf (name : Bytes) (valid : Int → Bool) (line : Bytes) : Option Int :=
  match words (cstr line) with
  | szField :: szContent :: _ => if szField = name ∧ valid (atoi szContent) = true then some (atoi szContent) else none
  | _ => none

def bootWaits (file : Bytes) : List Int := (rows file).filterMap (settingOf (ascii "boot_wait:") validBootWait)

def liveChecks (file : Bytes) : List Int := (rows file).filterMap (settingOf (ascii "live_check:") validLiveCheck)

structure InBounds (config : Settings) : Prop where
  boot : 1 ≤ config.nBootWaitTime ∧ config.nBootWaitTime ≤ 60
  live : 1 ≤ config.nLiveCheckInterval

-- What MMON_Main reads of it
def mmonXcfg (config : Settings) : Xcfg := ⟨config.nBootWaitTime⟩

-- A line that fits, without the overrun
def applyLine (config : Settings) (line : Bytes) : Settings :=
  match words (cstr line) with
  | szField :: szContent :: _ => if szField.head? = some 35 then config else assign config szField szContent
  | _ => config

def Narrow (line : Bytes) : Prop := ∀ word, (words (cstr line)).head? = some word → word.length < 64

theorem read_line_narrow (config : Settings) (line : Bytes) (narrow : Narrow line) :
    readLine config (cstr line) = some (applyLine config line) := by
  rw [readLine, applyLine]
  cases all : words (cstr line) with
  | nil => rfl
  | cons szField rest =>
      have fits := narrow szField (by rw [all]; rfl)
      simp only
      rw [if_neg (by omega)]
      cases rest with
      | nil => rfl
      | cons szContent more =>
          simp only
          split <;> rfl

theorem read_lines_narrow (config : Settings) (records : List Bytes) (narrow : ∀ line ∈ records, Narrow line) :
    (records.map cstr).foldlM readLine config = some (records.foldl applyLine config) := by
  induction records generalizing config with
  | nil => rfl
  | cons line rest ih =>
      rw [List.map_cons, List.foldlM_cons, read_line_narrow config line (narrow line (by simp)), List.foldl_cons]
      exact ih _ fun other member => narrow other (by simp [member])

theorem assign_boot (config : Settings) (szField szContent : Bytes) :
    (assign config szField szContent).nBootWaitTime =
      if szField = ascii "boot_wait:" ∧ validBootWait (atoi szContent) = true then atoi szContent
      else config.nBootWaitTime := by
  by_cases boot : szField = ascii "boot_wait:"
  · rw [assign, if_neg (by rw [boot]; decide), if_neg (by rw [boot]; decide), if_pos boot]
    by_cases valid : validBootWait (atoi szContent) = true
    · rw [if_pos valid, if_pos ⟨boot, valid⟩]
    · rw [if_neg valid, if_neg fun both => valid both.2]
  · rw [if_neg fun both => boot both.1, assign, if_neg boot]
    repeat' split
    all_goals rfl

theorem assign_live (config : Settings) (szField szContent : Bytes) :
    (assign config szField szContent).nLiveCheckInterval =
      if szField = ascii "live_check:" ∧ validLiveCheck (atoi szContent) = true then atoi szContent
      else config.nLiveCheckInterval := by
  by_cases live : szField = ascii "live_check:"
  · rw [assign, if_neg (by rw [live]; decide), if_neg (by rw [live]; decide), if_neg (by rw [live]; decide),
      if_pos live]
    by_cases valid : validLiveCheck (atoi szContent) = true
    · rw [if_pos valid, if_pos ⟨live, valid⟩]
    · rw [if_neg valid, if_neg fun both => valid both.2]
  · rw [if_neg fun both => live both.1, assign, if_neg live]
    repeat' split
    all_goals rfl

-- A known field is no comment, so the test of the first byte can be left out.
theorem apply_line_sets (field : Settings → Int) (name : Bytes) (valid : Int → Bool) (known : name.head? ≠ some 35)
    (assigned : ∀ config szField szContent, field (assign config szField szContent) = if szField = name ∧
    valid (atoi szContent) = true then atoi szContent else field config) (config : Settings) (line : Bytes) : field
      (applyLine config line) = (settingOf name valid line).getD (field config) := by
  rw [applyLine, settingOf]
  split
  · rename_i szField szContent more _
    by_cases comment : szField.head? = some 35
    · have other : ¬ (szField = name ∧ valid (atoi szContent) = true) := by
        rintro ⟨rfl, _⟩
        exact known comment
      rw [if_pos comment, if_neg other]
      rfl
    · rw [if_neg comment, assigned]
      split <;> rfl
  · rfl

theorem setting_valid (name : Bytes) (valid : Int → Bool) (file : Bytes) (default : Int)
    (preset : valid default = true) :
    valid (((rows file).filterMap (settingOf name valid)).getLast?.getD default) = true := by
  cases last : ((rows file).filterMap (settingOf name valid)).getLast? with
  | none => exact preset
  | some nTime =>
      obtain ⟨line, _, set⟩ := List.mem_filterMap.mp (List.mem_of_getLast? last)
      rw [settingOf] at set
      split at set
      · split at set
        · rename_i both
          rw [← Option.some.inj set]
          exact both.2
        · cases set
      · cases set

theorem bounded_wait_polls (config : Settings) (bounds : InBounds config) :
    ∃ turns, 1 ≤ turns ∧ turns ≤ 60 ∧ waitLive (mmonXcfg config) = pollLive turns := by
  obtain ⟨low, high⟩ := bounds.boot
  refine ⟨config.nBootWaitTime.toNat, by omega, by omega, ?_⟩
  have positive : 0 < (mmonXcfg config).nBootWaitTime := low
  rw [waitLive, if_pos positive, mmonXcfg]

theorem monitor_settings (file : Bytes) (short : ∀ line ∈ rows file, (chomp line).length < 1023)
    (narrow : ∀ line ∈ rows file, Narrow line) :
    (∃ config, xcfgLoad zeroed (some file) = some (config, 0) ∧
      config.nBootWaitTime = (bootWaits file).getLast?.getD 10 ∧
      config.nLiveCheckInterval = (liveChecks file).getLast?.getD 10) ∧
    (∃ config, mainSettings (some file) = some config ∧ InBounds config) ∧
    ∃ config, mainSettings none = some config ∧ InBounds config := by
  have records : fgets 1024 file = rows file := fgets_rows 1024 file fun line member => by
    have bound := short line member
    omega
  have loaded : xcfgLoad zeroed (some file) = some ((rows file).foldl applyLine setDefault, 0) := by
    rw [xcfgLoad, records, read_lines_narrow setDefault (rows file) narrow]
    rfl
  have boot : ((rows file).foldl applyLine setDefault).nBootWaitTime = (bootWaits file).getLast?.getD 10 :=
    fold_last_set applyLine Settings.nBootWaitTime _
      (apply_line_sets Settings.nBootWaitTime (ascii "boot_wait:") validBootWait (by decide) assign_boot)
        (rows file) setDefault
  have live : ((rows file).foldl applyLine setDefault).nLiveCheckInterval = (liveChecks file).getLast?.getD 10 :=
    fold_last_set applyLine Settings.nLiveCheckInterval _
      (apply_line_sets Settings.nLiveCheckInterval (ascii "live_check:") validLiveCheck (by decide) assign_live)
        (rows file) setDefault
  refine ⟨⟨_, loaded, boot, live⟩, ⟨(rows file).foldl applyLine setDefault, ?_, ?_, ?_⟩, ?_⟩
  · rw [mainSettings, loaded]
    rfl
  · rw [boot]
    exact of_decide_eq_true (setting_valid (ascii "boot_wait:") validBootWait file 10 rfl)
  · rw [live]
    exact of_decide_eq_true (setting_valid (ascii "live_check:") validLiveCheck file 10 rfl)
  · exact ⟨_, rfl, by decide, by decide⟩

def sampleConf : Bytes := unlines [ascii "# boot_wait: 30", ascii "boot_wait: 20", ascii "boot_wait: 61",
    ascii "live_check:",
  ascii "live_check: 7s", ascii "live_check: 0"]

theorem monitor_settings_sample :
    ∃ config, xcfgLoad zeroed (some sampleConf) = some (config, 0) ∧ config.nBootWaitTime = 20 ∧
    config.nLiveCheckInterval = 7 := by
  have records : rows sampleConf = [ascii "# boot_wait: 30\n", ascii "boot_wait: 20\n", ascii "boot_wait: 61\n",
    ascii "live_check:\n", ascii "live_check: 7s\n", ascii "live_check: 0\n"] := rfl
  have short : ∀ line ∈ rows sampleConf, (chomp line).length < 1023 := by
    rw [records]
    decide
  have first : ∀ line ∈ rows sampleConf, (words (cstr line)).head?.all (fun word => decide (word.length < 64)) =
    true := by
    rw [records]
    decide
  have narrow : ∀ line ∈ rows sampleConf, Narrow line := by
    intro line member word found
    have fits := first line member
    rw [found] at fits
    exact of_decide_eq_true fits
  obtain ⟨⟨config, loaded, boot, live⟩, _⟩ := monitor_settings sampleConf short narrow
  exact ⟨config, loaded, boot, live⟩

end Ftm50s.Mmon
