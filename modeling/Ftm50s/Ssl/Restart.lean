import Ftm50s.Ssl.Secuwayssl
import Ftm50s.Ssl.Sslplus

set_option autoImplicit false

namespace Ftm50s.Ssl

open Lib.Text Ftm50s.Cgi

-- /etc/service/ssld and /usr/local/frodo/sslplus.conf
structure SslplusFiles where
  ssld : Option Bytes
  sslplusConf : Bytes
deriving DecidableEq, Repr

-- PROC_Active: szActive has 16 bytes and is as the stack has it when no word is read.
def procActive (stale : Bytes) (ssld : Option Bytes) : Option Bool :=
  match ssld with
  | none => some false
  | some content =>
      match words content with
      | [] => some (decide (stale = ascii "enabled"))
      | word :: _ => if 16 ≤ word.length then none else some (decide (cstr word = ascii "enabled"))

def copyWhen (test : Bool) (array content : Bytes) : Bytes := if test then strncpyField array content else array

structure SslplusParameters where
  lpszActive : Bytes
  lpszUserID : Bytes
  lpszPasswd : Bytes
  lpszHostIP : Bytes
deriving DecidableEq, Repr

def sslplusParameters (req : Request) : Option SslplusParameters :=
  match getstr req "active", getstr req "userid", getstr req "passwd", getstr req "host" with
  | some lpszActive, some lpszUserID, some lpszPasswd, some lpszHostIP =>
      some ⟨lpszActive, lpszUserID, lpszPasswd, lpszHostIP⟩
  | _, _, _, _ => none

def useridDiffers (config : SslplusConfig) (lpszUserID : Bytes) : Bool := decide (cstr config.szUserID ≠ lpszUserID)

def hostDiffers (config : SslplusConfig) (lpszHostIP : Bytes) : Bool := decide (cstr config.szHostIP ≠ lpszHostIP)

-- An empty password is first replaced by the stored one.
def passwdOf (config : SslplusConfig) (lpszPasswd : Bytes) : Bytes :=
  if lpszPasswd = [] then cstr config.szPasswd else lpszPasswd

def passwdDiffers (config : SslplusConfig) (lpszPasswd : Bytes) : Bool :=
  decide (passwdOf config lpszPasswd ≠ []) && decide (cstr config.szPasswd ≠ passwdOf config lpszPasswd)

def bModified (config : SslplusConfig) (given : SslplusParameters) : Bool :=
  useridDiffers config given.lpszUserID || passwdDiffers config given.lpszPasswd || hostDiffers config given.lpszHostIP

def sslplusFresh (config : SslplusConfig) (given : SslplusParameters) : SslplusConfig :=
  { szUserID := copyWhen (useridDiffers config given.lpszUserID) config.szUserID given.lpszUserID
    szPasswd := copyWhen (passwdDiffers config given.lpszPasswd) config.szPasswd (passwdOf config given.lpszPasswd)
    szHostIP := copyWhen (hostDiffers config given.lpszHostIP) config.szHostIP given.lpszHostIP }

structure SslplusOutcome where
  files : SslplusFiles
  config : SslplusConfig
  saved : Bool
  restart : Bool
deriving DecidableEq, Repr

def sslplusApply (creatable : Bool) (files : SslplusFiles) (bActive : Bool) (config : SslplusConfig)
    (given : SslplusParameters) :
    SslplusOutcome :=
  let active := decide (given.lpszActive = ascii "yes")
  let bRestart := active != bActive
  let modified := bModified config given
  let fresh := sslplusFresh config given
  { files :=
      { ssld := if bRestart then some (flagText active) else files.ssld
        sslplusConf :=
          if modified && creatable then saveConfig (cstr fresh.szHostIP) (cstr fresh.szUserID) (cstr fresh.szPasswd)
          else files.sslplusConf }
    config := fresh
    saved := modified && creatable
    -- A failed save returns in front of the restart; a successful one does not ask for it.
    restart := bRestart && !(modified && !creatable) }

-- SSLPLUS_Set; xConfig starts as the stack has it.
def sslplusSet (creatable : Bool) (stale : Bytes) (prior : SslplusConfig) (files : SslplusFiles) (req : Request) :
    Option SslplusOutcome :=
  (sslplusParameters req).bind fun given =>
    (procActive stale files.ssld).bind fun bActive =>
      (loadConfig prior files.sslplusConf).map fun config => sslplusApply creatable files bActive config given

def configValues (config : SslplusConfig) : Bytes × Bytes × Bytes :=
  (cstr config.szUserID, cstr config.szPasswd, cstr config.szHostIP)

-- strncpy of the content leaves the string in the array as it was.
def Stays (array content : Bytes) : Prop := cstr array = content ∨ cstr (strncpyField array content) = cstr array

def SameValues (config : SslplusConfig) (given : SslplusParameters) : Prop :=
  Stays config.szUserID given.lpszUserID ∧ (given.lpszPasswd = [] ∨ Stays config.szPasswd given.lpszPasswd) ∧
    Stays config.szHostIP given.lpszHostIP

theorem copy_when_stays (array content : Bytes) :
    cstr (copyWhen (decide (cstr array ≠ content)) array content) = cstr array ↔ Stays array content := by
  by_cases same : cstr array = content
  · simp [copyWhen, same, Stays]
  · simp [copyWhen, same, Stays]

theorem passwd_stays (config : SslplusConfig) (lpszPasswd : Bytes) :
    cstr (copyWhen (passwdDiffers config lpszPasswd) config.szPasswd (passwdOf config lpszPasswd)) =
    cstr config.szPasswd ↔
      lpszPasswd = [] ∨ Stays config.szPasswd lpszPasswd := by
  by_cases empty : lpszPasswd = []
  · subst empty
    have kept : passwdDiffers config [] = false := by simp [passwdDiffers, passwdOf]
    simp [copyWhen, kept]
  · have given : passwdOf config lpszPasswd = lpszPasswd := if_neg empty
    have differs : passwdDiffers config lpszPasswd = decide (cstr config.szPasswd ≠ lpszPasswd) := by
      rw [passwdDiffers, given, decide_eq_true empty, Bool.true_and]
    rw [differs, given, copy_when_stays]
    simp [empty]

theorem same_values_iff (config : SslplusConfig) (given : SslplusParameters) :
    configValues (sslplusFresh config given) = configValues config ↔ SameValues config given := by
  simp only [configValues, sslplusFresh, Prod.mk.injEq, useridDiffers, hostDiffers]
  rw [copy_when_stays, passwd_stays, copy_when_stays]
  rfl

-- A restart is asked for exactly when the flag or a stored value changes.
def SslplusExact (bActive : Bool) (config : SslplusConfig) (given : SslplusParameters) (outcome : SslplusOutcome) :
    Prop :=
  outcome.restart = true ↔ decide (given.lpszActive = ascii "yes") ≠ bActive ∨
    (outcome.saved = true ∧ configValues outcome.config ≠ configValues config)

def SecuwayExact (before : Globals) (enable : Bytes) (given : Values) (outcome : SecuwayOutcome) : Prop :=
  outcome.restart = true ↔ decide (enable = ascii "true") ≠ before.bIsEnabled ∨
    (outcome.infoWritten = true ∧ ∃ field, submitted before.values given field ≠ before.values field)

theorem unmodified_same (config : SslplusConfig) (given : SslplusParameters) (same : bModified config given = false) :
    configValues (sslplusFresh config given) = configValues config := by
  simp only [bModified, Bool.or_eq_false_iff] at same
  simp only [sslplusFresh, same.1.1, same.1.2, same.2, copyWhen, Bool.false_eq_true, if_false]

theorem sslplus_exact_iff (creatable : Bool) (files : SslplusFiles) (bActive : Bool) (config : SslplusConfig)
    (given : SslplusParameters) :
    SslplusExact bActive config given (sslplusApply creatable files bActive config given) ↔
      if decide (given.lpszActive = ascii "yes") ≠ bActive then creatable = true ∨ bModified config given = false
      else creatable = true → SameValues config given := by
  rw [← same_values_iff, SslplusExact]
  by_cases flag : decide (given.lpszActive = ascii "yes") ≠ bActive
  · have written : (decide (given.lpszActive = ascii "yes") != bActive) = true := by simpa using flag
    rw [if_pos flag]
    simp only [sslplusApply, written, Bool.true_and]
    cases creatable <;> cases bModified config given <;> simp [flag]
  · have kept : (decide (given.lpszActive = ascii "yes") != bActive) = false := by simpa using flag
    rw [if_neg flag]
    simp only [sslplusApply, kept, Bool.false_and]
    cases modified : bModified config given with
    | false =>
        have same := unmodified_same config given modified
        simp [flag, same]
    | true => cases creatable <;> simp [flag]

theorem bchanged_iff (stored fresh : Values) : bChanged stored fresh = true ↔ ∃ field, fresh field ≠ stored field := by
  rw [bChanged, List.any_eq_true]
  constructor
  · rintro ⟨field, _, differs⟩
    exact ⟨field, Ne.symm (of_decide_eq_true differs)⟩
  · rintro ⟨field, differs⟩
    exact ⟨field, fields_all field, decide_eq_true (Ne.symm differs)⟩

theorem secuway_exact_iff (creatable : Bool) (files : SecuwayFiles) (before : Globals) (enable : Bytes)
    (given : Values) :
    SecuwayExact before enable given
        (secuwayApply creatable files before (decide (enable = ascii "true")) (submitted before.values given)) ↔
      creatable = true ∨ decide (enable = ascii "true") ≠ before.bIsEnabled ∨ submitted before.values given =
      before.values := by
  have changed := bchanged_iff before.values (submitted before.values given)
  have same : submitted before.values given = before.values ↔ bChanged before.values (submitted before.values given) =
    false := by
    rw [← Bool.not_eq_true, changed]
    push Not
    exact funext_iff
  rw [SecuwayExact, ← changed, same]
  by_cases flag : decide (enable = ascii "true") ≠ before.bIsEnabled
  · have written : (decide (enable = ascii "true") != before.bIsEnabled) = true := by simpa using flag
    simp [secuwayApply, written, flag]
  · have kept : (decide (enable = ascii "true") != before.bIsEnabled) = false := by simpa using flag
    simp only [secuwayApply, kept, Bool.false_or]
    cases creatable <;> cases bChanged before.values (submitted before.values given) <;> simp [flag]

theorem restart_exact (creatable : Bool) (stale : Bytes) (prior config : SslplusConfig) (plusFiles : SslplusFiles)
    (plusReq : Request) (plusGiven : SslplusParameters) (bActive : Bool) (parameters : sslplusParameters plusReq =
    some plusGiven) (active : procActive stale plusFiles.ssld = some bActive) (loaded :
    loadConfig prior plusFiles.sslplusConf = some config) (running : Bool) (files : SecuwayFiles) (req : Request)
      (enable : Bytes) (given : Values) (before : Globals) (submits : Submits req enable given)
        (read : loadGlobals running files = some before) :
    ∃ plus secuway, sslplusSet creatable stale prior plusFiles plusReq = some plus ∧
      secuwaySet creatable running files req = some secuway ∧
      (SslplusExact bActive config plusGiven plus ↔
        if decide (plusGiven.lpszActive = ascii "yes") ≠ bActive then creatable = true ∨ bModified config plusGiven =
          false
        else creatable = true → SameValues config plusGiven) ∧
      (SecuwayExact before enable given secuway ↔
        creatable = true ∨ decide (enable = ascii "true") ≠ before.bIsEnabled ∨
          submitted before.values given = before.values) := by
  refine ⟨sslplusApply creatable plusFiles bActive config plusGiven,
    secuwayApply creatable files before (decide (enable = ascii "true")) (submitted before.values given), ?_, ?_,
    sslplus_exact_iff creatable plusFiles bActive config plusGiven,
    secuway_exact_iff creatable files before enable given⟩
  · rw [sslplusSet, parameters, Option.bind_some, active, Option.bind_some, loaded, Option.map_some]
  · rw [secuway_set_submits creatable running files req enable given submits, read, Option.map_some]

def clearedConfig : SslplusConfig := ⟨List.replicate 256 0, List.replicate 256 0, List.replicate 256 0⟩

def loginConfig (userid : String) : SslplusConfig :=
  { clearedConfig with szUserID := strncpyField clearedConfig.szUserID (ascii userid) }

def loginFiles : SslplusFiles := ⟨some (ascii "enabled\n"), ascii "\"login_id\":\"old\"\n"⟩

def loginGiven : SslplusParameters := ⟨ascii "yes", ascii "new", [], []⟩

def loginRequest : Request :=
  ⟨[(ascii "active", ascii "yes"), (ascii "userid", ascii "new"), (ascii "passwd", []), (ascii "host", [])]⟩

theorem login_loaded : loadConfig clearedConfig loginFiles.sslplusConf = some (loginConfig "old") := by
  have read : fgets 1024 (sslplusConv loginFiles.sslplusConf) = [ascii "login_id | old\n"] := by decide
  have split : words (cstr (ascii "login_id | old\n")) = [ascii "login_id", ascii "|", ascii "old"] := by decide
  have letter : (cstr (ascii "login_id | old\n")).head? ≠ some 35 := by decide
  have short : ¬ 128 ≤ (ascii "|").length := by decide
  rw [loadConfig, read, List.foldlM_cons, loadConfigLine]
  simp only [split, if_neg letter, if_neg short, if_true]
  rfl

theorem new_login_differs : ¬ SameValues (loginConfig "old") loginGiven := by
  rintro ⟨kept | copied, _⟩
  · revert kept
    decide
  · revert copied
    decide

theorem restart_exact_login :
    ∃ plus secuway, sslplusSet true [] clearedConfig loginFiles loginRequest = some plus ∧
      secuwaySet true false ⟨ascii "enabled\n", none⟩ ⟨(ascii "enable", ascii "true") ::
        fields.map fun field => (ascii (parameter field), ascii "x")⟩ = some secuway ∧
      ¬ SslplusExact true (loginConfig "old") loginGiven plus ∧
      SecuwayExact ⟨false, true, fun _ => []⟩ (ascii "true") (fun _ => ascii "x") secuway := by
  have submits : Submits ⟨(ascii "enable", ascii "true") :: fields.map fun field =>
    (ascii (parameter field), ascii "x")⟩
      (ascii "true") (fun _ => ascii "x") := by
    refine ⟨by decide, ?_⟩
    intro field
    cases field <;> decide
  obtain ⟨plus, secuway, first, second, plusExact, secuwayExact⟩ :=
    restart_exact true [] clearedConfig (loginConfig "old")
    loginFiles loginRequest loginGiven true (by decide) (by decide) login_loaded false ⟨ascii "enabled\n", none⟩ _
    (ascii "true") (fun _ => ascii "x") ⟨false, true, fun _ => []⟩ submits (by rfl)
  refine ⟨plus, secuway, first, second, ?_, secuwayExact.mpr (Or.inl rfl)⟩
  rw [plusExact, if_neg (by decide)]
  exact fun same => new_login_differs (same rfl)

theorem new_login_not_restarted :
    ∃ outcome, sslplusSet true [] clearedConfig loginFiles loginRequest = some outcome ∧
      ¬ SslplusExact true (loginConfig "old") loginGiven outcome ∧ outcome.saved = true ∧ outcome.restart = false ∧
      configValues outcome.config ≠ configValues (loginConfig "old") := by
  have parameters : sslplusParameters loginRequest = some loginGiven := by decide
  have active : procActive [] loginFiles.ssld = some true := by decide
  refine ⟨sslplusApply true loginFiles true (loginConfig "old") loginGiven, ?_, ?_, by decide, by decide, ?_⟩
  · rw [sslplusSet, parameters, Option.bind_some, active, Option.bind_some, login_loaded, Option.map_some]
  · rw [sslplus_exact_iff, if_neg (by decide)]
    exact fun same => new_login_differs (same rfl)
  · exact fun same => new_login_differs ((same_values_iff _ _).mp same)

end Ftm50s.Ssl
