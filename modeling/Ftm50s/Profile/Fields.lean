import Ftm50s.Profile.Rewrite

set_option autoImplicit false

namespace Ftm50s.Profile

open Lib.Text Lib.Decimal Ftm50s.Cgi

-- What the lines of a profile file declare, read in the order the loader reads
-- them: of several lines with one tag the last counts.
def declaredText (tag conf : Bytes) : Option Bytes := (lastRest tag (fgets 512 conf)).map trim

def declaredTimeout (conf : Bytes) : Option Int := (lastRest (ascii "timeout:") (fgets 512 conf)).bind scanInt

def timeoutLines (conf : Bytes) : List Bytes := (fgets 512 conf).filterMap (lineRest (ascii "timeout:"))

structure Declares (conf location userid passwd : Bytes) (n : Int) : Prop where
  hasLocation : declaredText (ascii "location:") conf = some location
  hasUserid : declaredText (ascii "userid:") conf = some userid
  hasPasswd : declaredText (ascii "passwd:") conf = some passwd
  hasTimeout : (timeoutLines conf).map scanInt = [some n]
  locationShort : location.length ≤ maxLocationLen
  useridShort : userid.length ≤ maxUserIdLen
  passwdShort : passwd.length ≤ maxPwLen

theorem declared_text (tag conf value : Bytes) (width : Nat) (found : declaredText tag conf = some value)
    (short : value.length ≤ width) : declared tag width (fgets 512 conf) = value := by
  obtain ⟨rest, last, rfl⟩ := Option.map_eq_some_iff.mp found
  simp [declared, last, field, List.take_of_length_le short]

theorem apply_lines_no_timeout (stale : Stale) (records : List Bytes) (config : Config)
    (none : records.filterMap (lineRest (ascii "timeout:")) = []) :
    (records.foldl (applyLine stale) config).nTimeout = config.nTimeout := by
  induction records generalizing config with
  | nil => rfl
  | cons raw rest ih =>
      cases line : lineRest (ascii "timeout:") raw with
      | some value => simp [line] at none
      | none =>
          rw [List.foldl_cons, ih _ (by simpa [line] using none)]
          simp [applyLine, lineTimeout, line]

theorem apply_lines_timeout_line (stale : Stale) (records : List Bytes) (config : Config) (n : Int)
    (single : (records.filterMap (lineRest (ascii "timeout:"))).map scanInt = [some n]) :
    (records.foldl (applyLine stale) config).nTimeout = if n < 0 then n else config.nTimeout := by
  induction records generalizing config with
  | nil => cases single
  | cons raw rest ih =>
      cases line : lineRest (ascii "timeout:") raw with
      | none =>
          rw [List.foldl_cons, ih _ (by simpa [line] using single)]
          simp [applyLine, lineTimeout, line]
      | some value =>
          obtain ⟨scanned, others⟩ : scanInt value = some n ∧ rest.filterMap (lineRest (ascii "timeout:")) = [] := by
            simpa [line] using single
          rw [List.foldl_cons, apply_lines_no_timeout stale rest _ others]
          by_cases negative : n < 0
          · simp [applyLine, lineTimeout, line, scanned, Option.filter, negative]
          · simp [applyLine, lineTimeout, line, scanned, Option.filter, negative]

theorem load_declared (stale : Stale) (files : Files) (conf location userid passwd : Bytes) (n : Int)
    (loadable : Loadable files conf) (noSerial : files.sn = none) (before : Declares conf location userid passwd n) :
    ∃ szModel szSerialNumber, loadProfileConfig stale files =
      some (some ⟨szModel, szSerialNumber, location, userid, passwd, if n < 0 then n else 0⟩) := by
  obtain ⟨config, loaded, useridSame, passwdSame, timeoutSame, _, locationSame⟩ :=
    load_profile_spec stale files conf loadable
  refine ⟨config.szModel, config.szSerialNumber, ?_⟩
  rw [loaded]
  have locationHeld := (locationSame noSerial).trans
    (declared_text _ conf location _ before.hasLocation before.locationShort)
  have useridHeld := useridSame.trans (declared_text _ conf userid _ before.hasUserid before.useridShort)
  have passwdHeld := passwdSame.trans (declared_text _ conf passwd _ before.hasPasswd before.passwdShort)
  have timeoutHeld := timeoutSame.trans (apply_lines_timeout_line stale _ zeroConfig n before.hasTimeout)
  cases config
  simp only at locationHeld useridHeld passwdHeld timeoutHeld
  rw [locationHeld, useridHeld, passwdHeld, timeoutHeld]
  rfl

def accepted : Bytes := putHeader ++ putOK "SYSTEM"

theorem declared_value_plain (tag conf value : Bytes) (width : Nat) (found : declaredText tag conf = some value)
    (short : value.length ≤ width) (narrow : width < 400) : Plain value ∧ trim value = value := by
  constructor
  · rw [← declared_text tag conf value width found short]
    exact declared_plain_value tag width conf narrow
  · obtain ⟨rest, _, trimmedRest⟩ := Option.map_eq_some_iff.mp found
    rw [← trimmedRest]
    exact trim_trimmed _ (trimmed_trim rest)

theorem declared_single (tag name value : Bytes) (clean : isTag name = true) (plain : Plain value) :
    declaredText tag (declaration name value) = if name = tag then some (trim value) else none := by
  rw [declaredText, last_rest_single tag name value clean plain]
  split
  · rw [Option.map_some, trim_declared]
  · rfl

theorem rewritten_declared_timeout (config : Config) (range : IsInt config.nTimeout) :
    declaredTimeout (profileText config) = some config.nTimeout := by
  rw [declaredTimeout, rewritten_timeout config range, Option.bind_some]
  have blank : ∀ c ∈ ([32] : Bytes), isSpace c = true := List.forall_mem_singleton.mpr rfl
  have newline : ∀ c, ([10] : Bytes).head? = some c → isDigit c = false := by
    rintro c ⟨⟩
    rfl
  exact scan_int_decimal config.nTimeout [32] [10] blank range.1 range.2 newline

theorem rewritten_declared_text (config : Config) (tag : Bytes) (other : tag ≠ ascii "timeout:")
    (range : IsInt config.nTimeout) (userid : Plain config.szUserID) :
    declaredText tag (profileText config) =
      (declaredText tag (declaration (ascii "passwd:") config.szPasswd)).or
        ((if ascii "userid:" = tag then some (trim config.szUserID) else none).or
          (declaredText tag (declaration (ascii "location:") config.szLocation))) := by
  have own : ((if ascii "userid:" = tag then some (32 :: (config.szUserID ++ [10])) else none).map trim) =
      if ascii "userid:" = tag then some (trim config.szUserID) else none := by
    split
    · rw [Option.map_some, trim_declared]
    · rfl
  rw [declaredText, rewritten_text config tag other range userid, Option.map_or, Option.map_or, own, declaredText,
    declaredText]

theorem chg_loc_accepted (stale : Stale) (files : Files) (req : Request) (config : Config) (loc : Bytes)
    (loaded : loadProfileConfig stale files = some (some config)) (given : getstr req "loc" = some loc)
    (short : loc.length ≤ maxLocationLen) :
    chgLoc stale true files req =
      some ({ files with httpdConf := some (profileText { config with szLocation := loc }) }, accepted) := by
  have fits : ¬ maxLocationLen < loc.length := by omega
  simp [chgLoc, loaded, given, fits, saveAnswer, saveProfileConfig, accepted]

theorem chg_passwd_accepted (stale : Stale) (files : Files) (req : Request) (config : Config) (newPasswd : Bytes)
    (loaded : loadProfileConfig stale files = some (some config)) (given : getstr req "passwd" = some config.szPasswd)
    (short : config.szPasswd.length ≤ maxPwLen) (new : getstr req "new_passwd" = some newPasswd) :
    chgPasswd stale true files req =
      if maxPwLen < newPasswd.length then none
      else some ({ files with httpdConf := some (profileText { config with szPasswd := newPasswd }) }, accepted) := by
  have fits : ¬ maxPwLen < config.szPasswd.length := by omega
  by_cases long : maxPwLen < newPasswd.length
  · simp [chgPasswd, loaded, given, new, fits, copyPasswd, long]
  · simp [chgPasswd, loaded, given, new, fits, copyPasswd, long, saveAnswer, saveProfileConfig, accepted]

def ChangesLocationOnly (stale : Stale) (files : Files) (req : Request) (userid passwd : Bytes) (n : Int) : Prop :=
  ∃ next conf, chgLoc stale true files req = some (next, accepted) ∧ next.httpdConf = some conf ∧
    declaredText (ascii "userid:") conf = some userid ∧ declaredText (ascii "passwd:") conf = some passwd ∧
    declaredTimeout conf = some n

def ChangesPasswdOnly (stale : Stale) (files : Files) (req : Request) (location userid : Bytes) (n : Int) : Prop :=
  ∃ next conf, chgPasswd stale true files req = some (next, accepted) ∧ next.httpdConf = some conf ∧
    declaredText (ascii "location:") conf = some location ∧ declaredText (ascii "userid:") conf = some userid ∧
    declaredTimeout conf = some n

-- The lines that a new password adds declare neither another location nor another userid.
def AddsNothing (location userid newPasswd : Bytes) : Prop :=
  (declaredText (ascii "location:") (declaration (ascii "passwd:") newPasswd)).getD location = location ∧
    (declaredText (ascii "userid:") (declaration (ascii "passwd:") newPasswd)).getD userid = userid

theorem chg_loc_frame (stale : Stale) (files : Files) (req : Request) (config : Config) (loc : Bytes) (n : Int)
    (loaded : loadProfileConfig stale files = some (some config)) (given : getstr req "loc" = some loc)
    (short : loc.length ≤ maxLocationLen) (range : IsInt config.nTimeout)
    (userid : Plain config.szUserID) (useridTrim : trim config.szUserID = config.szUserID)
    (passwd : Plain config.szPasswd) (passwdTrim : trim config.szPasswd = config.szPasswd) :
    ChangesLocationOnly stale files req config.szUserID config.szPasswd n ↔ config.nTimeout = n := by
  have answer := chg_loc_accepted stale files req config loc loaded given short
  have timeout := rewritten_declared_timeout { config with szLocation := loc } range
  have useridSame : declaredText (ascii "userid:") (profileText { config with szLocation := loc }) =
      some config.szUserID := by
    rw [rewritten_declared_text { config with szLocation := loc } _ (by decide) range userid,
      declared_single _ _ _ (by decide) passwd, if_neg (by decide), if_pos rfl, useridTrim]
    rfl
  have passwdSame : declaredText (ascii "passwd:") (profileText { config with szLocation := loc }) =
      some config.szPasswd := by
    rw [rewritten_declared_text { config with szLocation := loc } _ (by decide) range userid,
      declared_single _ _ _ (by decide) passwd, if_pos rfl, passwdTrim]
    rfl
  constructor
  · rintro ⟨next, conf, run, stored, _, _, declaredN⟩
    rw [answer, Option.some.injEq, Prod.mk.injEq] at run
    obtain ⟨rfl, _⟩ := run
    obtain rfl := Option.some.inj stored
    exact Option.some.inj (timeout.symm.trans declaredN)
  · rintro rfl
    exact ⟨_, _, answer, rfl, useridSame, passwdSame, timeout⟩

theorem chg_passwd_frame (stale : Stale) (files : Files) (req : Request) (config : Config) (newPasswd : Bytes) (n : Int)
    (loaded : loadProfileConfig stale files = some (some config)) (given : getstr req "passwd" = some config.szPasswd)
      (passwdShort : config.szPasswd.length ≤ maxPwLen) (new : getstr req "new_passwd" = some newPasswd)
        (range : IsInt config.nTimeout) (userid : Plain config.szUserID) (useridTrim : trim config.szUserID =
        config.szUserID) (location : Plain config.szLocation) (locationTrim : trim config.szLocation =
        config.szLocation) :
    ChangesPasswdOnly stale files req config.szLocation config.szUserID n ↔
      config.nTimeout = n ∧ newPasswd.length ≤ maxPwLen ∧ AddsNothing config.szLocation config.szUserID newPasswd := by
  have answer := chg_passwd_accepted stale files req config newPasswd loaded given passwdShort new
  have timeout := rewritten_declared_timeout { config with szPasswd := newPasswd } range
  have useridNow : declaredText (ascii "userid:") (profileText { config with szPasswd := newPasswd }) =
      some ((declaredText (ascii "userid:") (declaration (ascii "passwd:") newPasswd)).getD config.szUserID) := by
    rw [rewritten_declared_text { config with szPasswd := newPasswd } _ (by decide) range userid, if_pos rfl,
      useridTrim]
    cases declaredText (ascii "userid:") (declaration (ascii "passwd:") newPasswd) <;> rfl
  have locationNow : declaredText (ascii "location:") (profileText { config with szPasswd := newPasswd }) =
      some ((declaredText (ascii "location:") (declaration (ascii "passwd:") newPasswd)).getD config.szLocation) := by
    rw [rewritten_declared_text { config with szPasswd := newPasswd } _ (by decide) range userid, if_neg (by decide),
      declared_single _ _ _ (by decide) location, if_pos rfl, locationTrim]
    cases declaredText (ascii "location:") (declaration (ascii "passwd:") newPasswd) <;> rfl
  by_cases long : maxPwLen < newPasswd.length
  · rw [if_pos long] at answer
    constructor
    · rintro ⟨next, conf, run, _⟩
      rw [answer] at run
      cases run
    · rintro ⟨_, fits, _⟩
      omega
  · rw [if_neg long] at answer
    constructor
    · rintro ⟨next, conf, run, stored, declaredLocation, declaredUserid, declaredN⟩
      rw [answer, Option.some.injEq, Prod.mk.injEq] at run
      obtain ⟨rfl, _⟩ := run
      obtain rfl := Option.some.inj stored
      exact ⟨Option.some.inj (timeout.symm.trans declaredN), by omega,
        Option.some.inj (locationNow.symm.trans declaredLocation),
        Option.some.inj (useridNow.symm.trans declaredUserid)⟩
    · rintro ⟨rfl, _, sameLocation, sameUserid⟩
      exact ⟨_, _, answer, rfl, by rw [locationNow, sameLocation], by rw [useridNow, sameUserid], timeout⟩

theorem kept_timeout (n : Int) : (if n < 0 then n else 0) = n ↔ n ≤ 0 := by
  split <;> omega

-- The loader keeps only negative timeouts, so any change of the profile sets a
-- positive one to zero; a new password is also not kept from adding lines.
theorem profile_change_frame (stale : Stale) (files : Files) (conf location userid passwd : Bytes) (n : Int)
    (config : Config) (present : files.httpdConf = some conf) (noSerial : files.sn = none)
    (loaded : loadProfileConfig stale files = some (some config)) (before : Declares conf location userid passwd n) :
    (∀ req loc, getstr req "loc" = some loc → loc.length ≤ maxLocationLen →
      (ChangesLocationOnly stale files req userid passwd n ↔ n ≤ 0)) ∧
    (∀ req newPasswd, getstr req "passwd" = some passwd → getstr req "new_passwd" = some newPasswd →
      (ChangesPasswdOnly stale files req location userid n ↔
        n ≤ 0 ∧ newPasswd.length ≤ maxPwLen ∧ AddsNothing location userid newPasswd)) := by
  obtain ⟨_, same, fits⟩ := load_profile_defined stale files config loaded
  obtain rfl := Option.some.inj (present.symm.trans same)
  obtain ⟨szModel, szSerialNumber, load⟩ :=
    load_declared stale files conf location userid passwd n ⟨same, fits⟩ noSerial before
  have range : IsInt (if n < 0 then n else 0) := by
    obtain ⟨rest, _, scanned⟩ : ∃ rest ∈ timeoutLines conf, scanInt rest = some n := by
      have member : some n ∈ (timeoutLines conf).map scanInt := by simp [before.hasTimeout]
      simpa using List.mem_map.mp member
    have bounds := scan_int_range rest n scanned
    simp only [IsInt]
    split <;> omega
  obtain ⟨useridPlain, useridTrim⟩ :=
    declared_value_plain _ conf userid _ before.hasUserid before.useridShort (by decide)
  obtain ⟨passwdPlain, passwdTrim⟩ :=
    declared_value_plain _ conf passwd _ before.hasPasswd before.passwdShort (by decide)
  obtain ⟨locationPlain, locationTrim⟩ :=
    declared_value_plain _ conf location _ before.hasLocation before.locationShort (by decide)
  constructor
  · intro req loc given short
    rw [← kept_timeout n]
    exact chg_loc_frame stale files req _ loc n load given short range useridPlain useridTrim passwdPlain passwdTrim
  · intro req newPasswd given new
    rw [← kept_timeout n]
    exact chg_passwd_frame stale files req _ newPasswd n load given before.passwdShort new range useridPlain useridTrim
      locationPlain locationTrim

def shippedFiles (timeout : String) : Files :=
  ⟨some (ascii "location: office\nuserid: admin\npasswd: 21232f297a57a5a743894a0e4a801fc3\ntimeout: " ++
    ascii timeout ++
    ascii "\n"), none, none⟩

def shippedConf (timeout : String) : Bytes := (shippedFiles timeout).httpdConf.getD []

def shippedPasswd : Bytes := ascii "21232f297a57a5a743894a0e4a801fc3"

def freshStack : Stale := ⟨[0], fun _ => 0#32⟩

def moveRequest : Request := ⟨[(ascii "loc", ascii "lab")]⟩

def passwdRequest (newPasswd : Bytes) : Request := ⟨[(ascii "passwd", shippedPasswd), (ascii "new_passwd", newPasswd)]⟩

def shippedLines (timeout : String) : List Bytes :=
  [ascii "location: office", ascii "userid: admin", ascii "passwd: 21232f297a57a5a743894a0e4a801fc3",
    ascii "timeout: " ++ ascii timeout]

def shippedConfig : Config := ⟨[], [], ascii "office", ascii "admin", shippedPasswd, 0⟩

theorem shipped_records (timeout : String) (each : ∀ line ∈ shippedLines timeout, (10 : UInt8) ∉ line ∧
    line.length + 1 < 512) :
    fgets 512 (shippedConf timeout) = (shippedLines timeout).map fun line => line ++ [10] := by
  have head : ascii "location: office\nuserid: admin\npasswd: 21232f297a57a5a743894a0e4a801fc3\ntimeout: " =
      unlines [ascii "location: office", ascii "userid: admin", ascii "passwd: 21232f297a57a5a743894a0e4a801fc3"] ++
        ascii "timeout: " := by decide +kernel
  have shape : shippedConf timeout = unlines (shippedLines timeout) := by
    simp only [shippedConf, shippedFiles, Option.getD_some, head, shippedLines, unlines, List.flatMap_cons,
      List.flatMap_nil,
      List.append_nil, List.append_assoc]
    rfl
  rw [shape, fgets_unlines 512 _ (fun line member => (each line member).1) fun line member => (each line member).2]

theorem shipped_declares (timeout : String) (n : Int) (each : ∀ line ∈ shippedLines timeout, (10 : UInt8) ∉ line ∧
    line.length + 1 < 512) (lines : (((shippedLines timeout).map fun line => line ++ [10]).filterMap
      (lineRest (ascii "timeout:"))).map scanInt = [some n]) (texts : [ascii "location:", ascii "userid:",
      ascii "passwd:"].map (fun tag => (lastRest tag ((shippedLines timeout).map fun line => line ++ [10])).map trim) =
      [some (ascii "office"), some (ascii "admin"), some shippedPasswd]) :
    Declares (shippedConf timeout) (ascii "office") (ascii "admin") shippedPasswd n := by
  simp only [List.map_cons, List.map_nil, List.cons.injEq] at texts
  refine ⟨?_, ?_, ?_, ?_, by decide, by decide, by decide⟩
  · rw [declaredText, shipped_records timeout each]
    exact texts.1
  · rw [declaredText, shipped_records timeout each]
    exact texts.2.1
  · rw [declaredText, shipped_records timeout each]
    exact texts.2.2.1
  · rw [timeoutLines, shipped_records timeout each]
    exact lines

theorem shipped_loaded (timeout : String) (each : ∀ line ∈ shippedLines timeout, (10 : UInt8) ∉ line ∧
    line.length + 1 < 512) (read : ((((shippedLines timeout).map fun line => line ++ [10]).foldlM (loadLine freshStack)
      ⟨zeroConfig, cstr freshStack.szBuf⟩).bind fun lines => (loadModel none lines).bind fun model =>
        (loadSerial none model).map fun serial => some serial.config) = some (some shippedConfig)) :
    loadProfileConfig freshStack (shippedFiles timeout) = some (some shippedConfig) := by
  have conf : (shippedFiles timeout).httpdConf = some (shippedConf timeout) := rfl
  simp only [loadProfileConfig, conf, shipped_records timeout each]
  exact read

theorem shipped_loaded_sixty : loadProfileConfig freshStack (shippedFiles "60") = some (some shippedConfig) :=
  shipped_loaded "60" (by decide +kernel) (by decide +kernel)

theorem profile_change_frame_shipped :
    ChangesLocationOnly freshStack (shippedFiles "0") moveRequest (ascii "admin") shippedPasswd 0 ∧
      ChangesPasswdOnly freshStack (shippedFiles "0") (passwdRequest (ascii "secret")) (ascii "office")
        (ascii "admin") 0 := by
  have each : ∀ line ∈ shippedLines "0", (10 : UInt8) ∉ line ∧ line.length + 1 < 512 := by decide +kernel
  have both := profile_change_frame freshStack (shippedFiles "0") (shippedConf "0") (ascii "office") (ascii "admin")
    shippedPasswd 0 shippedConfig rfl rfl (shipped_loaded "0" each (by decide +kernel))
    (shipped_declares "0" 0 each (by decide +kernel) (by decide +kernel))
  exact ⟨(both.1 moveRequest (ascii "lab") (by decide) (by decide)).mpr (by decide),
    (both.2 (passwdRequest (ascii "secret")) (ascii "secret") (by decide) (by decide)).mpr
      ⟨by decide, by decide, by decide, by decide⟩⟩

theorem chg_loc_loses_timeout :
    Declares (shippedConf "60") (ascii "office") (ascii "admin") shippedPasswd 60 ∧
      (∃ next, chgLoc freshStack true (shippedFiles "60") moveRequest = some (next, accepted) ∧
        next.httpdConf.bind declaredTimeout = some 0) ∧
      ¬ ChangesLocationOnly freshStack (shippedFiles "60") moveRequest (ascii "admin") shippedPasswd 60 := by
  have each : ∀ line ∈ shippedLines "60", (10 : UInt8) ∉ line ∧ line.length + 1 < 512 := by decide +kernel
  have answer := chg_loc_accepted freshStack (shippedFiles "60") moveRequest shippedConfig (ascii "lab")
    shipped_loaded_sixty (by decide) (by decide)
  have zero := rewritten_declared_timeout { shippedConfig with szLocation := ascii "lab" } ⟨by decide, by decide⟩
  refine ⟨shipped_declares "60" 60 each (by decide +kernel) (by decide +kernel), ⟨_, answer, zero⟩, ?_⟩
  rintro ⟨next, conf, run, stored, _, _, timeout⟩
  rw [answer, Option.some.injEq, Prod.mk.injEq] at run
  obtain ⟨rfl, _⟩ := run
  obtain rfl := Option.some.inj stored
  rw [zero] at timeout
  exact absurd timeout (by decide)

end Ftm50s.Profile
