import Ftm50s.Cgi.Public
import Ftm50s.Profile.Fields

set_option autoImplicit false

namespace Ftm50s.Profile

open Lib.Text Lib.Decimal Ftm50s.Cgi Ftm50s.Ssid

-- get_ssid hands out an SSID to these credentials and to no others.
def AcceptsExactly (files : Files) (id pw : Bytes) : Prop :=
  ∀ (env : Env) (shm : Shm) (login : Request) (loginId loginPw seed : Bytes),
    getstr login "cmd" = some (ascii "get_ssid") → getstr login "id" = some loginId →
    getstr login "pw" = some loginPw → getstr login "seed" = some seed →
    ((∃ next tag, ftmcPublic env files shm login = some (next, .issued tag)) ↔ loginId = id ∧ loginPw = pw)

def TakesEffect (stale : Stale) (files : Files) (req : Request) (userid newPasswd : Bytes) : Prop :=
  ∃ next, chgPasswd stale true files req = some (next, accepted) ∧ AcceptsExactly next userid newPasswd

theorem getstr_no_nul (req : Request) (name : String) (value : Bytes) (given : getstr req name = some value) :
    (0 : UInt8) ∉ value := by
  obtain ⟨storage, _, rfl⟩ := Option.map_eq_some_iff.mp given
  exact cstr_no_nul storage

theorem take_trim_fixed (width : Nat) (value : Bytes) (short : value.length ≤ width) :
    (trim value).take width = value ↔ trimmed value = true := by
  have shorter : (trim value).length ≤ width := (trim_part value).length_le.trans short
  rw [List.take_of_length_le shorter, trim_fixed_iff]

theorem rewritten_declared (config : Config) (range : IsInt config.nTimeout) (userid : Plain config.szUserID)
    (passwd : Plain config.szPasswd) :
    declared (ascii "userid:") maxUserIdLen (fgets 512 (profileText config)) =
    (trim config.szUserID).take maxUserIdLen ∧
      declared (ascii "passwd:") maxPwLen (fgets 512 (profileText config)) = (trim config.szPasswd).take maxPwLen := by
  constructor
  · rw [declared, rewritten_text config _ (by decide) range userid, last_rest_single _ _ _ (by decide) passwd,
      if_neg (by decide), if_pos rfl]
    simp only [Option.none_or, Option.some_or, Option.map_some, Option.getD_some, field, trim_declared]
  · rw [declared, rewritten_text config _ (by decide) range userid, last_rest_single _ _ _ (by decide) passwd,
      if_pos rfl]
    simp only [Option.some_or, Option.map_some, Option.getD_some, field, trim_declared]

theorem rewritten_fits (config : Config) (range : IsInt config.nTimeout) (userid : Plain config.szUserID)
    (passwd : Plain config.szPasswd) :
    (∀ raw ∈ fgets 512 (profileText config), tagFits raw = true) ↔
      ∀ raw ∈ fgets 512 (declaration (ascii "location:") config.szLocation), tagFits raw = true := by
  have useridFits := plain_record_fits (ascii "userid:") _ (by decide) userid
  have passwdFits := plain_record_fits (ascii "passwd:") _ (by decide) passwd
  have timeoutFits := plain_record_fits (ascii "timeout:") _ (by decide) (timeout_plain _ range)
  rw [profile_records]
  constructor
  · exact fun all raw member => all raw (List.mem_append_left _ member)
  · intro location raw member
    rcases List.mem_append.mp member with inLocation | member
    · exact location raw inLocation
    · rcases List.mem_append.mp member with inUserid | member
      · exact useridFits raw inUserid
      · rcases List.mem_append.mp member with inPasswd | inTimeout
        · exact passwdFits raw inPasswd
        · exact timeoutFits raw inTimeout

def loginRequest (id pw : Bytes) : Request :=
  ⟨[(ascii "cmd", ascii "get_ssid"), (ascii "id", id), (ascii "pw", pw), (ascii "seed", [])]⟩

def loginEnv (stale : Stale) : Env := ⟨stale, true, fun _ => zeroDigest, 0⟩

theorem login_request_values (id pw : Bytes) (idNul : (0 : UInt8) ∉ id) (pwNul : (0 : UInt8) ∉ pw) :
    getstr (loginRequest id pw) "cmd" = some (ascii "get_ssid") ∧ getstr (loginRequest id pw) "id" = some id ∧
      getstr (loginRequest id pw) "pw" = some pw ∧ getstr (loginRequest id pw) "seed" = some [] := by
  have idSame := cstr_plain id idNul
  have pwSame := cstr_plain pw pwNul
  refine ⟨rfl, ?_, ?_, rfl⟩
  · exact congrArg some idSame
  · exact congrArg some pwSame

def changedFiles (files : Files) (config : Config) (newPasswd : Bytes) : Files :=
  { files with httpdConf := some (profileText { config with szPasswd := newPasswd }) }

theorem accepts_of_fits (files : Files) (config : Config) (newPasswd : Bytes) (range : IsInt config.nTimeout)
    (userid : Plain config.szUserID) (useridShort : config.szUserID.length ≤ maxUserIdLen)
    (modelFits : wordFits files.model = true) (snFits : wordFits files.sn = true)
    (passwd : Plain newPasswd) (passwdShort : newPasswd.length ≤ maxPwLen)
    (useridTrimmed : trimmed config.szUserID = true) (passwdTrimmed : trimmed newPasswd = true)
    (location : ∀ raw ∈ fgets 512 (declaration (ascii "location:") config.szLocation), tagFits raw = true) :
    AcceptsExactly (changedFiles files config newPasswd) config.szUserID newPasswd := by
  intro env shm login loginId loginPw seed cmdGiven idGiven pwGiven seedGiven
  have fits := (rewritten_fits { config with szPasswd := newPasswd } range userid passwd).mpr location
  obtain ⟨useridBack, passwdBack⟩ := rewritten_declared { config with szPasswd := newPasswd } range userid passwd
  obtain ⟨next, loaded, nextUserid, nextPasswd, _⟩ :=
    load_profile_spec env.stale (changedFiles files config newPasswd) _ ⟨rfl, fits, modelFits, snFits⟩
  rw [useridBack, (take_trim_fixed maxUserIdLen config.szUserID useridShort).mpr useridTrimmed] at nextUserid
  rw [passwdBack, (take_trim_fixed maxPwLen newPasswd passwdShort).mpr passwdTrimmed] at nextPasswd
  rw [public_login_iff env _ next shm login loginId loginPw seed loaded cmdGiven idGiven pwGiven seedGiven, nextUserid,
    nextPasswd]

theorem fits_of_accepts (stale : Stale) (files : Files) (config : Config) (newPasswd : Bytes)
    (range : IsInt config.nTimeout) (userid : Plain config.szUserID)
      (useridShort : config.szUserID.length ≤ maxUserIdLen) (nul : (0 : UInt8) ∉ newPasswd)
        (passwdShort : newPasswd.length ≤ maxPwLen)
          (accepts : AcceptsExactly (changedFiles files config newPasswd) config.szUserID newPasswd) :
    (10 : UInt8) ∉ newPasswd ∧ trimmed newPasswd = true ∧ trimmed config.szUserID = true ∧
      ∀ raw ∈ fgets 512 (declaration (ascii "location:") config.szLocation), tagFits raw = true := by
  obtain ⟨cmdGiven, idGiven, pwGiven, seedGiven⟩ := login_request_values config.szUserID newPasswd userid.nul nul
  obtain ⟨shm, tag, answer⟩ :=
    (accepts (loginEnv stale) none (loginRequest config.szUserID newPasswd) _ _ _ cmdGiven idGiven pwGiven seedGiven).mpr
      ⟨rfl, rfl⟩
  obtain ⟨_, ⟨next, loaded, idSame, pwSame⟩, _⟩ := public_issued _ _ _ _ _ _ answer
  have nextUserid := Option.some.inj (idGiven.symm.trans idSame)
  have nextPasswd := Option.some.inj (pwGiven.symm.trans pwSame)
  obtain ⟨_, loadable⟩ := load_profile_defined stale _ next loaded
  obtain rfl := Option.some.inj loadable.1
  obtain ⟨again, loadedAgain, againUserid, againPasswd, _⟩ := load_profile_spec stale _ _ loadable
  obtain rfl : next = again := Option.some.inj (Option.some.inj (loaded.symm.trans loadedAgain))
  have newline : (10 : UInt8) ∉ newPasswd := by
    rw [nextPasswd, againPasswd]
    exact (declared_plain _ _ _).1
  have passwd : Plain newPasswd := ⟨newline, nul, lt_of_le_of_lt passwdShort (by decide)⟩
  obtain ⟨useridBack, passwdBack⟩ := rewritten_declared { config with szPasswd := newPasswd } range userid passwd
  refine ⟨newline, ?_, ?_, ?_⟩
  · rw [← take_trim_fixed maxPwLen newPasswd passwdShort]
    exact passwdBack.symm.trans (againPasswd.symm.trans nextPasswd.symm)
  · rw [← take_trim_fixed maxUserIdLen config.szUserID useridShort]
    exact useridBack.symm.trans (againUserid.symm.trans nextUserid.symm)
  · exact (rewritten_fits { config with szPasswd := newPasswd } range userid passwd).mp loadable.2.1

-- A password change takes effect exactly when the new password fits its field
-- and its line, and the other texts of the profile survive being written back:
-- a userid cut short at a space does not, and a location that the serial number
-- has spilled into may start a line of its own.
theorem passwd_change_exact (stale : Stale) (files : Files) (config : Config) (req : Request) (newPasswd : Bytes)
    (loaded : loadProfileConfig stale files = some (some config)) (given : getstr req "passwd" = some config.szPasswd)
    (new : getstr req "new_passwd" = some newPasswd) :
    TakesEffect stale files req config.szUserID newPasswd ↔
      newPasswd.length ≤ maxPwLen ∧ (10 : UInt8) ∉ newPasswd ∧ trimmed newPasswd = true ∧
        trimmed config.szUserID = true ∧
        ∀ raw ∈ fgets 512 (declaration (ascii "location:") config.szLocation), tagFits raw = true := by
  obtain ⟨⟨conf, loadable⟩, range, ⟨userid, useridShort⟩, _, oldShort⟩ := loaded_plain stale files config loaded
  have nul := getstr_no_nul req "new_passwd" newPasswd new
  have answer := chg_passwd_accepted stale files req config newPasswd loaded given oldShort new
  by_cases long : maxPwLen < newPasswd.length
  · rw [if_pos long] at answer
    constructor
    · rintro ⟨next, run, _⟩
      rw [answer] at run
      cases run
    · rintro ⟨short, _⟩
      omega
  · rw [if_neg long] at answer
    have short : newPasswd.length ≤ maxPwLen := by omega
    constructor
    · rintro ⟨next, run, accepts⟩
      rw [answer, Option.some.injEq, Prod.mk.injEq] at run
      obtain ⟨rfl, _⟩ := run
      exact ⟨short, fits_of_accepts stale files config newPasswd range userid useridShort nul short accepts⟩
    · rintro ⟨_, newline, passwdTrimmed, useridTrimmed, location⟩
      have passwd : Plain newPasswd := ⟨newline, nul, lt_of_le_of_lt short (by decide)⟩
      exact ⟨_, answer, accepts_of_fits files config newPasswd range userid useridShort loadable.2.2.1 loadable.2.2.2 passwd
        short useridTrimmed passwdTrimmed location⟩

theorem passwd_change_exact_shipped :
    TakesEffect freshStack (shippedFiles "60") (passwdRequest (ascii "s3cret!")) (ascii "admin") (ascii "s3cret!") := by
  have accepts := passwd_change_exact freshStack (shippedFiles "60") shippedConfig (passwdRequest (ascii "s3cret!"))
    (ascii "s3cret!") shipped_loaded_sixty (by decide) (by decide)
  exact accepts.mpr ⟨by decide, by decide, by decide, by decide, by decide⟩

def spacedFiles : Files :=
  ⟨some (ascii "location: office\nuserid: admin\npasswd: secret \ntimeout: 0\n"), none, none⟩

-- A password that ends in a space is accepted and locks its owner out.
theorem passwd_change_locks_out :
    chgPasswd freshStack true (shippedFiles "60") (passwdRequest (ascii "secret ")) = some (spacedFiles, accepted) ∧
      ftmcPublic (loginEnv freshStack) spacedFiles none (loginRequest (ascii "admin") (ascii "secret ")) =
        some (none, .refused) ∧
      ¬ TakesEffect freshStack (shippedFiles "60") (passwdRequest (ascii "secret ")) (ascii "admin")
        (ascii "secret ") := by
  have written : profileText { shippedConfig with szPasswd := ascii "secret " } =
      ascii "location: office\nuserid: admin\npasswd: secret \ntimeout: 0\n" := by decide +kernel
  have answer : chgPasswd freshStack true (shippedFiles "60") (passwdRequest (ascii "secret ")) =
      some (spacedFiles, accepted) := by
    rw [chg_passwd_accepted freshStack (shippedFiles "60") (passwdRequest (ascii "secret ")) shippedConfig
      (ascii "secret ")
      shipped_loaded_sixty (by decide) (by decide) (by decide), if_neg (by decide), written]
    rfl
  have refused : ftmcPublic (loginEnv freshStack) spacedFiles none (loginRequest (ascii "admin") (ascii "secret ")) =
      some (none, .refused) := rfl
  refine ⟨answer, refused, ?_⟩
  rintro ⟨next, run, accepts⟩
  rw [answer, Option.some.injEq, Prod.mk.injEq] at run
  obtain ⟨rfl, _⟩ := run
  obtain ⟨shm, tag, issued⟩ :=
    (accepts (loginEnv freshStack) none (loginRequest (ascii "admin") (ascii "secret ")) _ _ _ rfl rfl rfl rfl).mpr
      ⟨rfl, rfl⟩
  rw [refused] at issued
  cases issued

end Ftm50s.Profile
