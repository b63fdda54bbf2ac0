import Ftm50s.Cgi.Query
import Ftm50s.Lib.Refine
import Ftm50s.Md5.Agreement
import Ftm50s.Profile.Reload

set_option autoImplicit false

namespace Ftm50s.Profile

open Lib.Text Lib.Hex Lib.Refine Ftm50s.Cgi Ftm50s.Forms Ftm50s.Md5.Script

-- A password as it is typed into a page
structure Typed where
  text : JsString
  short : (utf8Encode text).length < 0x100000000

def Typed.digest (passwd : Typed) : Vector UInt8 16 := Md5.md5 (bytesOf (utf8Encode passwd.text))

-- The text MD5(value) in an address, a byte a unit
def Typed.sentText (passwd : Typed) : Bytes := bytesOf (MD5 passwd.text)

-- onClickLoginButton
def loginQuery (id : Bytes) (passwd : Typed) (seed : Bytes) : Bytes :=
  formQuery (ascii "cmd", ascii "get_ssid") [(ascii "id", id), (ascii "pw", passwd.sentText), (ascii "seed", seed)]

-- onApplyChangePasswd; none is an alert and no request.
def passwdQuery (passwd newPasswd confirm : Typed) : Option Bytes :=
  if newPasswd.text ≠ confirm.text then none
  else some (formQuery (ascii "cmd", ascii "chg_passwd")
    [(ascii "passwd", passwd.sentText), (ascii "new_passwd", newPasswd.sentText)])

-- What reaches the profile: a change of the password from its page, or any
-- request to move the device, each with the stack and the /tmp it finds
inductive Change where
  | passwd (stale : Stale) (creatable : Bool) (passwd newPasswd confirm : Typed)
  | location (stale : Stale) (creatable : Bool) (req : Request)

def serve (files : Files) : Change → Option Files
  | .passwd stale creatable passwd newPasswd confirm =>
      match passwdQuery passwd newPasswd confirm with
      | none => some files
      | some query => (parseQuery (sent query)).bind fun req => (chgPasswd stale creatable files req).map Prod.fst
  | .location stale creatable req => (chgLoc stale creatable files req).map Prod.fst

-- What the profile file is for
structure Account where
  userid : Bytes
  digest : Vector UInt8 16

def Account.change (account : Account) : Change → Account
  | .passwd _ creatable passwd newPasswd confirm =>
      if newPasswd.text = confirm.text ∧ passwd.digest = account.digest ∧ creatable = true then
        { account with digest := newPasswd.digest }
      else account
  | .location _ _ _ => account

structure Holds (files : Files) (account : Account) : Prop where
  file : ∃ conf, Loadable files conf ∧ declared (ascii "userid:") maxUserIdLen (fgets 512 conf) = account.userid ∧
    declared (ascii "passwd:") maxPwLen (fgets 512 conf) = hexText account.digest.toList
  clean : trimmed account.userid = true
  serial : HoldsWord files.sn

-- A new location may start lines of its own, as long as their first words fit
-- the loader's tag buffer.
def Change.narrow : Change → Prop
  | .passwd _ _ _ _ _ => True
  | .location _ _ req =>
      ∀ loc, getstr req "loc" = some loc → ∀ line ∈ injected loc, (words line).head?.all (·.length ≤ 31) = true

theorem sent_text_hex (passwd : Typed) : passwd.sentText = hexText passwd.digest.toList := by
  rw [Typed.sentText, script_digest _ passwd.short, bytesOf, wide, List.map_map]
  have narrow : (UInt16.toUInt8 ∘ UInt8.toUInt16) = id := by
    funext c
    simp
  rw [narrow, List.map_id]
  rfl

theorem hex_sendable (digest : Bytes) : isSendable (hexText digest) = true := by
  rw [isSendable, List.all_eq_true]
  intro c member
  have lower := hex_text_lower digest c member
  have other : ∀ d : UInt8, isLowerHex d = false → c ≠ d := by
    intro d capital same
    rw [same, capital] at lower
    cases lower
  simp [other 38 rfl, other 35 rfl, other 43 rfl, other 37 rfl, other 0 rfl]

theorem digest_same (a b : Vector UInt8 16) : hexText a.toList = hexText b.toList ↔ a = b := by
  constructor
  · intro same
    exact Vector.toList_inj.mp (hex_text_injective _ _ same)
  · intro same
    rw [same]

theorem hex_passwd (digest : Vector UInt8 16) :
    Plain (hexText digest.toList) ∧ (trim (hexText digest.toList)).take maxPwLen = hexText digest.toList := by
  have length : (hexText digest.toList).length = 32 := by
    rw [hex_text_length, Vector.length_toList]
  have word : ∀ c ∈ hexText digest.toList, isSpace c = false ∧ c ≠ 10 ∧ c ≠ 0 := by
    intro c member
    have lower := hex_text_lower _ c member
    simp only [isLowerHex, Bool.or_eq_true, Bool.and_eq_true, decide_eq_true_eq, UInt8.le_iff_toNat_le] at lower
    change (48 ≤ c.toNat ∧ c.toNat ≤ 57) ∨ (97 ≤ c.toNat ∧ c.toNat ≤ 102) at lower
    have other : ∀ d : UInt8, d.toNat < 48 → c ≠ d := by
      intro d below same
      rw [same] at lower
      omega
    refine ⟨?_, other 10 (by decide), other 0 (by decide)⟩
    rw [isSpace, Bool.or_eq_false_iff, Bool.and_eq_false_iff]
    refine ⟨by simpa using other 32 (by decide), Or.inr ?_⟩
    rw [decide_eq_false_iff_not, UInt8.le_iff_toNat_le]
    change ¬ c.toNat ≤ 13
    omega
  have plain : Plain (hexText digest.toList) :=
    ⟨fun member => (word 10 member).2.1 rfl, fun member => (word 0 member).2.2 rfl, by omega⟩
  refine ⟨plain, (take_trim_fixed maxPwLen _ (by rw [length]; decide)).mpr ?_⟩
  have spaces : ∀ c ∈ hexText digest.toList, (!isSpace c) = true := fun c member => by rw [(word c member).1]; rfl
  rw [trimmed, Bool.and_eq_true, Option.all_eq_true, Option.all_eq_true]
  exact ⟨fun c head => spaces c (List.mem_of_head? head), fun c last => spaces c (List.mem_of_getLast? last)⟩

theorem plain_location_fits (loc : Bytes) (plain : Plain loc) (short : loc.length ≤ maxLocationLen) :
    ∀ raw ∈ fgets 512 (declaration (ascii "location:") loc), tagFits raw = true := by
  have tag : (ascii "location:").length = 9 := rfl
  have length : (ascii "location:").length + loc.length < 500 := by
    simp only [maxLocationLen] at short
    omega
  rw [fgets_declaration_line _ _ (by decide) plain.newline length, List.forall_mem_singleton]
  exact declaration_fits _ _ (by decide) plain.nul

theorem holds_load (stale : Stale) (files : Files) (account : Account) (holds : Holds files account) :
    ∃ config, loadProfileConfig stale files = some (some config) ∧ config.szUserID = account.userid ∧
      config.szPasswd = hexText account.digest.toList ∧
      ∀ raw ∈ fgets 512 (declaration (ascii "location:") config.szLocation), tagFits raw = true := by
  obtain ⟨conf, loadable, userid, passwd⟩ := holds.file
  obtain ⟨config, loaded, useridSame, passwdSame, _, _, locationSame⟩ := load_profile_spec stale files conf loadable
  obtain ⟨again, loadedAgain, _, _, serialSame⟩ := load_profile_lines stale files conf loadable
  obtain rfl : config = again := Option.some.inj (Option.some.inj (loaded.symm.trans loadedAgain))
  refine ⟨config, loaded, useridSame.trans userid, passwdSame.trans passwd, ?_⟩
  cases file : files.sn with
  | none =>
      obtain ⟨newline, nul, short⟩ := declared_plain (ascii "location:") maxLocationLen conf
      rw [locationSame file]
      exact plain_location_fits _ ⟨newline, nul, lt_of_le_of_lt short (by decide)⟩ short
  | some content =>
      rw [serialSame content file holds.serial]
      exact plain_location_fits [] ⟨by simp, by simp, by simp⟩ (Nat.zero_le _)

def rewritten (files : Files) (config : Config) : Files := { files with httpdConf := some (profileText config) }

theorem written_holds (stale : Stale) (files : Files) (account : Account) (config : Config) (loc : Bytes)
    (digest : Vector UInt8 16) (holds : Holds files account) (loaded : loadProfileConfig stale files =
    some (some config)) (userid : config.szUserID = account.userid) (location :
    ∀ raw ∈ fgets 512 (declaration (ascii "location:") loc), tagFits raw = true) :
    Holds (rewritten files { config with szLocation := loc, szPasswd := hexText digest.toList })
      { account with digest := digest } := by
  obtain ⟨⟨conf, loadable⟩, range, ⟨useridPlain, useridShort⟩, _, _⟩ := loaded_plain stale files config loaded
  obtain ⟨passwdPlain, passwdBack⟩ := hex_passwd digest
  have fits := (rewritten_fits { config with szLocation := loc, szPasswd := hexText digest.toList } range useridPlain
    passwdPlain).mpr location
  obtain ⟨useridDeclared, passwdDeclared⟩ :=
    rewritten_declared { config with szLocation := loc, szPasswd := hexText digest.toList } range useridPlain passwdPlain
  have useridBack := (take_trim_fixed maxUserIdLen config.szUserID useridShort).mpr (by rw [userid]; exact holds.clean)
  refine ⟨⟨_, ⟨rfl, fits, loadable.2.2.1, loadable.2.2.2⟩, ?_, ?_⟩, holds.clean, holds.serial⟩
  · rw [useridDeclared, useridBack, userid]
  · rw [passwdDeclared, passwdBack]

theorem hex_cstr (digest : Vector UInt8 16) : cstr (hexText digest.toList) = hexText digest.toList :=
  cstr_plain _ (hex_passwd digest).1.nul

theorem passwd_query_arrives (passwd newPasswd confirm : Typed) (query : Bytes)
    (given : passwdQuery passwd newPasswd confirm = some query) :
    ∃ req, parseQuery (sent query) = some req ∧ getstr req "passwd" = some (hexText passwd.digest.toList) ∧
      getstr req "new_passwd" = some (hexText newPasswd.digest.toList) := by
  unfold passwdQuery at given
  split at given
  · cases given
  · obtain rfl := Option.some.inj given
    rw [sent_text_hex, sent_text_hex]
    refine ⟨_, form_arrives _ _ (by simp only [List.forall_mem_cons]; exact ⟨rfl, rfl, rfl, by simp⟩) ?_, ?_, ?_⟩
    · simp only [List.forall_mem_cons, hex_sendable, true_and]
      exact ⟨by decide, by simp⟩
    · exact congrArg some (hex_cstr passwd.digest)
    · exact congrArg some (hex_cstr newPasswd.digest)

theorem passwd_step (stale : Stale) (creatable : Bool) (files : Files) (account : Account)
    (passwd newPasswd confirm : Typed) (holds : Holds files account) :
    ∃ next, serve files (.passwd stale creatable passwd newPasswd confirm) = some next ∧
      Holds next (account.change (.passwd stale creatable passwd newPasswd confirm)) := by
  obtain ⟨config, loaded, userid, stored, location⟩ := holds_load stale files account holds
  cases given : passwdQuery passwd newPasswd confirm with
  | none =>
      have differ : newPasswd.text ≠ confirm.text := by
        intro same
        simp [passwdQuery, same] at given
      refine ⟨files, by rw [serve, given], ?_⟩
      rwa [Account.change, if_neg (fun all => differ all.1)]
  | some query =>
      have same : newPasswd.text = confirm.text := by
        by_contra differ
        simp [passwdQuery, differ] at given
      obtain ⟨req, parsed, old, new⟩ := passwd_query_arrives passwd newPasswd confirm query given
      have short : ∀ digest : Vector UInt8 16, ¬ maxPwLen < (hexText digest.toList).length := by
        intro digest
        rw [hex_text_length, Vector.length_toList]
        decide
      rw [serve, given]
      simp only [parsed, Option.bind_some, chgPasswd, loaded, old, new, short, false_or]
      by_cases known : passwd.digest = account.digest
      · rw [if_neg (by rw [stored, known]; simp)]
        simp only [copyPasswd, short, if_false, Option.map_some, saveAnswer, saveProfileConfig]
        cases creatable with
        | false =>
            refine ⟨files, rfl, ?_⟩
            rwa [Account.change, if_neg (fun all => by cases all.2.2)]
        | true =>
            refine ⟨_, rfl, ?_⟩
            have changed : account.change (.passwd stale true passwd newPasswd confirm) = { account with digest :=
              newPasswd.digest } :=
              if_pos ⟨same, known, rfl⟩
            rw [changed]
            exact written_holds stale files account config config.szLocation newPasswd.digest holds loaded userid location
      · rw [if_pos (by rw [stored]; exact fun text => known ((digest_same _ _).mp text).symm)]
        refine ⟨files, rfl, ?_⟩
        rwa [Account.change, if_neg (fun all => known all.2.1)]

theorem location_step (stale : Stale) (creatable : Bool) (files : Files) (account : Account) (req : Request)
    (holds : Holds files account) (narrow : (Change.location stale creatable req).narrow) :
    ∃ next, serve files (.location stale creatable req) = some next ∧
      Holds next (account.change (.location stale creatable req)) := by
  obtain ⟨config, loaded, userid, stored, _⟩ := holds_load stale files account holds
  rw [serve, chgLoc, loaded, Option.map_some, Option.map_some, Account.change]
  cases given : getstr req "loc" with
  | none => exact ⟨files, rfl, holds⟩
  | some loc =>
      by_cases long : maxLocationLen < loc.length
      · exact ⟨files, by simp [long], holds⟩
      · have nul := getstr_no_nul req "loc" loc given
        have fits := location_fits loc nul (by omega) (narrow loc given)
        simp only [long, if_false, saveAnswer, saveProfileConfig]
        cases creatable with
        | false => exact ⟨files, rfl, holds⟩
        | true =>
            refine ⟨_, rfl, ?_⟩
            have written := written_holds stale files account config loc account.digest holds loaded userid fits
            rw [← stored] at written
            exact written

theorem change_step (files : Files) (account : Account) (change : Change) (holds : Holds files account)
    (narrow : change.narrow) : ∃ next, serve files change = some next ∧ Holds next (account.change change) := by
  cases change with
  | passwd stale creatable passwd newPasswd confirm =>
      exact passwd_step stale creatable files account passwd newPasswd confirm holds
  | location stale creatable req => exact location_step stale creatable files account req holds narrow

-- Whatever is changed through the pages, the login page lets in who knows the
-- account and nobody else.
def LetsIn (files : Files) (account : Account) : Prop :=
  ∀ (env : Env) (shm : Ssid.Shm) (id seed : Bytes) (passwd : Typed), isSendable id = true → isSendable seed = true →
    ∃ req, parseQuery (sent (loginQuery id passwd seed)) = some req ∧
      ((∃ next tag, ftmcPublic env files shm req = some (next, .issued tag)) ↔
        id = account.userid ∧ passwd.digest = account.digest)

theorem holds_lets_in (files : Files) (account : Account) (holds : Holds files account) : LetsIn files account := by
  intro env shm id seed passwd idClean seedClean
  obtain ⟨config, loaded, userid, stored, _⟩ := holds_load env.stale files account holds
  have idSame := cstr_plain id (sendable_absent id idClean 0 rfl)
  have seedSame := cstr_plain seed (sendable_absent seed seedClean 0 rfl)
  have arrives := form_arrives (ascii "cmd", ascii "get_ssid")
    [(ascii "id", id), (ascii "pw", passwd.sentText), (ascii "seed", seed)]
    (by simp only [List.forall_mem_cons]; exact ⟨rfl, rfl, rfl, rfl, by simp⟩) (by
      simp only [List.forall_mem_cons, sent_text_hex, hex_sendable, idClean, seedClean, true_and]
      exact ⟨by decide, by simp⟩)
  refine ⟨_, arrives, ?_⟩
  rw [sent_text_hex]
  have issued := public_login_iff env files config shm
    ⟨[(ascii "cmd", ascii "get_ssid"), (ascii "id", id), (ascii "pw", hexText passwd.digest.toList),
    (ascii "seed", seed)]⟩ id
    (hexText passwd.digest.toList) seed loaded rfl (congrArg some idSame) (congrArg some (hex_cstr passwd.digest))
    (congrArg some seedSame)
  rw [issued, userid, stored, digest_same]

def typedAdmin : Typed := ⟨js "admin", by decide⟩

def typedSpaced : Typed := ⟨js "secret ", by decide⟩

theorem shipped_holds : Holds (shippedFiles "60") ⟨ascii "admin", typedAdmin.digest⟩ := by
  have each : ∀ line ∈ shippedLines "60", (10 : UInt8) ∉ line ∧ line.length + 1 < 512 := by decide +kernel
  have records := shipped_records "60" each
  have admin : hexText typedAdmin.digest.toList = shippedPasswd := by decide +kernel
  refine ⟨⟨shippedConf "60", ⟨rfl, ?_, rfl, rfl⟩, ?_, ?_⟩, by decide, fun content absent => by cases absent⟩
  · rw [records]
    decide +kernel
  · rw [records]
    decide +kernel
  · rw [records, admin]
    decide +kernel

end Ftm50s.Profile
