import Ftm50s.Profile.Passwd

set_option autoImplicit false

namespace Ftm50s.Profile

open Lib.Text Lib.Decimal Ftm50s.Cgi

-- The lines of /etc/httpd.conf that a location adds behind its own.
def injected (loc : Bytes) : List Bytes := (lines (loc ++ [10])).tail

theorem words_chomp (raw : Bytes) : words (chomp raw) = words raw := by
  unfold chomp
  split
  · rename_i ends
    rcases List.eq_nil_or_concat raw with rfl | ⟨front, c, rfl⟩
    · rfl
    · rw [List.concat_eq_append] at ends ⊢
      obtain rfl : c = 10 := by simpa [lineEnds] using ends
      have blank : words ([] : Bytes) = [] := rfl
      rw [List.dropLast_concat, words_space front [] 10 rfl, blank, List.append_nil]
  · rfl

theorem location_lines (loc : Bytes) :
    ∃ first, lines (declaration (ascii "location:") loc) = (ascii "location: " ++ first) :: injected loc := by
  obtain ⟨first, rest, split, plain⟩ : ∃ first rest, loc ++ [10] = first ++ 10 :: rest ∧ (10 : UInt8) ∉ first :=
    List.eq_append_cons_of_mem (by simp)
  have shape : declaration (ascii "location:") loc = (ascii "location: " ++ first) ++ 10 :: rest := by
    have blank : ascii "location: " = ascii "location:" ++ [32] := rfl
    rw [declaration, split, blank]
    simp
  have tagPlain : (10 : UInt8) ∉ ascii "location: " ++ first := by
    rw [List.mem_append, not_or]
    exact ⟨by decide, plain⟩
  refine ⟨first, ?_⟩
  rw [injected, split, shape, lines_line _ rest tagPlain, lines_line first rest plain, List.tail_cons]

theorem location_fits (loc : Bytes) (nul : (0 : UInt8) ∉ loc) (short : loc.length ≤ maxLocationLen)
    (narrow : ∀ line ∈ injected loc, (words line).head?.all (·.length ≤ 31) = true) :
    ∀ raw ∈ fgets 512 (declaration (ascii "location:") loc), tagFits raw = true := by
  have length : (declaration (ascii "location:") loc).length + 1 < 512 := by
    have tag : (ascii "location:").length = 9 := rfl
    simp only [declaration, List.length_append, List.length_cons, List.length_nil, tag, maxLocationLen] at short ⊢
    omega
  have clean : (0 : UInt8) ∉ declaration (ascii "location:") loc := by
    have tag : (0 : UInt8) ∉ ascii "location:" := by decide
    simp [declaration, tag, nul]
  intro raw member
  have line : chomp raw ∈ lines (declaration (ascii "location:") loc) := by
    rw [← fgets_short 512 _ length]
    exact List.mem_map_of_mem member
  have whole : cstr raw = raw := cstr_plain raw fun zero => clean ((fgets_part 512 _ raw member).subset zero)
  obtain ⟨first, split⟩ := location_lines loc
  have fits : (words (cstr raw)).head?.all (·.length < 32) = true := by
    rw [whole, ← words_chomp]
    rw [split, List.mem_cons] at line
    rcases line with own | other
    · rw [own, words_append (ascii "location: ") first (by decide)]
      rfl
    · have bound := narrow _ other
      simpa [Nat.lt_succ_iff] using bound
  rw [tagFits, fits, Bool.or_true]

theorem reload_credentials (stale : Stale) (files : Files) (config : Config) (range : IsInt config.nTimeout)
    (userid : Plain config.szUserID) (passwd : Plain config.szPasswd) (modelFits : wordFits files.model = true)
    (snFits : wordFits files.sn = true)
    (location : ∀ raw ∈ fgets 512 (declaration (ascii "location:") config.szLocation), tagFits raw = true) :
    ∃ next, loadProfileConfig stale { files with httpdConf := some (profileText config) } = some (some next) ∧
      next.szUserID = (trim config.szUserID).take maxUserIdLen ∧ next.szPasswd = (trim config.szPasswd).take maxPwLen ∧
      (files.sn = none → next.szLocation = declared (ascii "location:") maxLocationLen
        (fgets 512 (profileText config))) := by
  have fits := (rewritten_fits config range userid passwd).mpr location
  obtain ⟨useridBack, passwdBack⟩ := rewritten_declared config range userid passwd
  obtain ⟨next, loaded, nextUserid, nextPasswd, _, _, nextLocation⟩ :=
    load_profile_spec stale { files with httpdConf := some (profileText config) } _ ⟨rfl, fits, modelFits, snFits⟩
  exact ⟨next, loaded, nextUserid.trans useridBack, nextPasswd.trans passwdBack, nextLocation⟩

theorem rewritten_location (config : Config) (range : IsInt config.nTimeout) (location : Plain config.szLocation)
    (userid : Plain config.szUserID) (passwd : Plain config.szPasswd) :
    declared (ascii "location:") maxLocationLen (fgets 512 (profileText config)) =
      (trim config.szLocation).take maxLocationLen := by
  rw [declared, rewritten_text config _ (by decide) range userid, last_rest_single _ _ _ (by decide) passwd,
    if_neg (by decide), if_neg (by decide), last_rest_single _ _ _ (by decide) location, if_pos rfl]
  simp only [Option.none_or, Option.map_some, Option.getD_some, field, trim_declared]

structure Fits (width : Nat) (value : Bytes) : Prop where
  short : value.length ≤ width
  newline : (10 : UInt8) ∉ value
  nul : (0 : UInt8) ∉ value
  clean : trimmed value = true

theorem fits_plain (width : Nat) (value : Bytes) (narrow : width < 400) (fits : Fits width value) : Plain value :=
  ⟨fits.newline, fits.nul, lt_of_le_of_lt fits.short narrow⟩

theorem fits_back (width : Nat) (value : Bytes) (fits : Fits width value) : (trim value).take width = value :=
  (take_trim_fixed width value fits.short).mpr fits.clean

-- Both callers of FTMC_SaveProfileConfig have loaded the profile just before, so
-- the model file has been read without an overrun.
theorem profile_round_trip (stale : Stale) (files : Files) (config : Config) (range : IsInt config.nTimeout)
    (noSerial : files.sn = none) (modelFits : wordFits files.model = true)
      (location : Fits maxLocationLen config.szLocation) (userid : Fits maxUserIdLen config.szUserID)
        (passwd : Fits maxPwLen config.szPasswd) :
    ∃ saved next, saveProfileConfig true files config = some saved ∧ loadProfileConfig stale saved = some (some next) ∧
      next.szLocation = config.szLocation ∧ next.szUserID = config.szUserID ∧ next.szPasswd = config.szPasswd := by
  have locationPlain := fits_plain _ _ (by decide) location
  have useridPlain := fits_plain _ _ (by decide) userid
  have passwdPlain := fits_plain _ _ (by decide) passwd
  have snFits : wordFits files.sn = true := by
    rw [noSerial]
    rfl
  obtain ⟨next, loaded, nextUserid, nextPasswd, nextLocation⟩ :=
    reload_credentials stale files config range useridPlain passwdPlain modelFits snFits
      (plain_record_fits _ _ (by decide) locationPlain)
  refine ⟨_, next, rfl, loaded, ?_, nextUserid.trans (fits_back _ _ userid), nextPasswd.trans (fits_back _ _ passwd)⟩
  rw [nextLocation noSerial, rewritten_location config range locationPlain useridPlain passwdPlain,
    fits_back _ _ location]

theorem profile_round_trip_tags : ∃ saved next, saveProfileConfig true ⟨none, some (ascii "FTM-50S\n"), none⟩ ⟨[], [],
    ascii "# passwd: x", [], ascii "a  b", -1⟩ = some saved ∧ loadProfileConfig freshStack saved = some (some next) ∧
    next.szLocation = ascii "# passwd: x" ∧ next.szUserID = [] ∧ next.szPasswd = ascii "a  b" :=
  profile_round_trip freshStack ⟨none, some (ascii "FTM-50S\n"), none⟩ ⟨[], [], ascii "# passwd: x", [], ascii "a  b",
    -1⟩
    ⟨by decide, by decide⟩ rfl (by decide) ⟨by decide, by decide, by decide, by decide⟩
    ⟨by decide, by decide, by decide, by decide⟩ ⟨by decide, by decide, by decide, by decide⟩

-- Whatever lines the new location adds, the lines of the credentials come
-- after them.
theorem chg_loc_keeps_credentials (stale later : Stale) (files : Files) (config : Config) (req : Request) (loc : Bytes)
    (loaded : loadProfileConfig stale files = some (some config)) (useridTrimmed : trimmed config.szUserID = true)
      (passwdTrimmed : trimmed config.szPasswd = true) (given : getstr req "loc" = some loc)
        (short : loc.length ≤ maxLocationLen) (narrow : ∀ line ∈ injected loc, (words line).head?.all (·.length ≤ 31) =
        true) :
    ∃ saved next, chgLoc stale true files req = some (saved, accepted) ∧ loadProfileConfig later saved =
    some (some next) ∧
      next.szUserID = config.szUserID ∧ next.szPasswd = config.szPasswd := by
  obtain ⟨⟨conf, loadable⟩, range, ⟨userid, useridShort⟩, passwd, passwdShort⟩ := loaded_plain stale files config loaded
  have location := location_fits loc (getstr_no_nul req "loc" loc given) short narrow
  obtain ⟨next, reloaded, nextUserid, nextPasswd, _⟩ := reload_credentials later files { config with szLocation :=
    loc } range
    userid passwd loadable.2.2.1 loadable.2.2.2 location
  refine ⟨_, next, chg_loc_accepted stale files req config loc loaded given short, reloaded, ?_, ?_⟩
  · rw [nextUserid]
    exact (take_trim_fixed maxUserIdLen config.szUserID useridShort).mpr useridTrimmed
  · rw [nextPasswd]
    exact (take_trim_fixed maxPwLen config.szPasswd passwdShort).mpr passwdTrimmed

def forgedLoc : Bytes := ascii "lab\nuserid: eve\n#x\npasswd: 1"

theorem chg_loc_keeps_credentials_forged :
    ∃ saved next, chgLoc freshStack true (shippedFiles "60") ⟨[(ascii "loc", forgedLoc)]⟩ = some (saved, accepted) ∧
    loadProfileConfig freshStack saved = some (some next) ∧ next.szUserID = ascii "admin" ∧ next.szPasswd =
    shippedPasswd :=
  chg_loc_keeps_credentials freshStack freshStack (shippedFiles "60") shippedConfig
    ⟨[(ascii "loc", forgedLoc)]⟩ forgedLoc
    shipped_loaded_sixty (by decide) (by decide) (by decide) (by decide) (by decide)

-- An identity file with one word, as rc.sysinit writes it.
def HoldsWord (file : Option Bytes) : Prop :=
  ∀ content, file = some content → ∃ word, words content = [word] ∧ word.length ≤ 32

theorem holds_word_fits (file : Option Bytes) (holds : HoldsWord file) : wordFits file = true := by
  cases file with
  | none => rfl
  | some content =>
      obtain ⟨word, single, short⟩ := holds content rfl
      have fits : word.length < 512 := by omega
      simp [wordFits, single, fits]

-- Whatever the identity files hold, the location is the declared one, and only
-- the fields named after these files differ from a load without them.
def ReadsLocation (stale : Stale) (files : Files) (value : Bytes) : Prop :=
  ∃ plain config, loadProfileConfig stale { files with model := none, sn := none } = some (some plain) ∧
    loadProfileConfig stale files = some (some config) ∧ config.szLocation = trim value ∧
    config = { plain with szModel := config.szModel, szSerialNumber := config.szSerialNumber }

-- The 31 bytes that strncpy pads behind szSerialNumber end the location at once.
theorem load_serial_word (content : Bytes) (state next : LoadState) (holds : HoldsWord (some content))
    (loaded : loadSerial (some content) state = some next) : next.config.szLocation = [] := by
  obtain ⟨word, single, short⟩ := holds content rfl
  have fits : ¬ 512 ≤ word.length := by omega
  simp only [loadSerial, scanFile, single, if_neg fits, Option.map_some, Option.some.injEq] at loaded
  have room : (cstr word).length ≤ 32 := (List.takeWhile_prefix _).length_le.trans short
  have padding : (serialStore (cstr word)).drop (maxSnLen + 1) = List.replicate 31 0 := by
    have whole : (cstr word).take maxModelLen = cstr word := List.take_of_length_le (by simp only [maxModelLen]; omega)
    rw [serialStore, whole, padTo, List.drop_append, List.drop_eq_nil_of_le (by simp only [maxSnLen]; omega),
      List.nil_append,
      List.drop_replicate]
    congr 1
    simp only [maxModelLen, maxSnLen]
    omega
  rw [← loaded]
  show cstr ((serialStore (cstr word)).drop (maxSnLen + 1) ++ locationTail state.config.szLocation) = []
  rw [padding]
  rfl

theorem load_profile_lines (stale : Stale) (files : Files) (conf : Bytes) (loadable : Loadable files conf) :
    ∃ config, loadProfileConfig stale files = some (some config) ∧
      config = { lineConfig stale conf with
        szModel := config.szModel
        szSerialNumber := config.szSerialNumber
        szLocation := config.szLocation } ∧
      (files.sn = none → config.szLocation = (lineConfig stale conf).szLocation) ∧
      (∀ content, files.sn = some content → HoldsWord files.sn → config.szLocation = []) := by
  obtain ⟨model, serial, loaded, serialRun, modelSame⟩ := load_profile_runs stale files conf loadable
  obtain ⟨serialSame, locationSame⟩ := (load_serial_spec files.sn model).2 serial serialRun
  refine ⟨serial.config, loaded, ?_, ?_, ?_⟩
  · rw [serialSame, modelSame]
  · intro absent
    rw [locationSame absent, modelSame]
  · intro content file holds
    rw [file] at serialRun holds
    exact load_serial_word content model serial holds serialRun

-- The loader reads the location first and then lets a serial number overwrite
-- its beginning.
theorem location_read_back (stale : Stale) (files : Files) (conf value : Bytes) (present : files.httpdConf = some conf)
    (last : lastRest (ascii "location:") (fgets 512 conf) = some value) (short : (trim value).length ≤ maxLocationLen)
    (model : HoldsWord files.model) (sn : HoldsWord files.sn) :
    ReadsLocation stale files value ↔
      (∀ raw ∈ fgets 512 conf, tagFits raw = true) ∧ (files.sn = none ∨ trim value = []) := by
  have lineLocation : (lineConfig stale conf).szLocation = trim value := by
    rw [lineConfig, (apply_lines_field stale (fgets 512 conf) zeroConfig).1, last, Option.map_some, Option.getD_some,
      field,
      List.take_of_length_le short]
  constructor
  · rintro ⟨plain, config, _, loaded, location, _⟩
    obtain ⟨other, loadable⟩ := load_profile_defined stale files config loaded
    obtain rfl := Option.some.inj (present.symm.trans loadable.1)
    refine ⟨loadable.2.1, ?_⟩
    obtain ⟨again, loadedAgain, _, _, blanked⟩ := load_profile_lines stale files conf loadable
    obtain rfl : config = again := Option.some.inj (Option.some.inj (loaded.symm.trans loadedAgain))
    cases file : files.sn with
    | none => exact Or.inl rfl
    | some content => exact Or.inr (location.symm.trans (blanked content file sn))
  · rintro ⟨fits, free⟩
    obtain ⟨plain, plainLoaded, plainSame, plainLocation, _⟩ :=
      load_profile_lines stale { files with model := none, sn := none } conf ⟨present, fits, rfl, rfl⟩
    obtain ⟨config, loaded, same, kept, blanked⟩ :=
      load_profile_lines stale files conf ⟨present, fits, holds_word_fits _ model, holds_word_fits _ sn⟩
    have location : config.szLocation = trim value := by
      cases file : files.sn with
      | none => rw [kept file, lineLocation]
      | some content =>
          rcases free with absent | blank
          · rw [file] at absent
            cases absent
          · rw [blanked content file sn, blank]
    refine ⟨plain, config, plainLoaded, loaded, location, ?_⟩
    rw [same, plainSame, plainLocation rfl, lineLocation, location]

theorem location_read_back_model :
    ReadsLocation freshStack ⟨some (shippedConf "60"), some (ascii "FTM-50S\n"), none⟩ (ascii " office\n") := by
  have each : ∀ line ∈ shippedLines "60", (10 : UInt8) ∉ line ∧ line.length + 1 < 512 := by decide +kernel
  have records := shipped_records "60" each
  refine (location_read_back freshStack ⟨some (shippedConf "60"), some (ascii "FTM-50S\n"), none⟩ (shippedConf "60")
    (ascii " office\n") rfl ?_ (by decide) ?_ nofun).mpr ⟨?_, Or.inl rfl⟩
  · rw [records]
    decide +kernel
  · rintro content ⟨⟩
    exact ⟨ascii "FTM-50S", by decide, by decide⟩
  · rw [records]
    decide +kernel

-- With the serial number that rc.sysinit writes when none is given, the shipped
-- location is gone.
theorem serial_number_blanks_location :
    lastRest (ascii "location:") (fgets 512 (shippedConf "60")) = some (ascii " office\n") ∧
    (∃ config, loadProfileConfig freshStack ⟨some (shippedConf "60"), none, some (ascii "UNISSUED\n")⟩ =
    some (some config) ∧
      config.szLocation = []) ∧
    ¬ ReadsLocation freshStack ⟨some (shippedConf "60"), none, some (ascii "UNISSUED\n")⟩ (ascii " office\n") := by
  have each : ∀ line ∈ shippedLines "60", (10 : UInt8) ∉ line ∧ line.length + 1 < 512 := by decide +kernel
  have serial : HoldsWord (some (ascii "UNISSUED\n")) := by
    rintro content ⟨⟩
    exact ⟨ascii "UNISSUED", by decide, by decide⟩
  have records := shipped_records "60" each
  have last : lastRest (ascii "location:") (fgets 512 (shippedConf "60")) = some (ascii " office\n") := by
    rw [records]
    decide +kernel
  have fits : ∀ raw ∈ fgets 512 (shippedConf "60"), tagFits raw = true := by
    rw [records]
    decide +kernel
  obtain ⟨config, loaded, _, _, blanked⟩ := load_profile_lines freshStack
    ⟨some (shippedConf "60"), none, some (ascii "UNISSUED\n")⟩ (shippedConf "60") ⟨rfl, fits, rfl,
    holds_word_fits _ serial⟩
  have blank := blanked _ rfl serial
  refine ⟨last, ⟨config, loaded, blank⟩, ?_⟩
  rintro ⟨plain, other, _, loadedOther, location, _⟩
  obtain rfl : config = other := Option.some.inj (Option.some.inj (loaded.symm.trans loadedOther))
  rw [blank] at location
  exact absurd location (by decide)

end Ftm50s.Profile
