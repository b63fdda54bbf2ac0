import Ftm50s.Cgi.Request
import Mathlib.Logic.Function.Basic

set_option autoImplicit false

namespace Ftm50s.Ssl

open Lib.Text Ftm50s.Cgi

-- The eight static arrays of secuwayssl.c, in the order of client.info
inductive Field where
  | userID
  | userPW
  | vpnIP
  | vpnPort
  | crypto
  | logSize
  | version3
  | sts
deriving DecidableEq, Repr

def fields : List Field := [.userID, .userPW, .vpnIP, .vpnPort, .crypto, .logSize, .version3, .sts]

def tag : Field → Bytes
  | .userID => ascii "userid:"
  | .userPW => ascii "userpw:"
  | .vpnIP => ascii "vpn_ip:"
  | .vpnPort => ascii "vpn_port:"
  | .crypto => ascii "crypto:"
  | .logSize => ascii "log_size:"
  | .version3 => ascii "version3:"
  | .sts => ascii "site-to-site:"

def parameter : Field → String
  | .userID => "userid"
  | .userPW => "passwd"
  | .vpnIP => "vpn_ip"
  | .vpnPort => "vpn_port"
  | .crypto => "crypto"
  | .logSize => "log_size"
  | .version3 => "version3"
  | .sts => "sts"

def xmlName : Field → Bytes
  | .userID => ascii "USERID"
  | .userPW => ascii "PASSWD"
  | .vpnIP => ascii "VPN_IP"
  | .vpnPort => ascii "VPN_PORT"
  | .crypto => ascii "CRYPTO"
  | .logSize => ascii "LOG_SIZE"
  | .version3 => ascii "VERSION3"
  | .sts => ascii "STS"

abbrev Values := Field → Bytes

structure Globals where
  bIsRunning : Bool
  bIsEnabled : Bool
  values : Values

-- /etc/service/ssld and /usr/local/secuwayssl/conf/client.info
structure SecuwayFiles where
  ssld : Bytes
  clientInfo : Option Bytes
deriving DecidableEq, Repr

-- The array and the content that a line of client.info sets
def lineSetting (raw : Bytes) : Option (Field × Bytes) :=
  let line := cstr raw
  if line.head? = some 35 then none
  else
    match words line with
    | szName :: szContent :: _ =>
        (fields.find? fun field => decide (tag field = szName)).map fun field => (field, szContent)
    | _ => none

-- strcpy into 256 bytes; none when the content does not fit.
def loadLine (values : Values) (raw : Bytes) : Option Values :=
  match lineSetting raw with
  | none => some values
  | some setting => if 256 ≤ setting.2.length then none else some (Function.update values setting.1 setting.2)

def serviceStatus (running : Bool) : Bytes := if running then ascii "running" else ascii "stopped"

-- fscanf of the service file into szBuf, which holds the status word before and
-- keeps it when the file has no word; none when 1024 bytes do not hold the word.
def flagWord (running : Bool) (ssld : Bytes) : Option Bytes :=
  match words ssld with
  | [] => some (serviceStatus running)
  | word :: _ => if 1024 ≤ word.length then none else some (cstr word)

def loadValues (clientInfo : Option Bytes) : Option Values :=
  (fgets 1024 (clientInfo.getD [])).foldlM loadLine fun _ => []

-- FTMC_LoadConfig in a fresh process
def loadGlobals (running : Bool) (files : SecuwayFiles) : Option Globals :=
  (flagWord running files.ssld).bind fun szBuf =>
    (loadValues files.clientInfo).map fun values => ⟨running, decide (szBuf = ascii "enabled"), values⟩

-- FTMC_SECUWAYSSL, cmd=status
def secuwayStatusText (globals : Globals) : Bytes :=
  putHeader ++ ascii "<SSL_CONFIG>\n" ++ element (ascii "PRODUCT") (ascii "SecuwaySSL") ++
    element (ascii "MANUFACTURER") (ascii "Secuwiz") ++
    element (ascii "STATUS") (if globals.bIsRunning then ascii "running" else ascii "stopped") ++
    element (ascii "ENABLED") (if globals.bIsEnabled then ascii "true" else ascii "false") ++
    (fields.flatMap fun field => element (xmlName field) (globals.values field)) ++
    element (ascii "RET") (ascii "OK") ++ ascii "</SSL_CONFIG>\n"

def secuwayStatus (running : Bool) (files : SecuwayFiles) : Option Bytes :=
  (loadGlobals running files).map secuwayStatusText

def infoLine (field : Field) (value : Bytes) : Bytes := tag field ++ ascii " " ++ value

def clientInfo (values : Values) : Bytes := unlines (fields.map fun field => infoLine field (values field))

def flagText (enabled : Bool) : Bytes := if enabled then ascii "enabled\n" else ascii "disabled\n"

-- An empty password stands for the stored one.
def submitted (stored given : Values) : Values :=
  if given .userPW = [] then Function.update given .userPW (stored .userPW) else given

structure SecuwayOutcome where
  files : SecuwayFiles
  flagWritten : Bool
  infoWritten : Bool
  restart : Bool

def bChanged (stored fresh : Values) : Bool := fields.any fun field => decide (stored field ≠ fresh field)

def secuwayApply (creatable : Bool) (files : SecuwayFiles) (globals : Globals) (enabled : Bool) (fresh : Values) :
    SecuwayOutcome :=
  let flagWritten := enabled != globals.bIsEnabled
  let changed := bChanged globals.values fresh
  { files :=
      { ssld := if flagWritten then flagText enabled else files.ssld
        clientInfo := if changed && creatable then some (clientInfo fresh) else files.clientInfo }
    flagWritten := flagWritten
    infoWritten := changed && creatable
    restart := flagWritten || changed }

-- FTMC_SECUWAYSSL, cmd=set; strcmp and strlen of a missing parameter are undefined.
def secuwaySet (creatable running : Bool) (files : SecuwayFiles) (req : Request) : Option SecuwayOutcome :=
  (loadGlobals running files).bind fun globals =>
    (getstr req "enable").bind fun lpszEnabled =>
      if fields.all fun field => (getstr req (parameter field)).isSome then
        some (secuwayApply creatable files globals (decide (lpszEnabled = ascii "true"))
          (submitted globals.values fun field => (getstr req (parameter field)).getD []))
      else none

def secuwaySetText : Bytes :=
  putHeader ++ ascii "<SSL_CONFIG>\n" ++ element (ascii "RET") (ascii "OK") ++ ascii "</SSL_CONFIG>\n"

-- A C string of at most 255 bytes without white space; it may be empty.
def isSetting (value : Bytes) : Bool := value.all (fun c => !isSpace c && c != 0) && decide (value.length ≤ 255)

structure ValuesFit (files : SecuwayFiles) : Prop where
  flag : ∀ word, (words files.ssld).head? = some word → word.length < 1024
  info : ∀ raw ∈ fgets 1024 (files.clientInfo.getD []), ∀ setting, lineSetting raw = some setting →
  setting.2.length ≤ 255

theorem setting_spec (value : Bytes) (valid : isSetting value = true) :
    value.all (!isSpace ·) = true ∧ (0 : UInt8) ∉ value ∧ value.length ≤ 255 := by
  simp only [isSetting, Bool.and_eq_true, List.all_eq_true, decide_eq_true_eq] at valid
  refine ⟨List.all_eq_true.mpr fun c member => (valid.1 c member).1, ?_, valid.2⟩
  intro member
  have nonzero := (valid.1 0 member).2
  cases nonzero

theorem setting_word (value : Bytes) (valid : isSetting value = true) (filled : value ≠ []) : isWord value = true := by
  rw [isWord, Bool.and_eq_true]
  exact ⟨by simpa using filled, (setting_spec value valid).1⟩

theorem line_setting_valid (raw : Bytes) (setting : Field × Bytes) (found : lineSetting raw = some setting)
    (short : setting.2.length ≤ 255) : isSetting setting.2 = true := by
  simp only [lineSetting] at found
  split at found
  · cases found
  · split at found
    · rename_i szName szContent rest all
      obtain ⟨field, _, rfl⟩ := Option.map_eq_some_iff.mp found
      have member : szContent ∈ words (cstr raw) := by rw [all]; simp
      have word := words_are_words _ _ member
      have plain : (0 : UInt8) ∉ szContent := fun inside =>
        cstr_no_nul raw ((words_part _ _ member).subset inside)
      rw [isWord, Bool.and_eq_true, List.all_eq_true] at word
      simp only [isSetting, Bool.and_eq_true, List.all_eq_true, decide_eq_true_eq]
      refine ⟨fun c inside => ⟨word.2 c inside, ?_⟩, short⟩
      rw [bne_iff_ne]
      rintro rfl
      exact plain inside
    · cases found

theorem load_line_fits (values : Values) (raw : Bytes) (valid : ∀ field, isSetting (values field) = true)
    (fits : ∀ setting, lineSetting raw = some setting → setting.2.length ≤ 255) :
    ∃ next, loadLine values raw = some next ∧ ∀ field, isSetting (next field) = true := by
  cases found : lineSetting raw with
  | none => exact ⟨values, by rw [loadLine, found], valid⟩
  | some setting =>
      have short := fits setting found
      refine ⟨Function.update values setting.1 setting.2, ?_, ?_⟩
      · rw [loadLine, found]
        exact if_neg (by omega)
      · intro field
        by_cases same : field = setting.1
        · rw [same, Function.update_self]
          exact line_setting_valid raw setting found short
        · rw [Function.update_of_ne same]
          exact valid field

theorem load_lines_fit (records : List Bytes) (values : Values) (valid : ∀ field, isSetting (values field) = true)
    (fits : ∀ raw ∈ records, ∀ setting, lineSetting raw = some setting → setting.2.length ≤ 255) :
    ∃ next, records.foldlM loadLine values = some next ∧ ∀ field, isSetting (next field) = true := by
  induction records generalizing values with
  | nil => exact ⟨values, rfl, valid⟩
  | cons raw rest ih =>
      obtain ⟨middle, first, middleValid⟩ := load_line_fits values raw valid (fits raw (by simp))
      obtain ⟨next, later, nextValid⟩ := ih middle middleValid fun other member => fits other (by simp [member])
      refine ⟨next, ?_, nextValid⟩
      rw [List.foldlM_cons, first]
      exact later

theorem tag_word (field : Field) : isWord (tag field) = true ∧ (tag field).head? ≠ some 35 ∧ (0 : UInt8) ∉ tag field ∧
    (tag field).length ≤ 13 := by
  cases field <;> decide

theorem tag_found (field : Field) : (fields.find? fun other => decide (tag other = tag field)) = some field := by
  cases field <;> decide

theorem info_line_shape (field : Field) (value rest : Bytes) :
    infoLine field value ++ rest = tag field ++ 32 :: (value ++ rest) := by
  have space : ascii " " = [32] := rfl
  simp [infoLine, space]

theorem info_line_setting (field : Field) (value : Bytes) (valid : isSetting value = true) :
    lineSetting (infoLine field value ++ [10]) = if value = [] then none else some (field, value) := by
  obtain ⟨word, letter, tagPlain, _⟩ := tag_word field
  obtain ⟨_, plain, _⟩ := setting_spec value valid
  have whole : cstr (infoLine field value ++ [10]) = tag field ++ 32 :: (value ++ [10]) := by
    rw [info_line_shape]
    apply cstr_plain
    simp [tagPlain, plain]
  have opened : (tag field ++ 32 :: (value ++ [10])).head? = (tag field).head? := by
    rw [List.head?_append_of_ne_nil _ (word_nonempty _ word)]
  have split : words (tag field ++ 32 :: (value ++ [10])) = tag field :: words (value ++ [10]) :=
    words_word_space _ _ 32 word rfl
  have closed : words (value ++ [10]) = words value := by
    rw [words_space value [] 10 rfl]
    exact List.append_nil _
  simp only [lineSetting, whole, opened, if_neg letter, split, closed]
  by_cases empty : value = []
  · rw [empty, if_pos rfl]
    rfl
  · rw [words_word value (setting_word value valid empty), if_neg empty]
    simp only [tag_found, Option.map_some]

theorem load_written_line (values : Values) (field : Field) (value : Bytes) (valid : isSetting value = true)
    (blank : values field = []) :
    loadLine values (infoLine field value ++ [10]) = some (Function.update values field value) := by
  have short := (setting_spec value valid).2.2
  rw [loadLine, info_line_setting field value valid]
  by_cases empty : value = []
  · rw [if_pos empty, empty, ← blank, Function.update_eq_self]
  · rw [if_neg empty]
    exact if_neg (show ¬ 256 ≤ value.length by omega)

theorem load_written_lines (rest : List Field) (values fresh : Values) (valid : ∀ field, isSetting (fresh field) = true)
    (distinct : rest.Nodup) (blank : ∀ field ∈ rest, values field = []) :
    (rest.map fun field => infoLine field (fresh field) ++ [10]).foldlM loadLine values =
      some fun field => if field ∈ rest then fresh field else values field := by
  induction rest generalizing values with
  | nil => rfl
  | cons first rest ih =>
      obtain ⟨fresher, distinct⟩ := List.nodup_cons.mp distinct
      have later : ∀ field ∈ rest, Function.update values first (fresh first) field = [] := by
        intro field member
        have different : field ≠ first := fun same => fresher (same ▸ member)
        rw [Function.update_of_ne different]
        exact blank field (List.mem_cons_of_mem _ member)
      rw [List.map_cons, List.foldlM_cons, load_written_line values first (fresh first) (valid first)
        (blank first (by simp))]
      refine (ih (Function.update values first (fresh first)) distinct later).trans ?_
      congr 1
      funext field
      by_cases same : field = first
      · rw [same, if_neg fresher, if_pos (by simp), Function.update_self]
      · rw [Function.update_of_ne same]
        simp only [List.mem_cons, same, false_or]

theorem fields_all (field : Field) : field ∈ fields := by
  cases field <;> decide

theorem load_client_info (fresh : Values) (valid : ∀ field, isSetting (fresh field) = true) :
    loadValues (some (clientInfo fresh)) = some fresh := by
  have plain : ∀ line ∈ fields.map (fun field => infoLine field (fresh field)), (10 : UInt8) ∉ line ∧
    line.length + 1 < 1024 := by
    intro line member
    obtain ⟨field, _, rfl⟩ := List.mem_map.mp member
    obtain ⟨word, _, _, tagShort⟩ := tag_word field
    obtain ⟨spaceless, _, short⟩ := setting_spec (fresh field) (valid field)
    have shape := info_line_shape field (fresh field) []
    rw [List.append_nil, List.append_nil] at shape
    rw [shape]
    have tagMiss := word_plain (tag field) word
    have valueMiss := all_absent (!isSpace ·) (fresh field) spaceless 10 (by decide)
    refine ⟨by simp [tagMiss, valueMiss], ?_⟩
    rw [List.length_append, List.length_cons]
    omega
  rw [loadValues, Option.getD_some, clientInfo,
    fgets_unlines 1024 _ (fun line member => (plain line member).1) (fun line member => (plain line member).2),
    List.map_map]
  refine (load_written_lines fields (fun _ => []) fresh valid (by decide) (fun _ _ => rfl)).trans ?_
  congr 1
  funext field
  exact if_pos (fields_all field)

-- Neither word of the service's status is the one that means enabled.
theorem flag_word_steady (running later : Bool) (ssld szBuf : Bytes) (found : flagWord running ssld = some szBuf) :
    ∃ other, flagWord later ssld = some other ∧ decide (other = ascii "enabled") =
    decide (szBuf = ascii "enabled") := by
  unfold flagWord at found ⊢
  cases split : words ssld with
  | nil =>
      rw [split] at found
      obtain rfl := Option.some.inj found
      refine ⟨serviceStatus later, rfl, ?_⟩
      cases running <;> cases later <;> decide
  | cons word rest =>
      rw [split] at found
      exact ⟨szBuf, found, rfl⟩

theorem flag_text_word (later enabled : Bool) :
    ∃ szBuf, flagWord later (flagText enabled) = some szBuf ∧ decide (szBuf = ascii "enabled") = enabled := by
  cases enabled
  · exact ⟨ascii "disabled", by decide +revert, by decide⟩
  · exact ⟨ascii "enabled", by decide +revert, by decide⟩

theorem flag_word_fits (running : Bool) (ssld : Bytes) (fits : ∀ word, (words ssld).head? = some word →
    word.length < 1024) :
    ∃ szBuf, flagWord running ssld = some szBuf := by
  unfold flagWord
  cases split : words ssld with
  | nil => exact ⟨serviceStatus running, rfl⟩
  | cons word rest =>
      have short := fits word (by rw [split, List.head?_cons])
      exact ⟨cstr word, if_neg (by omega)⟩

theorem load_globals_fits (running : Bool) (files : SecuwayFiles) (fits : ValuesFit files) :
    ∃ globals, loadGlobals running files = some globals ∧ globals.bIsRunning = running ∧
      ∀ field, isSetting (globals.values field) = true := by
  obtain ⟨szBuf, flag⟩ := flag_word_fits running files.ssld fits.flag
  obtain ⟨values, loaded, valid⟩ := load_lines_fit (fgets 1024 (files.clientInfo.getD [])) (fun _ =>
    []) (fun _ => by decide) fits.info
  refine ⟨⟨running, decide (szBuf = ascii "enabled"), values⟩, ?_, rfl, valid⟩
  rw [loadGlobals, flag, Option.bind_some, loadValues, loaded, Option.map_some]

theorem bchanged_false (stored fresh : Values) (same : bChanged stored fresh = false) : stored = fresh := by
  funext field
  have each := List.any_eq_false.mp same field (fields_all field)
  simpa using each

theorem submitted_valid (stored given : Values) (storedValid : ∀ field, isSetting (stored field) = true)
    (givenValid : ∀ field, isSetting (given field) = true) : ∀ field, isSetting (submitted stored given field) =
    true := by
  intro field
  rw [submitted]
  split
  · by_cases password : field = .userPW
    · rw [password, Function.update_self]
      exact storedValid .userPW
    · rw [Function.update_of_ne password]
      exact givenValid field
  · exact givenValid field

theorem submitted_again (stored given : Values) :
    submitted (submitted stored given) given = submitted stored given := by
  by_cases empty : given .userPW = []
  · rw [submitted, if_pos empty, submitted, if_pos empty, Function.update_self]
  · rw [submitted, if_neg empty, submitted, if_neg empty]

theorem apply_loads (running later : Bool) (files : SecuwayFiles) (globals : Globals) (enabled : Bool) (fresh : Values)
    (loaded : loadGlobals running files = some globals) (valid : ∀ field, isSetting (fresh field) = true) :
    loadGlobals later (secuwayApply true files globals enabled fresh).files = some ⟨later, enabled, fresh⟩ := by
  obtain ⟨szBuf, flag, rest⟩ := Option.bind_eq_some_iff.mp loaded
  obtain ⟨values, kept, rfl⟩ := Option.map_eq_some_iff.mp rest
  have flagged : ∃ other, flagWord later (secuwayApply true files ⟨running, decide (szBuf = ascii "enabled"),
    values⟩ enabled fresh).files.ssld =
      some other ∧ decide (other = ascii "enabled") = enabled := by
    simp only [secuwayApply]
    cases written : (enabled != decide (szBuf = ascii "enabled"))
    · obtain ⟨other, found, same⟩ := flag_word_steady running later files.ssld szBuf flag
      refine ⟨other, found, ?_⟩
      rw [same]
      exact (by simpa using written : enabled = decide (szBuf = ascii "enabled")).symm
    · exact flag_text_word later enabled
  have stored : loadValues (secuwayApply true files ⟨running, decide (szBuf = ascii "enabled"),
    values⟩ enabled fresh).files.clientInfo =
      some fresh := by
    simp only [secuwayApply, Bool.and_true]
    cases changed : bChanged values fresh
    · rw [← bchanged_false values fresh changed]
      exact kept
    · exact load_client_info fresh valid
  obtain ⟨other, found, same⟩ := flagged
  rw [loadGlobals, found, Option.bind_some, stored, Option.map_some, same]

theorem apply_quiet (files : SecuwayFiles) (running enabled : Bool) (fresh : Values) :
    secuwayApply true files ⟨running, enabled, fresh⟩ enabled fresh =
      { files := files, flagWritten := false, infoWritten := false, restart := false } := by
  have same : bChanged fresh fresh = false := by
    apply List.any_eq_false.mpr
    intro field _
    simp
  simp [secuwayApply, same]

structure Submits (req : Request) (enable : Bytes) (given : Values) : Prop where
  enabled : getstr req "enable" = some enable
  each : ∀ field, getstr req (parameter field) = some (given field)

theorem secuway_set_submits (creatable running : Bool) (files : SecuwayFiles) (req : Request) (enable : Bytes)
    (given : Values) (submits : Submits req enable given) : secuwaySet creatable running files req =
      (loadGlobals running files).map fun globals =>
        secuwayApply creatable files globals (decide (enable = ascii "true")) (submitted globals.values given) := by
  have all : (fields.all fun field => (getstr req (parameter field)).isSome) = true := by
    rw [List.all_eq_true]
    intro field _
    rw [submits.each field, Option.isSome_some]
  have read : (fun field => (getstr req (parameter field)).getD []) = given := by
    funext field
    rw [submits.each field, Option.getD_some]
  rw [secuwaySet, submits.enabled, read]
  cases loadGlobals running files with
  | none => rfl
  | some globals => simp only [Option.bind_some, all, if_true, Option.map_some]

-- What the next status request is to show
def expected (running : Bool) (before : Globals) (enable : Bytes) (given : Values) : Globals :=
  { bIsRunning := running
    bIsEnabled := decide (enable = ascii "true")
    values := fun field => if field = .userPW ∧ given .userPW = [] then before.values .userPW else given field }

theorem expected_values (running : Bool) (before : Globals) (enable : Bytes) (given : Values) :
    expected running before enable given = ⟨running, decide (enable = ascii "true"),
    submitted before.values given⟩ := by
  rw [expected]
  congr 1
  funext field
  by_cases empty : given .userPW = []
  · rw [submitted, if_pos empty]
    by_cases password : field = .userPW
    · rw [if_pos ⟨password, empty⟩, password, Function.update_self]
    · rw [if_neg fun both => password both.1, Function.update_of_ne password]
  · rw [submitted, if_neg empty, if_neg fun both => empty both.2]

theorem secuway_set_then_status (running later again : Bool) (files : SecuwayFiles) (req : Request) (enable : Bytes)
    (given : Values) (submits : Submits req enable given) (valid : ∀ field, isSetting (given field) = true)
    (fits : ValuesFit files) :
    ∃ before outcome, loadGlobals running files = some before ∧ secuwaySet true running files req = some outcome ∧
      loadGlobals later outcome.files = some (expected later before enable given) ∧
      secuwayStatus later outcome.files = some (secuwayStatusText (expected later before enable given)) ∧
      secuwaySet true again outcome.files req =
        some { files := outcome.files, flagWritten := false, infoWritten := false, restart := false } := by
  obtain ⟨before, loaded, _, beforeValid⟩ := load_globals_fits running files fits
  have fresh := submitted_valid before.values given beforeValid valid
  have shown := apply_loads running later files before (decide (enable = ascii "true")) _ loaded fresh
  rw [← expected_values later before enable given] at shown
  refine ⟨before, _, loaded, by rw [secuway_set_submits true running files req enable given submits, loaded, Option.map_some],
    shown, by rw [secuwayStatus, shown, Option.map_some], ?_⟩
  rw [secuway_set_submits true again _ req enable given submits,
    apply_loads running again files before _ _ loaded fresh,
    Option.map_some]
  simp only [submitted_again, apply_quiet]

def sampleFiles : SecuwayFiles := ⟨ascii "disabled\n", some (ascii "# vpn\nuserid: old\nuserpw: secret\n")⟩

def sampleValues : Values
  | .userID => ascii "user1"
  | .vpnIP => ascii "10.0.0.1"
  | .vpnPort => ascii "443"
  | _ => []

def sampleSet : Request :=
  ⟨(ascii "enable", ascii "true") :: fields.map fun field => (ascii (parameter field), sampleValues field)⟩

theorem sample_set_then_status :
    Submits sampleSet (ascii "true") sampleValues ∧ ValuesFit sampleFiles ∧
    ∃ before outcome, loadGlobals false sampleFiles = some before ∧ secuwaySet true false sampleFiles sampleSet =
    some outcome ∧
      loadGlobals true outcome.files = some (expected true before (ascii "true") sampleValues) ∧
      secuwayStatus true outcome.files = some (secuwayStatusText (expected true before (ascii "true") sampleValues)) ∧
      secuwaySet true true outcome.files sampleSet =
        some { files := outcome.files, flagWritten := false, infoWritten := false, restart := false } := by
  have submits : Submits sampleSet (ascii "true") sampleValues := by
    refine ⟨by decide, ?_⟩
    intro field
    cases field <;> decide
  have fits : ValuesFit sampleFiles := by
    have read : (fgets 1024 (sampleFiles.clientInfo.getD [])).all (fun raw => (lineSetting raw).all fun setting =>
        decide (setting.2.length ≤ 255)) = true := by decide
    refine ⟨?_, ?_⟩
    · intro word found
      obtain rfl : ascii "disabled" = word := Option.some.inj found
      decide
    · intro raw member setting found
      have line := List.all_eq_true.mp read raw member
      rw [found] at line
      simpa using line
  refine ⟨submits, fits, secuway_set_then_status false true true sampleFiles sampleSet
    (ascii "true") sampleValues submits ?_ fits⟩
  intro field
  cases field <;> decide

end Ftm50s.Ssl
