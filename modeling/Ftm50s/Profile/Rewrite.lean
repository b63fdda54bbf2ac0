import Ftm50s.Profile.Lines

set_option autoImplicit false

namespace Ftm50s.Profile

open Lib.Text Lib.Decimal Ftm50s.Cgi

-- The one line that FTMC_SaveProfileConfig prints for a field, as long as the
-- value holds no newline.
def declaration (tag value : Bytes) : Bytes := tag ++ 32 :: (value ++ [10])

def tags : List Bytes := [ascii "location:", ascii "userid:", ascii "passwd:", ascii "timeout:"]

def wordFits (file : Option Bytes) : Bool := file.all fun content => (words content).head?.all (·.length < 512)

def declared (tag : Bytes) (width : Nat) (records : List Bytes) : Bytes :=
  ((lastRest tag records).map (field width)).getD []

theorem scan_file_iff (szBuf content : Bytes) : (scanFile szBuf content).isSome = wordFits (some content) := by
  simp only [scanFile, wordFits, Option.all_some]
  cases words content with
  | nil => rfl
  | cons word rest =>
      by_cases long : 512 ≤ word.length
      · simp [long]
      · have short : word.length < 512 := by omega
        simp [long, short]

theorem load_model_spec (file : Option Bytes) (state : LoadState) :
    (loadModel file state).isSome = wordFits file ∧
      ∀ next, loadModel file state = some next →
        next.config = { state.config with szModel := next.config.szModel } := by
  cases file with
  | none => exact ⟨rfl, fun next same => by rw [← Option.some.inj same]⟩
  | some content =>
      refine ⟨by rw [loadModel, Option.isSome_map, scan_file_iff], ?_⟩
      intro next loaded
      obtain ⟨szBuf, _, rfl⟩ := Option.map_eq_some_iff.mp loaded
      rfl

theorem load_serial_spec (file : Option Bytes) (state : LoadState) :
    (loadSerial file state).isSome = wordFits file ∧
      ∀ next, loadSerial file state = some next →
        next.config = { state.config with
          szSerialNumber := next.config.szSerialNumber
          szLocation := next.config.szLocation } ∧
        (file = none → next.config.szLocation = state.config.szLocation) := by
  cases file with
  | none => exact ⟨rfl, fun next same => by rw [← Option.some.inj same]; exact ⟨rfl, fun _ => rfl⟩⟩
  | some content =>
      refine ⟨by rw [loadSerial, Option.isSome_map, scan_file_iff], ?_⟩
      intro next loaded
      obtain ⟨szBuf, _, rfl⟩ := Option.map_eq_some_iff.mp loaded
      exact ⟨rfl, nofun⟩

def lineConfig (stale : Stale) (conf : Bytes) : Config := (fgets 512 conf).foldl (applyLine stale) zeroConfig

-- A load that returns 0 has read every line and both identity files without an overrun.
def Loadable (files : Files) (conf : Bytes) : Prop :=
  files.httpdConf = some conf ∧ (∀ raw ∈ fgets 512 conf, tagFits raw = true) ∧
    wordFits files.model = true ∧ wordFits files.sn = true

theorem load_profile_defined (stale : Stale) (files : Files) (config : Config)
    (loaded : loadProfileConfig stale files = some (some config)) : ∃ conf, Loadable files conf := by
  unfold loadProfileConfig at loaded
  cases present : files.httpdConf with
  | none => simp [present] at loaded
  | some conf =>
      simp only [present] at loaded
      obtain ⟨lines, lineRun, rest⟩ := Option.bind_eq_some_iff.mp loaded
      obtain ⟨model, modelRun, last⟩ := Option.bind_eq_some_iff.mp rest
      obtain ⟨serial, serialRun, _⟩ := Option.map_eq_some_iff.mp last
      refine ⟨conf, present, load_lines_defined stale _ _ lines lineRun, ?_, ?_⟩
      · rw [← (load_model_spec files.model lines).1, modelRun]
        rfl
      · rw [← (load_serial_spec files.sn model).1, serialRun]
        rfl

theorem load_profile_runs (stale : Stale) (files : Files) (conf : Bytes) (loadable : Loadable files conf) :
    ∃ model serial, loadProfileConfig stale files = some (some serial.config) ∧ loadSerial files.sn model =
    some serial ∧
      model.config = { lineConfig stale conf with szModel := model.config.szModel } := by
  obtain ⟨present, fits, modelFits, serialFits⟩ := loadable
  obtain ⟨szBuf, lineRun⟩ := load_lines_fits stale (fgets 512 conf) ⟨zeroConfig, cstr stale.szBuf⟩ fits
  obtain ⟨modelSome, modelFrame⟩ := load_model_spec files.model ⟨lineConfig stale conf, szBuf⟩
  obtain ⟨model, modelRun⟩ := Option.isSome_iff_exists.mp (modelSome.trans modelFits)
  obtain ⟨serial, serialRun⟩ := Option.isSome_iff_exists.mp ((load_serial_spec files.sn model).1.trans serialFits)
  refine ⟨model, serial, ?_, serialRun, modelFrame model modelRun⟩
  simp only [loadProfileConfig, present, lineRun, Option.bind_some]
  rw [show (fgets 512 conf).foldl (applyLine stale) zeroConfig = lineConfig stale conf from rfl, modelRun,
    Option.bind_some, serialRun, Option.map_some]

theorem load_profile_spec (stale : Stale) (files : Files) (conf : Bytes) (loadable : Loadable files conf) :
    ∃ config, loadProfileConfig stale files = some (some config) ∧
      config.szUserID = declared (ascii "userid:") maxUserIdLen (fgets 512 conf) ∧
      config.szPasswd = declared (ascii "passwd:") maxPwLen (fgets 512 conf) ∧
      config.nTimeout = (lineConfig stale conf).nTimeout ∧ IsInt config.nTimeout ∧
      (files.sn = none → config.szLocation = declared (ascii "location:") maxLocationLen (fgets 512 conf)) := by
  obtain ⟨location, userid, passwd⟩ := apply_lines_field stale (fgets 512 conf) zeroConfig
  obtain ⟨model, serial, loaded, serialRun, modelSame⟩ := load_profile_runs stale files conf loadable
  obtain ⟨serialSame, locationSame⟩ := (load_serial_spec files.sn model).2 serial serialRun
  refine ⟨serial.config, loaded, ?_, ?_, ?_, ?_, ?_⟩
  · rw [serialSame, modelSame]
    exact userid
  · rw [serialSame, modelSame]
    exact passwd
  · rw [serialSame, modelSame]
  · rw [serialSame, modelSame]
    exact apply_lines_timeout stale (fgets 512 conf) zeroConfig ⟨by decide, by decide⟩
  · intro absent
    rw [locationSame absent, modelSame]
    exact location

theorem line_rest_part (tag raw rest : Bytes) (found : lineRest tag raw = some rest) : rest <:+: cstr raw := by
  unfold lineRest at found
  split at found
  · cases found
  · split at found
    · cases found
    · split at found
      · rw [← Option.some.inj found]
        exact (List.drop_suffix _ _).isInfix
      · cases found

theorem last_rest_line (tag : Bytes) (records : List Bytes) (rest : Bytes) (found : lastRest tag records = some rest) :
    ∃ raw ∈ records, lineRest tag raw = some rest := by
  induction records with
  | nil => cases found
  | cons raw tail ih =>
      rw [lastRest, Option.or_eq_some_iff] at found
      rcases found with later | ⟨_, now⟩
      · obtain ⟨other, member, line⟩ := ih later
        exact ⟨other, by simp [member], line⟩
      · exact ⟨raw, by simp, now⟩

theorem declared_plain (tag : Bytes) (width : Nat) (conf : Bytes) :
    (10 : UInt8) ∉ declared tag width (fgets 512 conf) ∧ (0 : UInt8) ∉ declared tag width (fgets 512 conf) ∧
      (declared tag width (fgets 512 conf)).length ≤ width := by
  cases found : lastRest tag (fgets 512 conf) with
  | none => simp [declared, found]
  | some rest =>
      obtain ⟨raw, member, line⟩ := last_rest_line tag _ rest found
      have part := line_rest_part tag raw rest line
      have whole : rest <:+: raw := part.trans (List.takeWhile_prefix _).isInfix
      have single := infix_newline_last raw rest whole (fgets_newline_last 512 conf raw member)
      have value : declared tag width (fgets 512 conf) = (trim rest).take width := by simp [declared, found, field]
      rw [value]
      refine ⟨?_, ?_, List.length_take_le _ _⟩
      · exact fun newline => trim_no_newline rest single (List.mem_of_mem_take newline)
      · exact fun nul => cstr_no_nul raw (part.subset ((trim_part rest).subset (List.mem_of_mem_take nul)))

theorem fgets_declaration (tag value rest : Bytes) :
    fgets 512 (declaration tag value ++ rest) = fgets 512 (declaration tag value) ++ fgets 512 rest := by
  have shape : declaration tag value ++ rest = (tag ++ 32 :: value) ++ 10 :: rest := by simp [declaration]
  have alone : declaration tag value = (tag ++ 32 :: value) ++ [10] := by simp [declaration]
  rw [shape, fgets_newline, ← alone]

theorem fgets_declaration_line (tag value : Bytes) (tagPlain : (10 : UInt8) ∉ tag) (plain : (10 : UInt8) ∉ value)
    (short : tag.length + value.length < 500) : fgets 512 (declaration tag value) = [declaration tag value] := by
  have line := fgets_line 512 (tag ++ 32 :: value) [] (by simp [tagPlain, plain]) (by simp; omega)
  have done : fgets 512 [] = [] := rfl
  simpa [declaration, done] using line

theorem profile_records (config : Config) :
    fgets 512 (profileText config) =
      fgets 512 (declaration (ascii "location:") config.szLocation) ++
        (fgets 512 (declaration (ascii "userid:") config.szUserID) ++
          (fgets 512 (declaration (ascii "passwd:") config.szPasswd) ++
            fgets 512 (declaration (ascii "timeout:") (decimalInt config.nTimeout)))) := by
  have text : profileText config =
      declaration (ascii "location:") config.szLocation ++
        (declaration (ascii "userid:") config.szUserID ++
          (declaration (ascii "passwd:") config.szPasswd ++
            declaration (ascii "timeout:") (decimalInt config.nTimeout))) := by
    have location : ascii "location: " = ascii "location:" ++ [32] := rfl
    have userid : ascii "userid: " = ascii "userid:" ++ [32] := rfl
    have passwd : ascii "passwd: " = ascii "passwd:" ++ [32] := rfl
    have timeout : ascii "timeout: " = ascii "timeout:" ++ [32] := rfl
    have newline : ascii "\n" = [10] := rfl
    simp only [profileText, declaration, location, userid, passwd, timeout, newline, List.append_assoc,
      List.cons_append, List.nil_append]
  rw [text, fgets_declaration, fgets_declaration, fgets_declaration]

def isTag (tag : Bytes) : Bool := isWord tag && tag.head? != some 35 && tag.all (· != 0) && decide (tag.length < 32)

theorem declaration_words (tag value : Bytes) (word : isWord tag = true) :
    words (declaration tag value) = tag :: words (value ++ [10]) := by
  rw [declaration, words_word_space tag (value ++ [10]) 32 word (by decide)]

theorem declaration_cstr (tag value : Bytes) (clean : isTag tag = true) (plain : (0 : UInt8) ∉ value) :
    cstr (declaration tag value) = declaration tag value := by
  apply cstr_plain
  have tagPlain : (0 : UInt8) ∉ tag := by
    intro nul
    have all : tag.all (· != 0) = true := by
      simp only [isTag, Bool.and_eq_true] at clean
      exact clean.1.2
    simpa using List.all_eq_true.mp all 0 nul
  simp [declaration, tagPlain, plain]

theorem line_rest_declaration (tag name value : Bytes) (clean : isTag name = true) (plain : (0 : UInt8) ∉ value) :
    lineRest tag (declaration name value) = if name = tag then some (32 :: (value ++ [10])) else none := by
  have same := declaration_cstr name value clean plain
  simp only [isTag, Bool.and_eq_true] at clean
  obtain ⟨⟨⟨word, live⟩, _⟩, _⟩ := clean
  have nonempty : name ≠ [] := by
    rintro rfl
    cases word
  have head : (cstr (declaration name value)).head? ≠ some 35 := by
    rw [same, declaration, List.head?_append_of_ne_nil _ nonempty]
    simpa using live
  rw [line_rest_tag tag _ name (words (value ++ [10])) head (by rw [same, declaration_words name value word]), same]
  by_cases mine : name = tag
  · subst mine
    simp [declaration]
  · simp [mine]

theorem declaration_fits (name value : Bytes) (clean : isTag name = true) (plain : (0 : UInt8) ∉ value) :
    tagFits (declaration name value) = true := by
  have same := declaration_cstr name value clean plain
  simp only [isTag, Bool.and_eq_true, decide_eq_true_eq] at clean
  obtain ⟨⟨⟨word, _⟩, _⟩, short⟩ := clean
  rw [tagFits, same, declaration_words name value word]
  simp [short]

theorem trim_declared (value : Bytes) : trim (32 :: (value ++ [10])) = trim value := by
  rw [trim_space_left 32 _ (by decide), trim_space_right value 10 (by decide)]

structure Plain (value : Bytes) : Prop where
  newline : (10 : UInt8) ∉ value
  nul : (0 : UInt8) ∉ value
  short : value.length < 400

theorem tag_line (name : Bytes) (clean : isTag name = true) : name.length < 32 ∧ (10 : UInt8) ∉ name := by
  simp only [isTag, isWord, Bool.and_eq_true, decide_eq_true_eq] at clean
  refine ⟨clean.2, fun member => ?_⟩
  exact absurd (List.all_eq_true.mp clean.1.1.1.2 10 member) (by decide)

theorem last_rest_single (tag name value : Bytes) (clean : isTag name = true) (plain : Plain value) :
    lastRest tag (fgets 512 (declaration name value)) = if name = tag then some (32 :: (value ++ [10])) else none := by
  have nameShort := tag_line name clean
  have short := plain.short
  rw [fgets_declaration_line name value nameShort.2 plain.newline (by omega), lastRest, lastRest, Option.none_or,
    line_rest_declaration tag name value clean plain.nul]

theorem plain_record_fits (name value : Bytes) (clean : isTag name = true) (plain : Plain value) :
    ∀ raw ∈ fgets 512 (declaration name value), tagFits raw = true := by
  intro raw member
  have nameShort := tag_line name clean
  have short := plain.short
  rw [fgets_declaration_line name value nameShort.2 plain.newline (by omega), List.mem_singleton] at member
  rw [member]
  exact declaration_fits name value clean plain.nul

theorem timeout_plain (n : Int) (range : IsInt n) : Plain (decimalInt n) := by
  obtain ⟨newline, nul⟩ := decimal_int_plain n
  have short := decimal_int_length n range.1 range.2
  exact ⟨newline, nul, by omega⟩

theorem declared_plain_value (tag : Bytes) (width : Nat) (conf : Bytes) (narrow : width < 400) :
    Plain (declared tag width (fgets 512 conf)) := by
  obtain ⟨newline, nul, short⟩ := declared_plain tag width conf
  exact ⟨newline, nul, by omega⟩

theorem loaded_plain (stale : Stale) (files : Files) (config : Config) (loaded : loadProfileConfig stale files = some
    (some config)) :
    (∃ conf, Loadable files conf) ∧ IsInt config.nTimeout ∧
    (Plain config.szUserID ∧ config.szUserID.length ≤ maxUserIdLen) ∧
      Plain config.szPasswd ∧ config.szPasswd.length ≤ maxPwLen := by
  obtain ⟨conf, loadable⟩ := load_profile_defined stale files config loaded
  obtain ⟨again, loadedAgain, useridSame, passwdSame, _, range, _⟩ := load_profile_spec stale files conf loadable
  obtain rfl : config = again := Option.some.inj (Option.some.inj (loaded.symm.trans loadedAgain))
  have userid : Plain config.szUserID := useridSame ▸ declared_plain_value _ _ conf (by decide)
  have passwd : Plain config.szPasswd := passwdSame ▸ declared_plain_value _ _ conf (by decide)
  have useridShort : config.szUserID.length ≤ maxUserIdLen := useridSame ▸ (declared_plain _ _ conf).2.2
  have passwdShort : config.szPasswd.length ≤ maxPwLen := passwdSame ▸ (declared_plain _ _ conf).2.2
  exact ⟨⟨conf, loadable⟩, range, ⟨userid, useridShort⟩, passwd, passwdShort⟩

theorem rewritten_timeout (config : Config) (range : IsInt config.nTimeout) :
    lastRest (ascii "timeout:") (fgets 512 (profileText config)) =
    some (32 :: (decimalInt config.nTimeout ++ [10])) := by
  rw [profile_records, last_rest_append, last_rest_append, last_rest_append,
    last_rest_single _ (ascii "timeout:") _ (by decide) (timeout_plain _ range), if_pos rfl]
  rfl

theorem rewritten_text (config : Config) (tag : Bytes) (other : tag ≠ ascii "timeout:") (range : IsInt config.nTimeout)
    (userid : Plain config.szUserID) :
    lastRest tag (fgets 512 (profileText config)) =
      (lastRest tag (fgets 512 (declaration (ascii "passwd:") config.szPasswd))).or
        ((if ascii "userid:" = tag then some (32 :: (config.szUserID ++ [10])) else none).or
          (lastRest tag (fgets 512 (declaration (ascii "location:") config.szLocation)))) := by
  rw [profile_records, last_rest_append, last_rest_append, last_rest_append,
    last_rest_single tag (ascii "timeout:") _ (by decide) (timeout_plain _ range), if_neg (Ne.symm other),
    Option.none_or,
    last_rest_single tag (ascii "userid:") _ (by decide) userid, Option.or_assoc]

end Ftm50s.Profile
