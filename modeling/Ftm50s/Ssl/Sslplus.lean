import Ftm50s.Lib.Filter

set_option autoImplicit false

namespace Ftm50s.Ssl

open Lib.Text Lib.Filter

-- The three character arrays of SSLPLUS_CONFIG, all 256 bytes of each: the
-- structure lives on the stack and is not cleared before it is filled.
structure SslplusConfig where
  szUserID : Bytes
  szPasswd : Bytes
  szHostIP : Bytes
deriving DecidableEq, Repr

-- strncpy(array, content, 255)
def strncpyField (array content : Bytes) : Bytes := padTo 255 0 (content.take 255) ++ array.drop 255

-- sed 's/[\,]/ /g; s/"//g': inside a bracket the backslash stands for itself.
def cleanPart (part : Bytes) : Bytes := deleteAll (ascii "\"") (part.map fun c => if c = 44 ∨ c = 92 then 32 else c)

-- sed | sed | awk | sed | sed | sed, one line at a time; the first pattern is two
-- backslashes and a slash.
def convLine (line : Bytes) : List Bytes :=
  (splitFields 44 (deleteAll (ascii "\x7b\x7d") (replaceAll [92, 92, 47] [47] line))).map fun part =>
    cleanPart (replaceAll (ascii "\":\"") (ascii " | ") part)

def sslplusConv (content : Bytes) : Bytes := unlines ((lines content).flatMap convLine)

-- One turn of the loop in SSLPLUS_LoadConfig. sscanf stores the second word
-- even when there is no third one; szIndicator has 128 bytes.
def loadConfigLine (config : SslplusConfig) (raw : Bytes) : Option SslplusConfig :=
  let line := cstr raw
  if line.head? = some 35 then some config
  else
    match words line with
    | name :: indicator :: rest =>
        if 128 ≤ indicator.length then none
        else
          match rest with
          | [] => some config
          | content :: _ =>
              if name = ascii "login_id" then some { config with szUserID := strncpyField config.szUserID content }
              else if name = ascii "login_pw" then some { config with szPasswd := strncpyField config.szPasswd content }
              else if name = ascii "host" then some { config with szHostIP := strncpyField config.szHostIP content }
              else some config
    | _ => some config

def loadConfig (config : SslplusConfig) (sslplusConf : Bytes) : Option SslplusConfig :=
  (fgets 1024 (sslplusConv sslplusConf)).foldlM loadConfigLine config

def setting (name value : Bytes) : Bytes := ascii "\"" ++ name ++ ascii "\": \"" ++ value ++ ascii "\""

def configLines (host userid passwd : Bytes) : List Bytes :=
  [ascii "\x7b",
   ascii "\t\"hosts\":[",
   ascii "\t\t\x7b",
   setting (ascii "host") host,
   setting (ascii "description") [],
   setting (ascii "login_id") userid,
   setting (ascii "login_pw") passwd,
   setting (ascii "login_cacert") (ascii "/usr/local/frodo/cert/ca.crt"),
   setting (ascii "login_cert") (ascii "/usr/local/frodo/cert/client1.crt"),
   setting (ascii "login_key") (ascii "/usr/local/frodo/cert/client1.key"),
   setting (ascii "login_keypw") [],
   ascii "\t\t\x7d",
   ascii "\t]",
   ascii "\x7d"]

def saveConfig (host userid passwd : Bytes) : Bytes := unlines (configLines host userid passwd)

-- A value of at most 255 bytes without white space, quotes, commas, braces,
-- backslashes, or the NUL that no C string holds.
def plainByte (c : UInt8) : Bool := !isSpace c && !([0, 34, 44, 92, 123, 125] : Bytes).contains c

def isValue (value : Bytes) : Bool := !value.isEmpty && decide (value.length ≤ 255) && value.all plainByte

def RoundTrips (host userid passwd : Bytes) : Prop :=
  ∀ prior, ∃ config, loadConfig prior (saveConfig host userid passwd) = some config ∧
    cstr config.szHostIP = host ∧ cstr config.szUserID = userid ∧ cstr config.szPasswd = passwd

theorem load_line_unset (config next : SslplusConfig) (raw : Bytes) (few : (words (cstr raw)).length < 3)
    (loaded : loadConfigLine config raw = some next) : next = config := by
  unfold loadConfigLine at loaded
  simp only at loaded
  split at loaded
  · exact (Option.some.inj loaded).symm
  · split at loaded
    · rename_i name indicator rest all
      rw [all, List.length_cons, List.length_cons] at few
      obtain rfl : rest = [] := List.eq_nil_of_length_eq_zero (by omega)
      split at loaded
      · cases loaded
      · exact (Option.some.inj loaded).symm
    · exact (Option.some.inj loaded).symm

theorem load_lines_unset (records : List Bytes) (config next : SslplusConfig)
    (few : ∀ raw ∈ records, (words (cstr raw)).length < 3) (loaded : records.foldlM loadConfigLine config = some next) :
    next = config := by
  induction records generalizing config with
  | nil => exact (Option.some.inj loaded).symm
  | cons raw rest ih =>
      rw [List.foldlM_cons] at loaded
      obtain ⟨middle, first, later⟩ := Option.bind_eq_some_iff.mp loaded
      obtain rfl := load_line_unset config middle raw (few raw (by simp)) first
      exact ih middle (fun other member => few other (by simp [member])) later

theorem plain_spaceless (text : Bytes) (plain : text.all plainByte = true) : text.all (!isSpace ·) = true := by
  rw [List.all_eq_true] at plain ⊢
  intro c member
  have byte := plain c member
  simp only [plainByte, Bool.and_eq_true] at byte
  exact byte.1

theorem setting_shape (name value : Bytes) :
    setting name value = 34 :: (name ++ 34 :: 58 :: 32 :: 34 :: (value ++ [34])) := by
  have opening : ascii "\"" = [34] := rfl
  have middle : ascii "\": \"" = [34, 58, 32, 34] := rfl
  simp [setting, opening, middle]

theorem setting_absent (name value : Bytes) (namePlain : name.all plainByte = true)
    (valuePlain : value.all plainByte = true) (c : UInt8) (special : plainByte c = false)
      (other : c ∉ ([34, 58, 32] : Bytes)) : c ∉ setting name value := by
  have nameMiss := all_absent plainByte name namePlain c special
  have valueMiss := all_absent plainByte value valuePlain c special
  simp only [List.mem_cons, List.not_mem_nil, or_false, not_or] at other
  rw [setting_shape]
  simp [nameMiss, valueMiss, other]

-- The text that sed looks for, quote colon quote, is not what was written
-- between a name and its value; only the value ":" makes it appear.
theorem replace_setting (name value : Bytes) (namePlain : name.all plainByte = true) (named : ∀ c, name.head? = some c →
    c ≠ 58) (nonempty : name ≠ []) (valuePlain : value.all plainByte = true) :
    replaceAll [34, 58, 34] [32, 124, 32] (setting name value) =
      34 :: (name ++ 34 :: 58 :: 32 :: if value = [58] then [32, 124, 32] else 34 :: (value ++ [34])) := by
  have nameQuote := all_absent plainByte name namePlain 34 (by decide)
  have valueQuote := all_absent plainByte value valuePlain 34 (by decide)
  have start : ([34, 58, 34] : Bytes).isPrefixOf (34 :: (name ++ 34 :: 58 :: 32 :: 34 :: (value ++ [34]))) = false := by
    obtain ⟨c, rest, rfl⟩ := List.exists_cons_of_ne_nil nonempty
    have different : (58 : UInt8) ≠ c := Ne.symm (named c rfl)
    simp [List.isPrefixOf, different]
  have gap : ([34, 58, 34] : Bytes).isPrefixOf (34 :: 58 :: 32 :: 34 :: (value ++ [34])) = false := by
    simp [List.isPrefixOf]
  rw [setting_shape, replace_miss _ _ _ _ start, replace_pass 34 [58, 34] _ name _ nameQuote, replace_miss _ _ _ _ gap]
  have passed := replace_pass 34 [58, 34] [32, 124, 32] [58, 32] (34 :: (value ++ [34])) (by decide)
  rw [List.cons_append, List.cons_append, List.nil_append] at passed
  rw [passed]
  by_cases colon : value = [58]
  · subst colon
    rfl
  · have miss : ([34, 58, 34] : Bytes).isPrefixOf (34 :: (value ++ [34])) = false := by
      cases value with
      | nil => rfl
      | cons c rest =>
          by_cases same : c = 58
          · subst same
            cases rest with
            | nil => exact absurd rfl colon
            | cons d more =>
                have different : (34 : UInt8) ≠ d := fun same => valueQuote (by simp [same])
                simp [List.isPrefixOf, different]
          · simp [List.isPrefixOf, Ne.symm same]
    rw [replace_miss _ _ _ _ miss, replace_pass 34 [58, 34] _ value [34] valueQuote, if_neg colon]
    rfl

theorem clean_append (a b : Bytes) : cleanPart (a ++ b) = cleanPart a ++ cleanPart b := by
  simp [cleanPart, deleteAll]

theorem clean_plain (text : Bytes) (plain : text.all plainByte = true) : cleanPart text = text := by
  have unmapped : text.map (fun c => if c = 44 ∨ c = 92 then 32 else c) = text := by
    conv_rhs => rw [← List.map_id text]
    apply List.map_congr_left
    intro c member
    rw [if_neg]
    · rfl
    · rintro (rfl | rfl)
      · exact all_absent plainByte text plain 44 (by decide) member
      · exact all_absent plainByte text plain 92 (by decide) member
  rw [cleanPart, unmapped]
  apply delete_absent
  intro c member quote
  rw [List.mem_singleton.mp quote] at member
  exact all_absent plainByte text plain 34 (by decide) member

theorem conv_setting (name value : Bytes) (namePlain : name.all plainByte = true) (named : ∀ c, name.head? = some c →
    c ≠ 58) (nonempty : name ≠ []) (valuePlain : value.all plainByte = true) :
    convLine (setting name value) = [name ++ 58 :: 32 :: if value = [58] then [32, 124, 32] else value] := by
  have absent := setting_absent name value namePlain valuePlain
  have braces : deleteAll (ascii "\x7b\x7d") (setting name value) = setting name value := by
    apply delete_absent
    intro c member brace
    rcases List.mem_pair.mp brace with rfl | rfl
    · exact absent _ (by decide) (by decide) member
    · exact absent _ (by decide) (by decide) member
  have filled : setting name value ≠ [] := by simp [setting_shape]
  rw [convLine, replace_absent 92 [92, 47] _ _ (absent 92 (by decide) (by decide)), braces,
    split_single 44 _ filled (absent 44 (by decide) (by decide)), List.map_singleton,
    show ascii "\":\"" = [34, 58, 34] from rfl, show ascii " | " = [32, 124, 32] from rfl,
    replace_setting name value namePlain named nonempty valuePlain]
  by_cases colon : value = [58]
  · have shape : (34 : UInt8) :: (name ++ [34, 58, 32, 32, 124, 32]) = [34] ++ (name ++ [34, 58, 32, 32, 124, 32]) :=
      rfl
    rw [if_pos colon, if_pos colon, shape, clean_append, clean_append, clean_plain name namePlain]
    rfl
  · have shape : (34 : UInt8) :: (name ++ 34 :: 58 :: 32 :: 34 :: (value ++ [34])) =
        [34] ++ (name ++ ([34, 58, 32, 34] ++ (value ++ [34]))) := rfl
    rw [if_neg colon, if_neg colon, shape, clean_append, clean_append, clean_append, clean_append,
      clean_plain name namePlain, clean_plain value valuePlain]
    have opening : cleanPart [34] = [] := rfl
    have middle : cleanPart [34, 58, 32, 34] = [58, 32] := rfl
    simp [opening, middle]

def Unread (line : Bytes) : Prop :=
  (10 : UInt8) ∉ line ∧ (0 : UInt8) ∉ line ∧ line.length < 1000 ∧ (words line).length < 3

instance (line : Bytes) : Decidable (Unread line) := inferInstanceAs (Decidable (_ ∧ _))

theorem unread_setting (name value : Bytes) (namePlain : name.all plainByte = true) (named : ∀ c, name.head? = some c →
    c ≠ 58) (nonempty : name ≠ []) (nameShort : name.length ≤ 100) (valuePlain : value.all plainByte = true)
      (valueShort : value.length ≤ 255) : ∀ line ∈ convLine (setting name value), Unread line := by
  intro line member
  rw [conv_setting name value namePlain named nonempty valuePlain, List.mem_singleton] at member
  have nameWord : isWord (name ++ [58]) = true := by
    simp [isWord, plain_spaceless name namePlain]
    decide
  have shape : line = (name ++ [58]) ++ 32 :: (if value = [58] then [32, 124, 32] else value) := by simp [member]
  have tailFew : (words (if value = [58] then [32, 124, 32] else value)).length ≤ 1 := by
    split
    · decide
    · by_cases empty : value = []
      · rw [empty]
        decide
      · have valueWord : isWord value = true := by
          rw [isWord, Bool.and_eq_true]
          exact ⟨by simpa using empty, plain_spaceless value valuePlain⟩
        rw [words_word value valueWord]
        exact le_rfl
  have nameMiss := all_absent plainByte name namePlain
  have valueMiss := all_absent plainByte value valuePlain
  refine ⟨?_, ?_, ?_, ?_⟩
  · rw [member]
    have left := nameMiss 10 (by decide)
    have right := valueMiss 10 (by decide)
    split <;> simp [left, right]
  · rw [member]
    have left := nameMiss 0 (by decide)
    have right := valueMiss 0 (by decide)
    split <;> simp [left, right]
  · rw [member]
    split <;> simp <;> omega
  · rw [shape, words_word_space _ _ 32 nameWord (by decide), List.length_cons]
    omega

theorem value_spec (value : Bytes) (valid : isValue value = true) :
    value ≠ [] ∧ value.length ≤ 255 ∧ value.all plainByte = true := by
  simpa [isValue, and_assoc] using valid

theorem config_lines_unread (host userid passwd : Bytes) (hostValid : isValue host = true)
    (useridValid : isValue userid = true) (passwdValid : isValue passwd = true) :
    ∀ line ∈ (configLines host userid passwd).flatMap convLine, Unread line := by
  have given : ∀ name value, isValue value = true → name.all plainByte = true → name.head?.all (· != 58) = true →
      name ≠ [] → name.length ≤ 100 → ∀ line ∈ convLine (setting name value), Unread line := by
    intro name value valid namePlain named nonempty short
    obtain ⟨_, valueShort, valuePlain⟩ := value_spec value valid
    refine unread_setting name value namePlain ?_ nonempty short valuePlain valueShort
    intro c head
    simpa [head] using named
  simp only [configLines, List.flatMap_cons, List.flatMap_nil, List.forall_mem_append]
  refine ⟨by decide, by decide, by decide, ?_, by decide, ?_, ?_, by decide, by decide, by decide, by decide, by decide,
    by decide, by decide, by simp⟩
  · exact given _ host hostValid (by decide) (by decide) (by decide) (by decide)
  · exact given _ userid useridValid (by decide) (by decide) (by decide) (by decide)
  · exact given _ passwd passwdValid (by decide) (by decide) (by decide) (by decide)

theorem config_lines_plain (host userid passwd : Bytes) (hostValid : isValue host = true)
    (useridValid : isValue userid = true) (passwdValid : isValue passwd = true) :
    ∀ line ∈ configLines host userid passwd, (10 : UInt8) ∉ line := by
  have given : ∀ name value, isValue value = true → name.all plainByte = true → (10 : UInt8) ∉ setting name value := by
    intro name value valid namePlain
    exact setting_absent name value namePlain (value_spec value valid).2.2 10 (by decide) (by decide)
  simp only [configLines, List.forall_mem_cons]
  refine ⟨by decide, by decide, by decide, ?_, by decide, ?_, ?_, by decide, by decide, by decide, by decide, by decide,
    by decide, by decide, by simp⟩
  · exact given _ host hostValid (by decide)
  · exact given _ userid useridValid (by decide)
  · exact given _ passwd passwdValid (by decide)

theorem saved_records (host userid passwd : Bytes) (hostValid : isValue host = true)
    (useridValid : isValue userid = true) (passwdValid : isValue passwd = true) :
    fgets 1024 (sslplusConv (saveConfig host userid passwd)) =
      ((configLines host userid passwd).flatMap convLine).map fun line => line ++ [10] := by
  have unread := config_lines_unread host userid passwd hostValid useridValid passwdValid
  have cut := lines_unlines (configLines host userid passwd)
    (config_lines_plain host userid passwd hostValid useridValid passwdValid)
  rw [sslplusConv, saveConfig, cut, fgets_unlines 1024 _ (fun line inside => (unread line inside).1)
    (fun line inside => by have short := (unread line inside).2.2.1; omega)]

theorem saved_records_few (host userid passwd : Bytes) (hostValid : isValue host = true)
    (useridValid : isValue userid = true) (passwdValid : isValue passwd = true) :
    ∀ raw ∈ fgets 1024 (sslplusConv (saveConfig host userid passwd)), (words (cstr raw)).length < 3 := by
  intro raw member
  rw [saved_records host userid passwd hostValid useridValid passwdValid] at member
  obtain ⟨line, inside, rfl⟩ := List.mem_map.mp member
  obtain ⟨_, nul, _, few⟩ := config_lines_unread host userid passwd hostValid useridValid passwdValid line inside
  rw [cstr_plain _ (by simp [nul]), words_space line [] 10 (by decide)]
  simpa [words, wordsFrom] using few

-- SSLPLUS_SaveConfig prints a blank behind the colon, which the converter's
-- pattern does not allow for: no line of the converted file has three words, so
-- nothing that was saved is ever loaded.
theorem saved_config_never_loads (host userid passwd : Bytes) (hostValid : isValue host = true)
    (useridValid : isValue userid = true) (passwdValid : isValue passwd = true) :
    (∀ prior config, loadConfig prior (saveConfig host userid passwd) = some config → config = prior) ∧
      ¬ RoundTrips host userid passwd := by
  have few := saved_records_few host userid passwd hostValid useridValid passwdValid
  have kept : ∀ prior config, loadConfig prior (saveConfig host userid passwd) = some config → config = prior :=
    fun prior config loaded => load_lines_unset _ prior config few loaded
  refine ⟨kept, ?_⟩
  intro trips
  obtain ⟨config, loaded, hostSame, _⟩ := trips ⟨[0], [0], [0]⟩
  rw [kept _ config loaded] at hostSame
  exact (value_spec host hostValid).1 hostSame.symm

theorem shipped_values_unread :
    loadConfig ⟨[0], [0], [0]⟩ (saveConfig (ascii "125.140.118.28") (ascii "test01") (ascii "future_01")) =
      some ⟨[0], [0], [0]⟩ := by
  rw [loadConfig, saved_records _ _ _ (by decide) (by decide) (by decide)]
  decide +kernel

theorem saved_config_never_loads_sample :
    loadConfig ⟨[0], [0], [0]⟩ (saveConfig (ascii "125.140.118.28") (ascii "test01") (ascii "future_01")) =
        some ⟨[0], [0], [0]⟩ ∧
      ¬ RoundTrips (ascii "125.140.118.28") (ascii "test01") (ascii "future_01") := by
  exact ⟨shipped_values_unread, (saved_config_never_loads (ascii "125.140.118.28") (ascii "test01") (ascii "future_01")
    (by decide)
    (by decide) (by decide)).2⟩

-- The values of the shipped sslplus.conf are lost when they are saved.
theorem saved_config_lost :
    ¬ RoundTrips (ascii "125.140.118.28") (ascii "test01") (ascii "future_01") := by
  intro trips
  obtain ⟨config, loaded, hostSame, _⟩ := trips ⟨[0], [0], [0]⟩
  obtain rfl := Option.some.inj (shipped_values_unread.symm.trans loaded)
  exact absurd hostSame (by decide)

end Ftm50s.Ssl
