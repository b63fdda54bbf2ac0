import Ftm50s.Cgi.Request

set_option autoImplicit false

namespace Ftm50s.Cgi

open Lib.Text Lib.Decimal

-- _q_x2c: any two bytes give one, hexadecimal digits or not.
def x2c (up low : UInt8) : UInt8 :=
  16 * (if 65 ≤ up then (up &&& 0xdf) - 65 + 10 else up - 48) +
    (if 65 ≤ low then (low &&& 0xdf) - 65 + 10 else low - 48)

-- _q_urldecode; none where a percent sign stands too near the end and the loop
-- steps over the NUL.
def urlDecode : Bytes → Option Bytes
  | [] => some []
  | c :: rest =>
      if c = 43 then (urlDecode rest).map (32 :: ·)
      else if c = 37 then
        match rest with
        | up :: low :: tail => (urlDecode tail).map (x2c up low :: ·)
        | _ => none
      else (urlDecode rest).map (c :: ·)

-- _q_makeword: the word before the stop byte, and what follows that byte
def makeWord (stop : UInt8) (text : Bytes) : Bytes × Bytes :=
  (text.takeWhile (· != stop), (text.dropWhile (· != stop)).drop 1)

def isBlank (c : UInt8) : Bool := c == 32 || c == 9 || c == 13 || c == 10

def strTrim (text : Bytes) : Bytes := (text.dropWhile isBlank).rdropWhile isBlank

def endsPair (pair : Bytes) : Bool := pair.getLast? == some 38

-- The pairs that the loop of _parse_query takes off the query: it stops when
-- nothing is left, so there is no empty pair at the end.
def queryPairs (query : Bytes) : List Bytes :=
  (cutFrom endsPair [] query).map fun pair => (makeWord 38 pair).1

def parsePair (pair : Bytes) : Option (Bytes × Bytes) :=
  (urlDecode (strTrim (makeWord 61 pair).1)).bind fun name =>
    (urlDecode (makeWord 61 pair).2).map fun value => (cstr name, cstr value)

def parseQuery (query : Bytes) : Option Request := ((queryPairs query).mapM parsePair).map Request.mk

theorem url_decode_plain (text : Bytes) (plus : (43 : UInt8) ∉ text) (percent : (37 : UInt8) ∉ text) :
    urlDecode text = some text := by
  induction text with
  | nil => rfl
  | cons c rest ih =>
      rw [List.mem_cons, not_or] at plus percent
      rw [urlDecode.eq_def]
      simp only [if_neg (Ne.symm plus.1), if_neg (Ne.symm percent.1), ih plus.2 percent.2, Option.map_some]

theorem url_decode_length (text value : Bytes) (decoded : urlDecode text = some value) :
    value.length ≤ text.length ∧ (value.length = text.length → (37 : UInt8) ∉ text ∧ (43 : UInt8) ∉ value) := by
  fun_induction urlDecode text generalizing value with
  | case1 =>
      obtain rfl := Option.some.inj decoded
      simp
  | case2 rest ih =>
      obtain ⟨tail, run, rfl⟩ := Option.map_eq_some_iff.mp decoded
      obtain ⟨short, clean⟩ := ih tail run
      refine ⟨by simpa using short, fun same => ?_⟩
      obtain ⟨percent, plus⟩ := clean (by simpa using same)
      simp [percent, plus]
  | case3 up low tail _ ih =>
      obtain ⟨value, run, rfl⟩ := Option.map_eq_some_iff.mp decoded
      obtain ⟨short, _⟩ := ih value run
      simp only [List.length_cons]
      exact ⟨by omega, fun same => by omega⟩
  | case4 => cases decoded
  | case5 c rest notPlus notPercent ih =>
      obtain ⟨tail, run, rfl⟩ := Option.map_eq_some_iff.mp decoded
      obtain ⟨short, clean⟩ := ih tail run
      refine ⟨by simpa using short, fun same => ?_⟩
      obtain ⟨percent, plus⟩ := clean (by simpa using same)
      simp [percent, plus, Ne.symm notPlus, Ne.symm notPercent]

theorem bytes_before (stop : UInt8) (word : Bytes) (absent : stop ∉ word) : ∀ c ∈ word, (c != stop) = true := by
  intro c member
  have other : c ≠ stop := fun same => absent (same ▸ member)
  simpa using other

theorem make_word_stop (stop : UInt8) (word rest : Bytes) (absent : stop ∉ word) :
    makeWord stop (word ++ stop :: rest) = (word, rest) := by
  have before := bytes_before stop word absent
  rw [makeWord, List.takeWhile_append_of_pos before, List.dropWhile_append_of_pos before]
  simp

theorem make_word_whole (stop : UInt8) (word : Bytes) (absent : stop ∉ word) : makeWord stop word = (word, []) := by
  have before := bytes_before stop word absent
  rw [makeWord, List.takeWhile_eq_self_iff.mpr before, List.dropWhile_eq_nil_iff.mpr before]
  rfl

theorem pair_open (pair part : Bytes) (single : (38 : UInt8) ∉ pair) (within : part <+: pair) :
    endsPair part = false := by
  have absent : part.getLast? ≠ some 38 := fun last => single (within.subset (List.mem_of_getLast? last))
  simpa [endsPair] using absent

theorem query_pairs_cons (pair rest : Bytes) (single : (38 : UInt8) ∉ pair) :
    queryPairs (pair ++ 38 :: rest) = pair :: queryPairs rest := by
  have record := cut_from_record endsPair pair rest 38 (fun part within _ => pair_open pair part single within)
    (by simp [endsPair])
  rw [queryPairs, record, List.map_cons, make_word_stop 38 pair [] single]
  rfl

theorem query_pairs_last (pair : Bytes) (single : (38 : UInt8) ∉ pair) :
    queryPairs pair = if pair = [] then [] else [pair] := by
  have stillOpen := cut_from_open endsPair [] pair [] fun part within _ => pair_open pair part single within
  rw [List.append_nil, List.nil_append] at stillOpen
  rw [queryPairs, stillOpen, cutFrom]
  split
  · rfl
  · rw [List.map_singleton, make_word_whole 38 pair single]

def joinPairs (first : Bytes) (more : List Bytes) : Bytes := first ++ more.flatMap fun pair => 38 :: pair

theorem join_pairs_nil (first : Bytes) : joinPairs first [] = first := by
  simp [joinPairs]

theorem join_pairs_cons (first next : Bytes) (more : List Bytes) :
    joinPairs first (next :: more) = first ++ 38 :: joinPairs next more := by
  simp [joinPairs]

theorem query_pairs_join (first : Bytes) (more : List Bytes) (single : ∀ pair ∈ first :: more, (38 : UInt8) ∉ pair)
    (nonempty : ∀ pair ∈ first :: more, pair ≠ []) : queryPairs (joinPairs first more) = first :: more := by
  induction more generalizing first with
  | nil => rw [join_pairs_nil, query_pairs_last first (single first (by simp)), if_neg (nonempty first (by simp))]
  | cons next more ih =>
      rw [List.forall_mem_cons] at single nonempty
      rw [join_pairs_cons, query_pairs_cons first _ single.1, ih next single.2 nonempty.2]

-- What the server gets of an address: a fragment is not sent.
def sent (query : Bytes) : Bytes := query.takeWhile (· != 35)

theorem sent_whole (query : Bytes) (absent : (35 : UInt8) ∉ query) : sent query = query :=
  List.takeWhile_eq_self_iff.mpr (bytes_before 35 query absent)

theorem sent_clean (query : Bytes) : (35 : UInt8) ∉ sent query := by
  intro member
  simpa using List.mem_takeWhile_imp member

theorem sent_front (query : Bytes) : sent query <+: query := List.takeWhile_prefix _

theorem sent_first (first rest : Bytes) (hash : (35 : UInt8) ∈ first) : sent (first ++ rest) = sent first := by
  induction first with
  | nil => cases hash
  | cons c first ih =>
      simp only [sent, List.cons_append, List.takeWhile_cons] at ih ⊢
      by_cases here : c = 35
      · simp [here]
      · have later := ih (List.mem_of_ne_of_mem (Ne.symm here) hash)
        simp [here, later]

theorem sent_later (first rest : Bytes) (hash : (35 : UInt8) ∉ first) : sent (first ++ rest) = first ++ sent rest :=
  List.takeWhile_append_of_pos (bytes_before 35 first hash)

theorem sent_pairs (first : Bytes) (more : List Bytes) (single : ∀ pair ∈ first :: more, (38 : UInt8) ∉ pair) :
    ∀ part ∈ queryPairs (sent (joinPairs first more)), ∃ pair ∈ first :: more, part = sent pair := by
  have cut : ∀ pair, (38 : UInt8) ∉ pair → ∀ part ∈ queryPairs (sent pair), part = sent pair := by
    intro pair amp part member
    rw [query_pairs_last (sent pair) fun inside => amp ((sent_front pair).subset inside)] at member
    split at member
    · cases member
    · exact List.mem_singleton.mp member
  induction more generalizing first with
  | nil =>
      intro part member
      rw [join_pairs_nil] at member
      exact ⟨first, by simp, cut first (single first (by simp)) part member⟩
  | cons next more ih =>
      intro part member
      rw [List.forall_mem_cons] at single
      rw [join_pairs_cons] at member
      by_cases hash : (35 : UInt8) ∈ first
      · rw [sent_first first _ hash] at member
        exact ⟨first, by simp, cut first single.1 part member⟩
      · have mark : sent (38 :: joinPairs next more) = 38 :: sent (joinPairs next more) := rfl
        rw [sent_later first _ hash, mark, query_pairs_cons first _ single.1] at member
        rcases List.mem_cons.mp member with rfl | other
        · exact ⟨part, by simp, (sent_whole part hash).symm⟩
        · obtain ⟨pair, inside, same⟩ := ih next single.2 part other
          exact ⟨pair, by simp [inside], same⟩

def isPlainName (name : Bytes) : Bool :=
  name.all fun c => c != 61 && c != 38 && c != 35 && c != 43 && c != 37 && c != 0 && !isBlank c

theorem plain_name_absent (name : Bytes) (plain : isPlainName name = true) (c : UInt8)
    (bad : (c != 61 && c != 38 && c != 35 && c != 43 && c != 37 && c != 0 && !isBlank c) = false) : c ∉ name :=
  all_absent _ name plain c bad

theorem numbered_name_plain (stem : String) (i : Nat) (plain : isPlainName (ascii stem) = true) :
    isPlainName (ascii stem ++ decimal i) = true := by
  rw [isPlainName, List.all_append, Bool.and_eq_true]
  refine ⟨plain, ?_⟩
  rw [List.all_eq_true]
  intro c member
  have digit := decimal_digits i c member
  simp only [isDigit, Bool.and_eq_true, decide_eq_true_eq] at digit
  obtain ⟨low, high⟩ := digit
  have other : ∀ d : UInt8, d < 48 ∨ 57 < d → c ≠ d := by
    rintro d outside rfl
    rcases outside with below | above
    · exact absurd below (UInt8.not_lt.mpr low)
    · exact absurd above (UInt8.not_lt.mpr high)
  simp [isBlank, other 61 (by decide), other 38 (by decide), other 35 (by decide), other 43 (by decide),
    other 37 (by decide),
    other 0 (by decide), other 32 (by decide), other 9 (by decide), other 13 (by decide), other 10 (by decide)]

theorem str_trim_plain (name : Bytes) (plain : isPlainName name = true) : strTrim name = name := by
  have blanks : ∀ c ∈ name, isBlank c = false := by
    intro c member
    have good := List.all_eq_true.mp plain c member
    rw [Bool.and_eq_true, Bool.not_eq_true'] at good
    exact good.2
  have left : name.dropWhile isBlank = name := by
    cases name with
    | nil => rfl
    | cons c rest => rw [List.dropWhile_cons, blanks c (by simp), if_neg Bool.false_ne_true]
  rw [strTrim, left, List.rdropWhile_eq_self_iff]
  intro nonempty
  rw [blanks _ (List.getLast_mem nonempty)]
  exact Bool.false_ne_true

def pairText (field : Bytes × Bytes) : Bytes := field.1 ++ 61 :: field.2

theorem parse_pair_text (field : Bytes × Bytes) (plain : isPlainName field.1 = true) :
    parsePair (pairText field) = (urlDecode field.2).map fun value => (field.1, cstr value) := by
  have equals := plain_name_absent _ plain 61 rfl
  have name := url_decode_plain _ (plain_name_absent _ plain 43 rfl) (plain_name_absent _ plain 37 rfl)
  have nul := plain_name_absent _ plain 0 rfl
  simp only [parsePair, pairText, make_word_stop 61 field.1 field.2 equals, str_trim_plain field.1 plain, name,
    Option.bind_some,
    cstr_plain field.1 nul]

-- The address of a form, its fields put into the query without any encoding
def formQuery (first : Bytes × Bytes) (more : List (Bytes × Bytes)) : Bytes :=
  joinPairs (pairText first) (more.map pairText)

-- A value that the query carries as it is
def isSendable (text : Bytes) : Bool := text.all fun c => c != 38 && c != 35 && c != 43 && c != 37 && c != 0

theorem sendable_absent (text : Bytes) (clean : isSendable text = true) (c : UInt8)
    (bad : (c != 38 && c != 35 && c != 43 && c != 37 && c != 0) = false) : c ∉ text :=
  all_absent _ text clean c bad

theorem sendable_of_absent (text : Bytes) (amp : (38 : UInt8) ∉ text) (hash : (35 : UInt8) ∉ text)
    (plus : (43 : UInt8) ∉ text) (percent : (37 : UInt8) ∉ text) (nul : (0 : UInt8) ∉ text) : isSendable text =
    true := by
  rw [isSendable, List.all_eq_true]
  intro c member
  have other : ∀ d : UInt8, d ∉ text → c ≠ d := fun d absent same => absent (same ▸ member)
  simp [other 38 amp, other 35 hash, other 43 plus, other 37 percent, other 0 nul]

theorem pair_text_absent (c : UInt8) (field : Bytes × Bytes) (name : c ∉ field.1) (equals : c ≠ 61)
    (value : c ∉ field.2) :
    c ∉ pairText field := by
  simp [pairText, name, equals, value]

section Forms

variable (first : Bytes × Bytes) (more : List (Bytes × Bytes)) (plain : ∀ field ∈ first :: more, isPlainName field.1 =
    true)

include plain

theorem form_pairs_single (single : ∀ field ∈ first :: more, (38 : UInt8) ∉ field.2) :
    ∀ pair ∈ pairText first :: more.map pairText, (38 : UInt8) ∉ pair := by
  intro pair member
  obtain ⟨field, inside, rfl⟩ := List.mem_map.mp (List.map_cons ▸ member : pair ∈ (first :: more).map pairText)
  exact pair_text_absent 38 field (plain_name_absent _ (plain field inside) 38 rfl) (by decide) (single field inside)

theorem form_whole (whole : ∀ field ∈ first :: more, (35 : UInt8) ∉ field.2) : (35 : UInt8) ∉ formQuery first more := by
  have each : ∀ field ∈ first :: more, (35 : UInt8) ∉ pairText field := fun field inside =>
    pair_text_absent 35 field (plain_name_absent _ (plain field inside) 35 rfl) (by decide) (whole field inside)
  intro member
  rcases List.mem_append.mp member with head | later
  · exact each first (by simp) head
  · obtain ⟨pair, known, own⟩ := List.mem_flatMap.mp later
    obtain ⟨field, inside, rfl⟩ := List.mem_map.mp known
    rcases List.mem_cons.mp own with amp | here
    · cases amp
    · exact each field (by simp [inside]) here

theorem form_arrives (clean : ∀ field ∈ first :: more, isSendable field.2 = true) :
    parseQuery (sent (formQuery first more)) = some ⟨first :: more⟩ := by
  have absent : ∀ c : UInt8, (c != 38 && c != 35 && c != 43 && c != 37 && c != 0) = false →
      ∀ field ∈ first :: more, c ∉ field.2 := fun c bad field inside => sendable_absent _ (clean field inside) c bad
  have pairs : queryPairs (formQuery first more) = (first :: more).map pairText :=
    query_pairs_join _ _ (form_pairs_single first more plain (absent 38 rfl)) (by
      intro pair member
      obtain ⟨field, _, rfl⟩ := List.mem_map.mp (List.map_cons ▸ member : pair ∈ (first :: more).map pairText)
      simp [pairText])
  have parsed : ((first :: more).map pairText).mapM parsePair = some (first :: more) := by
    rw [List.mapM_map]
    have each := map_m_some (fun field => parsePair (pairText field)) id (first :: more) (by
      intro field inside
      rw [parse_pair_text field (plain field inside), url_decode_plain _ (absent 43 rfl field inside)
        (absent 37 rfl field inside),
        Option.map_some, cstr_plain _ (absent 0 rfl field inside)]
      rfl)
    rw [List.map_id] at each
    exact each
  rw [parseQuery, sent_whole _ (form_whole first more plain (absent 35 rfl)), pairs, parsed]
  rfl

theorem form_values (single : ∀ field ∈ first :: more, (38 : UInt8) ∉ field.2) (req : Request)
    (run : parseQuery (sent (formQuery first more)) = some req) (entry : Bytes × Bytes) (member : entry ∈ req.entries) :
    ∃ field ∈ first :: more, entry.1 = field.1 ∧ ∃ decoded, urlDecode (sent field.2) = some decoded ∧
    entry.2 = cstr decoded := by
  obtain ⟨entries, parsed, rfl⟩ := Option.map_eq_some_iff.mp run
  obtain ⟨part, arrived, found⟩ := map_m_mem parsePair _ entries parsed entry member
  obtain ⟨pair, known, rfl⟩ := sent_pairs _ _ (form_pairs_single first more plain single) part arrived
  obtain ⟨field, inside, rfl⟩ := List.mem_map.mp (List.map_cons ▸ known : pair ∈ (first :: more).map pairText)
  have name := plain field inside
  have cut : sent (pairText field) = pairText (field.1, sent field.2) :=
    sent_later field.1 (61 :: field.2) (plain_name_absent _ name 35 rfl)
  rw [cut, parse_pair_text (field.1, sent field.2) name] at found
  obtain ⟨decoded, value, rfl⟩ := Option.map_eq_some_iff.mp found
  exact ⟨field, inside, rfl, decoded, value, rfl⟩

end Forms

-- The address that is put together from all fields
def formText : List (Bytes × Bytes) → Bytes
  | [] => []
  | first :: more => formQuery first more

theorem form_text_cons (first : Bytes × Bytes) (more : List (Bytes × Bytes)) :
    ∃ rest, formText (first :: more) = pairText first ++ rest ∧
    (rest = [] ∧ more = [] ∨ rest = 38 :: formText more) := by
  cases more with
  | nil => exact ⟨[], by simp [formText, formQuery, join_pairs_nil], Or.inl ⟨rfl, rfl⟩⟩
  | cons next more => exact ⟨38 :: formText (next :: more), by simp [formText, formQuery, join_pairs_cons], Or.inr rfl⟩

theorem form_text_peel (first : Bytes × Bytes) (more : List (Bytes × Bytes)) (plain : isPlainName first.1 = true)
    (clean : isSendable first.2 = true) :
    parseQuery (sent (formText (first :: more))) =
      (parseQuery (sent (formText more))).map fun req => ⟨first :: req.entries⟩ := by
  have absent : ∀ c : UInt8, (c != 38 && c != 35 && c != 43 && c != 37 && c != 0) = false → c ≠ 61 →
      (c != 61 && c != 38 && c != 35 && c != 43 && c != 37 && c != 0 && !isBlank c) = false → c ∉ pairText first :=
    fun c bad equals name => pair_text_absent c first (plain_name_absent _ plain c name) equals
      (sendable_absent _ clean c bad)
  have hash := absent 35 rfl (by decide) rfl
  have amp := absent 38 rfl (by decide) rfl
  have parsed : parsePair (pairText first) = some first := by
    rw [parse_pair_text first plain, url_decode_plain _ (sendable_absent _ clean 43 rfl)
      (sendable_absent _ clean 37 rfl),
      Option.map_some, cstr_plain _ (sendable_absent _ clean 0 rfl)]
  obtain ⟨rest, text, ⟨rfl, rfl⟩ | rfl⟩ := form_text_cons first more
  · have nonempty : pairText first ≠ [] := by simp [pairText]
    rw [text, List.append_nil, sent_whole _ hash, parseQuery, query_pairs_last _ amp, if_neg nonempty]
    simp [parsed, formText, sent, parseQuery, queryPairs, cutFrom]
  · have mark : sent (38 :: formText more) = 38 :: sent (formText more) := rfl
    rw [text, sent_later _ _ hash, mark, parseQuery, query_pairs_cons _ _ amp, parseQuery, List.mapM_cons, parsed]
    cases (queryPairs (sent (formText more))).mapM parsePair <;> rfl

theorem form_text_first (first : Bytes × Bytes) (more : List (Bytes × Bytes)) (plain : isPlainName first.1 = true)
    (req : Request) (run : parseQuery (sent (formText (first :: more))) = some req) :
    ∃ value rest, req.entries = (first.1, value) :: rest ∧ value.length ≤ first.2.length ∧
      (value = first.2 → isSendable first.2 = true) := by
  obtain ⟨rest, text, shape⟩ := form_text_cons first more
  have fixed : rest = [] ∨ ∃ later, rest = 38 :: later := shape.imp And.left fun same => ⟨_, same⟩
  have named : sent (formText (first :: more)) = first.1 ++ 61 :: sent (first.2 ++ rest) := by
    rw [text, pairText, List.append_assoc, sent_later _ _ (plain_name_absent _ plain 35 rfl)]
    rfl
  -- the value's text ends at the next mark or at the fragment
  obtain ⟨part, tail, cut, amp, ended⟩ : ∃ part tail, sent (first.2 ++ rest) = part ++ tail ∧ (38 : UInt8) ∉ part ∧
      (tail = [] ∨ ∃ later, tail = 38 :: later) := by
    refine ⟨_, _, (List.takeWhile_append_dropWhile (p := (· != 38))).symm, ?_, ?_⟩
    · intro member
      simpa using List.mem_takeWhile_imp member
    · have stop := List.head?_dropWhile_not (· != (38 : UInt8)) (sent (first.2 ++ rest))
      cases tail : (sent (first.2 ++ rest)).dropWhile (· != 38) with
      | nil => exact Or.inl rfl
      | cons c later =>
          rw [tail] at stop
          exact Or.inr ⟨later, by simpa using stop⟩
  have within : part <+: first.2 := by
    have front : part <+: first.2 ++ rest := (List.prefix_append part tail).trans (cut ▸ sent_front _)
    rcases List.prefix_or_prefix_of_prefix front (List.prefix_append first.2 rest) with inside | ⟨spill, rfl⟩
    · exact inside
    · rw [List.prefix_append_right_inj] at front
      rcases fixed with rfl | ⟨later, rfl⟩
      · simp [List.prefix_nil.mp front]
      · cases spill with
        | nil => simp
        | cons c spill =>
            obtain ⟨rfl, _⟩ := List.cons_prefix_cons.mp front
            simp at amp
  have hash : (35 : UInt8) ∉ part := fun member => sent_clean (first.2 ++ rest) (cut ▸ List.mem_append_left tail member)
  have pairAmp : (38 : UInt8) ∉ pairText (first.1, part) :=
    pair_text_absent 38 _ (plain_name_absent _ plain 38 rfl) (by decide) amp
  have shown : sent (formText (first :: more)) = pairText (first.1, part) ++ tail := by
    rw [named, cut, pairText, List.append_assoc]
    rfl
  obtain ⟨others, pairs⟩ : ∃ others, queryPairs (sent (formText (first :: more))) = pairText (first.1, part) ::
    others := by
    rw [shown]
    rcases ended with rfl | ⟨later, rfl⟩
    · rw [List.append_nil, query_pairs_last _ pairAmp, if_neg (by simp [pairText])]
      exact ⟨_, rfl⟩
    · exact ⟨_, query_pairs_cons _ later pairAmp⟩
  rw [parseQuery, pairs, List.mapM_cons, parse_pair_text (first.1, part) plain] at run
  cases decoded : urlDecode part with
  | none => simp [decoded] at run
  | some value =>
      cases parsed : others.mapM parsePair with
      | none => simp [decoded, parsed] at run
      | some entries =>
          simp only [decoded, parsed, Option.map_some, Option.bind_eq_bind, Option.bind_some, Option.pure_def,
            Option.some.injEq] at run
          obtain ⟨short, clean⟩ := url_decode_length part value decoded
          have front : cstr value <+: value := List.takeWhile_prefix _
          have cutLength := front.length_le
          have partLength := within.length_le
          refine ⟨cstr value, entries, by rw [← run], by omega, fun same => ?_⟩
          have length : (cstr value).length = first.2.length := congrArg List.length same
          obtain ⟨percent, plus⟩ := clean (by omega)
          obtain rfl := within.eq_of_length (by omega)
          have whole : cstr value = value := front.eq_of_length (by omega)
          rw [← same]
          rw [whole] at same ⊢
          rw [← same] at amp hash percent
          exact sendable_of_absent _ amp hash plus percent (whole ▸ cstr_no_nul value)

theorem get_data_mem (entries : List (Bytes × Bytes)) (distinct : (entries.map Prod.fst).Nodup) (entry : Bytes × Bytes)
    (member : entry ∈ entries) : getData ⟨entries⟩ entry.1 = some entry.2 := by
  induction entries with
  | nil => cases member
  | cons other entries ih =>
      rw [List.map_cons, List.nodup_cons] at distinct
      rcases List.mem_cons.mp member with rfl | later
      · simp [getData]
      · have different : other.1 ≠ entry.1 := fun same => distinct.1 (same ▸ List.mem_map_of_mem later)
        rw [← ih distinct.2 later]
        simp [getData, different]

theorem parse_query_strings (query : Bytes) (req : Request) (run : parseQuery query = some req) (name value : Bytes)
    (found : getData req name = some value) : cstr value = value := by
  obtain ⟨entries, parsed, rfl⟩ := Option.map_eq_some_iff.mp run
  obtain ⟨entry, hit, rfl⟩ := Option.map_eq_some_iff.mp found
  obtain ⟨pair, _, read⟩ := map_m_mem parsePair _ entries parsed entry (List.mem_of_find?_eq_some hit)
  obtain ⟨_, _, own⟩ := Option.bind_eq_some_iff.mp read
  obtain ⟨text, _, rfl⟩ := Option.map_eq_some_iff.mp own
  exact cstr_plain _ (cstr_no_nul text)

-- Two fields of one name, the first no longer than the second
def Shrinks (field wanted : Bytes × Bytes) : Prop :=
  field.1 = wanted.1 ∧ field.2.length ≤ wanted.2.length ∧ (field.2.length = wanted.2.length → field.2 = wanted.2)

theorem form_text_exact (fields wanted back : List (Bytes × Bytes)) (shrinks : List.Forall₂ Shrinks fields wanted)
    (plain : ∀ field ∈ wanted, isPlainName field.1 = true) (distinct : (wanted.map Prod.fst).Nodup) (req : Request)
    (run : parseQuery (sent (formText (fields ++ back))) = some req)
    (found : ∀ field ∈ wanted, getData req field.1 = some field.2) :
    fields = wanted ∧ (∀ field ∈ wanted, isSendable field.2 = true) ∧
      ∃ later, parseQuery (sent (formText back)) = some ⟨later⟩ ∧ req.entries = wanted ++ later := by
  induction shrinks generalizing req with
  | nil => exact ⟨rfl, by simp, req.entries, run, rfl⟩
  | @cons field own fields wanted shorter _ ih =>
      obtain ⟨name, length, equal⟩ := shorter
      rw [List.map_cons, List.nodup_cons] at distinct
      rw [List.forall_mem_cons] at plain
      rw [List.cons_append] at run
      obtain ⟨value, rest, entries, short, clean⟩ := form_text_first field (fields ++ back) (name ▸ plain.1) req run
      have here : getData req own.1 = some value := by simp [getData, entries, name]
      have same : value = own.2 := Option.some.inj (here.symm.trans (found own (by simp)))
      have kept : field.2 = own.2 := equal (by rw [← same] at length ⊢; omega)
      obtain rfl : field = own := Prod.ext name kept
      have sendable := clean same
      rw [form_text_peel field _ plain.1 sendable] at run
      obtain ⟨later, ran, rfl⟩ := Option.map_eq_some_iff.mp run
      obtain ⟨rfl, clean, tail, behind, shape⟩ := ih plain.2 distinct.2 later ran fun other member => by
        have different : field.1 ≠ other.1 := fun same => distinct.1 (same ▸ List.mem_map_of_mem member)
        rw [← found other (by simp [member])]
        simp [getData, different]
      refine ⟨rfl, by simpa [sendable] using clean, tail, behind, ?_⟩
      rw [shape, List.cons_append]

theorem form_text_arrives (fields : List (Bytes × Bytes)) (plain : ∀ field ∈ fields, isPlainName field.1 = true)
    (clean : ∀ field ∈ fields, isSendable field.2 = true) : parseQuery (sent (formText fields)) = some ⟨fields⟩ := by
  cases fields with
  | nil => rfl
  | cons first more => exact form_arrives first more plain clean

end Ftm50s.Cgi
