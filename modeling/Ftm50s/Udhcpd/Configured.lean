import Ftm50s.Udhcpd.Conf

set_option autoImplicit false

namespace Ftm50s.Udhcpd

open Lib.Text Lib.Decimal Ftm50s.Cgi Ftm50s.Dhcp

theorem join_plain (line : Bytes) (rest : List Bytes) (plain : ∀ text ∈ line :: rest, (92 : UInt8) ∉ text) :
    joinFrom line rest = line :: rest := by
  have ongoing : ∀ text : Bytes, (92 : UInt8) ∉ text → text.getLast? ≠ some 92 :=
    fun text absent last => absent (List.mem_of_getLast? last)
  induction rest generalizing line with
  | nil =>
      rw [List.forall_mem_cons] at plain
      rw [joinFrom, if_neg (ongoing line plain.1)]
  | cons next rest ih =>
      rw [List.forall_mem_cons] at plain
      rw [joinFrom, if_neg (ongoing line plain.1), ih next plain.2]

theorem logical_lines_plain (records : List Bytes) (plain : ∀ text ∈ records, (92 : UInt8) ∉ text) :
    logicalLines records = records := by
  cases records with
  | nil => rfl
  | cons line rest => exact join_plain line rest plain

theorem config_read_comment (text : Bytes) : configRead (35 :: text) = none := by
  have cut : cstr (35 :: text) = 35 :: cstr text := rfl
  rw [configRead, cut]
  rfl

structure IsKey (key : Bytes) : Prop where
  nonempty : key ≠ []
  bytes : ∀ c ∈ key, isTokenByte c = true ∧ c ≠ 0

structure IsValue (text : Bytes) : Prop where
  nonempty : text ≠ []
  bytes : ∀ c ∈ text, c ≠ 35 ∧ c ≠ 0
  first : ∀ c, text.head? = some c → isDelim c = false
  last : ∀ c, text.getLast? = some c → isDelim c = false

theorem drop_while_head (test : UInt8 → Bool) (text : Bytes) (first : ∀ c, text.head? = some c → test c = false) :
    text.dropWhile test = text := by
  cases text with
  | nil => rfl
  | cons c rest => rw [List.dropWhile_cons_of_neg (by rw [first c rfl]; decide)]

theorem drop_while_word (test : UInt8 → Bool) (word rest : Bytes) (nonempty : word ≠ [])
    (plain : ∀ c ∈ word, test c = false) :
    (word ++ rest).dropWhile test = word ++ rest := by
  apply drop_while_head
  intro c head
  obtain ⟨d, others, shape⟩ := List.exists_cons_of_ne_nil nonempty
  rw [shape] at head
  obtain rfl : d = c := Option.some.inj head
  exact plain d (by rw [shape]; exact List.mem_cons_self)

theorem key_cut (key rest : Bytes) (keyword : IsKey key) :
    (key ++ 32 :: rest).dropWhile isDelim = key ++ 32 :: rest ∧ (key ++ 32 :: rest).takeWhile isTokenByte = key ∧
      (key ++ 32 :: rest).dropWhile isTokenByte = 32 :: rest := by
  have token : ∀ c ∈ key, isTokenByte c = true := fun c member => (keyword.bytes c member).1
  refine ⟨drop_while_word isDelim key _ keyword.nonempty fun c member => ?_, ?_, ?_⟩
  · have letter := token c member
    rw [isTokenByte, Bool.and_eq_true, Bool.not_eq_true'] at letter
    exact letter.1
  · rw [List.takeWhile_append_of_pos token, List.takeWhile_cons_of_neg (by decide), List.append_nil]
  · rw [List.dropWhile_append_of_pos token, List.dropWhile_cons_of_neg (by decide)]

theorem value_cut (text : Bytes) (blanks : Nat) (value : IsValue text) :
    (List.replicate blanks 32 ++ text).dropWhile isDelim = text ∧ (text.takeWhile (· != 35)).rdropWhile isDelim =
    text := by
  have lead : ∀ c ∈ List.replicate blanks (32 : UInt8), isDelim c = true := by
    intro c member
    rw [List.eq_of_mem_replicate member]
    rfl
  have whole : text.takeWhile (· != 35) = text := by
    rw [List.takeWhile_eq_self_iff]
    intro c member
    simpa using (value.bytes c member).1
  refine ⟨by rw [List.dropWhile_append_of_pos lead, drop_while_head isDelim text value.first], ?_⟩
  rw [whole, List.rdropWhile_eq_self_iff]
  intro nonempty
  rw [value.last _ (List.getLast?_eq_some_getLast nonempty)]
  decide

theorem config_read_pair (key text : Bytes) (blanks : Nat) (keyword : IsKey key) (value : IsValue text) :
    configRead (key ++ (List.replicate (blanks + 1) 32 ++ text)) = some (key, text) := by
  have nul : (0 : UInt8) ∉ key ++ (List.replicate (blanks + 1) 32 ++ text) := by
    simp only [List.mem_append, not_or]
    refine ⟨fun member => (keyword.bytes 0 member).2 rfl, fun member => ?_, fun member => (value.bytes 0 member).2 rfl⟩
    exact absurd (List.eq_of_mem_replicate member) (by decide)
  have shape : List.replicate (blanks + 1) 32 ++ text = 32 :: (List.replicate blanks 32 ++ text) := rfl
  obtain ⟨lead, word, after⟩ := key_cut key (List.replicate blanks 32 ++ text) keyword
  obtain ⟨skipped, tail⟩ := value_cut text (blanks + 1) value
  rw [shape] at skipped
  obtain ⟨c, rest, first⟩ := List.exists_cons_of_ne_nil value.nonempty
  have start : text.head? = some c := by rw [first]; rfl
  have mark : c ≠ 35 := (value.bytes c (by rw [first]; exact List.mem_cons_self)).1
  obtain ⟨d, others, front⟩ := List.exists_cons_of_ne_nil keyword.nonempty
  have startKey : (key ++ 32 :: (List.replicate blanks 32 ++ text)).head? = some d := by rw [front]; rfl
  have letter : d ≠ 35 := by
    rintro rfl
    exact absurd (keyword.bytes 35 (by rw [front]; exact List.mem_cons_self)).1 (by decide)
  have fits : ¬ (some d = none ∨ some d = some 35 ∨ text.head? = none ∨ text.head? = some 35) := by
    rw [start]
    simp [letter, mark]
  rw [configRead, cstr_plain _ nul, shape]
  simp only [lead, word, after, List.head?_cons, if_neg (show ¬ (some (32 : UInt8) = some 35) by decide), skipped,
    startKey,
    if_neg fits, tail]

-- A word that neither starts a comment nor goes on in the next line
def isBare (text : Bytes) : Bool := isStored text && text.all fun c => c != 35 && c != 92

structure Bare (settings : Settings) : Prop where
  interface : isBare settings.interface = true
  start : isBare settings.start = true
  last : isBare settings.last = true
  router : isBare settings.router = true
  time : isBare settings.time = true
  dns1 : isBare settings.dns1 = true
  dns2 : isBare settings.dns2 = true
  leases : ∀ lease ∈ settings.leases, isBare lease.1 = true ∧ isBare lease.2 = true

theorem bare_bytes (text : Bytes) (bare : isBare text = true) :
    text ≠ [] ∧ ∀ c ∈ text, isSpace c = false ∧ c ≠ 0 ∧ c ≠ 35 ∧ c ≠ 92 := by
  rw [isBare, isStored, Bool.and_eq_true, Bool.and_eq_true] at bare
  obtain ⟨⟨word, nul⟩, marks⟩ := bare
  refine ⟨word_nonempty text word, ?_⟩
  intro c member
  have other := List.all_eq_true.mp marks c member
  rw [Bool.and_eq_true] at other
  refine ⟨?_, by simpa using List.all_eq_true.mp nul c member, by simpa using other.1, by simpa using other.2⟩
  cases space : isSpace c with
  | false => rfl
  | true => exact absurd member (word_spaceless text word c space)

theorem toupper_mark (c : UInt8) (mark : UInt8) (marked : mark = 35 ∨ mark = 92) (upper : toupper c = mark) :
    c = mark := by
  by_cases letter : 97 ≤ c ∧ c ≤ 122
  · have range := letter
    rw [UInt8.le_iff_toNat_le, UInt8.le_iff_toNat_le] at range
    change 97 ≤ c.toNat ∧ c.toNat ≤ 122 at range
    have enough : 32 ≤ c := by
      rw [UInt8.le_iff_toNat_le]
      change 32 ≤ c.toNat
      omega
    rw [toupper, if_pos letter] at upper
    have value := congrArg UInt8.toNat upper
    rw [UInt8.toNat_sub_of_le c 32 enough] at value
    change c.toNat - 32 = mark.toNat at value
    rcases marked with rfl | rfl
    · change c.toNat - 32 = 35 at value
      omega
    · change c.toNat - 32 = 92 at value
      omega
  · rwa [toupper, if_neg letter] at upper

theorem bare_upper (text : Bytes) (bare : isBare text = true) : isBare (text.map toupper) = true := by
  rw [isBare, Bool.and_eq_true] at bare ⊢
  refine ⟨upper_stored text bare.1, ?_⟩
  rw [List.all_eq_true]
  intro c member
  obtain ⟨d, inside, rfl⟩ := List.mem_map.mp member
  have other := List.all_eq_true.mp bare.2 d inside
  rw [Bool.and_eq_true, bne_iff_ne, bne_iff_ne] at other ⊢
  exact ⟨fun hash => other.1 (toupper_mark d 35 (Or.inl rfl) hash), fun slash =>
    other.2 (toupper_mark d 92 (Or.inr rfl) slash)⟩

theorem delim_space (c : UInt8) (delim : isDelim c = true) : isSpace c = true := by
  rw [isDelim, Bool.or_eq_true, beq_iff_eq, beq_iff_eq] at delim
  rcases delim with rfl | rfl <;> rfl

theorem bare_no_delim (text : Bytes) (bare : isBare text = true) : ∀ c ∈ text, isDelim c = false := by
  intro c member
  cases delim : isDelim c with
  | false => rfl
  | true =>
      have space := delim_space c delim
      rw [((bare_bytes text bare).2 c member).1] at space
      cases space

theorem bare_value (text : Bytes) (bare : isBare text = true) : IsValue text := by
  obtain ⟨nonempty, bytes⟩ := bare_bytes text bare
  have plain := bare_no_delim text bare
  exact ⟨nonempty, fun c member => ⟨(bytes c member).2.2.1, (bytes c member).2.1⟩,
    fun c head => plain c (List.mem_of_head? head), fun c last => plain c (List.mem_of_getLast? last)⟩

theorem value_between (front back : Bytes) (one : IsValue front) (two : IsValue back) :
    IsValue (front ++ 32 :: back) := by
  constructor
  · simp
  · intro c member
    rcases List.mem_append.mp member with first | later
    · exact one.bytes c first
    · rcases List.mem_cons.mp later with rfl | last
      · decide
      · exact two.bytes c last
  · intro c head
    obtain ⟨d, rest, shape⟩ := List.exists_cons_of_ne_nil one.nonempty
    rw [shape] at head
    exact one.first c (by rw [shape]; exact head)
  · intro c last
    obtain ⟨d, rest, shape⟩ := List.exists_cons_of_ne_nil two.nonempty
    rw [List.getLast?_append, shape, List.getLast?_cons_cons, ← shape] at last
    apply two.last c
    cases tail : back.getLast? with
    | none => exact absurd (List.getLast?_eq_none_iff.mp tail) two.nonempty
    | some e => simpa [tail] using last

theorem word_key (text : Bytes) (bare : isBare text = true) : IsKey text := by
  obtain ⟨nonempty, bytes⟩ := bare_bytes text bare
  refine ⟨nonempty, fun c member => ⟨?_, (bytes c member).2.1⟩⟩
  rw [isTokenByte, bare_no_delim text bare c member]
  simpa using (bytes c member).2.2.1

theorem kept_word (breaks : UInt8 → Bool) (word : Bytes) (plain : ∀ d ∈ word, breaks d = false) :
    ∀ d ∈ word, (!breaks d) = true := by
  intro d member
  rw [plain d member]
  rfl

theorem strtok_word (breaks : UInt8 → Bool) (word rest : Bytes) (c : UInt8) (nonempty : word ≠ [])
    (plain : ∀ d ∈ word, breaks d = false) (stop : breaks c = true) : strtok breaks (word ++ c :: rest) =
    some (word, rest) := by
  have inside := kept_word breaks word plain
  rw [strtok, drop_while_word breaks word _ nonempty plain, if_neg (by simp), List.takeWhile_append_of_pos inside,
    List.dropWhile_append_of_pos inside, List.takeWhile_cons_of_neg (by rw [stop]; decide),
    List.dropWhile_cons_of_neg (by rw [stop]; decide), List.append_nil]
  rfl

theorem strtok_last (breaks : UInt8 → Bool) (word : Bytes) (nonempty : word ≠ [])
    (plain : ∀ d ∈ word, breaks d = false) :
    strtok breaks word = some (word, []) := by
  have lead : word.dropWhile breaks = word :=
    drop_while_head breaks word fun d head => plain d (List.mem_of_head? head)
  have inside := kept_word breaks word plain
  rw [strtok, lead, if_neg nonempty, List.takeWhile_eq_self_iff.mpr inside, List.dropWhile_eq_nil_iff.mpr inside]
  rfl

-- The value of a lease option: the first of the words that commas and blanks part
def leaseWord (text : Bytes) : Option Nat :=
  (strtok (fun c => isDelim c || c == 44) text).bind fun token => strtou0 token.1

theorem option_word (name rest : Bytes) (bare : isBare name = true) (plain : (61 : UInt8) ∉ name) :
    strtok (fun c => isDelim c || c == 61) (name ++ 32 :: rest) = some (name, rest) := by
  apply strtok_word _ name rest 32 (bare_bytes name bare).1 _ rfl
  intro d member
  rw [bare_no_delim name bare d member, Bool.false_or, beq_eq_false_iff_ne]
  rintro rfl
  exact plain member

theorem lease_option (text : Bytes) : str2optset (ascii "lease" ++ 32 :: text) =
    (leaseWord text).elim .other .lease := by
  have word := option_word (ascii "lease") text (by decide) (by decide)
  have number : ((strtou0 (ascii "lease")).any fun code => decide (code < 255)) = false := by decide
  have known : optionNames.contains (ascii "lease") = true := by decide
  simp only [str2optset, word, number, known, leaseWord, Bool.not_true, Bool.false_eq_true, if_false, if_true]
  cases (strtok (fun c => isDelim c || c == 44) text).bind fun token => strtou0 token.1 <;> rfl

theorem other_option (name text : Bytes) (bare : isBare name = true) (plain : (61 : UInt8) ∉ name)
    (known : optionNames.contains name = true) (number : (strtou0 name).any (fun code => decide (code < 255)) = false)
    (other : name ≠ ascii "lease") :
    str2optset (name ++ 32 :: text) = .other := by
  simp only [str2optset, option_word name text bare plain, number, known, Bool.not_true, Bool.false_eq_true, if_false,
    if_neg other]

theorem flag_bare (settings : Settings) : isBare (staticFlag settings) = true := by
  rw [staticFlag]
  split <;> rfl

theorem setting_tokens (settings : Settings) (bare : Bare settings) :
    (settingLines settings).filterMap configRead = [(ascii "static", staticFlag settings),
    (ascii "start", settings.start), (ascii "end", settings.last), (ascii "interface", settings.interface),
    (ascii "opt", ascii "lease" ++ 32 :: settings.time), (ascii "opt", ascii "router" ++ 32 :: settings.router),
    (ascii "opt", ascii "subnet" ++ 32 :: ascii "255.255.255.0"), (ascii "opt", ascii "dns" ++ 32 :: settings.dns1),
    (ascii "opt", ascii "dns" ++ 32 :: settings.dns2)] := by
  have option : ∀ name word : Bytes, isBare name = true → isBare word = true →
      configRead (ascii "opt" ++ (List.replicate 1 32 ++ (name ++ 32 :: word))) = some (ascii "opt", name ++
      32 :: word) := by
    intro name word one two
    exact config_read_pair _ _ 0 (word_key _ (by decide)) (value_between name word (bare_value name one)
      (bare_value word two))
  have static : configRead (ascii "static " ++ staticFlag settings) = some (ascii "static", staticFlag settings) :=
    config_read_pair (ascii "static") _ 0 (word_key _ (by decide)) (bare_value _ (flag_bare settings))
  have start : configRead (ascii "start " ++ settings.start) = some (ascii "start", settings.start) :=
    config_read_pair (ascii "start") _ 0 (word_key _ (by decide)) (bare_value _ bare.start)
  have last : configRead (ascii "end   " ++ settings.last) = some (ascii "end", settings.last) :=
    config_read_pair (ascii "end") _ 2 (word_key _ (by decide)) (bare_value _ bare.last)
  have interface : configRead (ascii "interface " ++ settings.interface) = some (ascii "interface",
    settings.interface) :=
    config_read_pair (ascii "interface") _ 0 (word_key _ (by decide)) (bare_value _ bare.interface)
  have lease : configRead (ascii "opt lease " ++ settings.time) = some (ascii "opt", ascii "lease" ++
    32 :: settings.time) :=
    option (ascii "lease") _ (by decide) bare.time
  have router : configRead (ascii "opt router " ++ settings.router) = some (ascii "opt", ascii "router" ++
    32 :: settings.router) :=
    option (ascii "router") _ (by decide) bare.router
  have subnet : configRead (ascii "opt subnet 255.255.255.0") = some (ascii "opt", ascii "subnet" ++
    32 :: ascii "255.255.255.0") :=
    option (ascii "subnet") (ascii "255.255.255.0") (by decide) (by decide)
  have dns1 : configRead (ascii "opt dns " ++ settings.dns1) = some (ascii "opt", ascii "dns" ++ 32 :: settings.dns1) :=
    option (ascii "dns") _ (by decide) bare.dns1
  have dns2 : configRead (ascii "opt dns " ++ settings.dns2) = some (ascii "opt", ascii "dns" ++ 32 :: settings.dns2) :=
    option (ascii "dns") _ (by decide) bare.dns2
  have blank : configRead [] = none := rfl
  have note1 : configRead (ascii "# The start and end of the IP lease block") = none := config_read_comment _
  have note2 : configRead (ascii "# The interface that udhcpd will use") = none := config_read_comment _
  have note3 : configRead (ascii "# Options") = none := config_read_comment _
  have note4 : configRead (ascii "# Static leases map") = none := config_read_comment _
  simp only [settingLines, List.filterMap_cons, List.filterMap_nil, static, start, last, interface, lease, router,
    subnet, dns1, dns2,
    blank, note1, note2, note3, note4]

def leaseTokens (lease : Bytes × Bytes) : Bytes × Bytes := (ascii "static_lease", lease.1.map toupper ++ 32 :: lease.2)

theorem lease_tokens (static : Bool) (leases : List (Bytes × Bytes))
    (bare : ∀ lease ∈ leases, isBare (lease.1.map toupper) = true ∧ isBare lease.2 = true) :
    (leases.map fun lease => leaseLine static lease.1 lease.2).filterMap configRead =
      if static then leases.map leaseTokens else [] := by
  induction leases with
  | nil => cases static <;> rfl
  | cons lease rest ih =>
      rw [List.forall_mem_cons] at bare
      rw [List.map_cons, List.filterMap_cons, ih bare.2]
      cases static with
      | false =>
          have comment : configRead (leaseLine false lease.1 lease.2) = none := config_read_comment _
          rw [comment]
          rfl
      | true =>
          have pair : configRead (leaseLine true lease.1 lease.2) = some (leaseTokens lease) := by
            have value := value_between _ _ (bare_value _ bare.1.1) (bare_value _ bare.1.2)
            have read := config_read_pair (ascii "static_lease") _ 0 (word_key _ (by decide)) value
            have same : leaseLine true lease.1 lease.2 =
                ascii "static_lease" ++ (List.replicate 1 32 ++ (lease.1.map toupper ++ 32 :: lease.2)) := by
              rw [leaseLine, List.append_assoc, List.append_assoc]
              rfl
            rw [same, read, leaseTokens]
          rw [pair]
          rfl

section Read

variable (str2nip : Bytes → Option Nat) (aton : Bytes → Option Mac)

-- What the server makes of one static lease of the form
def leaseRead (lease : Bytes × Bytes) : Option (Mac × Nat) :=
  (aton (lease.1.map toupper)).bind fun mac => (str2nip lease.2).map fun nip => (mac, nip)

theorem static_lease_read (lease : Bytes × Bytes) (bare : isBare (lease.1.map toupper) = true ∧ isBare lease.2 = true) :
    readStaticLease str2nip aton (lease.1.map toupper ++ 32 :: lease.2) = leaseRead str2nip aton lease := by
  have first := strtok_word isDelim (lease.1.map toupper) lease.2 32 (bare_bytes _ bare.1).1
    (bare_no_delim _ bare.1) rfl
  have second := strtok_last isDelim lease.2 (bare_bytes _ bare.2).1 (bare_no_delim _ bare.2)
  rw [readStaticLease, first, leaseRead]
  simp only [second]
  cases aton (lease.1.map toupper) <;> rfl

theorem read_leases (conf : Conf) (leases : List (Bytes × Bytes))
    (bare : ∀ lease ∈ leases, isBare (lease.1.map toupper) = true ∧ isBare lease.2 = true) :
    (leases.map leaseTokens).foldlM (readKeyword str2nip aton) conf =
      some { conf with staticLeases := conf.staticLeases ++ leases.filterMap (leaseRead str2nip aton) } := by
  induction leases generalizing conf with
  | nil => simp
  | cons lease rest ih =>
      rw [List.forall_mem_cons] at bare
      have one : readKeyword str2nip aton conf (leaseTokens lease) =
          some { conf with staticLeases := conf.staticLeases ++ (leaseRead str2nip aton lease).toList } := by
        rw [← static_lease_read str2nip aton lease bare.1]
        rfl
      rw [List.map_cons, List.foldlM_cons, one]
      simp only [Option.bind_eq_bind, Option.bind_some, ih _ bare.2, List.filterMap_cons]
      cases leaseRead str2nip aton lease with
      | none => simp
      | some pair => simp

theorem lines_of_open (settings : Settings) (bare : Bare settings) :
    ∀ line ∈ linesOf settings, (92 : UInt8) ∉ line := by
  have word : ∀ text, isBare text = true → (92 : UInt8) ∉ text := fun text clean member =>
    ((bare_bytes text clean).2 92 member).2.2.2 rfl
  have join : ∀ front back : Bytes, (92 : UInt8) ∉ front → (92 : UInt8) ∉ back → (92 : UInt8) ∉ front ++ back := by
    intro front back one two member
    exact (List.mem_append.mp member).elim one two
  have value : ∀ (mark : String) (text : Bytes), (92 : UInt8) ∉ ascii mark → isBare text = true →
    (92 : UInt8) ∉ ascii mark ++ text :=
    fun mark text fixed clean => join _ _ fixed (word text clean)
  have blank : (92 : UInt8) ∉ ([] : Bytes) := List.not_mem_nil
  have fixed : ∀ line ∈ settingLines settings, (92 : UInt8) ∉ line := by
    simp only [settingLines, List.forall_mem_cons]
    exact ⟨value "static " _ (by decide) (flag_bare settings),
      blank, by decide, value "start " _ (by decide) bare.start,
      value "end   " _ (by decide) bare.last, blank, by
      decide, value "interface " _ (by decide) bare.interface, blank, by decide,
      value "opt lease " _ (by decide) bare.time, blank, value "opt router " _ (by decide) bare.router, blank, by
      decide, blank,
      value "opt dns " _ (by decide) bare.dns1, blank, value "opt dns " _ (by decide) bare.dns2, blank, by
      decide, by simp⟩
  intro line member
  rcases List.mem_append.mp member with setting | lease
  · exact fixed line setting
  · obtain ⟨pair, inside, rfl⟩ := List.mem_map.mp lease
    have both := bare.leases pair inside
    rw [leaseLine]
    refine join _ _ (join _ _ (join _ _ ?_ (word _ (bare_upper _ both.1))) (by decide)) (word _ both.2)
    split <;> decide

theorem bare_stored (settings : Settings) (bare : Bare settings) : Stored settings := by
  have part : ∀ text, isBare text = true → isStored text = true := by
    intro text clean
    rw [isBare, Bool.and_eq_true] at clean
    exact clean.1
  exact ⟨part _ bare.interface, part _ bare.start, part _ bare.last, part _ bare.router, part _ bare.time,
    part _ bare.dns1,
    part _ bare.dns2, fun lease member => ⟨part _ (bare.leases lease member).1, part _ (bare.leases lease member).2⟩⟩

-- The configuration that the server finds in the file of a form
def confOf (settings : Settings) : Conf :=
  { startIp := (str2nip settings.start).getD ((str2nip startDefault).getD 0),
    endIp := (str2nip settings.last).getD ((str2nip endDefault).getD 0),
    maxLeases := 235, declineTime := 3600, conflictTime := 3600, offerTime := 60, minLeaseSec := 60,
    leaseTime := leaseWord settings.time,
    staticLeases := if settings.static = ascii "true" then settings.leases.filterMap (leaseRead str2nip aton) else [] }

theorem read_settings (settings : Settings) (bare : Bare settings) :
    ((settingLines settings).filterMap configRead).foldlM (readKeyword str2nip aton) (defaults str2nip) =
      some { confOf str2nip aton settings with staticLeases := [] } := by
  have option : ∀ conf name text, isBare name = true → (61 : UInt8) ∉ name → optionNames.contains name = true →
      (strtou0 name).any (fun code => decide (code < 255)) = false → name ≠ ascii "lease" →
      readKeyword str2nip aton conf (ascii "opt", name ++ 32 :: text) = some conf := by
    intro conf name text clean plain known number other
    have line := other_option name text clean plain known number other
    have step : readKeyword str2nip aton conf (ascii "opt", name ++ 32 :: text) = readOption conf (str2optset (name ++ 32 :: text)) := rfl
    rw [step, line, readOption]
  have lease : ∀ conf text, readKeyword str2nip aton conf (ascii "opt", ascii "lease" ++ 32 :: text) =
      some { conf with leaseTime := (leaseWord text).elim conf.leaseTime fun time => some (conf.leaseTime.getD time) } := by
    intro conf text
    have step : readKeyword str2nip aton conf (ascii "opt", ascii "lease" ++ 32 :: text) =
        readOption conf (str2optset (ascii "lease" ++ 32 :: text)) := rfl
    rw [step, lease_option]
    cases leaseWord text <;> rfl
  have static : ∀ conf text, readKeyword str2nip aton conf (ascii "static", text) = some conf := fun _ _ => rfl
  have interface : ∀ conf text, readKeyword str2nip aton conf (ascii "interface", text) = some conf := fun _ _ => rfl
  have start : ∀ conf text, readKeyword str2nip aton conf (ascii "start", text) =
      some { conf with startIp := (str2nip text).getD ((str2nip startDefault).getD conf.startIp) } := fun _ _ => rfl
  have last : ∀ conf text, readKeyword str2nip aton conf (ascii "end", text) =
      some { conf with endIp := (str2nip text).getD ((str2nip endDefault).getD conf.endIp) } := fun _ _ => rfl
  have router := fun conf => option conf (ascii "router") settings.router (by decide) (by decide) (by decide) (by decide) (by decide)
  have subnet := fun conf =>
    option conf (ascii "subnet") (ascii "255.255.255.0") (by decide) (by decide) (by decide) (by decide) (by decide)
  have dns := fun conf text => option conf (ascii "dns") text (by decide) (by decide) (by decide) (by decide) (by decide)
  have again : ∀ (value : Option Nat) (old : Nat), value.getD (value.getD old) = value.getD old := by
    intro value old
    cases value <;> rfl
  rw [setting_tokens settings bare]
  simp only [List.foldlM_cons, List.foldlM_nil, static, start, last, interface, lease, router, subnet, dns, Option.bind_eq_bind,
    Option.bind_some, defaults, confOf, again]
  cases leaseWord settings.time <;> rfl

theorem conf_read (req : Request) (settings : Settings) (gives : Gives req settings) (bare : Bare settings) :
    readConfig str2nip aton (udhcpdConf req) = some (confOf str2nip aton settings) := by
  have records : logicalLines (lines (udhcpdConf req)) = linesOf settings := by
    rw [udhcpdConf, udhcpd_lines_gives req settings gives,
      lines_unlines _ (lines_of_plain settings (bare_stored settings bare)),
      logical_lines_plain _ (lines_of_open settings bare)]
  have leases : ∀ lease ∈ settings.leases, isBare (lease.1.map toupper) = true ∧ isBare lease.2 = true :=
    fun lease member => ⟨bare_upper _ (bare.leases lease member).1, (bare.leases lease member).2⟩
  rw [readConfig, records, linesOf, List.filterMap_append, lease_tokens _ _ leases, List.foldlM_append,
    read_settings str2nip aton settings bare, Option.bind_eq_bind, Option.bind_some]
  by_cases static : settings.static = ascii "true"
  · rw [if_pos (by simpa using static), read_leases str2nip aton _ settings.leases leases, confOf, if_pos static]
    rfl
  · rw [if_neg (by simpa using static), confOf, if_neg static]
    rfl

-- What the server runs with after a form was applied: the values of the form where
-- they can be read, the static leases in their order, and none of them while the
-- form has them switched off
theorem form_configures_server (creatable : Bool) (old : Bytes) (req : Request) (settings : Settings)
    (gives : Gives req settings) (bare : Bare settings) : readConfig str2nip aton (dhcpSet creatable old req).1 =
    if creatable then some (confOf str2nip aton settings) else readConfig str2nip aton old := by
  cases creatable with
  | false => rfl
  | true => exact conf_read str2nip aton req settings gives bare

end Read

-- The two address readers of the C library, on the texts of a form
def fieldsAt (mark : UInt8) (text : Bytes) : List Bytes :=
  text.foldr (fun c fields => if c = mark then [] :: fields else (c :: fields.headD []) :: fields.tail) [[]]

def quadNip (text : Bytes) : Option Nat :=
  match (fieldsAt 46 text).mapM (wholeNumber 10) with
  | some [a, b, c, d] =>
      if a < 256 ∧ b < 256 ∧ c < 256 ∧ d < 256 then some (((a * 256 + b) * 256 + c) * 256 + d) else none
  | _ => none

def colonMac (text : Bytes) : Option Mac :=
  match (fieldsAt 58 text).mapM (wholeNumber 16) with
  | some [a, b, c, d, e, f] => some (BitVec.ofNat 48 (((((a * 256 + b) * 256 + c) * 256 + d) * 256 + e) * 256 + f))
  | _ => none

def officeSettings : Settings :=
  ⟨ascii "eth0", ascii "true", ascii "192.168.0.20", ascii "192.168.0.254", ascii "192.168.0.1", ascii "86400",
    ascii "168.126.63.1", ascii "168.126.63.2", [(ascii "00:1a:2b:3c:4d:5e", ascii "192.168.0.30")]⟩

def officeRequest : Request :=
  ⟨[(ascii "enable", ascii "true"), (ascii "if", ascii "eth0"), (ascii "static", ascii "true"),
    (ascii "start", ascii "192.168.0.20"), (ascii "end", ascii "192.168.0.254"), (ascii "router", ascii "192.168.0.1"),
    (ascii "time", ascii "86400"), (ascii "dns1", ascii "168.126.63.1"), (ascii "dns2", ascii "168.126.63.2"),
    (ascii "mac0", ascii "00:1a:2b:3c:4d:5e"), (ascii "ip0", ascii "192.168.0.30")]⟩

theorem office_gives : Gives officeRequest officeSettings := by
  have beyond : ∀ stem ∈ ["mac", "ip"], ∀ i, getstrf officeRequest stem (i + 1) = none := by
    intro stem member i
    apply numbered_absent _ stem 1 (i + 1) (by omega)
    revert stem
    decide
  refine ⟨rfl, rfl, rfl, rfl, rfl, rfl, rfl, rfl, ?_, ?_⟩
  · intro i
    cases i with
    | zero => rfl
    | succ i => exact beyond "mac" (by simp) i
  · intro i
    cases i with
    | zero => rfl
    | succ i => exact beyond "ip" (by simp) i

theorem office_bare : Bare officeSettings := by
  constructor <;> decide

theorem form_configures_server_office : readConfig quadNip colonMac (dhcpSet true [] officeRequest).1 =
    some ⟨0xC0A80014, 0xC0A800FE, 235, 3600, 3600, 60, 60, some 86400, [(0x001A2B3C4D5E, 0xC0A8001E)]⟩ := by
  rw [form_configures_server quadNip colonMac true [] officeRequest officeSettings office_gives office_bare]
  decide +kernel

end Ftm50s.Udhcpd
