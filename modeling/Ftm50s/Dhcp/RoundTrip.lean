import Ftm50s.Dhcp.Status

set_option autoImplicit false

namespace Ftm50s.Dhcp

open Lib.Text Lib.Decimal Lib.Filter Ftm50s.Cgi

structure Valid (settings : Settings) : Prop where
  interface : isField 64 settings.interface = true
  static : isField 64 settings.static = true
  start : isField 64 settings.start = true
  last : isField 64 settings.last = true
  router : isField 64 settings.router = true
  time : isField 64 settings.time = true
  dns1 : isField 64 settings.dns1 = true
  dns2 : isField 64 settings.dns2 = true
  leases : ∀ lease ∈ settings.leases, isField 64 lease.1 = true ∧ isField 64 lease.2 = true

-- A word that a line of the file can hold, of whatever length
def isStored (text : Bytes) : Bool := isWord text && text.all (· != 0)

structure Stored (settings : Settings) : Prop where
  interface : isStored settings.interface = true
  start : isStored settings.start = true
  last : isStored settings.last = true
  router : isStored settings.router = true
  time : isStored settings.time = true
  dns1 : isStored settings.dns1 = true
  dns2 : isStored settings.dns2 = true
  leases : ∀ lease ∈ settings.leases, isStored lease.1 = true ∧ isStored lease.2 = true

def upperLease (lease : Bytes × Bytes) : Bytes × Bytes := (lease.1.map toupper, lease.2)

theorem toupper_class (c : UInt8) : isSpace (toupper c) = isSpace c ∧ (toupper c = 0 ↔ c = 0) := by
  have plain : ∀ d : UInt8, 33 ≤ d.toNat → isSpace d = false ∧ d ≠ 0 := by
    intro d high
    have above : ¬ d ≤ 13 := by
      rw [UInt8.le_iff_toNat_le]
      change ¬ d.toNat ≤ 13
      omega
    have blank : d ≠ 32 := by
      rintro rfl
      exact absurd high (by decide)
    have zero : d ≠ 0 := by
      rintro rfl
      exact absurd high (by decide)
    exact ⟨by simp [isSpace, above, blank], zero⟩
  rcases toupper_letter c with same | ⟨lower, upper⟩
  · rw [same]
    exact ⟨rfl, Iff.rfl⟩
  · obtain ⟨before, nonzero⟩ := plain c (by omega)
    obtain ⟨after, upperNonzero⟩ := plain (toupper c) (by omega)
    rw [before, after]
    exact ⟨rfl, iff_of_false upperNonzero nonzero⟩

theorem stored_spec (text : Bytes) (stored : isStored text = true) :
    isWord text = true ∧ (0 : UInt8) ∉ text ∧ (10 : UInt8) ∉ text := by
  rw [isStored, Bool.and_eq_true] at stored
  exact ⟨stored.1, all_absent _ text stored.2 0 rfl, word_plain text stored.1⟩

theorem field_stored (size : Nat) (text : Bytes) : isField size text = true ↔ isStored text = true ∧
    text.length < size := by
  simp only [isField, isStored, Bool.and_eq_true, decide_eq_true_eq]
  exact and_right_comm

theorem Valid.stored {settings : Settings} (valid : Valid settings) : Stored settings where
  interface := ((field_stored 64 _).mp valid.interface).1
  start := ((field_stored 64 _).mp valid.start).1
  last := ((field_stored 64 _).mp valid.last).1
  router := ((field_stored 64 _).mp valid.router).1
  time := ((field_stored 64 _).mp valid.time).1
  dns1 := ((field_stored 64 _).mp valid.dns1).1
  dns2 := ((field_stored 64 _).mp valid.dns2).1
  leases := fun lease member =>
    ⟨((field_stored 64 _).mp (valid.leases lease member).1).1, ((field_stored 64 _).mp (valid.leases lease member).2).1⟩

theorem upper_stored (text : Bytes) (stored : isStored text = true) : isStored (text.map toupper) = true := by
  simp only [isStored, isWord, Bool.and_eq_true] at stored ⊢
  obtain ⟨⟨nonempty, spaceless⟩, nul⟩ := stored
  refine ⟨⟨?_, ?_⟩, ?_⟩
  · simpa using nonempty
  · rw [List.all_eq_true] at spaceless ⊢
    intro c member
    obtain ⟨d, inside, rfl⟩ := List.mem_map.mp member
    rw [(toupper_class d).1]
    exact spaceless d inside
  · rw [List.all_eq_true] at nul ⊢
    intro c member
    obtain ⟨d, inside, rfl⟩ := List.mem_map.mp member
    have nonzero : d ≠ 0 := by simpa using nul d inside
    simpa [(toupper_class d).2] using nonzero

theorem upper_field (size : Nat) (text : Bytes) (valid : isField size text = true) :
    isField size (text.map toupper) = true := by
  rw [field_stored] at valid ⊢
  exact ⟨upper_stored text valid.1, by rw [List.length_map]; exact valid.2⟩

theorem words_after (mark value : Bytes) (closed : mark.getLast?.all isSpace = true) (word : isWord value = true) :
    words (mark ++ value) = words mark ++ [value] := by
  rw [words_append mark value closed, words_word value word]

def settingFields (settings : Settings) : List (List Bytes) :=
  [[ascii "static", staticFlag settings], [], ascii "#" :: words (ascii "The start and end of the IP lease block"),
    [ascii "start", settings.start], [ascii "end", settings.last], [],
    ascii "#" :: words (ascii "The interface that udhcpd will use"), [ascii "interface", settings.interface], [],
    [ascii "#", ascii "Options"], [ascii "opt", ascii "lease", settings.time], [],
    [ascii "opt", ascii "router", settings.router], [], [ascii "opt", ascii "subnet", ascii "255.255.255.0"], [],
    [ascii "opt", ascii "dns", settings.dns1], [], [ascii "opt", ascii "dns", settings.dns2], [],
    [ascii "#", ascii "Static", ascii "leases", ascii "map"]]

theorem flag_field (settings : Settings) : isField 64 (staticFlag settings) = true := by
  unfold staticFlag
  split <;> decide

theorem setting_words (settings : Settings) (stored : Stored settings) :
    (settingLines settings).map words = settingFields settings := by
  have after : ∀ (mark : String) (value : Bytes) (fields : List Bytes), (ascii mark).getLast?.all isSpace = true →
      words (ascii mark) = fields → isStored value = true → words (ascii mark ++ value) = fields ++ [value] := by
    intro mark value fields closed same field
    rw [words_after _ value closed (stored_spec value field).1, same]
  simp only [settingLines, List.map_cons, List.map_nil]
  rw [after "static " _ [ascii "static"] (by decide) (by decide) ((field_stored 64 _).mp (flag_field settings)).1,
    after "start " _ [ascii "start"] (by decide) (by decide) stored.start,
    after "end   " _ [ascii "end"] (by decide) (by decide) stored.last,
    after "interface " _ [ascii "interface"] (by decide) (by decide) stored.interface,
    after "opt lease " _ [ascii "opt", ascii "lease"] (by decide) (by decide) stored.time,
    after "opt router " _ [ascii "opt", ascii "router"] (by decide) (by decide) stored.router,
    after "opt dns " settings.dns1 [ascii "opt", ascii "dns"] (by decide) (by decide) stored.dns1,
    after "opt dns " settings.dns2 [ascii "opt", ascii "dns"] (by decide) (by decide) stored.dns2]
  have fixed : [[], ascii "# The start and end of the IP lease block", ascii "# The interface that udhcpd will use",
      ascii "# Options", ascii "opt subnet 255.255.255.0", ascii "# Static leases map"].map words =
      [[], ascii "#" :: words (ascii "The start and end of the IP lease block"),
        ascii "#" :: words (ascii "The interface that udhcpd will use"), [ascii "#", ascii "Options"],
        [ascii "opt", ascii "subnet", ascii "255.255.255.0"], [ascii "#", ascii "Static", ascii "leases",
        ascii "map"]] := by
    decide +kernel
  simp only [List.map_cons, List.map_nil, List.cons.injEq, and_true] at fixed
  obtain ⟨blank, block, interface, options, subnet, leases⟩ := fixed
  rw [blank, block, interface, options, subnet, leases]
  rfl

theorem fold_settings (settings : Settings) :
    (settingFields settings).foldl awkFields awkBegin =
      ⟨staticFlag settings, settings.interface, settings.start, settings.last, settings.time, settings.router, 2,
        settings.dns1, settings.dns2, []⟩ := rfl

theorem record_lease (state : AwkState) (static : Bool) (lease : Bytes × Bytes) (macStored : isStored lease.1 = true)
    (ipStored : isStored lease.2 = true) :
    awkRecord state (leaseLine static lease.1 lease.2) =
      { state with staticLease := state.staticLease ++ [upperLease lease] } := by
  have mac := (stored_spec _ (upper_stored lease.1 macStored)).1
  have ip := (stored_spec _ ipStored).1
  have blank : ascii " " = [32] := rfl
  have pair : words (lease.1.map toupper ++ ascii " " ++ lease.2) = [lease.1.map toupper, lease.2] := by
    rw [blank, List.append_assoc, List.singleton_append, words_word_space _ _ 32 mac (by decide), words_word _ ip]
  cases static with
  | true =>
      have mark : words (ascii "static_lease ") = [ascii "static_lease"] := by decide
      have fields : words (leaseLine true lease.1 lease.2) = [ascii "static_lease", lease.1.map toupper, lease.2] := by
        rw [leaseLine, if_pos rfl, List.append_assoc, List.append_assoc, words_append _ _ (by decide), mark,
          ← List.append_assoc, pair]
        rfl
      rw [awkRecord, fields]
      rfl
  | false =>
      have mark : words (ascii "# static_lease ") = [ascii "#", ascii "static_lease"] := by decide
      have fields : words (leaseLine false lease.1 lease.2) =
          [ascii "#", ascii "static_lease", lease.1.map toupper, lease.2] := by
        rw [leaseLine, if_neg (by decide), List.append_assoc, List.append_assoc, words_append _ _ (by decide), mark,
          ← List.append_assoc, pair]
        rfl
      rw [awkRecord, fields]
      rfl

theorem records_leases (state : AwkState) (static : Bool) (leases : List (Bytes × Bytes))
    (stored : ∀ lease ∈ leases, isStored lease.1 = true ∧ isStored lease.2 = true) :
    (leases.map fun lease => leaseLine static lease.1 lease.2).foldl awkRecord state =
      { state with staticLease := state.staticLease ++ leases.map upperLease } := by
  induction leases generalizing state with
  | nil => simp
  | cons lease rest ih =>
      obtain ⟨mac, ip⟩ := stored lease (by simp)
      rw [List.map_cons, List.foldl_cons, record_lease state static lease mac ip,
        ih _ fun other member => stored other (by simp [member]), List.map_cons, List.append_assoc]
      rfl

def readState (settings : Settings) : AwkState :=
  ⟨staticFlag settings, settings.interface, settings.start, settings.last, settings.time, settings.router, 2,
    settings.dns1, settings.dns2, settings.leases.map upperLease⟩

theorem status_records (settings : Settings) (stored : Stored settings) :
    (linesOf settings).foldl awkRecord awkBegin = readState settings := by
  have fields : (settingLines settings).foldl awkRecord awkBegin =
    (settingFields settings).foldl awkFields awkBegin := by
    rw [← setting_words settings stored, List.foldl_map]
    rfl
  rw [linesOf, List.foldl_append, fields, fold_settings, records_leases _ _ _ stored.leases]
  rfl

def reported (settings : Settings) : List (String × Bytes) :=
  [("INTERFACE", settings.interface), ("START", settings.start), ("END", settings.last), ("ROUTER", settings.router),
   ("TIME", settings.time), ("STATIC", staticFlag settings), ("DNS1", settings.dns1), ("DNS2", settings.dns2)]

-- Everything that the status branch reads into its arrays of 64 bytes
structure Short (settings : Settings) : Prop where
  values : ∀ item ∈ reported settings, item.2.length < 64
  leases : ∀ lease ∈ settings.leases, lease.1.length < 64 ∧ lease.2.length < 64

theorem Valid.short {settings : Settings} (valid : Valid settings) : Short settings where
  values := by
    simp only [reported, List.forall_mem_cons]
    exact ⟨((field_stored 64 _).mp valid.interface).2, ((field_stored 64 _).mp valid.start).2,
      ((field_stored 64 _).mp valid.last).2,
      ((field_stored 64 _).mp valid.router).2, ((field_stored 64 _).mp valid.time).2,
      ((field_stored 64 _).mp (flag_field settings)).2,
      ((field_stored 64 _).mp valid.dns1).2, ((field_stored 64 _).mp valid.dns2).2, by simp⟩
  leases := fun lease member =>
    ⟨((field_stored 64 _).mp (valid.leases lease member).1).2, ((field_stored 64 _).mp (valid.leases lease member).2).2⟩

theorem awk_end_lines (settings : Settings) (stored : Stored settings) :
    awkEnd (readState settings) =
      (reported settings).map (fun item => printValue item.1 item.2) ++
      (settings.leases.map upperLease).map printLease := by
  have kept : ((settings.leases.map upperLease).filter fun lease => lease.1 != []) =
    settings.leases.map upperLease := by
    rw [List.filter_eq_self]
    intro lease member
    obtain ⟨old, inside, rfl⟩ := List.mem_map.mp member
    have word := (stored_spec _ (upper_stored old.1 (stored.leases old inside).1)).1
    rw [isWord, Bool.and_eq_true] at word
    simpa [upperLease] using word.1
  rw [awkEnd, show (readState settings).staticLease = settings.leases.map upperLease from rfl, kept]
  rfl

def isTag (tag : String) : Bool :=
  isField 16 (ascii tag ++ ascii ":") &&
    decide ((valueTags.filter fun other => decide (ascii tag ++ ascii ":" = other ++ ascii ":")) = [ascii tag])

theorem status_value_line (item : String × Bytes) (tagged : isTag item.1 = true) (valid : isField 64 item.2 = true) :
    statusLine (printValue item.1 item.2 ++ [10]) = some [.value (ascii item.1) item.2] := by
  simp only [isTag, Bool.and_eq_true, decide_eq_true_eq] at tagged
  obtain ⟨tagField, tags⟩ := tagged
  obtain ⟨tagWord, tagShort, tagNul, _⟩ := field_spec 16 _ tagField
  obtain ⟨word, short, nul, _⟩ := field_spec 64 _ valid
  have shape : printValue item.1 item.2 ++ [10] = (ascii item.1 ++ ascii ":") ++ 32 :: 32 :: (item.2 ++ 10 :: []) := by
    have gap : ascii ":  " = ascii ":" ++ [32, 32] := rfl
    simp [printValue, gap]
  have plain : (0 : UInt8) ∉ printValue item.1 item.2 ++ [10] := by
    rw [shape, List.mem_append, not_or]
    exact ⟨tagNul, by simp [nul]⟩
  have scanned : (words (cstr (printValue item.1 item.2 ++ [10]))).take 3 = [ascii item.1 ++ ascii ":", item.2] := by
    rw [cstr_plain _ plain, shape, words_word_space _ _ 32 tagWord (by decide), words_space_cons 32 _ (by decide),
      words_word_space item.2 [] 10 word (by decide)]
    rfl
  have tagFits : (ascii item.1 ++ ascii ":").length < 64 := by omega
  simp only [statusLine, scanned, List.all_cons, List.all_nil, decide_eq_true tagFits, decide_eq_true short,
    Bool.and_true,
    Bool.not_true, Bool.false_eq_true, if_false, tags, List.map_cons, List.map_nil]

theorem status_lease_line (lease : Bytes × Bytes) (macValid : isField 64 lease.1 = true)
    (ipValid : isField 64 lease.2 = true) :
    statusLine (printLease lease ++ [10]) = some [.lease lease.1 lease.2] := by
  obtain ⟨macWord, macShort, macNul, _⟩ := field_spec 64 _ macValid
  obtain ⟨ipWord, ipShort, ipNul, _⟩ := field_spec 64 _ ipValid
  have shape : printLease lease ++ [10] = ascii "STATIC_LEASE: " ++ (lease.1 ++ 32 :: (lease.2 ++ 10 :: [])) := by
    have blank : ascii " " = [32] := rfl
    simp [printLease, blank]
  have mark : words (ascii "STATIC_LEASE: ") = [ascii "STATIC_LEASE:"] := by decide
  have markNul : (0 : UInt8) ∉ ascii "STATIC_LEASE: " := by decide
  have plain : (0 : UInt8) ∉ printLease lease ++ [10] := by
    rw [shape]
    simp [markNul, macNul, ipNul]
  have scanned : (words (cstr (printLease lease ++ [10]))).take 3 = [ascii "STATIC_LEASE:", lease.1, lease.2] := by
    rw [cstr_plain _ plain, shape, words_append _ _ (by decide), mark, words_word_space _ _ 32 macWord (by decide),
      words_word_space lease.2 [] 10 ipWord (by decide)]
    rfl
  have tagFits : (ascii "STATIC_LEASE:").length < 64 := by decide
  simp only [statusLine, scanned, List.all_cons, List.all_nil, decide_eq_true tagFits, decide_eq_true macShort,
    decide_eq_true ipShort, Bool.and_true, Bool.not_true, Bool.false_eq_true, if_false, if_true]

theorem reported_stored (settings : Settings) (stored : Stored settings) :
    ∀ item ∈ reported settings, isTag item.1 = true ∧ isStored item.2 = true := by
  simp only [reported, List.forall_mem_cons]
  exact ⟨⟨by decide, stored.interface⟩, ⟨by decide, stored.start⟩, ⟨by decide, stored.last⟩, ⟨by decide, stored.router⟩,
    ⟨by decide, stored.time⟩, ⟨by decide, ((field_stored 64 _).mp (flag_field settings)).1⟩, ⟨by decide, stored.dns1⟩,
    ⟨by decide, stored.dns2⟩, by simp⟩

theorem print_value_plain (item : String × Bytes) (tagged : isTag item.1 = true) (valid : isField 64 item.2 = true) :
    (10 : UInt8) ∉ printValue item.1 item.2 ∧ (printValue item.1 item.2).length + 1 < 1024 := by
  simp only [isTag, Bool.and_eq_true, decide_eq_true_eq] at tagged
  obtain ⟨_, tagShort, _, tagNewline⟩ := field_spec 16 _ tagged.1
  obtain ⟨_, short, _, newline⟩ := field_spec 64 _ valid
  have shape : printValue item.1 item.2 = (ascii item.1 ++ ascii ":") ++ 32 :: 32 :: item.2 := by
    have gap : ascii ":  " = ascii ":" ++ [32, 32] := rfl
    simp [printValue, gap]
  rw [shape, List.mem_append, not_or, List.length_append]
  refine ⟨⟨tagNewline, by simp [newline]⟩, ?_⟩
  simp only [List.length_cons]
  omega

theorem print_lease_plain (lease : Bytes × Bytes) (macValid : isField 64 lease.1 = true)
    (ipValid : isField 64 lease.2 = true) :
    (10 : UInt8) ∉ printLease lease ∧ (printLease lease).length + 1 < 1024 := by
  obtain ⟨_, macShort, _, macNewline⟩ := field_spec 64 _ macValid
  obtain ⟨_, ipShort, _, ipNewline⟩ := field_spec 64 _ ipValid
  have mark : (10 : UInt8) ∉ ascii "STATIC_LEASE: " ∧ (ascii "STATIC_LEASE: ").length = 14 := by decide
  have blank : ascii " " = [32] := rfl
  simp only [printLease, blank, List.mem_append, List.length_append, not_or, mark.2, List.length_singleton]
  exact ⟨⟨⟨⟨mark.1, macNewline⟩, by decide⟩, ipNewline⟩, by omega⟩

def runningEntry (running : Bool) : Entry :=
  .value (ascii "STATUS") (if running then ascii "running" else ascii "stopped")

def runningLine (running : Bool) : Bytes := if running then ascii "STATUS: running" else ascii "STATUS: stopped"

theorem status_running_line (running : Bool) :
    statusLine (runningLine running ++ [10]) = some [runningEntry running] := by
  cases running <;> decide

theorem status_of_state (running : Bool) (settings : Settings) (stored : Stored settings) (short : Short settings) :
    ((fgets 1024 (unlines ([runningLine running] ++ awkEnd (readState settings)))).mapM statusLine).map List.flatten =
      some (runningEntry running :: ((reported settings).map (fun item => .value (ascii item.1) item.2) ++
        (settings.leases.map upperLease).map fun lease => .lease lease.1 lease.2)) := by
  have values : ∀ item ∈ reported settings, isTag item.1 = true ∧ isField 64 item.2 = true := by
    intro item member
    obtain ⟨tagged, field⟩ := reported_stored settings stored item member
    exact ⟨tagged, (field_stored 64 _).mpr ⟨field, short.values item member⟩⟩
  have leases : ∀ lease ∈ settings.leases.map upperLease, isField 64 lease.1 = true ∧ isField 64 lease.2 = true := by
    intro lease member
    obtain ⟨old, inside, rfl⟩ := List.mem_map.mp member
    have mac := (field_stored 64 _).mpr ⟨(stored.leases old inside).1, (short.leases old inside).1⟩
    exact ⟨upper_field 64 old.1 mac, (field_stored 64 _).mpr ⟨(stored.leases old inside).2,
      (short.leases old inside).2⟩⟩
  rw [awk_end_lines settings stored]
  have plain : ∀ line ∈ [runningLine running] ++ ((reported settings).map (fun item => printValue item.1 item.2) ++
      (settings.leases.map upperLease).map printLease), (10 : UInt8) ∉ line ∧ line.length + 1 < 1024 := by
    intro line member
    rcases List.mem_append.mp member with first | rest
    · rw [List.mem_singleton.mp first]
      cases running <;> decide
    · rcases List.mem_append.mp rest with value | lease
      · obtain ⟨item, inside, rfl⟩ := List.mem_map.mp value
        exact print_value_plain item (values item inside).1 (values item inside).2
      · obtain ⟨item, inside, rfl⟩ := List.mem_map.mp lease
        exact print_lease_plain item (leases item inside).1 (leases item inside).2
  have valueRun : (((reported settings).map fun item => printValue item.1 item.2).map fun line => line ++
    [10]).mapM statusLine =
      some ((reported settings).map fun item => [Entry.value (ascii item.1) item.2]) := by
    apply read_printed statusLine
    intro item inside
    exact status_value_line item (values item inside).1 (values item inside).2
  have leaseRun : (((settings.leases.map upperLease).map printLease).map fun line => line ++ [10]).mapM statusLine =
      some ((settings.leases.map upperLease).map fun lease => [Entry.lease lease.1 lease.2]) := by
    apply read_printed statusLine
    intro lease inside
    exact status_lease_line lease (leases lease inside).1 (leases lease inside).2
  rw [fgets_unlines 1024 _ (fun line member => (plain line member).1) fun line member => (plain line member).2,
    List.map_append, List.map_append, List.mapM_append, List.mapM_append, valueRun, leaseRun, List.map_singleton]
  simp only [List.mapM_cons, List.mapM_nil, status_running_line]
  simp [List.flatten_eq_flatMap, List.flatMap_map, ← List.map_eq_flatMap, Function.comp_def]

theorem lease_line_plain (static : Bool) (lease : Bytes × Bytes) (macStored : isStored lease.1 = true)
    (ipStored : isStored lease.2 = true) : (10 : UInt8) ∉ leaseLine static lease.1 lease.2 := by
  obtain ⟨_, _, macNewline⟩ := stored_spec _ (upper_stored lease.1 macStored)
  obtain ⟨_, _, ipNewline⟩ := stored_spec _ ipStored
  have marks : (10 : UInt8) ∉ ascii "static_lease " ∧ (10 : UInt8) ∉ ascii "# static_lease " := by decide
  have blank : (10 : UInt8) ∉ ascii " " := by decide
  cases static with
  | true =>
      simp only [leaseLine, if_true, List.mem_append, marks.1, macNewline, blank, ipNewline, or_self, not_false_eq_true]
  | false =>
      simp only [leaseLine, Bool.false_eq_true, if_false, List.mem_append, marks.2, macNewline, blank, ipNewline,
        or_self,
        not_false_eq_true]

theorem setting_lines_plain (settings : Settings) (stored : Stored settings) :
    ∀ line ∈ settingLines settings, (10 : UInt8) ∉ line := by
  have value : ∀ (mark : String) (text : Bytes), (10 : UInt8) ∉ ascii mark → isStored text = true →
      (10 : UInt8) ∉ ascii mark ++ text := by
    intro mark text fixed field
    simp [fixed, (stored_spec text field).2.2]
  have blank : (10 : UInt8) ∉ ([] : Bytes) := List.not_mem_nil
  simp only [settingLines, List.forall_mem_cons]
  exact ⟨value "static " _ (by decide) ((field_stored 64 _).mp (flag_field settings)).1, blank, by decide,
    value "start " _ (by decide) stored.start, value "end   " _ (by decide) stored.last, blank, by decide,
    value "interface " _ (by decide) stored.interface, blank, by
    decide, value "opt lease " _ (by decide) stored.time, blank,
    value "opt router " _ (by decide) stored.router, blank, by
    decide, blank, value "opt dns " _ (by decide) stored.dns1, blank,
    value "opt dns " _ (by decide) stored.dns2, blank, by decide, by simp⟩

theorem lines_of_plain (settings : Settings) (stored : Stored settings) :
    ∀ line ∈ linesOf settings, (10 : UInt8) ∉ line := by
  rw [linesOf]
  intro line member
  rcases List.mem_append.mp member with setting | lease
  · exact setting_lines_plain settings stored line setting
  · obtain ⟨item, inside, rfl⟩ := List.mem_map.mp lease
    exact lease_line_plain _ item (stored.leases item inside).1 (stored.leases item inside).2

theorem status_of_stored (running : Bool) (settings : Settings) (stored : Stored settings) :
    dhcpStatus running (unlines (linesOf settings)) =
      ((fgets 1024 (unlines ([runningLine running] ++
      awkEnd (readState settings)))).mapM statusLine).map List.flatten := by
  rw [dhcpStatus, statusDhcp, lines_unlines _ (lines_of_plain settings stored), status_records settings stored]
  rfl

-- What status_dhcp.sh reads is what the last set request wrote, so the answer
-- gives every setting back and the leases in their order, whether they were
-- written as directives or as comments.
theorem dhcp_round_trip (running : Bool) (conf enable : Bytes) (req : Request) (settings : Settings)
    (enabled : getstr req "enable" = some enable) (gives : Gives req settings) (valid : Valid settings) :
    (dhcpSet true conf req).2 = .ok (decide (enable = ascii "true")) ∧
      dhcpStatus running (dhcpSet true conf req).1 =
        some ([.value (ascii "STATUS") (if running then ascii "running" else ascii "stopped"),
            .value (ascii "INTERFACE") settings.interface, .value (ascii "START") settings.start,
            .value (ascii "END") settings.last, .value (ascii "ROUTER") settings.router,
            .value (ascii "TIME") settings.time,
            .value (ascii "STATIC") (if settings.static = ascii "true" then ascii "1" else ascii "0"),
            .value (ascii "DNS1") settings.dns1, .value (ascii "DNS2") settings.dns2] ++
          settings.leases.map fun lease => .lease (lease.1.map toupper) lease.2) := by
  have written : dhcpSet true conf req = (unlines (linesOf settings), .ok (decide (enable = ascii "true"))) := by
    rw [dhcpSet, if_neg (by decide), enabled, udhcpdConf, udhcpd_lines_gives req settings gives]
  rw [written, status_of_stored running settings valid.stored,
    status_of_state running settings valid.stored valid.short,
    List.map_map]
  exact ⟨rfl, rfl⟩

def sampleSettings : Settings :=
  ⟨ascii "eth0", ascii "false", ascii "192.168.0.20", ascii "192.168.0.254", ascii "192.168.0.1", ascii "86400",
    ascii "168.126.63.1", ascii "static_lease", [(ascii "00:1a:2b:3c:4d:5e", ascii "192.168.0.30"),
    (ascii "#", ascii "opt")]⟩

def sampleRequest : Request :=
  ⟨[(ascii "enable", ascii "true"), (ascii "if", ascii "eth0"), (ascii "static", ascii "false"),
    (ascii "start", ascii "192.168.0.20"), (ascii "end", ascii "192.168.0.254"), (ascii "router", ascii "192.168.0.1"),
    (ascii "time", ascii "86400"), (ascii "dns1", ascii "168.126.63.1"), (ascii "dns2", ascii "static_lease"),
    (ascii "mac0", ascii "00:1a:2b:3c:4d:5e"), (ascii "ip0", ascii "192.168.0.30"), (ascii "mac1", ascii "#"),
    (ascii "ip1", ascii "opt")]⟩

theorem sample_gives : Gives sampleRequest sampleSettings := by
  have beyond : ∀ stem ∈ ["mac", "ip"], ∀ i, getstrf sampleRequest stem (i + 2) = none := by
    intro stem member i
    apply numbered_absent _ stem 2 (i + 2) (by omega)
    revert stem
    decide
  refine ⟨rfl, rfl, rfl, rfl, rfl, rfl, rfl, rfl, ?_, ?_⟩
  · intro i
    match i with
    | 0 => rfl
    | 1 => rfl
    | i + 2 => exact beyond "mac" (by simp) i
  · intro i
    match i with
    | 0 => rfl
    | 1 => rfl
    | i + 2 => exact beyond "ip" (by simp) i

theorem sample_valid : Valid sampleSettings := by
  constructor <;> decide

-- The second lease and dns2 look like directives of the file and are read as data.
theorem dhcp_round_trip_sample :
    dhcpStatus true (dhcpSet true [] sampleRequest).1 =
      some [.value (ascii "STATUS") (ascii "running"), .value (ascii "INTERFACE") (ascii "eth0"),
        .value (ascii "START") (ascii "192.168.0.20"), .value (ascii "END") (ascii "192.168.0.254"),
        .value (ascii "ROUTER") (ascii "192.168.0.1"), .value (ascii "TIME") (ascii "86400"),
        .value (ascii "STATIC") (ascii "0"), .value (ascii "DNS1") (ascii "168.126.63.1"),
        .value (ascii "DNS2") (ascii "static_lease"), .lease (ascii "00:1A:2B:3C:4D:5E") (ascii "192.168.0.30"),
        .lease (ascii "#") (ascii "opt")] := by
  have trip := (dhcp_round_trip true [] (ascii "true") sampleRequest sampleSettings rfl sample_gives sample_valid).2
  rw [trip]
  decide

end Ftm50s.Dhcp
