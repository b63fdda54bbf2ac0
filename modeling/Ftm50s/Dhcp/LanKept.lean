import Ftm50s.Dhcp.LanChange
import Ftm50s.Dhcp.Overrun

set_option autoImplicit false

namespace Ftm50s.Dhcp.LanChange

open Lib.Text Lib.Decimal
open Ftm50s.Cgi
open Ftm50s.Syslog

-- The fields of the request that keeps the settings
def fixedFields (running : Bool) (settings : Settings) : List (Bytes × Bytes) :=
  [(ascii "enable", flagBytes running), (ascii "if", settings.interface), (ascii "start", settings.start),
    (ascii "end", settings.last),
    (ascii "router", settings.router), (ascii "time", settings.time), (ascii "static", settings.static),
    (ascii "dns1", settings.dns1), (ascii "dns2", settings.dns2)]

def keptFields (running : Bool) (settings : Settings) : List (Bytes × Bytes) :=
  setEntry :: (fixedFields running settings ++ leaseParams 0 settings.leases)

theorem kept_fields_split (running : Bool) (settings : Settings) :
    keptFields running settings = (setEntry :: fixedFields running settings) ++ leaseParams 0 settings.leases := rfl

theorem lease_params_mem {α : Type} (i : Nat) (leases : List (α × α)) (field : Bytes × α) :
    field ∈ leaseParams i leases ↔ ∃ k lease, leases[k]? = some lease ∧
      (field = (ascii "mac" ++ decimal (i + k), lease.1) ∨ field = (ascii "ip" ++ decimal (i + k), lease.2)) := by
  induction leases generalizing i with
  | nil => simp [leaseParams]
  | cons lease rest ih =>
      rw [leaseParams, List.mem_cons, List.mem_cons, ih (i + 1)]
      constructor
      · rintro (rfl | rfl | ⟨k, own, found, named⟩)
        · exact ⟨0, lease, rfl, Or.inl rfl⟩
        · exact ⟨0, lease, rfl, Or.inr rfl⟩
        · refine ⟨k + 1, own, found, ?_⟩
          rwa [Nat.add_right_comm, Nat.add_assoc] at named
      · rintro ⟨k, own, found, named⟩
        cases k with
        | zero =>
            obtain rfl := Option.some.inj found
            rcases named with rfl | rfl
            · exact Or.inl rfl
            · exact Or.inr (Or.inl rfl)
        | succ k =>
            refine Or.inr (Or.inr ⟨k, own, found, ?_⟩)
            rwa [Nat.add_right_comm, Nat.add_assoc]

theorem lease_names : ascii "mac" = [109, 97, 99] ∧ ascii "ip" = [105, 112] := by decide

theorem mac_ip_apart (i k : Nat) : ascii "mac" ++ decimal i ≠ ascii "ip" ++ decimal k := by
  simp [lease_names]

theorem lease_params_names (i : Nat) (leases : List (Bytes × Bytes)) : ((leaseParams i leases).map Prod.fst).Nodup := by
  induction leases generalizing i with
  | nil => exact List.nodup_nil
  | cons lease rest ih =>
      have later : ∀ name ∈ (leaseParams (i + 1) rest).map Prod.fst, ∃ k, i < k ∧
          (name = ascii "mac" ++ decimal k ∨ name = ascii "ip" ++ decimal k) := by
        intro name member
        obtain ⟨field, inside, rfl⟩ := List.mem_map.mp member
        obtain ⟨k, _, _, named⟩ := (lease_params_mem (i + 1) rest field).mp inside
        exact ⟨i + 1 + k, by omega, named.imp (congrArg Prod.fst) (congrArg Prod.fst)⟩
      have other : ∀ k, i < k → decimal i ≠ decimal k := fun k less same => by
        have equal := decimal_injective i k same
        omega
      rw [leaseParams, List.map_cons, List.map_cons, List.nodup_cons, List.nodup_cons, List.mem_cons, not_or]
      refine ⟨⟨mac_ip_apart i i, fun member => ?_⟩, fun member => ?_, ih (i + 1)⟩
      · obtain ⟨k, less, same | same⟩ := later _ member
        · exact other k less (List.append_cancel_left same)
        · exact mac_ip_apart i k same
      · obtain ⟨k, less, same | same⟩ := later _ member
        · exact mac_ip_apart k i same.symm
        · exact other k less (List.append_cancel_left same)

theorem fixed_names (running : Bool) (settings : Settings) :
    ((setEntry :: fixedFields running settings).map Prod.fst).Nodup ∧
      ∀ field ∈ setEntry :: fixedFields running settings, isPlainName field.1 = true ∧
        ∀ i, field.1 ≠ ascii "mac" ++ decimal i ∧ field.1 ≠ ascii "ip" ++ decimal i := by
  have names : (setEntry :: fixedFields running settings).map Prod.fst =
      ["cmd", "enable", "if", "start", "end", "router", "time", "static", "dns1", "dns2"].map ascii := rfl
  have known : ∀ name ∈ ["cmd", "enable", "if", "start", "end", "router", "time", "static", "dns1", "dns2"].map ascii,
      isPlainName name = true ∧ name.take 2 ≠ [109, 97] ∧ name.take 2 ≠ [105, 112] := by
    decide +kernel
  constructor
  · rw [names]
    decide +kernel
  · intro field member
    obtain ⟨plain, mac, ip⟩ := known field.1 (names ▸ List.mem_map_of_mem member)
    refine ⟨plain, fun i => ⟨fun same => mac ?_, fun same => ip ?_⟩⟩
    · simp [same, lease_names]
    · simp [same, lease_names]

theorem kept_fields_plain (running : Bool) (settings : Settings) :
    ∀ field ∈ keptFields running settings, isPlainName field.1 = true := by
  intro field member
  rw [keptFields, ← List.cons_append, List.mem_append] at member
  rcases member with fixed | own
  · exact ((fixed_names running settings).2 field fixed).1
  · obtain ⟨k, lease, _, rfl | rfl⟩ := (lease_params_mem 0 _ field).mp own
    · exact numbered_name_plain "mac" _ (by decide)
    · exact numbered_name_plain "ip" _ (by decide)

theorem kept_fields_names (running : Bool) (settings : Settings) :
    ((keptFields running settings).map Prod.fst).Nodup := by
  rw [keptFields, ← List.cons_append, List.map_append]
  refine List.Nodup.append (fixed_names running settings).1 (lease_params_names 0 settings.leases) ?_
  intro name fixed own
  obtain ⟨field, inside, rfl⟩ := List.mem_map.mp fixed
  obtain ⟨other, here, same⟩ := List.mem_map.mp own
  obtain ⟨k, lease, _, rfl | rfl⟩ := (lease_params_mem 0 _ other).mp here
  · exact (((fixed_names running settings).2 field inside).2 _).1 same.symm
  · exact (((fixed_names running settings).2 field inside).2 _).2 same.symm

theorem kept_fields_mac (running : Bool) (settings : Settings) (i : Nat) :
    getData ⟨keptFields running settings⟩ (ascii "mac" ++ decimal i) = settings.leases[i]?.map Prod.fst ∧
      getData ⟨keptFields running settings⟩ (ascii "ip" ++ decimal i) = settings.leases[i]?.map Prod.snd := by
  have distinct := kept_fields_names running settings
  cases found : settings.leases[i]? with
  | some lease =>
      have listed := fun field => (lease_params_mem 0 settings.leases field).mpr
      have behind : ∀ field ∈ leaseParams 0 settings.leases, field ∈ keptFields running settings := fun field member =>
        List.mem_cons_of_mem _ (List.mem_append_right _ member)
      have mac := get_data_mem _ distinct _ (behind _ (listed _ ⟨i, lease, found, Or.inl rfl⟩))
      have ip := get_data_mem _ distinct _ (behind _ (listed _ ⟨i, lease, found, Or.inr rfl⟩))
      rw [Nat.zero_add] at mac ip
      exact ⟨mac, ip⟩
  | none =>
      have absent : ∀ stem, stem = "mac" ∨ stem = "ip" → getData ⟨keptFields running settings⟩ (ascii stem ++
        decimal i) = none := by
        intro stem lease
        by_contra given
        obtain ⟨field, member, name⟩ := List.mem_map.mp (get_data_entry _ _ given)
        rw [kept_fields_split, List.mem_append] at member
        rcases member with fixed | own
        · have apart := ((fixed_names running settings).2 field fixed).2 i
          rcases lease with rfl | rfl
          · exact apart.1 name
          · exact apart.2 name
        · obtain ⟨k, entry, here, named⟩ := (lease_params_mem 0 _ field).mp own
          rw [Nat.zero_add] at named
          have same : k = i := by
            rcases lease with rfl | rfl <;> rcases named with rfl | rfl
            · exact decimal_injective _ _ (List.append_cancel_left name)
            · exact absurd name.symm (mac_ip_apart _ _)
            · exact absurd name (mac_ip_apart _ _)
            · exact decimal_injective _ _ (List.append_cancel_left name)
          rw [same, found] at here
          cases here
      exact ⟨absent "mac" (Or.inl rfl), absent "ip" (Or.inr rfl)⟩

theorem kept_fields_gives (running : Bool) (config : StoredConfig) (first second : Dotted)
    (clean : ∀ field ∈ keptFields running (keptSettings config first second), isSendable field.2 = true) :
    Keeps running config first second ⟨keptFields running (keptSettings config first second)⟩ := by
  have distinct := kept_fields_names running (keptSettings config first second)
  have strings : ∀ name value, getData ⟨keptFields running (keptSettings config first second)⟩ name = some value →
      cstr value = value := by
    intro name value found
    obtain ⟨entry, hit, rfl⟩ := Option.map_eq_some_iff.mp found
    exact cstr_plain _ (sendable_absent _ (clean entry (List.mem_of_find?_eq_some hit)) 0 rfl)
  have fixed : ∀ (name : String) (value : Bytes),
      (ascii name, value) ∈ setEntry :: fixedFields running (keptSettings config first second) →
      getstr ⟨keptFields running (keptSettings config first second)⟩ name = some value := by
    intro name value member
    have found := get_data_mem _ distinct (ascii name, value) (List.mem_append_left _ member : _ ∈ (_ :: _) ++ _)
    rw [getstr, found, Option.map_some, strings _ value found]
  have numbered : ∀ (stem : String) (i : Nat) (value : Option Bytes),
      getData ⟨keptFields running (keptSettings config first second)⟩ (ascii stem ++ decimal i) = value →
        getstrf ⟨keptFields running (keptSettings config first second)⟩ stem i = value := by
    intro stem i value found
    rw [getstrf, found]
    cases value with
    | none => rfl
    | some value => rw [Option.map_some, strings _ value found]
  refine ⟨fixed _ _ (by simp [setEntry]), fixed _ _ (by simp [fixedFields]), ?_⟩
  constructor
  · exact fixed _ _ (by simp [fixedFields])
  · exact fixed _ _ (by simp [fixedFields])
  · exact fixed _ _ (by simp [fixedFields])
  · exact fixed _ _ (by simp [fixedFields])
  · exact fixed _ _ (by simp [fixedFields])
  · exact fixed _ _ (by simp [fixedFields])
  · exact fixed _ _ (by simp [fixedFields])
  · exact fixed _ _ (by simp [fixedFields])
  · exact fun i => numbered "mac" i _ (kept_fields_mac running _ i).1
  · exact fun i => numbered "ip" i _ (kept_fields_mac running _ i).2

def rawText (text : Text) : Bytes := text.map Char.toUInt8

def viewedSettings (view : Bytes → Text) (config : StoredConfig) (first second : Dotted) : Settings :=
  { keptSettings config first second with
    interface := rawText (view config.settings.interface)
    time := rawText (view config.settings.time)
    dns1 := rawText (view config.settings.dns1)
    dns2 := rawText (view config.settings.dns2)
    leases := config.leases.map fun lease => (rawText (view lease.1), rawText (view lease.2)) }

def zeroLease : List (Bytes × Bytes) := [(ascii "mac0", ascii "00:00:00:00:00:00"), (ascii "ip0", ascii "0.0.0.0")]

theorem lease_params_raw (i : Nat) (leases : List (Text × Text)) :
    (leaseParams i leases).map rawField = leaseParams i (leases.map fun lease =>
      (rawText lease.1, rawText lease.2)) := by
  induction leases generalizing i with
  | nil => rfl
  | cons lease rest ih =>
      rw [leaseParams, List.map_cons, List.map_cons, ih (i + 1)]
      rfl

theorem raw_flag (flag : Bool) : (flagText flag).map Char.toUInt8 = flagBytes flag := by
  cases flag <;> decide

theorem viewed_fields (view : Bytes → Text) (running : Bool) (config : StoredConfig) (first second : Dotted)
    (eth1 : view config.settings.interface = "eth1".toList ↔ config.settings.interface = ascii "eth1") :
    (viewedData view running config first second).map rawField = fixedFields running
      (viewedSettings view config first second) ++
      if config.settings.leases = [] then zeroLease
      else leaseParams 0 (viewedSettings view config first second).leases := by
  have net : (if view config.settings.interface = "eth1".toList then second else first) =
      if config.settings.interface = ascii "eth1" then second else first := by
    simp only [eth1]
  have back : (if (config.leases.map fun lease => (view lease.1, view lease.2)).length > 0 then
        leaseParams 0 (config.leases.map fun lease => (view lease.1, view lease.2))
      else [(ascii "mac0", "00:00:00:00:00:00".toList), (ascii "ip0", "0.0.0.0".toList)]).map rawField =
      if config.settings.leases = [] then zeroLease
      else leaseParams 0 (viewedSettings view config first second).leases := by
    by_cases empty : config.settings.leases = []
    · rw [if_pos empty, if_neg (by simp [StoredConfig.leases, empty])]
      decide
    · have some_lease : 0 < config.settings.leases.length := List.length_pos_iff.mpr empty
      rw [if_neg empty, if_pos (by simpa [StoredConfig.leases] using some_lease), lease_params_raw, List.map_map]
      rfl
  rw [viewedData, requestData, List.map_append, back, net, config.start_text, config.last_text]
  congr 1
  simp only [List.map_cons, List.map_nil, rawField, raw_flag, dotted_moved, raw_latin, fixedFields, viewedSettings,
    keptSettings, rawText]
  rfl

theorem shown_shrinks (name text : Bytes) (formed : wellFormed (latin text) = true) :
    Shrinks (name, rawText (shown text)) (name, text) := by
  obtain ⟨short, plain⟩ := decode_xml_length _ _ (decode_formed text formed)
  have length : (latin text).length = text.length := List.length_map ..
  rw [length] at short plain
  refine ⟨rfl, by simpa [rawText] using short, fun same => ?_⟩
  have whole : (shown text).length = text.length := by simpa [rawText] using same
  have marks : (38 : UInt8) ∉ text := fun member => plain whole ((latin_mem 38 text).mpr member)
  rw [(shown_same text formed).mpr marks]
  exact raw_latin text

theorem shrinks_same (field : Bytes × Bytes) : Shrinks field field := ⟨rfl, le_refl _, fun _ => rfl⟩

theorem leases_shrink (i : Nat) (leases : List (Bytes × Bytes))
    (formed : ∀ lease ∈ leases, wellFormed (latin lease.1) = true ∧ wellFormed (latin lease.2) = true) :
    List.Forall₂ Shrinks (leaseParams i (leases.map fun lease => (rawText (shown lease.1), rawText (shown lease.2))))
      (leaseParams i leases) := by
  induction leases generalizing i with
  | nil => exact List.Forall₂.nil
  | cons lease rest ih =>
      rw [List.forall_mem_cons] at formed
      exact .cons (shown_shrinks _ lease.1 formed.1.1) (.cons (shown_shrinks _ lease.2 formed.1.2)
        (ih (i + 1) formed.2))

theorem fixed_texts_kept (config : StoredConfig) :
    config.settings.interface ∈ keptTexts config ∧ config.settings.time ∈ keptTexts config ∧
      config.settings.dns1 ∈ keptTexts config ∧ config.settings.dns2 ∈ keptTexts config := by
  simp [keptTexts]

theorem lease_texts_kept (config : StoredConfig) (lease : Bytes × Bytes) (member : lease ∈ config.leases) :
    lease.1 ∈ keptTexts config ∧ lease.2 ∈ keptTexts config :=
  ⟨List.mem_append_right _ (List.mem_flatMap.mpr ⟨lease, member, by simp⟩),
    List.mem_append_right _ (List.mem_flatMap.mpr ⟨lease, member, by simp⟩)⟩

section Kept

variable (running : Bool) (config : StoredConfig) (first second : Dotted) (req : Request)

theorem keeps_found (query : Bytes) (run : parseQuery query = some req)
    (keeps : Keeps running config first second req) :
    ∀ field ∈ keptFields running (keptSettings config first second), getData req field.1 = some field.2 := by
  have stored : ∀ name value, (getData req name).map cstr = some value → getData req name = some value := by
    intro name value found
    obtain ⟨own, hit, same⟩ := Option.map_eq_some_iff.mp found
    rw [hit, ← same, parse_query_strings query req run name own hit]
  intro field member
  rw [kept_fields_split, List.mem_append] at member
  rcases member with fixed | own
  · simp only [fixedFields, List.mem_cons, List.not_mem_nil, or_false] at fixed
    have gives := keeps.gives
    rcases fixed with rfl | rfl | rfl | rfl | rfl | rfl | rfl | rfl | rfl | rfl
    · exact stored _ _ keeps.cmd
    · exact stored _ _ keeps.enable
    · exact stored _ _ gives.interface
    · exact stored _ _ gives.start
    · exact stored _ _ gives.last
    · exact stored _ _ gives.router
    · exact stored _ _ gives.time
    · exact stored _ _ gives.static
    · exact stored _ _ gives.dns1
    · exact stored _ _ gives.dns2
  · obtain ⟨k, lease, found, named⟩ := (lease_params_mem 0 _ field).mp own
    rw [Nat.zero_add] at named
    rcases named with rfl | rfl
    · exact stored _ _ ((keeps.gives.mac k).trans (by rw [found]; rfl))
    · exact stored _ _ ((keeps.gives.ip k).trans (by rw [found]; rfl))

theorem arrived_given (data : List (Bytes × Text)) (ran : arrived data = some req) :
    (∀ field ∈ data, field.2.all isAscii = true) ∧ parseQuery (sent (formText (setEntry :: data.map rawField))) =
    some req := by
  rw [arrived] at ran
  split at ran
  · rename_i plain
    exact ⟨List.all_eq_true.mp plain, ran⟩
  · cases ran

theorem eth1_latin (text : Bytes) : latin text = "eth1".toList ↔ text = ascii "eth1" := by
  have same : latin (ascii "eth1") = "eth1".toList := by decide
  constructor
  · intro equal
    rw [← raw_latin text, equal, ← same, raw_latin]
  · rintro rfl
    exact same

variable (formed : Formed (statusEntries running config.settings)) (keeps : Keeps running config first second req)

include formed keeps

-- The interface stands in front of all that depends on it.
theorem kept_interface (ran : arrived (viewedData shown running config first second) = some req) :
    shown config.settings.interface = latin config.settings.interface := by
  obtain ⟨plain, run⟩ := arrived_given req _ ran
  have texts := ((formed_iff running config).mp formed).2
  have found := keeps_found running config first second req _ run keeps
  have names := kept_fields_names running (keptSettings config first second)
  have named := kept_fields_plain running (keptSettings config first second)
  obtain ⟨wantedBack, wanted⟩ : ∃ back, keptFields running (keptSettings config first second) =
      [setEntry, (ascii "enable", flagBytes running), (ascii "if", config.settings.interface)] ++ back := ⟨_, rfl⟩
  obtain ⟨back, fields⟩ : ∃ back, setEntry :: (viewedData shown running config first second).map rawField =
      [setEntry, rawField (ascii "enable", flagText running),
      (ascii "if", rawText (shown config.settings.interface))] ++ back :=
    ⟨_, rfl⟩
  rw [fields, rawField, raw_flag] at run
  rw [wanted] at found names named
  rw [List.map_append] at names
  replace names := names.of_append_left
  have same := (form_text_exact _ [setEntry, (ascii "enable", flagBytes running),
    (ascii "if", config.settings.interface)] back
    (.cons (shrinks_same _) (.cons (shrinks_same _) (.cons (shown_shrinks _ _ (texts _ (fixed_texts_kept config).1)) .nil)))
    (fun field member => named field (List.mem_append_left _ member))
    names req run
    (fun field member => found field (List.mem_append_left _ member))).1
  have own := (List.cons.inj (List.cons.inj (List.cons.inj same).2).2).1
  have small : (shown config.settings.interface).all isAscii = true :=
    plain (ascii "if", _) (List.mem_cons_of_mem _ List.mem_cons_self)
  rw [← latin_raw _ small]
  exact congrArg latin (Prod.mk.inj own).2

theorem kept_fields (ran : arrived (viewedData shown running config first second) = some req) :
    config.settings.leases ≠ [] ∧ ∀ field ∈ keptFields running (keptSettings config first second), isSendable field.2 =
    true := by
  have interface := kept_interface running config first second req formed keeps ran
  obtain ⟨_, run⟩ := arrived_given req _ ran
  have texts := ((formed_iff running config).mp formed).2
  have found := keeps_found running config first second req _ run keeps
  have names := kept_fields_names running (keptSettings config first second)
  have named := kept_fields_plain running (keptSettings config first second)
  rw [viewed_fields shown running config first second (interface ▸ eth1_latin config.settings.interface),
    ← List.cons_append] at run
  have fixed : List.Forall₂ Shrinks (setEntry :: fixedFields running (viewedSettings shown config first second))
      (setEntry :: fixedFields running (keptSettings config first second)) := by
    have each : ∀ name, ∀ text ∈ keptTexts config, Shrinks (name, rawText (shown text)) (name, text) :=
      fun name text member => shown_shrinks name text (texts text member)
    obtain ⟨interface, time, dns1, dns2⟩ := fixed_texts_kept config
    exact .cons (shrinks_same _) (.cons (shrinks_same _) (.cons (each _ _ interface) (.cons (shrinks_same _)
      (.cons (shrinks_same _) (.cons (shrinks_same _) (.cons (each _ _ time) (.cons (shrinks_same _)
        (.cons (each _ _ dns1) (.cons (each _ _ dns2) .nil)))))))))
  by_cases empty : config.settings.leases = []
  · -- the list grows by the address of zeros
    have none_kept : keptFields running (keptSettings config first second) =
        setEntry :: fixedFields running (keptSettings config first second) := by
      have leaseless : (keptSettings config first second).leases = [] := by
        rw [keptSettings, StoredConfig.leases, empty]; rfl
      rw [kept_fields_split, leaseless]
      exact List.append_nil _
    rw [if_pos empty] at run
    rw [none_kept] at found names named
    obtain ⟨_, _, later, behind, entries⟩ := form_text_exact _ _ zeroLease fixed named names req run found
    have zeros : later = zeroLease := by
      rw [form_text_arrives zeroLease (by decide) (by decide)] at behind
      exact (congrArg Request.entries (Option.some.inj behind)).symm
    have absent := keeps.gives.mac 0
    have listed : getData req (ascii "mac" ++ decimal 0) ≠ none := by
      rw [getData, entries, zeros, Option.map_eq_none_iff.ne, Option.ne_none_iff_isSome, List.find?_isSome]
      exact ⟨(ascii "mac0", ascii "00:00:00:00:00:00"), by simp [zeroLease], by decide⟩
    rw [keptSettings, StoredConfig.leases, empty, getstrf] at absent
    exact absurd (Option.map_eq_none_iff.mp absent) listed
  · rw [if_neg empty, ← List.append_nil (_ ++ leaseParams 0 _)] at run
    have leases := leases_shrink 0 config.leases fun lease member =>
      ⟨texts _ (lease_texts_kept config lease member).1, texts _ (lease_texts_kept config lease member).2⟩
    obtain ⟨same, sendable, _⟩ := form_text_exact _ (keptFields running (keptSettings config first second)) []
      (List.rel_append fixed leases) named names req run found
    exact ⟨empty, sendable⟩

end Kept

theorem kept_text_field (running : Bool) (config : StoredConfig) (first second : Dotted) (text : Bytes)
    (member : text ∈ keptTexts config) :
    ∃ name, (name, text) ∈ keptFields running (keptSettings config first second) := by
  rw [keptTexts, List.mem_append] at member
  rcases member with fixed | own
  · simp only [List.mem_cons, List.not_mem_nil, or_false] at fixed
    rcases fixed with rfl | rfl | rfl | rfl
    · exact ⟨ascii "if", List.mem_iff_getElem?.mpr ⟨2, rfl⟩⟩
    · exact ⟨ascii "time", List.mem_iff_getElem?.mpr ⟨6, rfl⟩⟩
    · exact ⟨ascii "dns1", List.mem_iff_getElem?.mpr ⟨8, rfl⟩⟩
    · exact ⟨ascii "dns2", List.mem_iff_getElem?.mpr ⟨9, rfl⟩⟩
  · obtain ⟨lease, inside, here⟩ := List.mem_flatMap.mp own
    obtain ⟨k, found⟩ := List.getElem?_of_mem inside
    have listed := fun field => (lease_params_mem 0 (keptSettings config first second).leases field).mpr
    simp only [List.mem_cons, List.not_mem_nil, or_false] at here
    rcases here with rfl | rfl
    · exact ⟨_, List.mem_append_right (setEntry :: fixedFields running _) (listed _ ⟨k, lease, found, Or.inl rfl⟩)⟩
    · exact ⟨_, List.mem_append_right (setEntry :: fixedFields running _) (listed _ ⟨k, lease, found, Or.inr rfl⟩)⟩

theorem viewed_text_field (view : Bytes → Text) (running : Bool) (config : StoredConfig) (first second : Dotted)
    (leases : config.settings.leases ≠ []) (text : Bytes) (member : text ∈ keptTexts config) :
    ∃ name, (name, view text) ∈ viewedData view running config first second := by
  rw [keptTexts, List.mem_append] at member
  have some_lease : 0 < (config.leases.map fun lease => (view lease.1, view lease.2)).length := by
    rw [List.length_map, StoredConfig.leases, List.length_map]
    exact List.length_pos_iff.mpr leases
  rcases member with fixed | own
  · simp only [List.mem_cons, List.not_mem_nil, or_false] at fixed
    rcases fixed with rfl | rfl | rfl | rfl
    · exact ⟨ascii "if", List.mem_iff_getElem?.mpr ⟨1, rfl⟩⟩
    · exact ⟨ascii "time", List.mem_iff_getElem?.mpr ⟨5, rfl⟩⟩
    · exact ⟨ascii "dns1", List.mem_iff_getElem?.mpr ⟨7, rfl⟩⟩
    · exact ⟨ascii "dns2", List.mem_iff_getElem?.mpr ⟨8, rfl⟩⟩
  · obtain ⟨lease, inside, here⟩ := List.mem_flatMap.mp own
    obtain ⟨k, found⟩ := List.getElem?_of_mem inside
    have shown : (config.leases.map fun lease => (view lease.1, view lease.2))[k]? =
      some (view lease.1, view lease.2) := by
      rw [List.getElem?_map, found]
      rfl
    have listed := fun field => (lease_params_mem 0 (config.leases.map fun lease =>
      (view lease.1, view lease.2)) field).mpr
    simp only [List.mem_cons, List.not_mem_nil, or_false] at here
    rw [viewedData, requestData, if_pos some_lease]
    rcases here with rfl | rfl
    · exact ⟨_, List.mem_append_right _ (listed _ ⟨k, _, shown, Or.inl rfl⟩)⟩
    · exact ⟨_, List.mem_append_right _ (listed _ ⟨k, _, shown, Or.inr rfl⟩)⟩

theorem load_dhcp_formed (markup : List Entry → Option (List Node)) (running : Bool) (config : StoredConfig)
    (first second : Dotted) (more : List Dotted) (short : Short config.settings)
      (formed : Formed (statusEntries running config.settings)) :
    loadDHCP markup running config.file ((first :: second :: more).map fun address => latin address.text) =
      arrived (viewedData shown running config first second) := by
  rw [loadDHCP, status_of_short running config short, Option.bind_some, document_formed markup _ formed,
    Option.bind_some,
    save_dhcp_shows shown running config _ (formed_shows running config formed), Option.bind_some]

theorem kept_clear (markup : List Entry → Option (List Node)) (running : Bool) (config : StoredConfig)
    (first second : Dotted)
    (more : List Dotted) (unmarked : ∀ text ∈ config.settings.router :: keptTexts config, (60 : UInt8) ∉ text)
    (kept : LanChangeKeeps markup running config first second more) : Clear markup running config := by
  obtain ⟨req, loaded, keeps⟩ := kept
  obtain ⟨nodes, document, _⟩ := Option.bind_eq_some_iff.mp loaded
  obtain ⟨entries, answered, tree⟩ := Option.bind_eq_some_iff.mp document
  have short := status_short running config.settings config.stored (Option.isSome_of_eq_some answered)
  rw [status_of_short running config short] at answered
  obtain rfl := Option.some.inj answered
  have plain : ¬ (statusEntries running config.settings).any isMarked = true := by
    rw [marked_iff]
    rintro ⟨text, member, mark⟩
    exact unmarked text member mark
  rw [documentElement, if_neg plain] at tree
  have formed := document_given _ (Option.isSome_of_eq_some tree)
  rw [load_dhcp_formed markup running config first second more short formed] at loaded
  obtain ⟨leases, sendable⟩ := kept_fields running config first second req formed keeps loaded
  obtain ⟨router, texts⟩ := (formed_iff running config).mp formed
  refine ⟨leases, short, fun text member => ?_, Or.inl router⟩
  obtain ⟨name, field⟩ := kept_text_field running config first second text member
  obtain ⟨other, viewed⟩ := viewed_text_field shown running config first second leases text member
  have clean := sendable _ field
  have same := (shown_same text (texts text member)).mpr (sendable_absent text clean 38 rfl)
  have small : (shown text).all isAscii = true := (arrived_given req _ loaded).1 _ viewed
  exact ⟨texts text member, ascii_bytes text (same ▸ small), clean⟩

theorem kept_fields_carried (running : Bool) (config : StoredConfig) (first second : Dotted)
    (texts : ∀ text ∈ keptTexts config, Carried text) :
    ∀ field ∈ keptFields running (keptSettings config first second), Carried field.2 := by
  have prefixed := fun net own => decimal_carried _ (prefixed_letters net own)
  obtain ⟨interface, time, dns1, dns2⟩ := fixed_texts_kept config
  intro field member
  rw [kept_fields_split, List.mem_append] at member
  rcases member with fixed | own
  · simp only [fixedFields, List.mem_cons, List.not_mem_nil, or_false] at fixed
    rcases fixed with rfl | rfl | rfl | rfl | rfl | rfl | rfl | rfl | rfl | rfl
    · exact carried_check _ (by decide +kernel)
    · exact flag_carried running
    · exact texts _ interface
    · exact prefixed _ config.start
    · exact prefixed _ config.last
    · exact prefixed _ _
    · exact texts _ time
    · exact flag_carried _
    · exact texts _ dns1
    · exact texts _ dns2
  · obtain ⟨k, lease, found, named⟩ := (lease_params_mem 0 _ field).mp own
    have listed : lease ∈ config.leases := List.mem_of_getElem? found
    rcases named with rfl | rfl
    · exact texts _ (lease_texts_kept config lease listed).1
    · exact texts _ (lease_texts_kept config lease listed).2

theorem lease_params_latin (i : Nat) (leases : List (Bytes × Bytes)) :
    leaseParams i (leases.map fun lease => (latin lease.1, latin lease.2)) =
      (leaseParams i leases).map fun field => (field.1, latin field.2) := by
  induction leases generalizing i with
  | nil => rfl
  | cons lease rest ih =>
      rw [List.map_cons, leaseParams, ih (i + 1)]
      rfl

theorem flag_latin (flag : Bool) : flagText flag = latin (flagBytes flag) := by
  cases flag <;> decide

theorem viewed_latin (view : Bytes → Text) (running : Bool) (config : StoredConfig) (first second : Dotted)
    (leases : config.settings.leases ≠ []) (same : ∀ text ∈ keptTexts config, view text = latin text) :
    viewedData view running config first second =
      (fixedFields running (keptSettings config first second) ++ leaseParams 0 config.leases).map fun field =>
        (field.1, latin field.2) := by
  have some_lease : 0 < (config.leases.map fun lease => (view lease.1, view lease.2)).length := by
    rw [List.length_map, StoredConfig.leases, List.length_map]
    exact List.length_pos_iff.mpr leases
  have each : config.leases.map (fun lease => (view lease.1, view lease.2)) =
      config.leases.map fun lease => (latin lease.1, latin lease.2) := by
    refine List.map_congr_left fun lease member => ?_
    obtain ⟨mac, ip⟩ := lease_texts_kept config lease member
    rw [same lease.1 mac, same lease.2 ip]
  obtain ⟨interface, time, dns1, dns2⟩ := fixed_texts_kept config
  rw [viewedData, requestData, if_pos some_lease, each, lease_params_latin, List.map_append, same _ interface,
    same _ time, same _ dns1, same _ dns2, config.start_text, config.last_text]
  congr 1
  simp only [dotted_moved, flag_latin, eth1_latin, fixedFields, keptSettings, List.map_cons, List.map_nil]
  rfl

theorem viewed_arrives (view : Bytes → Text) (running : Bool) (config : StoredConfig) (first second : Dotted)
    (leases : config.settings.leases ≠ []) (texts : ∀ text ∈ keptTexts config, Carried text)
    (same : ∀ text ∈ keptTexts config, view text = latin text) :
    ∃ req, arrived (viewedData view running config first second) = some req ∧
    Keeps running config first second req := by
  have carried := kept_fields_carried running config first second texts
  have data := viewed_latin view running config first second leases same
  have plain : (viewedData view running config first second).all (fun field => field.2.all isAscii) = true := by
    rw [data, List.all_map, List.all_eq_true]
    intro field member
    exact latin_ascii field.2 (carried field (List.mem_cons_of_mem _ member)).ascii
  have fields : setEntry :: (viewedData view running config first second).map rawField =
      keptFields running (keptSettings config first second) := by
    rw [data, List.map_map]
    refine congrArg (setEntry :: ·) ((List.map_congr_left fun field _ => ?_).trans (List.map_id _))
    rw [Function.comp_apply, rawField, raw_latin]
    rfl
  have clean := fun field member => (carried field member).sendable
  refine ⟨_, ?_, kept_fields_gives running config first second clean⟩
  rw [arrived, if_pos plain, fields, form_text_arrives _ (kept_fields_plain running _) clean]

theorem sample_decimal (field : Bytes) (check : (field != [] && field.all isDigit) = true) :
    field ≠ [] ∧ ∀ c ∈ field, isDigit c = true := by
  simpa using check

def sampleAddress (last : String) (check : (ascii last != [] && (ascii last).all isDigit) = true) : Dotted where
  a := ascii "10"
  b := ascii "0"
  c := ascii "0"
  d := ascii last
  decimal := by
    simp only [List.forall_mem_cons]
    exact ⟨sample_decimal _ (by decide), sample_decimal _ (by decide), sample_decimal _ (by decide),
      sample_decimal _ check, by simp⟩

def sampleStart : Dotted := sampleAddress "20" (by decide)

def sampleLast : Dotted := sampleAddress "99" (by decide)

def sampleSettings (router : String) (leases : List (Bytes × Bytes)) : Settings :=
  ⟨ascii "eth0", ascii "true", ascii "10.0.0.20", ascii "10.0.0.99", ascii router, ascii "3600", ascii "8.8.8.8",
    ascii "8.8.4.4", leases⟩

def markedConfig : StoredConfig where
  settings := sampleSettings "10.0.0.1<b/>" [(ascii "02:00:00:00:00:01", ascii "10.0.0.30")]
  stored := by constructor <;> decide
  start := sampleStart
  last := sampleLast
  start_text := by decide
  last_text := by decide

-- The first child of an element whose text has markup behind its first letters
def firstChild (text : Bytes) : Child := childOf (latin (text.takeWhile (· != 60)))

def sampleNode : Entry → Node
  | .value tag text => .value tag (firstChild text)
  | .lease mac ip => .lease (firstChild mac) (firstChild ip)

def sampleMarkup (entries : List Entry) : Option (List Node) := some (entries.map sampleNode)

theorem marked_clear : Clear sampleMarkup true markedConfig := by
  have texts : (keptTexts markedConfig).all (fun text =>
      wellFormed (latin text) && text.all (fun c => decide (c < 128)) && isSendable text) = true := by decide +kernel
  constructor
  · decide
  · constructor <;> decide
  · exact fun text member => carried_check text (List.all_eq_true.mp texts text member)
  · refine Or.inr ⟨by decide, _, rfl, ?_⟩
    constructor <;> decide +kernel

def leaseless : StoredConfig where
  settings := sampleSettings "10.0.0.1" []
  stored := by constructor <;> decide
  start := sampleStart
  last := sampleLast
  start_text := by decide
  last_text := by decide

end Ftm50s.Dhcp.LanChange
