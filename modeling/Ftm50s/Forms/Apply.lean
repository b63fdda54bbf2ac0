import Ftm50s.Forms.Validation

set_option autoImplicit false

namespace Ftm50s.Forms

open Lib.Pattern

structure LeaseFields where
  mac : JsString
  ip : JsString
deriving DecidableEq, Repr

-- config_dhcp
structure DhcpForm where
  enable : Bool
  ifName : JsString
  ip_pool_start : JsString
  ip_pool_end : JsString
  router : JsString
  lease_time : JsString
  static_leases : Bool
  dns1 : JsString
  dns2 : JsString
  leases : List LeaseFields
deriving DecidableEq, Repr

-- config_secuwayssl
structure SslForm where
  enable : Bool
  userid : JsString
  passwd : JsString
  confirm_passwd : JsString
  vpn_ip : JsString
  vpn_port : JsString
  log_size : JsString
  crypto : Bool
  version3 : Bool
  sts : Bool
deriving DecidableEq, Repr

-- What document.f has under a name: nothing, the only field of that name, or the
-- list of them
inductive Named (α : Type) where
  | undefined
  | element (field : α)
  | list (fields : List α)

def named {α : Type} : List α → Named α
  | [] => .undefined
  | [field] => .element field
  | fields => .list fields

inductive Field where
  | ipPoolStart | ipPoolEnd | router | mac (i : Nat) | ip (i : Nat) | passwd | vpnIp | vpnPort
deriving DecidableEq, Repr

-- Error(msg, obj)
structure Alert where
  msg : String
  obj : Field
deriving DecidableEq, Repr

def check (ok : Bool) (msg : String) (obj : Field) : Except Alert Unit := if ok then .ok () else .error ⟨msg, obj⟩

def checkLease (i : Nat) (row : LeaseFields) : Except Alert Unit := do
  check (isValidMAC row.mac false) "Missing or invalid MAC address." (.mac i)
  check (isValidIP row.ip false) "Missing or invalid IP address." (.ip i)

def checkLeases : Nat → List LeaseFields → Except Alert Unit
  | _, [] => .ok ()
  | i, row :: rest => do
      checkLease i row
      checkLeases (i + 1) rest

def DhcpForm.isValidForm (form : DhcpForm) : Except Alert Unit := do
  check (isValidIP form.ip_pool_start false) "Missing or invalid IP address." .ipPoolStart
  check (isValidIP form.ip_pool_end false) "Missing or invalid subnetmask address." .ipPoolEnd
  check (isValidIP form.router false) "Missing or invalid router address." .router
  match named form.leases with
  | .undefined => .ok ()
  | .list rows => checkLeases 0 rows
  | .element row => checkLease 0 row

def SslForm.isValidForm (form : SslForm) : Except Alert Unit := do
  check (decide (form.passwd = form.confirm_passwd)) "비밀번호가 일치하지 않습니다.\n확인 후 다시 시도해 주십시오." .passwd
  check (isValidIP form.vpn_ip false) "Missing or invalid IP address." .vpnIp
  check (isValidPort form.vpn_port false) "Missing or invalid port." .vpnPort

-- The parameters of the request, under their names in it
inductive Param where
  | enable | ifName | start | last | router | time | static | dns1 | dns2 | mac (i : Nat) | ip (i : Nat)
  | userid | passwd | vpnIp | vpnPort | logSize | crypto | version3 | sts
deriving DecidableEq, Repr

def checked (flag : Bool) : JsString := if flag then js "true" else js "false"

def yesNo (flag : Bool) : JsString := if flag then js "yes" else js "no"

def leaseParams : Nat → List LeaseFields → List (Param × JsString)
  | _, [] => []
  | i, row :: rest => (.mac i, row.mac) :: (.ip i, row.ip) :: leaseParams (i + 1) rest

def DhcpForm.data (form : DhcpForm) : List (Param × JsString) :=
  [(.enable, checked form.enable), (.ifName, form.ifName), (.start, form.ip_pool_start), (.last, form.ip_pool_end),
    (.router, form.router), (.time, form.lease_time), (.static, checked form.static_leases), (.dns1, form.dns1),
    (.dns2, form.dns2)] ++
    match named form.leases with
    | .undefined => []
    | .list rows => leaseParams 0 rows
    | .element row => [(.mac 0, row.mac), (.ip 0, row.ip)]

def SslForm.data (form : SslForm) : List (Param × JsString) :=
  [(.enable, checked form.enable), (.userid, form.userid), (.passwd, form.passwd), (.vpnIp, form.vpn_ip),
    (.vpnPort, form.vpn_port), (.logSize, form.log_size), (.crypto, yesNo form.crypto),
    (.version3, yesNo form.version3),
    (.sts, yesNo form.sts)]

inductive Form where
  | dhcp (form : DhcpForm)
  | ssl (form : SslForm)

def isValidForm : Form → Except Alert Unit
  | .dhcp form => form.isValidForm
  | .ssl form => form.isValidForm

def Form.data : Form → List (Param × JsString)
  | .dhcp form => form.data
  | .ssl form => form.data

-- none is a form that is not sent.
def onApply (form : Form) : Option (List (Param × JsString)) :=
  match isValidForm form with
  | .error _ => none
  | .ok _ => some form.data

def IsAddress (text : JsString) : Prop :=
  ∃ a b c d, DottedQuad text a b c d ∧ ∀ field ∈ [a, b, c, d], toNumber field ≤ 255

def isOctet (field : JsString) : Bool := (⟨isHexDigit, 1, 2⟩ : Piece UInt16).takes field

def IsMac (text : JsString) : Prop :=
  ∃ octets : List JsString, octets.length = 6 ∧ (∀ octet ∈ octets, isOctet octet = true) ∧
    text = List.intercalate [58] octets

def IsPort (text : JsString) : Prop := text ≠ [] ∧ text.all isDigit = true ∧ 1 ≤ toNumber text ∧ toNumber text ≤ 65535

def WellFormed (value : JsString) : Param → Prop
  | .start => IsAddress value
  | .last => IsAddress value
  | .router => IsAddress value
  | .ip _ => IsAddress value
  | .vpnIp => IsAddress value
  | .mac _ => IsMac value
  | .vpnPort => IsPort value
  | _ => True

def SentWellFormed (sent : List (Param × JsString)) : Prop := ∀ entry ∈ sent, WellFormed entry.2 entry.1

def spaceless (value : JsString) : Bool := value.all (!isJsSpace ·)

def Form.Clean : Form → Prop
  | .dhcp form =>
      spaceless form.ip_pool_start = true ∧ spaceless form.ip_pool_end = true ∧ spaceless form.router = true ∧
      ∀ row ∈ form.leases, spaceless row.mac = true ∧ spaceless row.ip = true
  | .ssl form => spaceless form.vpn_ip = true ∧ spaceless form.vpn_port = true ∧ toNumber form.vpn_port ≤ 65535

instance (form : Form) : Decidable form.Clean :=
  match form with
  | .dhcp _ => inferInstanceAs (Decidable (_ ∧ _ ∧ _ ∧ _))
  | .ssl _ => inferInstanceAs (Decidable (_ ∧ _ ∧ _))

theorem get_value_fixed (value : JsString) : getValue value = value ↔ spaceless value = true := by
  rw [getValue, List.filter_eq_self, spaceless, List.all_eq_true]

theorem visible_not_space (c : UInt16) (low : 33 ≤ c.toNat) (high : c.toNat ≤ 126) : (!isJsSpace c) = true := by
  simp only [isJsSpace, Bool.not_eq_true', Bool.or_eq_false_iff, Bool.and_eq_false_iff, decide_eq_false_iff_not,
    beq_eq_false_iff_ne,
    UInt16.le_iff_toNat_le, ne_eq, ← UInt16.toNat_inj, UInt16.reduceToNat]
  omega

theorem digits_spaceless (text : JsString) (digits : text.all isDigit = true) : spaceless text = true := by
  refine List.all_eq_true.mpr fun c member => ?_
  have range := digit_range c (List.all_eq_true.mp digits c member)
  exact visible_not_space c (by omega) (by omega)

theorem octet_spaceless (octet : JsString) (valid : isOctet octet = true) : spaceless octet = true := by
  refine List.all_eq_true.mpr fun c member => ?_
  have digit : isHexDigit c = true := List.all_eq_true.mp ((takes_iff _ octet).mp valid).2 c member
  simp only [isHexDigit, Bool.or_eq_true, Bool.and_eq_true, decide_eq_true_eq, UInt16.le_iff_toNat_le,
    UInt16.reduceToNat] at digit
  have range : 33 ≤ c.toNat ∧ c.toNat ≤ 126 := by
    rcases digit with (decimal | lower) | upper
    · have range := digit_range c decimal
      omega
    · omega
    · omega
  exact visible_not_space c range.1 range.2

theorem spaceless_append (front back : JsString) : spaceless (front ++ back) = (spaceless front && spaceless back) :=
  List.all_append

theorem spaceless_cons (c : UInt16) (rest : JsString) (visible : isJsSpace c = false) :
    spaceless (c :: rest) = spaceless rest := by
  simp [spaceless, visible]

theorem address_spaceless (text : JsString) (address : IsAddress text) : spaceless text = true := by
  obtain ⟨a, b, c, d, quad, _⟩ := address
  have field : ∀ part ∈ [a, b, c, d], spaceless part = true := fun part member =>
    digits_spaceless part (decimal_field part (quad.fields part member)).2
  rw [quad.whole]
  simp only [spaceless_append, spaceless_cons 46 _ (by decide), field a (by simp), field b (by simp), field c (by simp),
    field d (by simp), Bool.and_self]

theorem mac_fits (fields : List JsString) :
    Fits macPattern fields ↔
      ∃ octets : List JsString, octets.length = 6 ∧ (∀ octet ∈ octets, isOctet octet = true) ∧
      fields = octets.intersperse [58] := by
  constructor
  · intro fits
    obtain _ | ⟨taken1, _ | ⟨colon1, _ | ⟨taken2,
      _ | ⟨colon2, _ | ⟨taken3, _ | ⟨colon3, _ | ⟨taken4, _ | ⟨colon4, _ | ⟨taken5, _ |
      ⟨colon5, _ | ⟨taken6, _ | _⟩⟩⟩⟩⟩⟩⟩⟩⟩⟩⟩ := fits
    rw [letter_takes] at colon1 colon2 colon3 colon4 colon5
    subst colon1 colon2 colon3 colon4 colon5
    refine ⟨[_, _, _, _, _, _], rfl, ?_, rfl⟩
    simp [isOctet, taken1, taken2, taken3, taken4, taken5, taken6]
  · rintro ⟨octets, length, each, rfl⟩
    have colon := (letter_takes (58 : UInt16) [58]).mpr rfl
    match octets, length with
    | [o1, o2, o3, o4, o5, o6], _ =>
        exact .cons (each o1 (by simp)) (.cons colon
          (.cons (each o2 (by simp)) (.cons colon (.cons (each o3 (by simp)) (.cons colon
          (.cons (each o4 (by simp)) (.cons colon (.cons (each o5 (by simp))
            (.cons colon (.cons (each o6 (by simp)) .nil))))))))))

theorem is_valid_mac (value : JsString) : isValidMAC value false = true ↔ IsMac (getValue value) := by
  rw [isValidMAC, Bool.false_and, if_neg Bool.false_ne_true, full_match_iff]
  constructor
  · rintro ⟨fields, fits, flat⟩
    obtain ⟨octets, length, each, rfl⟩ := (mac_fits fields).mp fits
    exact ⟨octets, length, each, flat⟩
  · rintro ⟨octets, length, each, whole⟩
    exact ⟨octets.intersperse [58], (mac_fits _).mpr ⟨octets, length, each, rfl⟩, whole⟩

theorem mac_spaceless (text : JsString) (mac : IsMac text) : spaceless text = true := by
  obtain ⟨octets, length, each, rfl⟩ := mac
  have plain : ∀ octet ∈ octets, spaceless octet = true := fun octet member => octet_spaceless octet (each octet member)
  match octets, length with
  | [o1, o2, o3, o4, o5, o6], _ =>
      simp only [List.mem_cons, List.not_mem_nil, or_false, forall_eq_or_imp, forall_eq] at plain
      simp [List.intercalate, spaceless_append, spaceless_cons 58 _ (show isJsSpace 58 = false by decide), plain]

theorem is_valid_port (value : JsString) :
    isValidPort value false = true ↔ ((1 ≤ (getValue value).length ∧ (getValue value).length ≤ 5) ∧
      (getValue value).all isDigit = true) ∧ 0 < toNumber (getValue value) := by
  rw [isValidPort, Bool.false_and, if_neg Bool.false_ne_true]
  cases found : fullMatch portPattern (getValue value) with
  | none =>
      refine iff_of_false nofun fun port => ?_
      have fits : Fits portPattern [getValue value] := .cons ((takes_iff _ _).mpr port.1) .nil
      have given := full_match_complete portPattern _ fits
      rw [List.flatten_singleton, found] at given
      cases given
  | some fields =>
      obtain ⟨fits, flat⟩ := full_match_sound portPattern _ fields found
      obtain _ | ⟨taken, _ | _⟩ := fits
      rw [List.flatten_singleton] at flat
      rw [flat, decide_eq_true_iff]
      exact (and_iff_right ((takes_iff _ _).mp taken)).symm

theorem address_as_sent (value : JsString) (valid : isValidIP value false = true) :
    IsAddress value ↔ spaceless value = true := by
  constructor
  · exact address_spaceless value
  · intro plain
    rw [is_valid_ip, (get_value_fixed value).mpr plain] at valid
    rcases valid with ⟨none, _⟩ | ⟨a, b, c, d, quad, range, _⟩
    · cases none
    · exact ⟨a, b, c, d, quad, range⟩

theorem mac_as_sent (value : JsString) (valid : isValidMAC value false = true) :
    IsMac value ↔ spaceless value = true := by
  constructor
  · exact mac_spaceless value
  · intro plain
    rwa [is_valid_mac, (get_value_fixed value).mpr plain] at valid

theorem port_as_sent (value : JsString) (valid : isValidPort value false = true) :
    IsPort value ↔ spaceless value = true ∧ toNumber value ≤ 65535 := by
  constructor
  · rintro ⟨_, digits, _, high⟩
    exact ⟨digits_spaceless value digits, high⟩
  · rintro ⟨plain, high⟩
    rw [is_valid_port, (get_value_fixed value).mpr plain] at valid
    obtain ⟨⟨⟨given, _⟩, digits⟩, positive⟩ := valid
    exact ⟨List.ne_nil_of_length_pos given, digits, positive, high⟩

theorem check_ok (ok : Bool) (msg : String) (obj : Field) : check ok msg obj = .ok () ↔ ok = true := by
  rw [check]
  split <;> simp_all

theorem bind_ok (first : Except Alert Unit) (next : Unit → Except Alert Unit) :
    (first >>= next) = .ok () ↔ first = .ok () ∧ next () = .ok () := by
  cases first with
  | error alert => simp [bind, Except.bind]
  | ok result => simp [bind, Except.bind]

def ValidLease (row : LeaseFields) : Prop := isValidMAC row.mac false = true ∧ isValidIP row.ip false = true

theorem check_lease_ok (i : Nat) (row : LeaseFields) : checkLease i row = .ok () ↔ ValidLease row := by
  rw [checkLease, bind_ok, check_ok, check_ok, ValidLease]

theorem check_leases_ok (i : Nat) (rows : List LeaseFields) :
    checkLeases i rows = .ok () ↔ ∀ row ∈ rows, ValidLease row := by
  induction rows generalizing i with
  | nil => simp [checkLeases]
  | cons row rest ih => rw [checkLeases, bind_ok, check_lease_ok, ih, List.forall_mem_cons]

theorem dhcp_form_ok (form : DhcpForm) :
    form.isValidForm = .ok () ↔ isValidIP form.ip_pool_start false = true ∧ isValidIP form.ip_pool_end false = true ∧
      isValidIP form.router false = true ∧ ∀ row ∈ form.leases, ValidLease row := by
  rw [DhcpForm.isValidForm, bind_ok, bind_ok, bind_ok, check_ok, check_ok, check_ok]
  have leases : (match named form.leases with
      | .undefined => .ok ()
      | .list rows => checkLeases 0 rows
      | .element row => checkLease 0 row : Except Alert Unit) = .ok () ↔ ∀ row ∈ form.leases, ValidLease row := by
    match form.leases with
    | [] => simp [named]
    | [row] => simp [named, check_lease_ok]
    | first :: second :: rest => exact check_leases_ok 0 (first :: second :: rest)
  rw [leases]

theorem sent_append (front back : List (Param × JsString)) :
    SentWellFormed (front ++ back) ↔ SentWellFormed front ∧ SentWellFormed back := List.forall_mem_append

theorem lease_params_sent (i : Nat) (rows : List LeaseFields) :
    SentWellFormed (leaseParams i rows) ↔ ∀ row ∈ rows, IsMac row.mac ∧ IsAddress row.ip := by
  induction rows generalizing i with
  | nil => simp [SentWellFormed, leaseParams]
  | cons row rest ih =>
      have later := ih (i + 1)
      rw [SentWellFormed] at later
      rw [SentWellFormed, leaseParams, List.forall_mem_cons, List.forall_mem_cons, later, List.forall_mem_cons,
        ← and_assoc]
      rfl

theorem dhcp_leases_sent (leases : List LeaseFields) :
    SentWellFormed (match named leases with
      | .undefined => []
      | .list rows => leaseParams 0 rows
      | .element row => [(.mac 0, row.mac), (.ip 0, row.ip)]) ↔ ∀ row ∈ leases, IsMac row.mac ∧ IsAddress row.ip := by
  match leases with
  | [] => exact lease_params_sent 0 []
  | [row] => exact lease_params_sent 0 [row]
  | first :: second :: rest => exact lease_params_sent 0 (first :: second :: rest)

theorem dhcp_sent (form : DhcpForm) :
    SentWellFormed form.data ↔ IsAddress form.ip_pool_start ∧ IsAddress form.ip_pool_end ∧ IsAddress form.router ∧
      ∀ row ∈ form.leases, IsMac row.mac ∧ IsAddress row.ip := by
  rw [DhcpForm.data, sent_append, dhcp_leases_sent]
  simp [SentWellFormed, WellFormed, and_assoc]

theorem ssl_sent (form : SslForm) : SentWellFormed form.data ↔ IsAddress form.vpn_ip ∧ IsPort form.vpn_port := by
  simp [SslForm.data, SentWellFormed, WellFormed]

theorem dhcp_clean (form : DhcpForm) (valid : form.isValidForm = .ok ()) :
    SentWellFormed form.data ↔ (Form.dhcp form).Clean := by
  obtain ⟨start, last, router, leases⟩ := (dhcp_form_ok form).mp valid
  have rows : (∀ row ∈ form.leases, IsMac row.mac ∧ IsAddress row.ip) ↔
      ∀ row ∈ form.leases, spaceless row.mac = true ∧ spaceless row.ip = true := by
    refine forall₂_congr fun row member => ?_
    rw [mac_as_sent row.mac (leases row member).1, address_as_sent row.ip (leases row member).2]
  rw [dhcp_sent, address_as_sent _ start, address_as_sent _ last, address_as_sent _ router, rows, Form.Clean]

theorem ssl_clean (form : SslForm) (valid : form.isValidForm = .ok ()) :
    SentWellFormed form.data ↔ (Form.ssl form).Clean := by
  rw [SslForm.isValidForm, bind_ok, bind_ok, check_ok, check_ok, check_ok] at valid
  rw [ssl_sent, address_as_sent _ valid.2.1, port_as_sent _ valid.2.2, Form.Clean]

theorem sent_as_validated_iff (form : Form) (sent : List (Param × JsString)) (applied : onApply form = some sent) :
    SentWellFormed sent ↔ form.Clean := by
  rw [onApply] at applied
  split at applied
  · cases applied
  · rename_i valid
    obtain rfl := Option.some.inj applied
    cases form with
    | dhcp form => exact dhcp_clean form valid
    | ssl form => exact ssl_clean form valid

def sampleForm (start : JsString) : DhcpForm where
  enable := true
  ifName := js "eth0"
  ip_pool_start := start
  ip_pool_end := js "192.168.0.254"
  router := js "192.168.0.1"
  lease_time := js "3600"
  static_leases := true
  dns1 := js "8.8.8.8"
  dns2 := js "8.8.4.4"
  leases := [⟨js "0:1a:2B:3:4:5", js "192.168.0.30"⟩]

theorem sent_as_validated_plain : SentWellFormed (sampleForm (js "192.168.0.20")).data :=
  (sent_as_validated_iff (.dhcp (sampleForm (js "192.168.0.20"))) _ rfl).mpr (by decide)

-- A blank in front of the first address passes the check and is sent.
theorem blank_sent : ¬ ∀ form sent, onApply form = some sent → SentWellFormed sent := by
  intro every
  have address : IsAddress (js " 192.168.0.20") :=
    every (.dhcp (sampleForm (js " 192.168.0.20"))) _ rfl (.start, js " 192.168.0.20")
      (by simp [Form.data, DhcpForm.data, sampleForm])
  exact absurd (address_spaceless _ address) (by decide)

end Ftm50s.Forms
