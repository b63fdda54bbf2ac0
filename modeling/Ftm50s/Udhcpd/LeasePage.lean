import Ftm50s.Dhcp.LanChange
import Ftm50s.Lib.Hex
import Ftm50s.Udhcpd.Promises

set_option autoImplicit false

namespace Ftm50s.Udhcpd

open Lib.Text Lib.Decimal Lib.Filter Ftm50s.Dhcp Ftm50s.Dhcp.LanChange
open Lib.Hex (paddedHex)
open Lib.BigEndian (decode encode)
open Ftm50s.Syslog (latin wellFormed decodeXml isControl escapeByte)

-- inet_ntoa
def dotted (nip : Nat) : Bytes :=
  decimal (nip / 0x1000000 % 256) ++ 46 :: (decimal (nip / 0x10000 % 256) ++
    46 :: (decimal (nip / 0x100 % 256) ++ 46 :: decimal (nip % 256)))

def macText (mac : Mac) : Bytes :=
  let byte := fun i => paddedHex 2 (mac.toNat / 256 ^ i % 256)
  byte 5 ++ 58 :: (byte 4 ++ 58 :: (byte 3 ++ 58 :: (byte 2 ++ 58 :: (byte 1 ++ 58 :: byte 0))))

def twoDigits (n : Nat) : Bytes := List.replicate (2 - (decimal n).length) 48 ++ decimal n

def timeText (expires : Nat) : Bytes :=
  let d := expires / 86400
  let h := expires % 86400 / 3600
  let m := expires % 86400 % 3600 / 60
  let s := expires % 86400 % 3600 % 60
  (if d = 0 then [] else decimal d ++ ascii " days ") ++ (twoDigits h ++ 58 :: (twoDigits m ++ 58 :: twoDigits s))

-- The line of one record; a file from the future counts as written now.
def dumpLine (writtenAt curr : Nat) (lease : Lease) : Bytes :=
  let expiresAbs := lease.expires + min writtenAt curr
  macText lease.mac ++ 32 :: (padTo 16 32 (dotted lease.nip) ++ (padTo 20 32 lease.hostname ++
    if expiresAbs ≤ curr then ascii "expired" else timeText (expiresAbs - curr)))

def heading : Bytes := ascii "Mac Address       IP Address      Host Name           Expires in"

def dumpleases (curr : Nat) (file : Bytes) : Bytes :=
  unlines (heading :: (parseLeases (file.drop 8)).map (dumpLine (decode (file.take 8)) curr))

-- parse_dumpleases.awk on one line
def awkLease (line : Bytes) : List Bytes :=
  let macaddr := line.take 17
  if occurs (ascii "Mac") macaddr then []
  else
    [ascii "<START>", ascii "MAC:" ++ 32 :: macaddr, ascii "IP:" ++ 32 :: (line.drop 18).take 16,
      ascii "HOSTNAME:" ++ 32 :: (line.drop 34).take 20, ascii "EXPIRESIN:" ++ 32 :: (line.drop 54).take 20,
      ascii "<END>"]

def parseDumpleases (dump : Bytes) : Bytes := unlines ((lines dump).flatMap awkLease)

inductive Piece where
  | start
  | stop
  | value (tag text : Bytes)
deriving DecidableEq, Repr

-- sscanf of four words, none where one of them is too long for its array
def scanFour (raw : Bytes) : Option (List Bytes) :=
  let scanned := (words (cstr raw)).take 4
  if scanned.all fun word => decide (word.length < 64) then some scanned else none

def spaced (szData : List Bytes) : Bytes := szData.flatMap fun word => word ++ [32]

-- What one turn of the second loop prints, none where it reads an array that nothing
-- was stored in
def leaseTurn (scanned : List Bytes) : Option (List Piece) :=
  match scanned with
  | [] => none
  | szTag :: szData =>
      if szTag = ascii "<START>" then some [.start]
      else if szTag = ascii "<END>" then some [.stop]
      else if szTag = ascii "MAC:" then szData.head?.map fun text => [.value (ascii "MAC") text]
      else if szTag = ascii "IP:" then szData.head?.map fun text => [.value (ascii "IP") text]
      else if szTag = ascii "HOSTNAME:" then some [.value (ascii "HOSTNAME") (spaced szData)]
      else if szTag = ascii "EXPIRESIN:" then some [.value (ascii "EXPIRESIN") (spaced szData)]
      else some []

def leasePieces (dump : Bytes) : Option (List Piece) :=
  ((fgets 1024 (parseDumpleases dump)).mapM fun raw => (scanFour raw).bind leaseTurn).map List.flatten

abbrev Children := List (Bytes × Text)

-- The LEASE elements in the browser where no text has markup in it, none without a
-- tree; elements that lie in each other otherwise are not printed, and not read.
def leaseElements : Option Children → List Piece → Option (List Children)
  | none, [] => some []
  | none, .start :: rest => leaseElements (some []) rest
  | some children, .value tag text :: rest =>
      (decodeXml (latin text)).bind fun decoded => leaseElements (some (children ++ [(tag, decoded)])) rest
  | some children, .stop :: rest => (leaseElements none rest).map (children :: ·)
  | _, _ => none

structure PageRow where
  index : Nat
  macaddr : Text
  ipaddr : Text
  hostname : Text
  expiresin : Text
deriving DecidableEq, Repr

-- getElementsByTagName(tag)[0].firstChild.nodeValue
def childText (lease : Children) (tag : String) : Option Text := (lease.lookup (ascii tag)).bind nodeValue

def pageRow (i : Nat) (lease : Children) : Option PageRow := do
  let macaddr ← childText lease "MAC"
  let ipaddr ← childText lease "IP"
  let hostname ← childText lease "HOSTNAME"
  let expiresin ← childText lease "EXPIRESIN"
  return ⟨i + 1, macaddr, ipaddr, hostname, expiresin⟩

-- The loop of onLoad; an exception ends it, and the rows before it stay.
def insertRows : Nat → List Children → List PageRow
  | _, [] => []
  | i, lease :: rest =>
      match pageRow i lease with
      | none => []
      | some row => row :: insertRows (i + 1) rest

-- onLoad gets as far as the leases.
def goesOn (nodes : List Node) : Bool :=
  match textOf nodes "STATUS" with
  | none => false
  | some status =>
      status != "stopped".toList &&
        ["INTERFACE", "START", "END", "TIME", "ROUTER", "DNS1", "DNS2", "STATIC"].all fun tag =>
          (textOf nodes tag).isSome

def isMarkedPiece : Piece → Bool
  | .value _ text => text.contains 60
  | _ => false

-- onLoad on the two parts of the answer
def tableOf (nodes : Option (List Node)) (leases : Option (List Children)) : List PageRow :=
  match nodes, leases with
  | some nodes, some leases => if goesOn nodes then insertRows 0 leases else []
  | _, _ => []

-- The lease table of the status page, from the server's configuration and lease file;
-- none where the answer is not made. What the page shows of an answer with markup in
-- its texts is up to the browser's parser.
def leaseTable (markup : List Entry → List Piece → List PageRow) (running : Bool) (conf file : Bytes) (curr : Nat) :
    Option (List PageRow) :=
  (dhcpStatus running conf).bind fun entries =>
    (leasePieces (dumpleases curr file)).map fun pieces =>
      if entries.any isMarked || pieces.any isMarkedPiece then markup entries pieces
      else tableOf (plainElements entries) (leaseElements none pieces)

-- The letters of addresses and times
def isPrinted (c : UInt8) : Bool := isDigit c || (97 ≤ c && c ≤ 122) || c == 58 || c == 46

theorem printed_table : ∀ n < 256, isPrinted (UInt8.ofNat n) = true →
    escapeByte (UInt8.ofNat n) = [UInt8.ofNat n] ∧ isControl (UInt8.ofNat n) = false ∧ isSpace (UInt8.ofNat n) = false ∧
      UInt8.ofNat n ∉ ([0, 38, 77] : Bytes) := by
  decide +kernel

theorem printed_letter (c : UInt8) (printed : isPrinted c = true) :
    escapeByte c = [c] ∧ isControl c = false ∧ isSpace c = false ∧ c ∉ ([0, 38, 77] : Bytes) := by
  have row := printed_table c.toNat c.toNat_lt
  rw [UInt8.ofNat_toNat] at row
  exact row printed

theorem printed_shown (text : Bytes) (printed : ∀ c ∈ text, isPrinted c = true ∨ c = 32) :
    decodeXml (latin text) = some (latin text) := by
  have kept : Ftm50s.Syslog.escape text = text := by
    rw [Ftm50s.Syslog.escape_bytes]
    have each : ∀ c ∈ text, escapeByte c = [c] := by
      intro c member
      rcases printed c member with letter | rfl
      · exact (printed_letter c letter).1
      · rfl
    rw [List.flatMap_congr each]
    exact List.flatMap_singleton' text
  have plain : ∀ c ∈ text, isControl c = false := by
    intro c member
    rcases printed c member with letter | rfl
    · exact (printed_letter c letter).2.1
    · rfl
  have amp : '&' ∉ latin text := by
    intro member
    have inside : (38 : UInt8) ∈ text := (Ftm50s.Syslog.latin_mem 38 text).mp member
    rcases printed 38 inside with letter | blank
    · exact absurd letter (by decide)
    · cases blank
  rw [Ftm50s.Syslog.decode_xml_same]
  refine ⟨?_, amp⟩
  rw [← kept]
  exact Ftm50s.Syslog.escape_well_formed text plain

theorem printed_word (text : Bytes) (nonempty : text ≠ []) (printed : ∀ c ∈ text, isPrinted c = true) :
    isWord text = true := by
  rw [isWord, Bool.and_eq_true, List.all_eq_true]
  refine ⟨by simpa using nonempty, fun c member => ?_⟩
  rw [(printed_letter c (printed c member)).2.2.1]
  rfl

theorem digit_printed (c : UInt8) (digit : isDigit c = true) : isPrinted c = true := by
  rw [isPrinted, digit]
  rfl

theorem decimal_printed (n : Nat) : ∀ c ∈ decimal n, isPrinted c = true :=
  fun c member => digit_printed c (decimal_digits n c member)

theorem decimal_length (n k : Nat) (positive : 0 < k) (bound : n < 10 ^ k) : (decimal n).length ≤ k := by
  rwa [decimal, List.length_map, Nat.length_toDigits_le_iff (by decide) positive]

theorem two_digits_length (n : Nat) (bound : n < 100) : (twoDigits n).length = 2 := by
  have short := decimal_length n 2 (by decide) bound
  rw [twoDigits, List.length_append, List.length_replicate]
  omega

theorem two_digits_printed (n : Nat) : ∀ c ∈ twoDigits n, isPrinted c = true := by
  intro c member
  rcases List.mem_append.mp member with zero | digit
  · rw [List.eq_of_mem_replicate zero]
    rfl
  · exact decimal_printed n c digit

theorem hex_printed (n : Nat) : ∀ c ∈ paddedHex 2 n, isPrinted c = true := by
  intro c member
  have lower := Lib.Hex.padded_lower 2 n (by decide) c member
  have low : ∀ n < 256, Lib.Hex.isLowerHex (UInt8.ofNat n) = true → isPrinted (UInt8.ofNat n) = true := by
    decide +kernel
  have row := low c.toNat c.toNat_lt
  rw [UInt8.ofNat_toNat] at row
  exact row lower

theorem joined_printed (mark : UInt8) (front back : Bytes) (printed : isPrinted mark = true) (one : ∀ c ∈ front, isPrinted c = true)
    (two : ∀ c ∈ back, isPrinted c = true) : ∀ c ∈ front ++ mark :: back, isPrinted c = true := by
  intro c member
  rcases List.mem_append.mp member with first | later
  · exact one c first
  · rcases List.mem_cons.mp later with rfl | last
    · exact printed
    · exact two c last

theorem mac_length (mac : Mac) : (macText mac).length = 17 := by
  have byte : ∀ i, (paddedHex 2 (mac.toNat / 256 ^ i % 256)).length = 2 :=
    fun i => Lib.Hex.padded_length 2 _ (by decide) (by have := Nat.mod_lt (mac.toNat / 256 ^ i) (show 0 < 256 by decide); omega)
  simp only [macText, List.length_append, List.length_cons, byte]

theorem mac_printed (mac : Mac) : ∀ c ∈ macText mac, isPrinted c = true := by
  have byte := fun i => hex_printed (mac.toNat / 256 ^ i % 256)
  have colon : isPrinted 58 = true := rfl
  exact joined_printed 58 _ _ colon (byte 5) (joined_printed 58 _ _ colon (byte 4) (joined_printed 58 _ _ colon (byte 3)
    (joined_printed 58 _ _ colon (byte 2) (joined_printed 58 _ _ colon (byte 1) (byte 0)))))

theorem dotted_length (nip : Nat) : (dotted nip).length ≤ 15 := by
  have field : ∀ n, (decimal (n % 256)).length ≤ 3 :=
    fun n => decimal_length _ 3 (by decide) (by have := Nat.mod_lt n (show 0 < 256 by decide); omega)
  have a := field (nip / 0x1000000)
  have b := field (nip / 0x10000)
  have c := field (nip / 0x100)
  have d := field nip
  simp only [dotted, List.length_append, List.length_cons]
  omega

theorem dotted_printed (nip : Nat) : ∀ c ∈ dotted nip, isPrinted c = true := by
  have dot : isPrinted 46 = true := rfl
  exact joined_printed 46 _ _ dot (decimal_printed _) (joined_printed 46 _ _ dot (decimal_printed _)
    (joined_printed 46 _ _ dot (decimal_printed _) (decimal_printed _)))

theorem mac_word (mac : Mac) : isWord (macText mac) = true := by
  refine printed_word _ ?_ (mac_printed mac)
  intro empty
  have length := mac_length mac
  rw [empty] at length
  cases length

theorem dotted_word (nip : Nat) : isWord (dotted nip) = true := printed_word _ (by simp [dotted]) (dotted_printed nip)

theorem spaced_word (word : Bytes) : spaced [word] = word ++ [32] := List.flatMap_singleton _ _

-- A text of at most three words with one blank between them
structure IsSpaced (text : Bytes) : Prop where
  spacing : spaced (words text) = text ++ [32]
  count : (words text).length ≤ 3
  letters : ∀ c ∈ text, isPrinted c = true ∨ c = 32
  length : text.length ≤ 20

theorem word_spaced (text : Bytes) (word : isWord text = true) (letters : ∀ c ∈ text, isPrinted c = true)
    (short : text.length ≤ 20) :
    IsSpaced text := by
  have single := words_word text word
  exact ⟨by rw [single, spaced_word], by rw [single]; exact Nat.le_of_ble_eq_true rfl, fun c member => Or.inl (letters c member), short⟩

theorem days_spaced (days clock : Bytes) (dayWord : isWord days = true) (clockWord : isWord clock = true)
    (dayLetters : ∀ c ∈ days, isPrinted c = true) (clockLetters : ∀ c ∈ clock, isPrinted c = true)
    (short : days.length + clock.length ≤ 14) : IsSpaced (days ++ ascii " days " ++ clock) := by
  have marks : ascii " days " = 32 :: (ascii "days" ++ [32]) := rfl
  have three : words (days ++ ascii " days " ++ clock) = [days, ascii "days", clock] := by
    rw [marks, List.append_assoc, List.cons_append, words_word_space _ _ 32 dayWord rfl, List.append_assoc,
      List.singleton_append,
      words_word_space (ascii "days") clock 32 (by decide) rfl, words_word clock clockWord]
  constructor
  · rw [three, marks]
    simp [spaced]
  · rw [three]
    exact Nat.le_of_ble_eq_true rfl
  · intro c member
    rw [marks] at member
    simp only [List.mem_append, List.mem_cons, List.not_mem_nil, or_false] at member
    rcases member with (digit | rfl | day | rfl) | later
    · exact Or.inl (dayLetters c digit)
    · exact Or.inr rfl
    · exact Or.inl (List.all_eq_true.mp (show (ascii "days").all isPrinted = true by decide) c day)
    · exact Or.inr rfl
    · exact Or.inl (clockLetters c later)
  · have six : (ascii " days ").length = 6 := by decide
    simp only [List.length_append, six]
    omega

theorem clock_word (h m s : Nat) (hours : h < 100) (minutes : m < 100) (seconds : s < 100) :
    isWord (twoDigits h ++ 58 :: (twoDigits m ++ 58 :: twoDigits s)) = true ∧
      (twoDigits h ++ 58 :: (twoDigits m ++ 58 :: twoDigits s)).length = 8 ∧
      ∀ c ∈ twoDigits h ++ 58 :: (twoDigits m ++ 58 :: twoDigits s), isPrinted c = true := by
  have colon : isPrinted 58 = true := rfl
  have letters := joined_printed 58 _ _ colon (two_digits_printed h)
    (joined_printed 58 _ _ colon (two_digits_printed m) (two_digits_printed s))
  refine ⟨printed_word _ (by simp) letters, ?_, letters⟩
  simp only [List.length_append, List.length_cons, two_digits_length h hours, two_digits_length m minutes,
    two_digits_length s seconds]

theorem time_spaced (expires : Nat) (bound : expires < 0x80000000) : IsSpaced (timeText expires) := by
  have days := decimal_length (expires / 86400) 5 (by decide) (by omega)
  have dayWord := printed_word _ (decimal_ne_nil (expires / 86400)) (decimal_printed (expires / 86400))
  obtain ⟨word, length, letters⟩ := clock_word (expires % 86400 / 3600) (expires % 86400 % 3600 / 60)
    (expires % 86400 % 3600 % 60)
    (by omega) (by omega) (by omega)
  rw [timeText]
  by_cases today : expires / 86400 = 0
  · rw [if_pos today, List.nil_append]
    exact word_spaced _ word letters (by omega)
  · rw [if_neg today]
    exact days_spaced _ _ dayWord word (decimal_printed _) letters (by omega)

-- What the page says about the time of a lease
def timeShown (curr expires : Nat) : Bytes := if expires ≤ curr then ascii "expired" else timeText (expires - curr)

theorem shown_spaced (curr expires : Nat) (bound : expires < curr + 0x80000000) :
    IsSpaced (timeShown curr expires) := by
  have letters : (ascii "expired").all isPrinted = true := by decide
  rw [timeShown]
  split
  · exact word_spaced _ (by decide) (List.all_eq_true.mp letters) (by decide)
  · exact time_spaced _ (by omega)

theorem words_trail (text : Bytes) (count : Nat) : words (text ++ List.replicate count 32) = words text := by
  cases count with
  | zero => rw [List.replicate_zero, List.append_nil]
  | succ count =>
      have blanks := words_blanks count []
      rw [List.append_nil] at blanks
      rw [List.replicate_succ, words_space text _ 32 rfl, blanks]
      exact List.append_nil _

theorem words_short (text : Bytes) (limit : Nat) (short : text.length < limit) :
    ∀ word ∈ words text, word.length < limit :=
  fun word member => lt_of_le_of_lt (words_part text word member).length_le short

theorem awk_columns (macaddr ipaddr hostname time : Bytes) (mac : macaddr.length = 17)
    (unheaded : (77 : UInt8) ∉ macaddr) (ip : ipaddr.length = 16) (name : hostname.length = 20)
      (left : time.length ≤ 20) :
    awkLease (macaddr ++ 32 :: (ipaddr ++ (hostname ++ time))) =
      [ascii "<START>", ascii "MAC:" ++ 32 :: macaddr, ascii "IP:" ++ 32 :: ipaddr, ascii "HOSTNAME:" ++ 32 :: hostname,
        ascii "EXPIRESIN:" ++ 32 :: time, ascii "<END>"] := by
  have first : (macaddr ++ 32 :: (ipaddr ++ (hostname ++ time))).take 17 = macaddr := List.take_left' mac
  have second : (macaddr ++ 32 :: (ipaddr ++ (hostname ++ time))).drop 18 = ipaddr ++ (hostname ++ time) := by
    rw [← List.singleton_append, ← List.append_assoc, List.drop_left' (by rw [List.length_append, mac]; rfl)]
  have third : (macaddr ++ 32 :: (ipaddr ++ (hostname ++ time))).drop 34 = hostname ++ time := by
    rw [show 34 = 18 + 16 from rfl, ← List.drop_drop, second, List.drop_left' ip]
  have fourth : (macaddr ++ 32 :: (ipaddr ++ (hostname ++ time))).drop 54 = time := by
    rw [show 54 = 34 + 20 from rfl, ← List.drop_drop, third, List.drop_left' name]
  have other : occurs (ascii "Mac") macaddr = false := occurs_absent 77 _ macaddr unheaded
  simp only [awkLease, first, second, third, fourth, other, Bool.false_eq_true, if_false, List.take_left' ip,
    List.take_left' name,
    List.take_of_length_le left]

theorem pad_length (width : Nat) (text : Bytes) (short : text.length ≤ width) :
    (padTo width 32 text).length = width := by
  rw [padTo, List.length_append, List.length_replicate]
  omega

-- A record that read_leases or dumpleases finds in a file of the server
structure Listed (lease : Lease) : Prop where
  hostname : lease.hostname.length ≤ 19 ∧ ∀ c ∈ lease.hostname, 32 ≤ c ∧ c ≤ 126
  expires : lease.expires < 0x80000000

theorem padded_lengths (lease : Lease) (listed : Listed lease) :
    (padTo 16 32 (dotted lease.nip)).length = 16 ∧ (padTo 20 32 lease.hostname).length = 20 := by
  have ip := dotted_length lease.nip
  have name := listed.hostname.1
  exact ⟨pad_length 16 _ (by omega), pad_length 20 _ (by omega)⟩

def awkLines (lease : Lease) (time : Bytes) : List Bytes :=
  [ascii "<START>", ascii "MAC:" ++ 32 :: macText lease.mac, ascii "IP:" ++ 32 :: padTo 16 32 (dotted lease.nip),
    ascii "HOSTNAME:" ++ 32 :: padTo 20 32 lease.hostname, ascii "EXPIRESIN:" ++ 32 :: time, ascii "<END>"]

def timeOf (writtenAt curr : Nat) (lease : Lease) : Bytes := timeShown curr (lease.expires + min writtenAt curr)

theorem time_of_spaced (writtenAt curr : Nat) (lease : Lease) (listed : Listed lease) :
    IsSpaced (timeOf writtenAt curr lease) :=
  shown_spaced curr _ (by have := listed.expires; omega)

theorem awk_dump_line (writtenAt curr : Nat) (lease : Lease) (listed : Listed lease) :
    awkLease (dumpLine writtenAt curr lease) = awkLines lease (timeOf writtenAt curr lease) := by
  have mark : (77 : UInt8) ∉ macText lease.mac := by
    intro member
    exact absurd (mac_printed lease.mac 77 member) (by decide)
  obtain ⟨ipPadded, namePadded⟩ := padded_lengths lease listed
  exact awk_columns _ _ _ _ (mac_length lease.mac) mark ipPadded namePadded
    (time_of_spaced writtenAt curr lease listed).length

theorem scan_line (tag text : Bytes) (field : isField 64 tag = true) (nul : (0 : UInt8) ∉ text)
    (short : text.length < 64) :
    scanFour ((tag ++ 32 :: text) ++ [10]) = some (tag :: (words text).take 3) := by
  obtain ⟨word, length, tagNul, _⟩ := field_spec 64 tag field
  have whole : cstr ((tag ++ 32 :: text) ++ [10]) = (tag ++ 32 :: text) ++ [10] := by
    apply cstr_plain
    simp only [List.mem_append, List.mem_cons, not_or]
    exact ⟨⟨tagNul, by decide, nul⟩, by decide⟩
  have cut : words ((tag ++ 32 :: text) ++ [10]) = tag :: words text := by
    have ended := words_space text [] 10 rfl
    rw [List.append_assoc, List.cons_append, words_word_space tag _ 32 word rfl, ended]
    simp [words, wordsFrom]
  have fits : (tag :: (words text).take 3).all (fun word => decide (word.length < 64)) = true := by
    rw [List.all_eq_true]
    intro part member
    rcases List.mem_cons.mp member with rfl | inside
    · exact decide_eq_true length
    · exact decide_eq_true (words_short text 64 short part (List.mem_of_mem_take inside))
  rw [scanFour, whole, cut]
  exact if_pos fits

def nameText (lease : Lease) : Bytes := spaced ((words lease.hostname).take 3)

def piecesOf (lease : Lease) (time : Bytes) : List Piece :=
  [.start, .value (ascii "MAC") (macText lease.mac), .value (ascii "IP") (dotted lease.nip),
    .value (ascii "HOSTNAME") (nameText lease), .value (ascii "EXPIRESIN") (time ++ [32]), .stop]

theorem printed_no_nul (text : Bytes) (printed : ∀ c ∈ text, isPrinted c = true ∨ c = 32) :
    (0 : UInt8) ∉ text ∧ (10 : UInt8) ∉ text := by
  have absent : ∀ c : UInt8, isPrinted c = false → c ≠ 32 → c ∉ text := by
    intro c other mark member
    rcases printed c member with letter | blank
    · rw [other] at letter
      cases letter
    · exact mark blank
  exact ⟨absent 0 rfl (by decide), absent 10 rfl (by decide)⟩

theorem mac_clean (mac : Mac) : (0 : UInt8) ∉ macText mac ∧ (10 : UInt8) ∉ macText mac :=
  printed_no_nul _ fun c member => Or.inl (mac_printed mac c member)

theorem dotted_clean (nip : Nat) : (0 : UInt8) ∉ dotted nip ∧ (10 : UInt8) ∉ dotted nip :=
  printed_no_nul _ fun c member => Or.inl (dotted_printed nip c member)

theorem pad_clean (width : Nat) (text : Bytes) (c : UInt8) (mark : c ≠ 32) (clean : c ∉ text) :
    c ∉ padTo width 32 text := by
  intro member
  rcases pad_bytes width text c member with inside | blank
  · exact clean inside
  · exact mark blank

theorem name_clean (lease : Lease) (listed : Listed lease) :
    (0 : UInt8) ∉ lease.hostname ∧ (10 : UInt8) ∉ lease.hostname :=
  ⟨fun member => absurd (listed.hostname.2 0 member).1 (by decide), fun member => absurd (listed.hostname.2 10 member).1
    (by decide)⟩

theorem turns_of_lines (lease : Lease) (time : Bytes) (listed : Listed lease) (given : IsSpaced time) :
    ((awkLines lease time).map fun line => line ++ [10]).mapM (fun raw => (scanFour raw).bind leaseTurn) =
      some ((piecesOf lease time).map fun piece => [piece]) := by
  obtain ⟨ipPadded, namePadded⟩ := padded_lengths lease listed
  have macLine := scan_line (ascii "MAC:") (macText lease.mac) (by decide) (mac_clean lease.mac).1
    (by rw [mac_length]; decide)
  have ipLine := scan_line (ascii "IP:") (padTo 16 32 (dotted lease.nip)) (by decide)
    (pad_clean 16 _ 0 (by decide) (dotted_clean lease.nip).1) (by omega)
  have nameLine := scan_line (ascii "HOSTNAME:") (padTo 20 32 lease.hostname) (by decide)
    (pad_clean 20 _ 0 (by decide) (name_clean lease listed).1) (by omega)
  have timeLine := scan_line (ascii "EXPIRESIN:") time (by decide) (printed_no_nul _ given.letters).1
    (by have := given.length; omega)
  have start : scanFour (ascii "<START>" ++ [10]) = some [ascii "<START>"] := by decide
  have stop : scanFour (ascii "<END>" ++ [10]) = some [ascii "<END>"] := by decide
  rw [words_word _ (mac_word lease.mac)] at macLine
  rw [pad_words 16 _ (dotted_word lease.nip)] at ipLine
  rw [padTo, words_trail, ← padTo] at nameLine
  rw [List.take_of_length_le given.count] at timeLine
  have macTurn : leaseTurn (ascii "MAC:" :: [macText lease.mac].take 3) =
    some [.value (ascii "MAC") (macText lease.mac)] := rfl
  have ipTurn : leaseTurn (ascii "IP:" :: [dotted lease.nip].take 3) = some [.value (ascii "IP") (dotted lease.nip)] :=
    rfl
  have nameTurn : leaseTurn (ascii "HOSTNAME:" :: (words lease.hostname).take 3) =
    some [.value (ascii "HOSTNAME") (nameText lease)] := rfl
  have timeTurn : leaseTurn (ascii "EXPIRESIN:" :: words time) = some [.value (ascii "EXPIRESIN") (time ++ [32])] := by
    rw [← given.spacing]
    rfl
  have startTurn : leaseTurn [ascii "<START>"] = some [.start] := rfl
  have stopTurn : leaseTurn [ascii "<END>"] = some [.stop] := rfl
  simp only [awkLines, piecesOf, List.map_cons, List.map_nil, List.mapM_cons, List.mapM_nil, macLine, ipLine, nameLine,
    timeLine, start,
    stop, Option.bind_some, macTurn, ipTurn, nameTurn, timeTurn, startTurn, stopTurn, Option.bind_eq_bind,
    Option.pure_def]

theorem map_m_flat_map {α β γ : Type} (parse : α → Option γ) (print : β → List α) (result : β → List γ) (items : List β)
    (each : ∀ item ∈ items, (print item).mapM parse = some (result item)) :
    (items.flatMap print).mapM parse = some (items.flatMap result) := by
  induction items with
  | nil => rfl
  | cons item rest ih =>
      rw [List.forall_mem_cons] at each
      rw [List.flatMap_cons, List.mapM_append, each.1, ih each.2]
      rfl

theorem awk_lines_fit (lease : Lease) (time : Bytes) (listed : Listed lease) (given : IsSpaced time) :
    ∀ line ∈ awkLines lease time, (10 : UInt8) ∉ line ∧ line.length + 1 < 1024 := by
  obtain ⟨ipPadded, namePadded⟩ := padded_lengths lease listed
  have joined : ∀ tag text : Bytes, (10 : UInt8) ∉ tag → (10 : UInt8) ∉ text → tag.length ≤ 20 → text.length ≤ 20 →
      (10 : UInt8) ∉ tag ++ 32 :: text ∧ (tag ++ 32 :: text).length + 1 < 1024 := by
    intro tag text first second short length
    constructor
    · simp only [List.mem_append, List.mem_cons, not_or]
      exact ⟨first, by decide, second⟩
    · rw [List.length_append, List.length_cons]
      omega
  simp only [awkLines, List.forall_mem_cons]
  refine ⟨⟨by decide, by decide⟩, joined _ _ (by decide) (mac_clean lease.mac).2 (by decide)
    (by rw [mac_length]; decide),
    joined _ _ (by decide) (pad_clean 16 _ 10 (by decide) (dotted_clean lease.nip).2) (by decide) (by omega),
    joined _ _ (by decide) (pad_clean 20 _ 10 (by decide) (name_clean lease listed).2) (by decide) (by omega),
    joined _ _ (by decide) (printed_no_nul _ given.letters).2 (by decide) given.length, ⟨by decide, by decide⟩, by simp⟩

end Ftm50s.Udhcpd
