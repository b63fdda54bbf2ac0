import Ftm50s.Daemons.Shell
import Mathlib.Data.List.DropRight
import Mathlib.Algebra.Order.Ring.Int

set_option autoImplicit false

namespace Ftm50s.Usage
open Lib.Text Lib.Filter Lib.Decimal Ftm50s.Daemons

-- /etc/ppp/data/initData and /etc/ppp/data/curData, and whether ppp0 is there.
structure PppData where
  initData : Bytes
  curData : Bytes
  connected : Bool
deriving DecidableEq

-- cat file | awk '{ print $n }'
def column (n : Nat) (file : Bytes) : Bytes := backquote (unlines ((lines file).map (awkField n)))

-- echo of unquoted variables: their words, one blank apart.
def echoWords (values : List Bytes) : Bytes := List.intercalate [32] (values.flatMap words) ++ [10]

def clamp64 (n : Int) : Int := max (-9223372036854775808) (min 9223372036854775807 n)

-- busybox expr reads with strtoll and adds in 64 bits; with anything but two
-- numbers it prints only an error.
def exprAdd (a b : Bytes) : Bytes :=
  match words a, words b with
  | [x], [y] =>
      match signedValue x, signedValue y with
      | some m, some n => decimalInt ((clamp64 m + clamp64 n).bmod 18446744073709551616)
      | _, _ => []
  | _, _ => []

def sumRx (data : PppData) : Bytes := exprAdd (column 1 data.initData) (column 1 data.curData)

def sumTx (data : PppData) : Bytes := exprAdd (column 2 data.initData) (column 2 data.curData)

-- The eight lines that sum_data.sh, killpppd.sh and reboot.sh share.
def addCurrent (data : PppData) : PppData := { data with initData := echoWords [sumRx data, sumTx data] }

def sumData (data : PppData) : PppData := addCurrent data

-- killall pppd only asks; ppp0 goes away some time later.
def killpppd (data : PppData) : PppData := addCurrent data

-- The modem is shut down and the system goes down some time later.
def reboot (data : PppData) : PppData := addCurrent data

structure RxTx where
  connected : Bool
  rxbytes : Bytes
  txbytes : Bytes

def rxTxLine (seen : RxTx) (line : Bytes) : RxTx :=
  let connected := seen.connected || (ascii "ppp0").isPrefixOf (awkField 1 line)
  if connected && awkField 1 line == ascii "RX" && (ascii "bytes:").isPrefixOf (awkField 2 line) then
    ⟨connected, ((splitFields 58 (awkField 2 line))[1]?).getD [], ((splitFields 58 (awkField 6 line))[1]?).getD []⟩
  else ⟨connected, seen.rxbytes, seen.txbytes⟩

def getRxTx (ifconfig : Bytes) : Bytes :=
  let seen := (lines ifconfig).foldl rxTxLine ⟨false, [], []⟩
  backquote (seen.rxbytes ++ 32 :: seen.txbytes ++ [10])

-- One turn of data_dmon; the branch that would add the finished session to
-- initData is commented out in the source.
def dataDmon (data : PppData) (ifconfig : Bytes) : PppData :=
  if data.connected then { data with curData := echoWords [getRxTx ifconfig] } else data

def getPppData (data : PppData) : Bytes :=
  if data.connected then sumRx data ++ 32 :: sumTx data ++ [10]
  else backquote (unlines ((lines data.initData).map fun line => awkField 1 line ++ 32 :: awkField 2 line)) ++ [10]

def showPair (pair : Nat × Nat) : Bytes := decimal pair.1 ++ 32 :: (decimal pair.2 ++ [10])

theorem decimal_word (n : Nat) : isWord (decimal n) = true := by
  simp only [isWord, Bool.and_eq_true, Bool.not_eq_true', List.isEmpty_eq_false_iff, List.all_eq_true]
  exact ⟨decimal_ne_nil n, fun c member => digit_not_space c (decimal_digits n c member)⟩

theorem decimal_plain (n : Nat) : (10 : UInt8) ∉ decimal n := word_plain _ (decimal_word n)

theorem show_pair_lines (pair : Nat × Nat) : lines (showPair pair) = [decimal pair.1 ++ 32 :: decimal pair.2] := by
  have plain : (10 : UInt8) ∉ decimal pair.1 ++ 32 :: decimal pair.2 := by
    simp [decimal_plain]
  have shape : showPair pair = (decimal pair.1 ++ 32 :: decimal pair.2) ++ 10 :: [] := by simp [showPair]
  rw [shape, lines_line _ [] plain]
  rfl

theorem show_pair_words (pair : Nat × Nat) :
    words (decimal pair.1 ++ 32 :: decimal pair.2) = [decimal pair.1, decimal pair.2] := by
  rw [words_word_space _ _ 32 (decimal_word pair.1) (by decide), words_word _ (decimal_word pair.2)]

theorem show_pair_fields (pair : Nat × Nat) : awkField 1 (decimal pair.1 ++ 32 :: decimal pair.2) = decimal pair.1 ∧
    awkField 2 (decimal pair.1 ++ 32 :: decimal pair.2) = decimal pair.2 := by
  rw [awkField, awkField, show_pair_words]
  exact ⟨rfl, rfl⟩

theorem show_pair_column (pair : Nat × Nat) : column 1 (showPair pair) = decimal pair.1 ∧ column 2 (showPair pair) =
    decimal pair.2 := by
  obtain ⟨first, second⟩ := show_pair_fields pair
  simp only [column, show_pair_lines, List.map_cons, List.map_nil, first, second, unlines, List.flatMap_cons,
    List.flatMap_nil, List.append_nil]
  exact ⟨backquote_line _ (decimal_plain _), backquote_line _ (decimal_plain _)⟩

theorem signed_decimal (n : Nat) : signedValue (decimal n) = some (n : Int) := by
  have number : isNumber (decimal n) = true := by
    simp only [isNumber, Bool.and_eq_true, Bool.not_eq_true', List.isEmpty_eq_false_iff, List.all_eq_true]
    exact ⟨decimal_ne_nil n, decimal_digits n⟩
  have first : ∀ digits, decimal n ≠ 45 :: digits ∧ decimal n ≠ 43 :: digits := by
    refine fun digits => ⟨fun same => ?_, fun same => ?_⟩
    · exact absurd (decimal_digits n 45 (same ▸ List.mem_cons_self)) (by decide)
    · exact absurd (decimal_digits n 43 (same ▸ List.mem_cons_self)) (by decide)
  unfold signedValue
  split
  · rename_i digits same
    exact absurd same (first digits).1
  · rename_i digits same
    exact absurd same (first digits).2
  · rw [if_pos number, decimal_value]

theorem clamp_64_small (n : Nat) (small : n < 9223372036854775808) : clamp64 (n : Int) = n := by
  unfold clamp64
  omega

theorem expr_add_decimal (a b : Nat) (small : a + b < 9223372036854775808) :
    exprAdd (decimal a) (decimal b) = decimal (a + b) := by
  have wrapped : ((a : Int) + (b : Int)).bmod 18446744073709551616 = ((a + b : Nat) : Int) := by
    rw [Int.bmod_eq_of_le (by omega) (by omega)]
    push_cast
    rfl
  rw [exprAdd, words_word _ (decimal_word a), words_word _ (decimal_word b)]
  simp only [signed_decimal, clamp_64_small a (by omega), clamp_64_small b (by omega), wrapped]
  rw [decimalInt, if_neg (by omega), Int.natAbs_natCast]

def addPair (left right : Nat × Nat) : Nat × Nat := (left.1 + right.1, left.2 + right.2)

def Small (pair : Nat × Nat) : Prop := pair.1 < 9223372036854775808 ∧ pair.2 < 9223372036854775808

theorem echo_pair (a b : Nat) : echoWords [decimal a, decimal b] = showPair (a, b) := by
  simp [echoWords, words_word _ (decimal_word a), words_word _ (decimal_word b), showPair, List.intercalate,
    List.intersperse]

theorem echo_shown (a b : Nat) : echoWords [decimal a ++ 32 :: decimal b] = showPair (a, b) := by
  simp [echoWords, show_pair_words (a, b), showPair, List.intercalate, List.intersperse]

theorem sums_shown (data : PppData) (total current : Nat × Nat) (init : data.initData = showPair total)
    (cur : data.curData = showPair current) (small : Small (addPair total current)) :
    sumRx data = decimal (total.1 + current.1) ∧ sumTx data = decimal (total.2 + current.2) := by
  rw [sumRx, sumTx, init, cur, (show_pair_column total).1, (show_pair_column total).2, (show_pair_column current).1,
    (show_pair_column current).2]
  exact ⟨expr_add_decimal _ _ small.1, expr_add_decimal _ _ small.2⟩

theorem add_current_shown (data : PppData) (total current : Nat × Nat) (init : data.initData = showPair total)
    (cur : data.curData = showPair current) (small : Small (addPair total current)) :
    (addCurrent data).initData = showPair (addPair total current) := by
  obtain ⟨rx, tx⟩ := sums_shown data total current init cur small
  rw [addCurrent, rx, tx, echo_pair]
  rfl

theorem get_ppp_data_up (data : PppData) (total current : Nat × Nat) (init : data.initData = showPair total)
    (cur : data.curData = showPair current) (small : Small (addPair total current)) (up : data.connected = true) :
    getPppData data = showPair (addPair total current) := by
  obtain ⟨rx, tx⟩ := sums_shown data total current init cur small
  rw [getPppData, if_pos up, rx, tx]
  simp [showPair, addPair]

theorem get_ppp_data_down (data : PppData) (total : Nat × Nat) (init : data.initData = showPair total)
    (down : data.connected = false) : getPppData data = showPair total := by
  have plain : (10 : UInt8) ∉ decimal total.1 ++ 32 :: decimal total.2 := by simp [decimal_plain]
  have line : unlines [decimal total.1 ++ 32 :: decimal total.2] = (decimal total.1 ++ 32 :: decimal total.2) ++ [10] :=
    List.append_nil _
  obtain ⟨first, second⟩ := show_pair_fields total
  rw [getPppData, if_neg (by simp [down]), init, show_pair_lines, List.map_singleton, first, second, line,
    backquote_line _ plain]
  simp [showPair]

theorem show_pair_injective (left right : Nat × Nat) (same : showPair left = showPair right) : left = right := by
  have first := congrArg (column 1) same
  have second := congrArg (column 2) same
  rw [(show_pair_column left).1, (show_pair_column right).1] at first
  rw [(show_pair_column left).2, (show_pair_column right).2] at second
  exact Prod.ext (decimal_injective _ _ first) (decimal_injective _ _ second)

end Ftm50s.Usage
