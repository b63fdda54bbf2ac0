import Ftm50s.Md5.Encoding

set_option autoImplicit false

namespace Ftm50s.Md5.Script

open Lib.Text Lib.Hex Lib.BlockStream Ftm50s.Forms

def bytesOf (string : JsString) : Bytes := string.map UInt16.toUInt8

theorem element_store (array : List Value) (i j : Nat) (value : Value) (inside : i < array.length) :
    element (store array i value) j = if j = i then value else element array j := by
  rw [store, if_pos inside, element, element, List.getElem?_set]
  by_cases same : i = j
  · rw [if_pos same, if_pos same.symm, if_pos inside]
    rfl
  · rw [if_neg same, if_neg (Ne.symm same)]

theorem store_length (array : List Value) (i : Nat) (value : Value) (inside : i < array.length) :
    (store array i value).length = array.length := by
  rw [store, if_pos inside, List.length_set]

-- The word array holds a text of bytes when every word has its four bytes, zero
-- past the end.
def Packs (words : List Value) (bytes : Bytes) : Prop := ∀ w, toInt32 (element words w) = wordAt bytes (4 * w)

theorem byte_at_next (front : Bytes) (c : UInt8) (i : Nat) :
    byteAt (front ++ [c]) i = if i = front.length then c.toBitVec.setWidth 32 else byteAt front i := by
  rw [byteAt, byteAt]
  by_cases last : i = front.length
  · rw [if_pos last, last, List.getD_append_right _ _ _ _ (Nat.le_refl _), Nat.sub_self]
    rfl
  · rw [if_neg last]
    by_cases before : i < front.length
    · rw [List.getD_append _ _ _ _ before]
    · rw [List.getD_eq_default front 0 (by omega), List.getD_eq_default (front ++ [c]) 0 (by simp; omega)]

theorem byte_at_past (bytes : Bytes) (i : Nat) (past : bytes.length ≤ i) : byteAt bytes i = 0#32 := by
  rw [byteAt, List.getD_eq_default _ _ past]
  rfl

theorem or_right (a b c : BitVec 32) : a ||| b ||| c = a ||| c ||| b := by
  rw [BitVec.or_assoc, BitVec.or_comm b, ← BitVec.or_assoc]

theorem word_at_next (front : Bytes) (c : UInt8) (w : Nat) :
    wordAt (front ++ [c]) (4 * w) =
      if w = front.length / 4 then wordAt front (4 * w) ||| (c.toBitVec.setWidth 32 <<< (front.length % 4 * 8))
      else wordAt front (4 * w) := by
  have parts := Nat.div_add_mod front.length 4
  have position := Nat.mod_lt front.length (show 4 > 0 by decide)
  simp only [wordAt, byte_at_next]
  by_cases here : w = front.length / 4
  · rw [if_pos here]
    rcases (show front.length % 4 = 0 ∨ front.length % 4 = 1 ∨ front.length % 4 = 2 ∨ front.length % 4 =
      3 by omega) with
      first | second | third | fourth
    · rw [if_neg (by omega), if_neg (by omega), if_neg (by omega), if_pos (by omega), byte_at_past front (4 * w)
        (by omega), first,
        BitVec.or_zero, Nat.zero_mul, BitVec.shiftLeft_zero]
    · rw [if_neg (by omega), if_neg (by omega), if_pos (by omega), if_neg (by omega), byte_at_past front (4 * w + 1)
        (by omega),
        second, BitVec.zero_shiftLeft, BitVec.or_zero, or_right]
    · rw [if_neg (by omega), if_pos (by omega), if_neg (by omega), if_neg (by omega), byte_at_past front (4 * w + 2)
        (by omega),
        third, BitVec.zero_shiftLeft, BitVec.or_zero, or_right _ _ (byteAt front (4 * w + 1) <<< 8), or_right]
    · rw [if_pos (by omega), if_neg (by omega), if_neg (by omega), if_neg (by omega), byte_at_past front (4 * w + 3)
        (by omega),
        fourth, BitVec.zero_shiftLeft, BitVec.zero_or, BitVec.or_comm _ (byteAt front (4 * w + 2) <<< 16),
        or_right _ _ (byteAt front (4 * w + 1) <<< 8), or_right]
  · rw [if_neg here, if_neg (by omega), if_neg (by omega), if_neg (by omega), if_neg (by omega)]

theorem or_byte_packs (words : List Value) (front : Bytes) (c : UInt8) (packed : Packs words front)
    (room : front.length / 4 < words.length) :
    Packs (orByte words front.length (c.toNat : Int)) (front ++ [c]) ∧
      (orByte words front.length (c.toNat : Int)).length = words.length := by
  have index : (front.length - front.length % 4) / 4 = front.length / 4 := by omega
  have code : toInt32 (some (c.toNat : Int)) = c.toBitVec.setWidth 32 := by
    apply BitVec.eq_of_toNat_eq
    change (BitVec.ofInt 32 (c.toNat : Int)).toNat = _
    rw [BitVec.ofInt_natCast, BitVec.toNat_ofNat, BitVec.toNat_setWidth]
    rfl
  have shift : front.length % 4 * 8 % 32 = front.length % 4 * 8 := by omega
  constructor
  · intro w
    rw [orByte, index, element_store _ _ _ _ room, word_at_next]
    by_cases here : w = front.length / 4
    · rw [if_pos here, if_pos here, bitOr, int32_signed, shiftLeft, int32_signed, code, shift, ← here, packed w]
    · rw [if_neg here, if_neg here, packed w]
  · rw [orByte, index, store_length _ _ _ room]

theorem char_code_byte (string : JsString) (n : Nat) (inside : n < string.length) (narrow : ∀ c ∈ string, c < 256) :
    charCodeAt string n = (((string.get ⟨n, inside⟩).toUInt8).toNat : Int) ∧
      bytesOf (string.take (n + 1)) = bytesOf (string.take n) ++ [(string.get ⟨n, inside⟩).toUInt8] := by
  have small : (string.get ⟨n, inside⟩).toNat < 256 := narrow _ (List.get_mem string _)
  constructor
  · rw [charCodeAt, List.getD_eq_getElem _ _ inside, UInt16.toNat_toUInt8, List.get_eq_getElem] at *
    rw [Nat.mod_eq_of_lt small]
  · rw [List.take_add_one, List.getElem?_eq_getElem inside, bytesOf, List.map_append]
    rfl

theorem fill_packs (string : JsString) (narrow : ∀ c ∈ string, c < 256) (empty : List Value) (holes : Packs empty [])
    (count : Nat) (within : count ≤ string.length) (room : ∀ m < count, m / 4 < empty.length) :
    Packs ((List.range count).foldl (fun words n => orByte words n (charCodeAt string n)) empty)
        (bytesOf (string.take count)) ∧
      ((List.range count).foldl (fun words n => orByte words n (charCodeAt string n)) empty).length = empty.length := by
  induction count with
  | zero => exact ⟨holes, rfl⟩
  | succ count ih =>
      obtain ⟨packed, length⟩ := ih (by omega) fun m below => room m (Nat.lt_succ_of_lt below)
      obtain ⟨code, next⟩ := char_code_byte string count (by omega) narrow
      have front : (bytesOf (string.take count)).length = count := by
        rw [bytesOf, List.length_map, List.length_take]
        omega
      have step := or_byte_packs _ _ (string.get ⟨count, by omega⟩).toUInt8 packed
        (by rw [front, length]; exact room count (Nat.lt_succ_self count))
      rw [front, length] at step
      rw [List.range_succ, List.foldl_append, next]
      simp only [List.foldl_cons, List.foldl_nil, code]
      exact step

theorem number_of_words (length : Nat) : numberOfWords length = 16 * ((length + 8) / 64 + 1) := by
  rw [numberOfWords]
  omega

theorem element_holes (count w : Nat) : element (List.replicate count none) w = none := by
  rw [element, List.getElem?_replicate]
  split <;> rfl

theorem holes_packs (count : Nat) : Packs (List.replicate count none) [] := by
  intro w
  rw [element_holes, wordAt, byte_at_past [] _ (Nat.zero_le _), byte_at_past [] _ (Nat.zero_le _),
    byte_at_past [] _ (Nat.zero_le _), byte_at_past [] _ (Nat.zero_le _)]
  rfl

theorem word_at_zeros (bytes : Bytes) (count ii : Nat) :
    wordAt (bytes ++ List.replicate count 0) ii = wordAt bytes ii := by
  have same : ∀ i, byteAt (bytes ++ List.replicate count 0) i = byteAt bytes i := by
    intro i
    rw [byteAt, byteAt]
    by_cases inside : i < bytes.length
    · rw [List.getD_append _ _ _ _ inside]
    · rw [List.getD_append_right _ _ _ _ (by omega), List.getD_eq_default bytes _ (by omega)]
      by_cases zero : i - bytes.length < count
      · rw [List.getD_eq_getElem _ _ (by rwa [List.length_replicate]), List.getElem_replicate]
      · rw [List.getD_eq_default _ _ (by rw [List.length_replicate]; omega)]
  rw [wordAt, wordAt, same, same, same, same]

theorem marked_packs (string : JsString) (narrow : ∀ c ∈ string, c < 256) (count : Nat)
    (words : 16 * ((string.length + 8) / 64 + 1) = count) :
    Packs (orByte ((List.range string.length).foldl (fun words n => orByte words n (charCodeAt string n))
        (List.replicate (count - 1) none)) string.length 0x80) (bytesOf string ++ [0x80]) ∧
      (orByte ((List.range string.length).foldl (fun words n => orByte words n (charCodeAt string n))
        (List.replicate (count - 1) none)) string.length 0x80).length = count - 1 := by
  have length : (bytesOf string).length = string.length := List.length_map _
  obtain ⟨packed, size⟩ := fill_packs string narrow (List.replicate (count - 1) none) (holes_packs _) string.length
    (Nat.le_refl _) (fun m below => by rw [List.length_replicate]; omega)
  rw [List.take_length] at packed
  rw [List.length_replicate] at size
  have marked := or_byte_packs _ _ 0x80 packed (by rw [length, size]; omega)
  rw [length, size] at marked
  exact marked

theorem length_words (length : Nat) (short : length < 0x100000000) :
    toInt32 (shiftLeft (some (length : Int)) 3) = BitVec.ofNat 32 ((8 * length) >>> (32 * 0)) ∧
      toInt32 (shiftRight (some (length : Int)) 29) = BitVec.ofNat 32 ((8 * length) >>> (32 * 1)) := by
  have number : toInt32 (some (length : Int)) = BitVec.ofNat 32 length := BitVec.ofInt_natCast 32 length
  rw [shiftLeft, shiftRight, int32_signed, int32_unsigned, number]
  constructor
  · apply BitVec.eq_of_toNat_eq
    rw [BitVec.toNat_shiftLeft, BitVec.toNat_ofNat, BitVec.toNat_ofNat, Nat.mod_eq_of_lt short, Nat.shiftLeft_eq,
      Nat.mul_comm]
    rfl
  · apply BitVec.eq_of_toNat_eq
    rw [BitVec.toNat_ushiftRight, BitVec.toNat_ofNat, BitVec.toNat_ofNat, Nat.mod_eq_of_lt short,
      Nat.shiftRight_eq_div_pow,
      Nat.shiftRight_eq_div_pow]
    change length / 2 ^ 29 = 8 * length / 2 ^ 32 % 2 ^ 32
    omega

theorem convert_packs (string : JsString) (narrow : ∀ c ∈ string, c < 256) (short : string.length < 0x100000000) :
    (convertToWordArray string).length = 16 * ((string.length + 8) / 64 + 1) ∧
      ∀ w < 16 * ((string.length + 8) / 64 + 1),
        toInt32 (element (convertToWordArray string) w) = wordAt (paddedMessage (bytesOf string)) (4 * w) := by
  have length : (bytesOf string).length = string.length := List.length_map _
  have front := marked_length (bytesOf string)
  rw [length] at front
  obtain ⟨low, high⟩ := length_words string.length short
  generalize words : 16 * ((string.length + 8) / 64 + 1) = count
  obtain ⟨packed, size⟩ := marked_packs string narrow count words
  rw [convertToWordArray, number_of_words, words]
  generalize orByte _ string.length 0x80 = marked at packed size ⊢
  have inside : count - 2 < marked.length := by omega
  have stored : (store marked (count - 2) (shiftLeft (some (string.length : Int)) 3)).length = count - 1 := by
    rw [store_length _ _ _ inside, size]
  have grown : ∀ value, store (store marked (count - 2) (shiftLeft (some (string.length : Int)) 3)) (count - 1) value =
      store marked (count - 2) (shiftLeft (some (string.length : Int)) 3) ++ [value] := by
    intro value
    rw [store, if_neg (by omega), stored, Nat.sub_self, List.replicate_zero, List.append_nil]
  rw [grown]
  constructor
  · rw [List.length_append, stored, List.length_singleton]
    omega
  · intro w bound
    rw [paddedMessage, element]
    by_cases last : w = count - 1
    · rw [List.getElem?_append_right (by omega), stored, last, Nat.sub_self, List.getElem?_cons_zero, Option.getD_some,
        high,
        ← length, ← length_field_word (markedMessage (bytesOf string)) _ 1 (by decide)]
      congr 1
      omega
    · rw [List.getElem?_append_left (by omega)]
      change toInt32 (element _ w) = _
      rw [element_store _ _ _ _ inside]
      by_cases field : w = count - 2
      · rw [if_pos field, low, ← length, ← length_field_word (markedMessage (bytesOf string)) _ 0 (by decide)]
        congr 1
        omega
      · rw [if_neg field, packed w, word_at_front (markedMessage (bytesOf string)) _ _ (by omega), markedMessage,
          ← word_at_zeros _ ((119 - (bytesOf string).length % 64) % 64), List.append_assoc, List.singleton_append]

theorem padded_message_length (message : Bytes) :
    (paddedMessage message).length = 64 * ((message.length + 8) / 64 + 1) := by
  rw [paddedMessage, List.length_append, marked_length, length_field_length]
  omega

theorem word_at_block (bytes : Bytes) (n i : Nat) (word : i < 16) (whole : 64 * n + 64 ≤ bytes.length) :
    wordAt (nth 64 n bytes) (4 * i) = wordAt bytes (64 * n + 4 * i) := by
  have same : ∀ j, j < 64 → byteAt (nth 64 n bytes) j = byteAt bytes (64 * n + j) := by
    intro j inside
    have size : (nth 64 n bytes).length = 64 := by
      rw [nth, List.length_take, List.length_drop]
      omega
    rw [byteAt, byteAt, List.getD_eq_getElem _ _ (by omega), List.getD_eq_getElem _ _ (by omega)]
    simp only [nth, List.getElem_take, List.getElem_drop]
  rw [wordAt, wordAt, same _ (by omega), same _ (by omega), same _ (by omega), same _ (by omega)]
  rfl

theorem turns_run (string : JsString) (narrow : ∀ c ∈ string, c < 256) (short : string.length < 0x100000000) :
    (turns (convertToWordArray string) initial).map toInt32 =
      run 64 compress Md5.initial (paddedMessage (bytesOf string)) := by
  obtain ⟨size, packed⟩ := convert_packs string narrow short
  have length : (bytesOf string).length = string.length := List.length_map _
  have whole := padded_message_length (bytesOf string)
  rw [length] at whole
  rw [turns, run, size, whole, Nat.mul_div_cancel_left _ (by decide),
    show (16 * ((string.length + 8) / 64 + 1) + 15) / 16 = (string.length + 8) / 64 + 1 by omega]
  -- The same number of turns, block by block
  generalize (string.length + 8) / 64 + 1 = count at packed whole
  suffices turned : ∀ done ≤ count, ((List.range done).foldl (fun r n =>
    turn (convertToWordArray string) r (16 * n)) initial).map toInt32 =
      (List.range done).foldl (fun state k => compress state
        (nth 64 k (paddedMessage (bytesOf string)))) Md5.initial from
    turned count (Nat.le_refl _)
  intro done within
  induction done with
  | zero => rfl
  | succ done ih =>
      simp only [List.range_succ, List.foldl_append, List.foldl_cons, List.foldl_nil]
      rw [int32_turn, ih (by omega), compress]
      apply transform_words
      intro i word
      rw [packed _ (by omega), word_at_block _ _ _ word (by omega)]
      congr 1
      omega

-- A digest in hexadecimal, two digits a byte
def hexText (bytes : Bytes) : Bytes := bytes.flatMap fun b => paddedHex 2 b.toNat

def wide (bytes : Bytes) : JsString := bytes.map UInt8.toUInt16

theorem hex_length (n : Nat) (small : n < 256) : (hex n).length = 1 ∨ (hex n).length = 2 := by
  have padded := padded_length 2 n (by decide) small
  rw [paddedHex, List.length_append, List.length_replicate] at padded
  have some : (hex n).length ≠ 0 := by
    rw [hex]
    split
    · decide
    · rename_i positive
      simpa using Nat.digits_ne_nil_iff_ne_zero.mpr positive
  omega

theorem byte_to_hex (n : Nat) (small : n < 256) : byteToHex n = wide (paddedHex 2 n) := by
  have zero : js "0" = [48] := rfl
  rw [byteToHex, zero, paddedHex, wide, List.map_append]
  rcases hex_length n small with single | double
  · rw [single]
    simp [single]
  · rw [double]
    simp [double]

theorem word_to_hex (value : Value) : wordToHex value = wide (hexText (wordBytes (toInt32 value))) := by
  have byte : ∀ k, toInt32 (bitAnd (shiftRight value (k * 8)) (some 255)) = (toInt32 value >>> (k * 8 % 32)) &&&
    0xFF := by
    intro k
    rw [bitAnd, int32_signed, shiftRight, int32_unsigned]
    rfl
  have low : ∀ word : BitVec 32, (word &&& 0xFF).toNat < 256 := by
    intro word
    rw [BitVec.toNat_and]
    exact lt_of_le_of_lt Nat.and_le_right (by decide)
  have narrow : ∀ word : BitVec 32, (⟨(word &&& 0xFF).setWidth 8⟩ : UInt8).toNat = (word &&& 0xFF).toNat := by
    intro word
    rw [← UInt8.toNat_toBitVec, BitVec.toNat_setWidth, Nat.mod_eq_of_lt (low word)]
  simp only [wordToHex, List.range_succ, List.range_zero, List.nil_append, List.cons_append, List.foldl_cons,
    List.foldl_nil, byte,
    byte_to_hex _ (low _), wordBytes, hexText, List.flatMap_cons, List.flatMap_nil, wide, List.map_append,
    List.append_nil]
  rw [narrow, narrow, narrow, narrow, List.append_assoc, List.append_assoc]
  rfl

theorem lower_case_hex (text : Bytes) (lower : ∀ c ∈ text, isLowerHex c = true) :
    toLowerCase (wide text) = wide text := by
  rw [toLowerCase, wide, List.map_map]
  apply List.map_congr_left
  intro c member
  have kind := lower c member
  have notCapital : (65 ≤ c.toUInt16 && c.toUInt16 ≤ 90) = false := by
    simp only [isLowerHex, Bool.or_eq_true, Bool.and_eq_true, decide_eq_true_eq, UInt8.le_iff_toNat_le] at kind
    simp only [Bool.and_eq_false_iff, decide_eq_false_iff_not, UInt16.le_iff_toNat_le, UInt8.toNat_toUInt16]
    change (48 ≤ c.toNat ∧ c.toNat ≤ 57) ∨ (97 ≤ c.toNat ∧ c.toNat ≤ 102) at kind
    change ¬ 65 ≤ c.toNat ∨ ¬ c.toNat ≤ 90
    omega
  simp only [Function.comp_apply, notCapital, Bool.false_eq_true, if_false]

theorem hex_text_lower (bytes : Bytes) : ∀ c ∈ hexText bytes, isLowerHex c = true := by
  intro c member
  obtain ⟨b, _, inside⟩ := List.mem_flatMap.mp member
  exact padded_lower 2 b.toNat (by decide) c inside

theorem script_digest (string : JsString) (short : (utf8Encode string).length < 0x100000000) :
    MD5 string = wide (hexText (md5 (bytesOf (utf8Encode string))).toList) := by
  have words := turns_run (utf8Encode string) (utf8_narrow string) short
  rw [MD5, md5, ← words]
  generalize turns (convertToWordArray (utf8Encode string)) initial = r
  have joined : wordToHex r.a ++ wordToHex r.b ++ wordToHex r.c ++ wordToHex r.d =
      wide (hexText (storeDigest (r.map toInt32)).toList) := by
    simp only [word_to_hex, storeDigest, Registers.map, wide, hexText, Vector.toList_mk, List.flatMap_append,
      List.map_append]
  rw [joined, lower_case_hex _ (hex_text_lower _)]

-- The page and the server compute one digest, whatever pieces the server gets.
theorem script_agrees (stale : Context) (string : JsString) (chunks : List Bytes)
    (short : (utf8Encode string).length < 0x100000000) (cut : chunks.flatten = bytesOf (utf8Encode string)) :
    MD5 string = wide (hexText (md5Final (updates (md5Init stale) chunks)).digest.toList) := by
  have small : ∀ chunk ∈ chunks, chunk.length < 0x100000000 := by
    intro chunk member
    have part := (List.sublist_flatten_of_mem member).length_le
    rw [cut, bytesOf, List.length_map] at part
    omega
  have seen := updates_represents _ [] chunks (init_represents stale) small
  rw [List.nil_append, cut] at seen
  rw [final_digest _ _ seen, script_digest string short]

theorem script_agrees_abc : MD5 (js "abc") =
    wide (hexText (md5Final (updates (md5Init zeroContext) [ascii "ab", ascii "c"])).digest.toList) :=
  script_agrees zeroContext (js "abc") [ascii "ab", ascii "c"] (by decide) (by decide)

theorem hex_text_length (bytes : Bytes) : (hexText bytes).length = 2 * bytes.length := by
  induction bytes with
  | nil => rfl
  | cons c rest ih =>
      have width := padded_length 2 c.toNat (by decide) c.toNat_lt
      rw [hexText, List.flatMap_cons, List.length_append, width, List.length_cons]
      rw [hexText] at ih
      omega

theorem hex_text_injective (a b : Bytes) (same : hexText a = hexText b) : a = b := by
  have sizes := congrArg List.length same
  rw [hex_text_length, hex_text_length] at sizes
  induction a generalizing b with
  | nil => exact (List.eq_nil_of_length_eq_zero (by rw [List.length_nil] at sizes; omega)).symm
  | cons c front ih =>
      cases b with
      | nil => simp at sizes
      | cons d rest =>
          have width : ∀ c : UInt8, (paddedHex 2 c.toNat).length = 2 :=
            fun c => padded_length 2 c.toNat (by decide) c.toNat_lt
          rw [hexText, hexText, List.flatMap_cons, List.flatMap_cons] at same
          obtain ⟨first, others⟩ := List.append_inj same (by rw [width, width])
          rw [UInt8.toNat_inj.mp (padded_injective 2 _ _ (by decide) first), ih rest others (by simpa using sizes)]

end Ftm50s.Md5.Script
