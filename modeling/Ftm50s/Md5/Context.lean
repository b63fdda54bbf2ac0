import Ftm50s.Lib.BlockStream
import Ftm50s.Md5.Transform
import Mathlib.Data.List.GetD

set_option autoImplicit false

namespace Ftm50s.Md5

open Lib.Text Lib.Mem Lib.BlockStream

-- MD5_CTX
structure Context where
  i0 : UINT4
  i1 : UINT4
  buf : Registers UINT4
  input : Vector UInt8 64
  digest : Vector UInt8 16

def initial : Registers UINT4 := ⟨0x67452301, 0xefcdab89, 0x98badcfe, 0x10325476⟩

-- The arrays in and digest stay as the stack left them.
def md5Init (stale : Context) : Context := { stale with i0 := 0, i1 := 0, buf := initial }

def byteAt (bytes : Bytes) (i : Nat) : UINT4 := (bytes.getD i 0).toBitVec.setWidth 32

-- The four bytes from ii on, as both loops put them together
def wordAt (bytes : Bytes) (ii : Nat) : UINT4 :=
  (byteAt bytes (ii + 3) <<< 24) ||| (byteAt bytes (ii + 2) <<< 16) ||| (byteAt bytes (ii + 1) <<< 8) |||
    byteAt bytes ii

def compress (buf : Registers UINT4) (block : Bytes) : Registers UINT4 := transform buf fun i => wordAt block (4 * i)

def bytesMod64 (ctx : Context) : Nat := ((ctx.i0 >>> 3) &&& 0x3F).toNat

-- One turn of the while loop, with the position in the input buffer beside the context
def updateByte (at' : Nat × Context) (c : UInt8) : Nat × Context :=
  let ctx := { at'.2 with input := at'.2.input.setIfInBounds at'.1 c }
  if at'.1 + 1 = 0x40 then (0, { ctx with buf := compress ctx.buf ctx.input.toList }) else (at'.1 + 1, ctx)

def countBits (ctx : Context) (inLen : UINT4) : Context :=
  { ctx with
    i0 := ctx.i0 + (inLen <<< 3)
    i1 := (if ctx.i0 + (inLen <<< 3) < ctx.i0 then ctx.i1 + 1 else ctx.i1) + (inLen >>> 29) }

def md5Update (ctx : Context) (inBuf : Bytes) (inLen : UINT4) : Context :=
  ((inBuf.take inLen.toNat).foldl updateByte (bytesMod64 ctx, countBits ctx inLen)).2

def PADDING : Bytes := 0x80 :: List.replicate 63 0

def wordBytes (word : UINT4) : List UInt8 :=
  [⟨(word &&& 0xFF).setWidth 8⟩, ⟨((word >>> 8) &&& 0xFF).setWidth 8⟩, ⟨((word >>> 16) &&& 0xFF).setWidth 8⟩,
    ⟨((word >>> 24) &&& 0xFF).setWidth 8⟩]

def storeDigest (buf : Registers UINT4) : Vector UInt8 16 :=
  ⟨(wordBytes buf.a ++ wordBytes buf.b ++ wordBytes buf.c ++ wordBytes buf.d).toArray, rfl⟩

def padLen (mdi : Nat) : Nat := if mdi < 56 then 56 - mdi else 120 - mdi

-- MD5Final up to its last block: the context padded out to 56 bytes mod 64
def padOut (ctx : Context) : Context := md5Update ctx PADDING (BitVec.ofNat 32 (padLen (bytesMod64 ctx)))

def md5Final (ctx : Context) : Context :=
  let padded := padOut ctx
  let buf := transform padded.buf fun i =>
    if i = 14 then ctx.i0 else if i = 15 then ctx.i1 else wordAt padded.input.toList (4 * i)
  { padded with buf := buf, digest := storeDigest buf }

-- The digest of a whole message: a one bit, zeros up to 56 bytes of the last
-- block, and the number of bits in eight bytes.
def lengthField (length : Nat) : Bytes := (List.range 8).map fun k => UInt8.ofNat ((8 * length) >>> (8 * k))

def markedMessage (message : Bytes) : Bytes := message ++ 0x80 :: List.replicate ((119 - message.length % 64) % 64) 0

def paddedMessage (message : Bytes) : Bytes := markedMessage message ++ lengthField message.length

def md5 (message : Bytes) : Vector UInt8 16 := storeDigest (run 64 compress initial (paddedMessage message))

-- What a context knows of the bytes it has seen
structure Represents (ctx : Context) (message : Bytes) : Prop where
  buf : ctx.buf = run 64 compress initial message
  rest : ctx.input.toList.take (message.length % 64) = residue 64 message
  bits : ctx.i1.toNat * 0x100000000 + ctx.i0.toNat = 8 * message.length % 0x10000000000000000

theorem init_represents (stale : Context) : Represents (md5Init stale) [] := ⟨rfl, rfl, by simp [md5Init]⟩

theorem represents_position (ctx : Context) (message : Bytes) (seen : Represents ctx message) :
    bytesMod64 ctx = message.length % 64 := by
  have bits := seen.bits
  have low := ctx.i0.isLt
  have mask : bytesMod64 ctx = ctx.i0.toNat / 8 % 64 := by
    rw [bytesMod64, BitVec.toNat_and, BitVec.toNat_ushiftRight, Nat.shiftRight_eq_div_pow]
    exact Nat.and_two_pow_sub_one_eq_mod _ 6
  omega

theorem take_set (input : Vector UInt8 64) (mdi : Nat) (c : UInt8) (inside : mdi < 64) :
    (input.setIfInBounds mdi c).toList.take (mdi + 1) = input.toList.take mdi ++ [c] := by
  have length : input.toList.length = 64 := input.size_toArray
  have stored : (input.setIfInBounds mdi c).toList = input.toList.set mdi c := by
    simp [Vector.toList]
  rw [stored, List.take_add_one, List.getElem?_set_self (by omega), List.take_set_of_le (Nat.le_refl mdi)]
  rfl

theorem update_byte_push (mdi : Nat) (ctx : Context) (c : UInt8) (inside : mdi < 64) :
    (updateByte (mdi, ctx) c).1 < 64 ∧
      (⟨(updateByte (mdi, ctx) c).2.buf,
        (updateByte (mdi, ctx) c).2.input.toList.take (updateByte (mdi, ctx) c).1⟩ : Pending _ _) =
        push 64 compress ⟨ctx.buf, ctx.input.toList.take mdi⟩ c ∧
      (updateByte (mdi, ctx) c).2.i0 = ctx.i0 ∧ (updateByte (mdi, ctx) c).2.i1 = ctx.i1 := by
  have stored := take_set ctx.input mdi c inside
  have length : (ctx.input.toList.take mdi ++ [c]).length = mdi + 1 := by
    rw [List.length_append, List.length_take, List.length_singleton, Vector.length_toList]
    omega
  rw [push, length]
  by_cases full : mdi + 1 = 64
  · have whole : (ctx.input.setIfInBounds mdi c).toList = ctx.input.toList.take mdi ++ [c] := by
      rw [← stored, full, List.take_of_length_le (by simp)]
    rw [if_pos full, ← whole]
    simp [updateByte, full]
  · rw [if_neg full, ← stored]
    simp only [updateByte, if_neg full]
    exact ⟨by omega, trivial, trivial, trivial⟩

theorem update_bytes_absorb (mdi : Nat) (ctx : Context) (bytes : Bytes) (inside : mdi < 64) :
    ∃ next, (bytes.foldl updateByte (mdi, ctx)).1 = next ∧ next < 64 ∧
      (⟨(bytes.foldl updateByte (mdi, ctx)).2.buf, (bytes.foldl updateByte (mdi, ctx)).2.input.toList.take next⟩ :
        Pending _ _) = absorb 64 compress ⟨ctx.buf, ctx.input.toList.take mdi⟩ bytes ∧
      (bytes.foldl updateByte (mdi, ctx)).2.i0 = ctx.i0 ∧ (bytes.foldl updateByte (mdi, ctx)).2.i1 = ctx.i1 := by
  induction bytes generalizing mdi ctx with
  | nil => exact ⟨mdi, rfl, inside, rfl, rfl, rfl⟩
  | cons c rest ih =>
      obtain ⟨below, pushed, low, high⟩ := update_byte_push mdi ctx c inside
      obtain ⟨next, position, bound, absorbed, lowAfter, highAfter⟩ :=
        ih (updateByte (mdi, ctx) c).1 (updateByte (mdi, ctx) c).2 below
      refine ⟨next, position, bound, ?_, lowAfter.trans low, highAfter.trans high⟩
      rw [List.foldl_cons, absorbed, pushed]
      rfl

theorem high_low_mod (high low : Nat) (bound : low < 0x100000000) :
    (high * 0x100000000 + low) % 0x10000000000000000 = high % 0x100000000 * 0x100000000 + low := by
  have split := Nat.mod_mul (a := 0x100000000) (b := 0x100000000) (x := high * 0x100000000 + low)
  omega

theorem carried (high low spilled shifted : Nat) (lowBound : low < 0x100000000) (rest : shifted < 0x100000000) :
    (high + (if (low + shifted) % 0x100000000 < low then 1 else 0) + spilled) * 0x100000000 + (low + shifted) % 0x100000000 =
      high * 0x100000000 + low + (spilled * 0x100000000 + shifted) := by
  by_cases full : low + shifted < 0x100000000
  · rw [Nat.mod_eq_of_lt full, if_neg (by omega)]
    omega
  · rw [Nat.mod_eq_sub_mod (by omega), Nat.mod_eq_of_lt (by omega), if_pos (by omega)]
    omega

theorem carry_bits (low high count total : Nat) (lowBound : low < 0x100000000)
    (bits : high * 0x100000000 + low = total % 0x10000000000000000) :
    (high + (if (low + count * 8 % 0x100000000) % 0x100000000 < low then 1 else 0) + count / 0x20000000) % 0x100000000 *
        0x100000000 + (low + count * 8 % 0x100000000) % 0x100000000 = (total + 8 * count) % 0x10000000000000000 := by
  have parts : 8 * count = count / 0x20000000 * 0x100000000 + count * 8 % 0x100000000 := by omega
  have rest : count * 8 % 0x100000000 < 0x100000000 := Nat.mod_lt _ (by decide)
  rw [← high_low_mod _ _ (Nat.mod_lt _ (by decide)), carried high low _ _ lowBound rest, ← parts, bits, Nat.mod_add_mod]

theorem count_bits (ctx : Context) (count total : Nat) (small : count < 0x100000000)
    (bits : ctx.i1.toNat * 0x100000000 + ctx.i0.toNat = total % 0x10000000000000000) :
    (countBits ctx (BitVec.ofNat 32 count)).i1.toNat * 0x100000000 + (countBits ctx (BitVec.ofNat 32 count)).i0.toNat =
      (total + 8 * count) % 0x10000000000000000 := by
  have shifted : (BitVec.ofNat 32 count <<< 3).toNat = count * 8 % 0x100000000 := by
    rw [BitVec.toNat_shiftLeft, BitVec.toNat_ofNat, Nat.mod_eq_of_lt small, Nat.shiftLeft_eq]
  have spilled : (BitVec.ofNat 32 count >>> 29).toNat = count / 0x20000000 := by
    rw [BitVec.toNat_ushiftRight, BitVec.toNat_ofNat, Nat.mod_eq_of_lt small, Nat.shiftRight_eq_div_pow]
  have carried := carry_bits ctx.i0.toNat ctx.i1.toNat count total ctx.i0.isLt bits
  have low : (countBits ctx (BitVec.ofNat 32 count)).i0.toNat =
    (ctx.i0.toNat + count * 8 % 0x100000000) % 0x100000000 := by
    rw [countBits, BitVec.toNat_add, shifted]
  by_cases carry : ctx.i0 + (BitVec.ofNat 32 count <<< 3) < ctx.i0
  · have overflow := carry
    rw [BitVec.lt_def, BitVec.toNat_add, shifted] at overflow
    rw [if_pos overflow] at carried
    rw [low, countBits, if_pos carry, BitVec.toNat_add, BitVec.toNat_add, spilled, Nat.mod_add_mod]
    exact carried
  · have fits := carry
    rw [BitVec.lt_def, BitVec.toNat_add, shifted] at fits
    rw [if_neg fits] at carried
    rw [low, countBits, if_neg carry, BitVec.toNat_add, spilled]
    exact carried

theorem update_represents (ctx : Context) (message more : Bytes) (count : Nat) (seen : Represents ctx message)
    (small : count < 0x100000000) (long : count ≤ more.length) :
    Represents (md5Update ctx more (BitVec.ofNat 32 count)) (message ++ more.take count) := by
  have position := represents_position ctx message seen
  have width : (BitVec.ofNat 32 count).toNat = count := by rw [BitVec.toNat_ofNat, Nat.mod_eq_of_lt small]
  have length : (message ++ more.take count).length = message.length + count := by
    rw [List.length_append, List.length_take, Nat.min_eq_left long]
  obtain ⟨next, _, bound, absorbed, low, high⟩ :=
    update_bytes_absorb (bytesMod64 ctx) (countBits ctx (BitVec.ofNat 32 count))
    (more.take count) (by rw [position]; exact Nat.mod_lt _ (by decide))
  have before : (⟨(countBits ctx (BitVec.ofNat 32 count)).buf,
      (countBits ctx (BitVec.ofNat 32 count)).input.toList.take (bytesMod64 ctx)⟩ : Pending _ _) =
      absorb 64 compress ⟨initial, []⟩ message := by
    rw [absorb_run 64 compress initial message (by decide), ← seen.buf, ← seen.rest, position]
    rfl
  rw [before, ← absorb_append, absorb_run 64 compress initial _ (by decide), Pending.mk.injEq] at absorbed
  have inside : next = (message ++ more.take count).length % 64 := by
    have size := congrArg List.length absorbed.2
    rw [residue_length, List.length_take, Vector.length_toList] at size
    omega
  refine ⟨?_, ?_, ?_⟩
  · rw [md5Update, width]
    exact absorbed.1
  · rw [md5Update, width, ← inside]
    exact absorbed.2
  · rw [md5Update, width, low, high, length, Nat.mul_add]
    exact count_bits ctx count _ small seen.bits

-- A message handed over in pieces, as the callers of MD5Update do
def updates (ctx : Context) (chunks : List Bytes) : Context :=
  chunks.foldl (fun ctx chunk => md5Update ctx chunk (BitVec.ofNat 32 chunk.length)) ctx

theorem updates_represents (ctx : Context) (message : Bytes) (chunks : List Bytes) (seen : Represents ctx message)
    (small : ∀ chunk ∈ chunks, chunk.length < 0x100000000) : Represents (updates ctx chunks) (message ++
    chunks.flatten) := by
  induction chunks generalizing ctx message with
  | nil => simpa [updates] using seen
  | cons chunk rest ih =>
      rw [List.forall_mem_cons] at small
      have step := update_represents ctx message chunk chunk.length seen small.1 (Nat.le_refl _)
      rw [List.take_length] at step
      rw [List.flatten_cons, ← List.append_assoc]
      exact ih _ _ step small.2

theorem length_field_length (length : Nat) : (lengthField length).length = 8 := by simp [lengthField]

theorem marked_length (message : Bytes) : (markedMessage message).length = 64 * ((message.length + 8) / 64) + 56 := by
  rw [markedMessage, List.length_append, List.length_cons, List.length_replicate]
  omega

theorem byte_at_bit (bytes : Bytes) (i k : Nat) :
    (byteAt bytes i).getLsbD k = (decide (k < 8) && (bytes.getD i 0).toBitVec.getLsbD k) := by
  rw [byteAt, BitVec.getLsbD_setWidth]
  by_cases low : k < 8
  · simp [low, show k < 32 by omega]
  · rw [BitVec.getLsbD_of_ge (bytes.getD i 0).toBitVec k (by omega)]
    simp

theorem word_at_read (bytes : Bytes) (ii : Nat) : wordAt bytes ii = readWord (fun i => bytes.getD i 0) ii := by
  apply BitVec.eq_of_getLsbD_eq
  intro k bound
  simp only [wordAt, readWord, BitVec.getLsbD_or, BitVec.getLsbD_shiftLeft, byte_at_bit, BitVec.getLsbD_append, bound]
  by_cases byte0 : k < 8
  · simp [byte0, show k < 16 by omega, show k < 24 by omega]
  · by_cases byte1 : k < 16
    · simp [byte0, byte1, show k < 24 by omega, show k - 8 < 8 by omega]
    · by_cases byte2 : k < 24
      · simp [byte0, byte1, byte2, show ¬ k - 8 < 8 by omega, show k - 16 < 8 by omega,
          show k - 8 - 8 = k - 16 by omega]
      · simp [byte0, byte1, byte2, show ¬ k - 8 < 8 by omega, show ¬ k - 8 - 8 < 8 by omega, show k - 24 < 8 by omega,
          show ¬ k - 16 < 8 by omega, show k - 8 - 8 - 8 = k - 24 by omega]

theorem number_byte (n j : Nat) (inside : j < 4) : wordByte (BitVec.ofNat 32 n) j = UInt8.ofNat (n >>> (8 * j)) := by
  apply UInt8.toNat_inj.mp
  rw [wordByte, UInt8.toNat_ofNat', ← UInt8.toNat_toBitVec, BitVec.extractLsb'_toNat, BitVec.toNat_ofNat,
    Nat.shiftRight_eq_div_pow, Nat.shiftRight_eq_div_pow]
  rcases (show j = 0 ∨ j = 1 ∨ j = 2 ∨ j = 3 by omega) with rfl | rfl | rfl | rfl <;> omega

theorem word_at_number (bytes : Bytes) (ii n : Nat) (stored : ∀ j < 4, bytes.getD (ii + j) 0 = UInt8.ofNat
    (n >>> (8 * j))) :
    wordAt bytes ii = BitVec.ofNat 32 n := by
  rw [word_at_read]
  apply read_word_bytes
  intro j inside
  rw [number_byte n j inside]
  exact stored j inside

theorem word_at_front (front rest : Bytes) (ii : Nat) (inside : ii + 4 ≤ front.length) :
    wordAt (front ++ rest) ii = wordAt front ii := by
  have same : ∀ j, j < front.length → byteAt (front ++ rest) j = byteAt front j := fun j bound => by
    rw [byteAt, byteAt, List.getD_append _ _ _ _ bound]
  rw [wordAt, wordAt, same _ (by omega), same _ (by omega), same _ (by omega), same _ (by omega)]

theorem length_field_word (front : Bytes) (length k : Nat) (inside : k < 2) :
    wordAt (front ++ lengthField length) (front.length + 4 * k) = BitVec.ofNat 32 ((8 * length) >>> (32 * k)) := by
  apply word_at_number
  intro j bound
  rw [List.getD_append_right _ _ _ _ (by omega), show front.length + 4 * k + j - front.length =
    4 * k + j by omega, lengthField,
    List.getD_eq_getElem _ _ (by simp; omega), List.getElem_map, List.getElem_range, ← Nat.shiftRight_add,
    show 8 * (4 * k + j) = 32 * k + 8 * j by omega]

theorem padding_marked (message : Bytes) :
    message ++ PADDING.take (padLen (message.length % 64)) = markedMessage message ∧
      padLen (message.length % 64) ≤ PADDING.length := by
  have bound := Nat.mod_lt message.length (show 64 > 0 by decide)
  have zeros : padLen (message.length % 64) = (119 - message.length % 64) % 64 + 1 := by
    rw [padLen]
    split <;> omega
  rw [PADDING, zeros, List.take_succ_cons, List.take_replicate, Nat.min_eq_left (by omega), markedMessage]
  exact ⟨rfl, by simp; omega⟩

theorem pad_out_represents (ctx : Context) (message : Bytes) (seen : Represents ctx message) :
    Represents (padOut ctx) (markedMessage message) := by
  obtain ⟨marked, long⟩ := padding_marked message
  have small : padLen (message.length % 64) < 0x100000000 := lt_of_le_of_lt long (by decide)
  rw [padOut, represents_position ctx message seen, ← marked]
  exact update_represents ctx message PADDING _ seen small long

theorem represents_counters (ctx : Context) (message : Bytes) (seen : Represents ctx message) :
    ctx.i0 = BitVec.ofNat 32 (8 * message.length) ∧ ctx.i1 = BitVec.ofNat 32 ((8 * message.length) >>> 32) := by
  have bits := seen.bits
  have low := ctx.i0.isLt
  rw [← Nat.shiftLeft_eq _ 32] at bits
  constructor
  · apply BitVec.eq_of_toNat_eq
    rw [BitVec.toNat_ofNat]
    omega
  · apply BitVec.eq_of_toNat_eq
    rw [BitVec.toNat_ofNat, Nat.shiftRight_eq_div_pow]
    omega

theorem final_words (ctx : Context) (message front tail : Bytes) (seen : Represents ctx message)
    (sized : front.length = 56) (i : Nat) (inside : i < 16) :
    (if i = 14 then ctx.i0 else if i = 15 then ctx.i1 else wordAt (front ++ tail) (4 * i)) =
      wordAt (front ++ lengthField message.length) (4 * i) := by
  obtain ⟨low, high⟩ := represents_counters ctx message seen
  have field := length_field_word front message.length
  rw [sized] at field
  by_cases fourteenth : i = 14
  · rw [if_pos fourteenth, fourteenth, low]
    exact (field 0 (by decide)).symm
  · by_cases fifteenth : i = 15
    · rw [if_neg fourteenth, if_pos fifteenth, fifteenth, high]
      exact (field 1 (by decide)).symm
    · rw [if_neg fourteenth, if_neg fifteenth, word_at_front _ _ _ (by omega), word_at_front _ _ _ (by omega)]

theorem final_digest (ctx : Context) (message : Bytes) (seen : Represents ctx message) :
    (md5Final ctx).digest = md5 message := by
  have padded := pad_out_represents ctx message seen
  have size := marked_length message
  have next : (markedMessage message ++ lengthField message.length).length =
      64 * ((markedMessage message).length / 64 + 1) := by
    rw [List.length_append, length_field_length]
    omega
  have last : (residue 64 (markedMessage message)).length = 56 := by
    rw [residue_length]
    omega
  have front : residue 64 (markedMessage message) ++ (padOut ctx).input.toList.drop 56 = (padOut ctx).input.toList := by
    rw [← padded.rest, show (markedMessage message).length % 64 = 56 by omega, List.take_append_drop]
  have words := final_words ctx message _ ((padOut ctx).input.toList.drop 56) seen last
  rw [front] at words
  rw [md5, paddedMessage, run_next_block 64 compress initial _ _ (by decide) next, compress, ← padded.buf,
    ← transform_words _ _ _ words]
  rfl

-- However a message is cut into calls of MD5Update, and whatever the arrays of the
-- context held, its digest is that of the whole message.
theorem md5_streams (stale : Context) (chunks : List Bytes) (small : ∀ chunk ∈ chunks, chunk.length < 0x100000000) :
    (md5Final (updates (md5Init stale) chunks)).digest = md5 chunks.flatten :=
  final_digest _ _ (updates_represents _ [] chunks (init_represents stale) small)

def zeroContext : Context := ⟨0, 0, ⟨0, 0, 0, 0⟩, Vector.replicate 64 0, Vector.replicate 16 0⟩

theorem md5_streams_abc : (md5Final (updates (md5Init zeroContext) [ascii "a", [], ascii "bc"])).digest.toList =
    [0x90, 0x01, 0x50, 0x98, 0x3c, 0xd2, 0x4f, 0xb0, 0xd6, 0x96, 0x3f, 0x7d, 0x28, 0xe1, 0x7f, 0x72] := by
  rw [md5_streams zeroContext _ (by decide)]
  decide +kernel

end Ftm50s.Md5
