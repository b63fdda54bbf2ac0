import Ftm50s.Cgi.Public
import Ftm50s.Lib.Hex

set_option autoImplicit false

namespace Ftm50s.Cgi

open Lib.Text Lib.Mem Lib.Hex Ftm50s.Ssid

-- A char array, with whatever the stack left in it
abbrev Storage (size : Nat) := { bytes : Bytes // bytes.length = size }

def sprintfInto (buffer text : Bytes) : Bytes := text ++ 0 :: buffer.drop (text.length + 1)

def memcpyInto (target source : Bytes) (count : Nat) : Bytes := source.take count ++ target.drop count

def digestWord (digest : Digest) (k : Nat) : BitVec 32 := readWord (fun i => digest.bytes.getD i 0) (4 * k)

-- "%08x%08x%08x%08x"
def ssidText (digest : Digest) : Bytes :=
  paddedHex 8 (digestWord digest 0).toNat ++ paddedHex 8 (digestWord digest 1).toNat ++
    paddedHex 8 (digestWord digest 2).toNat ++ paddedHex 8 (digestWord digest 3).toNat

-- FTMC_MakeSSID from MD5Final on. szBuf still holds the line of ps, and the copy
-- takes nLen bytes of it, whatever the length of the text.
def makeSSIDInto (szBuf : Storage 1024) (digest : Digest) (lpszTag : Bytes) (nLen : Nat) : Bytes :=
  memcpyInto lpszTag (sprintfInto szBuf.val (ssidText digest)) nLen

-- Both callers pass an array of 64 and its size.
def issuedTag (szBuf : Storage 1024) (digest : Digest) (szTag : Storage 64) : Bytes :=
  makeSSIDInto szBuf digest szTag.val 64

theorem padded_word_length (word : BitVec 32) : (paddedHex 8 word.toNat).length = 8 := by
  have fits := word.isLt
  exact padded_length 8 word.toNat (by decide) (by omega)

theorem padded_word (word : BitVec 32) : paddedHex 8 word.toNat = hexWord word := by
  have fits := word.isLt
  exact padded_fixed 8 word.toNat (by decide) (by omega)

theorem ssid_text_tag (digest : Digest) : ssidText digest = (makeSSID digest).bytes := by
  simp only [ssidText, padded_word, digestWord, makeSSID, List.range_succ, List.range_zero, List.nil_append,
    List.flatMap_append,
    List.flatMap_singleton]

theorem ssid_text_length (digest : Digest) : (ssidText digest).length = 32 := by
  simp only [ssidText, List.length_append, padded_word_length]

theorem ssid_text_lower (digest : Digest) : ∀ c ∈ ssidText digest, isLowerHex c = true := by
  intro c member
  simp only [ssidText, List.mem_append] at member
  rcases member with ((first | second) | third) | fourth
  · exact padded_lower 8 _ (by decide) c first
  · exact padded_lower 8 _ (by decide) c second
  · exact padded_lower 8 _ (by decide) c third
  · exact padded_lower 8 _ (by decide) c fourth

theorem digest_words (a b : Digest) (same : ∀ k < 4, digestWord a k = digestWord b k) : a = b := by
  have bytes : a.bytes = b.bytes := by
    apply List.ext_getElem (by rw [a.sized, b.sized])
    intro i left right
    have inside : i < 16 := by rw [← a.sized]; exact left
    have word := congrArg (wordByte · (i % 4)) (same (i / 4) (by omega))
    simp only [digestWord, word_byte_read _ _ _ (Nat.mod_lt i (show 4 > 0 by decide)), Nat.div_add_mod] at word
    rwa [List.getD_eq_getElem _ _ left, List.getD_eq_getElem _ _ right] at word
  cases a
  cases b
  cases bytes
  rfl

theorem ssid_text_injective (a b : Digest) (same : ssidText a = ssidText b) : a = b := by
  obtain ⟨front, fourth⟩ := List.append_inj' same (by rw [padded_word_length, padded_word_length])
  obtain ⟨front, third⟩ := List.append_inj' front (by rw [padded_word_length, padded_word_length])
  obtain ⟨first, second⟩ := List.append_inj' front (by rw [padded_word_length, padded_word_length])
  have word : ∀ k, paddedHex 8 (digestWord a k).toNat = paddedHex 8 (digestWord b k).toNat → digestWord a k =
    digestWord b k :=
    fun k printed => BitVec.eq_of_toNat_eq (padded_injective 8 _ _ (by decide) printed)
  apply digest_words
  intro k bound
  interval_cases k
  · exact word 0 first
  · exact word 1 second
  · exact word 2 third
  · exact word 3 fourth

theorem issued_tag_layout (szBuf : Storage 1024) (digest : Digest) (szTag : Storage 64) :
    ∃ stale, stale.length = 31 ∧ issuedTag szBuf digest szTag = ssidText digest ++ 0 :: stale := by
  have length := ssid_text_length digest
  refine ⟨(szBuf.val.drop 33).take 31, by simp [szBuf.property], ?_⟩
  rw [issuedTag, makeSSIDInto, memcpyInto, sprintfInto, List.drop_eq_nil_of_le (le_of_eq szTag.property),
    List.append_nil,
    length, List.take_append, length, List.take_of_length_le (by omega)]
  rfl

theorem issued_tag_text (szBuf : Storage 1024) (digest : Digest) (szTag : Storage 64) :
    cstr (issuedTag szBuf digest szTag) = ssidText digest := by
  obtain ⟨stale, _, layout⟩ := issued_tag_layout szBuf digest szTag
  have clean : ∀ c ∈ ssidText digest, (c != 0) = true := by
    intro c member
    have lower := ssid_text_lower digest c member
    by_contra zero
    obtain rfl : c = 0 := by simpa using zero
    exact absurd lower (by decide)
  rw [layout, cstr, List.takeWhile_append_of_pos clean]
  simp

theorem session_id_encoding (szBuf : Storage 1024) (digest : Digest) (szTag : Storage 64) :
    (issuedTag szBuf digest szTag).length = 64 ∧
      (issuedTag szBuf digest szTag).take 32 = (makeSSID digest).bytes ∧
      ((issuedTag szBuf digest szTag).take 32).all isLowerHex = true ∧
      (issuedTag szBuf digest szTag)[32]? = some 0 ∧
      (cstr (issuedTag szBuf digest szTag)).length = 32 ∧
      ∀ otherBuf other otherTag,
        cstr (issuedTag otherBuf other otherTag) = cstr (issuedTag szBuf digest szTag) ↔ other = digest := by
  obtain ⟨stale, rest, layout⟩ := issued_tag_layout szBuf digest szTag
  have length := ssid_text_length digest
  have front : (issuedTag szBuf digest szTag).take 32 = ssidText digest := by
    rw [layout, List.take_append_of_le_length (le_of_eq length.symm), List.take_of_length_le (le_of_eq length)]
  refine ⟨?_, ?_, ?_, ?_, ?_, ?_⟩
  · rw [layout, List.length_append, List.length_cons, length, rest]
  · rw [front, ssid_text_tag]
  · rw [front, List.all_eq_true]
    exact ssid_text_lower digest
  · rw [layout, List.getElem?_append_right (le_of_eq length), length]
    rfl
  · rw [issued_tag_text, length]
  · intro otherBuf other otherTag
    rw [issued_tag_text, issued_tag_text]
    constructor
    · exact ssid_text_injective other digest
    · exact congrArg ssidText

end Ftm50s.Cgi
