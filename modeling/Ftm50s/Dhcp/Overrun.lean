import Ftm50s.Dhcp.RoundTrip
import Ftm50s.Lib.Scan

set_option autoImplicit false

namespace Ftm50s.Dhcp

open Lib.Text Lib.Scan

theorem status_overrun (front word tail : Bytes) (closed : front.getLast?.all isSpace = true)
    (few : (words front).length < 3) (nul : (0 : UInt8) ∉ front) (stored : isStored word = true)
      (long : 64 ≤ word.length) :
    statusLine (front ++ (word ++ tail)) = none := by
  obtain ⟨valid, wordNul, _⟩ := stored_spec word stored
  have clean : ∀ part : Bytes, (0 : UInt8) ∉ part → ∀ c ∈ part, (c != 0) = true := by
    intro part absent c member
    simpa using fun same : c = 0 => absent (same ▸ member)
  have text : cstr (front ++ (word ++ tail)) = front ++ (word ++ cstr tail) := by
    rw [cstr, List.takeWhile_append_of_pos (clean front nul), List.takeWhile_append_of_pos (clean word wordNul), cstr]
  obtain ⟨whole, more, cut, within⟩ := words_head word (cstr tail) valid
  have size := within.length_le
  have member : whole ∈ (words front ++ whole :: more).take 3 := by
    rw [List.take_append, List.mem_append]
    right
    obtain ⟨count, same⟩ := Nat.exists_eq_succ_of_ne_zero (show 3 - (words front).length ≠ 0 by omega)
    rw [same, List.take_succ_cons]
    exact List.mem_cons_self
  have tooLong : ((words front ++ whole :: more).take 3).all (fun word => decide (word.length < 64)) = false := by
    rw [List.all_eq_false]
    exact ⟨whole, member, by simp; omega⟩
  rw [statusLine, text, words_append front _ closed, cut]
  simp only [tooLong, Bool.not_false, if_true]

theorem status_fails (records : List Bytes) (front word rest : Bytes) (member : front ++ (word ++ rest) ∈ records)
    (closed : front.getLast?.all isSpace = true) (few : (words front).length < 3) (nul : (0 : UInt8) ∉ front)
    (plain : (10 : UInt8) ∉ front) (stored : isStored word = true) (long : 64 ≤ word.length)
    (room : (front ++ word).length + 1 < 1024) : (fgets 1024 (unlines records)).mapM statusLine = none := by
  obtain ⟨before, after, rfl⟩ := List.append_of_mem member
  have shape : unlines (before ++ (front ++ (word ++ rest)) :: after) =
      unlines before ++ ((front ++ word) ++ (rest ++ 10 :: unlines after)) := by
    rw [unlines_append]
    simp [unlines]
  have wordPlain := (stored_spec word stored).2.2
  have nonempty : front ++ word ≠ [] := by
    intro empty
    rw [(List.append_eq_nil_iff.mp empty).2] at long
    exact absurd long (by decide)
  obtain ⟨row, others, cut, tail, rfl⟩ := fgets_first 1024 (front ++ word) (rest ++ 10 :: unlines after) nonempty
    (by simp [plain, wordPlain]) room
  rw [shape, fgets_unlines_append, cut]
  apply map_m_none
  rw [List.append_assoc]
  exact status_overrun front word tail closed few nul stored long

theorem stored_take (text : Bytes) (stored : isStored text = true) (long : 64 ≤ text.length) :
    isStored (text.take 64) = true ∧ (text.take 64).length = 64 := by
  have length : (text.take 64).length = 64 := List.length_take_of_le long
  refine ⟨?_, length⟩
  simp only [isStored, isWord, Bool.and_eq_true, List.all_eq_true] at stored ⊢
  refine ⟨⟨?_, fun c member => stored.1.2 c (List.mem_of_mem_take member)⟩, fun c member =>
    stored.2 c (List.mem_of_mem_take member)⟩
  cases front : text.take 64 with
  | nil => rw [front] at length; cases length
  | cons c rest => rfl

theorem value_fails (records : List Bytes) (item : String × Bytes) (tagged : isTag item.1 = true)
    (stored : isStored item.2 = true) (long : 64 ≤ item.2.length) (member : printValue item.1 item.2 ∈ records) :
    (fgets 1024 (unlines records)).mapM statusLine = none := by
  simp only [isTag, Bool.and_eq_true, decide_eq_true_eq] at tagged
  obtain ⟨tagWord, tagShort, tagNul, tagNewline⟩ := field_spec 16 _ tagged.1
  obtain ⟨word, length⟩ := stored_take item.2 stored long
  have gap : ascii ":  " = ascii ":" ++ [32, 32] := rfl
  have shape : printValue item.1 item.2 = ((ascii item.1 ++ ascii ":") ++ 32 :: [32]) ++
    (item.2.take 64 ++ item.2.drop 64) := by
    rw [List.take_append_drop, printValue, gap]
    simp
  have first : words ((ascii item.1 ++ ascii ":") ++ 32 :: [32]) = [ascii item.1 ++ ascii ":"] := by
    rw [words_word_space _ _ 32 tagWord (by decide)]
    rfl
  rw [shape] at member
  apply status_fails records _ _ _ member
  · simp [isSpace]
  · rw [first, List.length_singleton]
    decide
  · rw [List.mem_append, not_or]
    exact ⟨tagNul, by decide⟩
  · rw [List.mem_append, not_or]
    exact ⟨tagNewline, by decide⟩
  · exact word
  · omega
  · simp only [List.length_append, List.length_cons, List.length_nil] at length tagShort ⊢
    omega

theorem lease_fails (records : List Bytes) (lease : Bytes × Bytes) (macStored : isStored lease.1 = true)
    (ipStored : isStored lease.2 = true) (long : 64 ≤ lease.1.length ∨ 64 ≤ lease.2.length)
      (member : printLease lease ∈ records) :
    (fgets 1024 (unlines records)).mapM statusLine = none := by
  have mark : words (ascii "STATIC_LEASE: ") = [ascii "STATIC_LEASE:"] := by decide
  have markPlain : (0 : UInt8) ∉ ascii "STATIC_LEASE: " ∧ (10 : UInt8) ∉ ascii "STATIC_LEASE: " := by decide
  have markLength : (ascii "STATIC_LEASE: ").length = 14 := by decide
  have blank : ascii " " = [32] := rfl
  by_cases macLong : 64 ≤ lease.1.length
  · obtain ⟨word, length⟩ := stored_take lease.1 macStored macLong
    have shape : printLease lease = ascii "STATIC_LEASE: " ++
      (lease.1.take 64 ++ (lease.1.drop 64 ++ (ascii " " ++ lease.2))) := by
      rw [← List.append_assoc (lease.1.take 64), List.take_append_drop, printLease]
      simp
    rw [shape] at member
    apply status_fails records _ _ _ member (by decide) (by rw [mark]; decide) markPlain.1 markPlain.2 word (by omega)
    rw [List.length_append, markLength, length]
    decide
  · have ipLong : 64 ≤ lease.2.length := by omega
    obtain ⟨macWord, macNul, macNewline⟩ := stored_spec lease.1 macStored
    obtain ⟨word, length⟩ := stored_take lease.2 ipStored ipLong
    have shape : printLease lease = (ascii "STATIC_LEASE: " ++ (lease.1 ++ 32 :: [])) ++
      (lease.2.take 64 ++ lease.2.drop 64) := by
      rw [List.take_append_drop, printLease, blank]
      simp
    have pair : words (ascii "STATIC_LEASE: " ++ (lease.1 ++ 32 :: [])) = [ascii "STATIC_LEASE:", lease.1] := by
      rw [words_append _ _ (by decide), mark, words_word_space lease.1 [] 32 macWord (by decide)]
      rfl
    rw [shape] at member
    apply status_fails records _ _ _ member
    · simp [isSpace]
    · simp [pair]
    · simp [markPlain.1, macNul]
    · simp [markPlain.2, macNewline]
    · exact word
    · omega
    · simp only [List.length_append, List.length_cons, List.length_nil, markLength, length]
      omega

theorem status_short (running : Bool) (settings : Settings) (stored : Stored settings)
    (answered : (dhcpStatus running (unlines (linesOf settings))).isSome = true) : Short settings := by
  have printed : ∀ line ∈ (reported settings).map (fun item => printValue item.1 item.2) ++
      (settings.leases.map upperLease).map printLease, line ∈ [runningLine running] ++ awkEnd (readState settings) := by
    intro line member
    rw [awk_end_lines settings stored]
    exact List.mem_append_right _ member
  have runs : (fgets 1024 (unlines ([runningLine running] ++ awkEnd (readState settings)))).mapM statusLine ≠ none := by
    intro failed
    rw [status_of_stored running settings stored, failed] at answered
    cases answered
  constructor
  · intro item member
    by_contra long
    obtain ⟨tagged, field⟩ := reported_stored settings stored item member
    have line := printed _ (List.mem_append_left _ (List.mem_map_of_mem member))
    exact runs (value_fails _ item tagged field (by omega) line)
  · intro lease member
    by_contra long
    have line := printed _ (List.mem_append_right _ (List.mem_map_of_mem (List.mem_map_of_mem member)))
    have upper : (upperLease lease).1.length = lease.1.length := List.length_map ..
    refine runs (lease_fails _ (upperLease lease) (upper_stored _ (stored.leases lease member).1)
      (stored.leases lease member).2 ?_ line)
    rw [upper]
    change 64 ≤ lease.1.length ∨ 64 ≤ lease.2.length
    omega

end Ftm50s.Dhcp
