import Ftm50s.Fwmng.Flash

set_option autoImplicit false

namespace Ftm50s.Fwmng

open Lib.Text

-- (int)(nReadSize * 100 / nSize)
def percent (nReadSize nSize : BitVec 32) : BitVec 32 := (nReadSize * 100#32).sdiv nSize

-- The values that the loop stores when its reads answer the given sizes
def flashProgress (nSize nReadSize : BitVec 32) : List Nat → List (BitVec 32)
  | [] => []
  | nRead :: rest =>
      percent (nReadSize + BitVec.ofNat 32 nRead) nSize :: flashProgress nSize (nReadSize + BitVec.ofNat 32 nRead) rest

def readSizes (turns : Nat → Turn) (i : Nat) (rest : Bytes) : List Nat :=
  if _more : readBytes (turns i).read rest ≠ [] then
    (readBytes (turns i).read rest).length :: readSizes turns (i + 1) (rest.drop (readBytes (turns i).read rest).length)
  else []
termination_by rest.length
decreasing_by exact read_shrinks _ _ _more

theorem flash_loop_progress (turns : Nat → Turn) (nSize : BitVec 32) (i : Nat) (nReadSize : BitVec 32) (rest : Bytes) :
    (flashLoop turns nSize i nReadSize rest).2 = flashProgress nSize nReadSize (readSizes turns i rest) := by
  induction i, rest using readSizes.induct turns generalizing nReadSize with
  | case1 i rest more ih =>
      rw [flashLoop, dif_pos more, readSizes, dif_pos more, flashProgress, ← ih]
      rfl
  | case2 i rest last =>
      rw [flashLoop, dif_neg last, readSizes, dif_neg last]
      rfl

theorem read_sizes_whole (turns : Nat → Turn) (i : Nat) (rest : Bytes) (answers : ∀ k, (turns k).read ≠ .error) :
    (readSizes turns i rest).sum = rest.length := by
  induction i, rest using readSizes.induct turns with
  | case1 i rest more ih =>
      have whole := congrArg List.length (read_append (turns i).read rest)
      rw [List.length_append] at whole
      rw [readSizes, dif_pos more, List.sum_cons, ih]
      exact whole
  | case2 i rest last =>
      rw [readSizes, dif_neg last]
      cases answer : (turns i).read with
      | error => exact absurd answer (answers i)
      | upTo n =>
          rw [answer] at last
          cases rest with
          | nil => rfl
          | cons c rest => simp [readBytes] at last

theorem to_int_small (n : Nat) (small : n < 2147483648) : (BitVec.ofNat 32 n).toInt = n := by
  rw [BitVec.toInt_eq_toNat_cond, BitVec.toNat_ofNat]
  omega

theorem percent_small (size n : Nat) (positive : 0 < size) (below : n ≤ size) (fits : size ≤ 21474836) :
    (percent (BitVec.ofNat 32 n) (BitVec.ofNat 32 size)).toInt = ((n * 100 / size : Nat) : Int) := by
  have product : BitVec.ofNat 32 n * 100#32 = BitVec.ofNat 32 (n * 100) := by
    rw [← BitVec.ofNat_mul]
  have bound : n * 100 / size ≤ 100 := by
    rw [Nat.div_le_iff_le_mul_add_pred positive]
    omega
  rw [percent, BitVec.toInt_sdiv, product, to_int_small (n * 100) (by omega), to_int_small size (by omega),
    ← Int.ofNat_tdiv]
  generalize n * 100 / size = quotient at bound ⊢
  exact Int.bmod_eq_of_le (by omega) (by omega)

-- From there on the wrapped product is too small for a quotient of 100.
theorem percent_large (size : Nat) (large : 21474836 < size) (bounded : size < 2147483648) :
    (percent (BitVec.ofNat 32 size) (BitVec.ofNat 32 size)).toInt ≠ 100 := by
  intro full
  have range : (BitVec.ofNat 32 size * 100#32).toInt < 2147483648 ∧
    -2147483648 ≤ (BitVec.ofNat 32 size * 100#32).toInt :=
    ⟨BitVec.toInt_lt, BitVec.le_toInt _⟩
  rw [percent, BitVec.toInt_sdiv, to_int_small size bounded] at full
  generalize (BitVec.ofNat 32 size * 100#32).toInt = product at full range
  have below : product.tdiv size < 100 := by
    have most : product.tdiv size ≤ ((2147483647 / size : Nat) : Int) := by
      rw [Int.ofNat_tdiv]
      exact Int.tdiv_le_tdiv (by omega) (by omega)
    have quotient : 2147483647 / size < 100 := Nat.div_lt_of_lt_mul (by omega)
    omega
  have absolute := Int.natAbs_tdiv_le_natAbs product size
  generalize product.tdiv size = quotient at full below absolute
  rw [Int.bmod_eq_of_le (by omega) (by omega)] at full
  omega

-- How many bytes have been read after each read
def counts (nReadSize : Nat) : List Nat → List Nat
  | [] => []
  | nRead :: rest => (nReadSize + nRead) :: counts (nReadSize + nRead) rest

theorem flash_progress_counts (nSize : BitVec 32) (nReadSize : Nat) (sizes : List Nat) :
    flashProgress nSize (BitVec.ofNat 32 nReadSize) sizes = (counts nReadSize sizes).map fun n =>
      percent (BitVec.ofNat 32 n) nSize := by
  induction sizes generalizing nReadSize with
  | nil => rfl
  | cons nRead rest ih => rw [flashProgress, counts, List.map_cons, ← BitVec.ofNat_add, ih]

theorem counts_sorted (nReadSize : Nat) (sizes : List Nat) :
    (nReadSize :: counts nReadSize sizes).Pairwise (· ≤ ·) := by
  induction sizes generalizing nReadSize with
  | nil => exact List.pairwise_singleton _ _
  | cons nRead rest ih =>
      have later := ih (nReadSize + nRead)
      rw [counts, List.pairwise_cons]
      refine ⟨fun n member => ?_, later⟩
      rcases List.mem_cons.mp member with rfl | inside
      · omega
      · have := List.rel_of_pairwise_cons later inside
        omega

theorem counts_last (nReadSize : Nat) (sizes : List Nat) :
    (nReadSize :: counts nReadSize sizes).getLast? = some (nReadSize + sizes.sum) := by
  induction sizes generalizing nReadSize with
  | nil => rfl
  | cons nRead rest ih => rw [counts, List.getLast?_cons_cons, ih, List.sum_cons, Nat.add_assoc]

theorem counts_bound (nReadSize : Nat) (sizes : List Nat) :
    ∀ n ∈ counts nReadSize sizes, n ≤ nReadSize + sizes.sum := by
  induction sizes generalizing nReadSize with
  | nil => exact nofun
  | cons nRead rest ih =>
      intro n member
      rw [List.sum_cons]
      rcases List.mem_cons.mp member with rfl | later
      · omega
      · have := ih (nReadSize + nRead) n later
        omega

-- Within 0..100, never decreasing, 100 at the end
structure Sound (progress : List (BitVec 32)) : Prop where
  range : ∀ value ∈ progress, 0 ≤ value.toInt ∧ value.toInt ≤ 100
  rises : progress.Pairwise fun earlier later => earlier.toInt ≤ later.toInt
  ends : progress.getLast?.map BitVec.toInt = some 100

theorem progress_counts (nSize : BitVec 32) (sizes : List Nat) :
    0#32 :: flashProgress nSize 0#32 sizes = (0 :: counts 0 sizes).map fun n => percent (BitVec.ofNat 32 n) nSize := by
  have start : percent (BitVec.ofNat 32 0) nSize = 0#32 := by
    rw [percent, BitVec.zero_mul, BitVec.zero_sdiv]
  rw [List.map_cons, start]
  exact congrArg _ (flash_progress_counts nSize 0 sizes)

theorem progress_iff (size : Nat) (positive : 0 < size) (bounded : size < 2147483648) (sizes : List Nat)
    (whole : sizes.sum = size) :
    Sound (0#32 :: flashProgress (BitVec.ofNat 32 size) 0#32 sizes) ↔ size ≤ 21474836 := by
  have last := counts_last 0 sizes
  rw [Nat.zero_add, whole] at last
  rw [progress_counts]
  constructor
  · rintro ⟨_, _, ends⟩
    by_contra large
    rw [List.getLast?_map, last] at ends
    exact percent_large size (by omega) bounded (Option.some.inj ends)
  · intro fits
    have sorted := counts_sorted 0 sizes
    have each : ∀ n ∈ 0 :: counts 0 sizes, n ≤ size := by
      intro n member
      rcases List.mem_cons.mp member with rfl | later
      · exact Nat.zero_le size
      · have bound := counts_bound 0 sizes n later
        omega
    refine ⟨fun value member => ?_, ?_, ?_⟩
    · obtain ⟨n, inside, rfl⟩ := List.mem_map.mp member
      have below : n * 100 / size ≤ 100 := by
        rw [Nat.div_le_iff_le_mul_add_pred positive]
        have := each n inside
        omega
      rw [percent_small size n positive (each n inside) fits]
      exact ⟨Int.natCast_nonneg _, Int.ofNat_le.mpr below⟩
    · rw [List.pairwise_map]
      refine sorted.imp_of_mem fun {a b} first second ordered => ?_
      rw [percent_small size a positive (each a first) fits, percent_small size b positive (each b second) fits]
      exact Int.ofNat_le.mpr (Nat.div_le_div_right (Nat.mul_le_mul_right 100 ordered))
    · rw [List.getLast?_map, last, Option.map_some, Option.map_some, percent_small size size positive
        (Nat.le_refl size) fits,
        Nat.mul_div_cancel_left 100 positive]
      rfl

theorem upgrade_progress_iff (size : Nat) (positive : 1 ≤ size) (bounded : size ≤ 2147483647) :
    (∀ sizes : List Nat, (∀ nRead ∈ sizes, 0 < nRead) → sizes.sum = size →
      (Sound (0#32 :: flashProgress (BitVec.ofNat 32 size) 0#32 sizes) ↔ size ≤ 21474836)) ∧
    ∀ (traceOn : Bool) (lpszSrc lpszDest : Bytes) (env : Env), env.starts = true → env.source.length = size →
      (readSizes env.turns 0 env.source).sum = size →
      (Sound (upgradeFirmware traceOn lpszSrc lpszDest env).progress ↔ size ≤ 21474836) := by
  refine ⟨fun sizes _ whole => progress_iff size positive (by omega) sizes whole, ?_⟩
  intro traceOn lpszSrc lpszDest env starts length whole
  rw [upgrade_run traceOn lpszSrc lpszDest env starts, flash_loop_progress, stSize, length]
  exact progress_iff size positive (by omega) _ whole

def upload (source : Bytes) : Env where
  segment := none
  creatable := true
  statOk := true
  source := source
  srcOpens := true
  destOpens := true
  turns := fun _ => ⟨.upTo 4095, .upTo 4096⟩

theorem small_upload_progress :
    Sound (upgradeFirmware false (ascii "/tmp/new_fw") (ascii "/dev/mtdblock5")
      (upload (ascii "ramdisk image"))).progress :=
  ((upgrade_progress_iff 13 (by decide) (by decide)).2 false (ascii "/tmp/new_fw") (ascii "/dev/mtdblock5")
    (upload (ascii "ramdisk image")) rfl rfl (read_sizes_whole _ 0 _ (by simp [upload]))).mpr (by decide)

-- One byte more than the product can take: the progress ends at -99.
theorem large_upload_progress : ∃ env : Env, env.starts = true ∧ env.source.length = 21474837 ∧
    (readSizes env.turns 0 env.source).sum = env.source.length ∧
    (upgradeFirmware false (ascii "/tmp/new_fw") (ascii "/dev/mtdblock5") env).progress.getLast?.map BitVec.toInt =
    some (-99) ∧ ¬ Sound (upgradeFirmware false (ascii "/tmp/new_fw") (ascii "/dev/mtdblock5") env).progress := by
  obtain ⟨source, length⟩ : ∃ source : Bytes, source.length = 21474837 :=
    ⟨List.replicate 21474837 0, List.length_replicate⟩
  have size : stSize (upload source) = 21474837#32 := congrArg (BitVec.ofNat 32) length
  have whole := read_sizes_whole (upload source).turns 0 source (by simp [upload])
  have starts : (upload source).starts = true := by
    rw [Env.starts, size]
    rfl
  have last : (upgradeFirmware false (ascii "/tmp/new_fw") (ascii "/dev/mtdblock5")
    (upload source)).progress.getLast?.map
      BitVec.toInt = some (-99) := by
    have counted := counts_last 0 (readSizes (upload source).turns 0 source)
    rw [whole, length] at counted
    rw [upgrade_run _ _ _ _ starts, flash_loop_progress, size]
    refine Eq.trans (congrArg (fun values => values.getLast?.map BitVec.toInt) (progress_counts _ _)) ?_
    rw [List.getLast?_map, show (upload source).source = source from rfl, counted]
    decide
  refine ⟨upload source, starts, length, whole, last, fun sound => ?_⟩
  have ends := sound.ends
  rw [last] at ends
  exact absurd ends (by decide)

end Ftm50s.Fwmng
