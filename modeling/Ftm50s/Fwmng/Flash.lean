import Ftm50s.Lib.Decimal

set_option autoImplicit false

namespace Ftm50s.Fwmng

open Lib.Text Lib.Decimal

-- What a system call is going to answer: -1, or that it moves no more than so
-- many of the bytes it is asked for. A read moves one byte more than the number
-- says, since it answers 0 only at the end of the source.
inductive Answer where
  | error
  | upTo (n : Nat)
deriving DecidableEq, Repr

structure Turn where
  read : Answer
  write : Answer
deriving DecidableEq, Repr

def readBytes (answer : Answer) (rest : Bytes) : Bytes :=
  match answer with
  | .error => []
  | .upTo n => rest.take (min 4096 (n + 1))

def written (answer : Answer) (chunk : Bytes) : Bytes :=
  match answer with
  | .error => []
  | .upTo n => chunk.take n

theorem read_append (answer : Answer) (rest : Bytes) :
    readBytes answer rest ++ rest.drop (readBytes answer rest).length = rest := by
  apply List.prefix_iff_eq_append.mp
  cases answer with
  | error => exact List.nil_prefix
  | upTo n => exact List.take_prefix _ rest

theorem read_shrinks (answer : Answer) (rest : Bytes) (some : readBytes answer rest ≠ []) :
    (rest.drop (readBytes answer rest).length).length < rest.length := by
  have positive : 0 < (readBytes answer rest).length := List.length_pos_iff.mpr some
  have whole := congrArg List.length (read_append answer rest)
  rw [List.length_append] at whole
  omega

theorem read_end (answer : Answer) : readBytes answer [] = [] := by
  cases answer with
  | error => rfl
  | upTo n => exact List.take_nil

theorem written_front (answer : Answer) (chunk : Bytes) : written answer chunk <+: chunk := by
  cases answer with
  | error => exact List.nil_prefix
  | upTo n => exact List.take_prefix n chunk

-- The loop of FTMC_UpgradeFW, and what the destination has taken when it ends.
-- A read of 0 and a failed read end it alike, and nobody looks at what write
-- answers.
def copyLoop (turns : Nat → Turn) (i : Nat) (rest : Bytes) : Bytes :=
  if _more : readBytes (turns i).read rest ≠ [] then
    written (turns i).write (readBytes (turns i).read rest) ++
      copyLoop turns (i + 1) (rest.drop (readBytes (turns i).read rest).length)
  else []
termination_by rest.length
decreasing_by exact read_shrinks _ _ _more

-- The loop of upgradeFirmware stores a percentage on the way; its arithmetic is
-- that of a 32-bit int.
def flashLoop (turns : Nat → Turn) (nSize : BitVec 32) (i : Nat) (nReadSize : BitVec 32) (rest : Bytes) :
    Bytes × List (BitVec 32) :=
  if _more : readBytes (turns i).read rest ≠ [] then
    let chunk := readBytes (turns i).read rest
    let nReadSize := nReadSize + BitVec.ofNat 32 chunk.length
    let later := flashLoop turns nSize (i + 1) nReadSize (rest.drop chunk.length)
    (written (turns i).write chunk ++ later.1, (nReadSize * 100#32).sdiv nSize :: later.2)
  else ([], [])
termination_by rest.length
decreasing_by exact read_shrinks _ _ _more

theorem flash_loop_copies (turns : Nat → Turn) (nSize : BitVec 32) (i : Nat) (nReadSize : BitVec 32) (rest : Bytes) :
    (flashLoop turns nSize i nReadSize rest).1 = copyLoop turns i rest := by
  induction i, rest using copyLoop.induct turns generalizing nReadSize with
  | case1 i rest more ih =>
      rw [flashLoop, dif_pos more, copyLoop, dif_pos more]
      exact congrArg _ (ih _)
  | case2 i rest last => rw [flashLoop, dif_neg last, copyLoop, dif_neg last]

-- As long as bytes are left, the read brings some and the write takes them all.
inductive Clean (turns : Nat → Turn) : Nat → Bytes → Prop where
  | finished (i : Nat) : Clean turns i []
  | moved (i : Nat) (rest : Bytes) (brings : readBytes (turns i).read rest ≠ [])
      (takes : written (turns i).write (readBytes (turns i).read rest) = readBytes (turns i).read rest)
      (later : Clean turns (i + 1) (rest.drop (readBytes (turns i).read rest).length)) : Clean turns i rest

theorem clean_step (turns : Nat → Turn) (i : Nat) (rest : Bytes) (nonempty : rest ≠ []) (clean : Clean turns i rest) :
    written (turns i).write (readBytes (turns i).read rest) = readBytes (turns i).read rest ∧
      Clean turns (i + 1) (rest.drop (readBytes (turns i).read rest).length) := by
  cases clean with
  | finished => exact absurd rfl nonempty
  | moved _ _ _ takes later => exact ⟨takes, later⟩

theorem copy_loop_length (turns : Nat → Turn) (i : Nat) (rest : Bytes) :
    (copyLoop turns i rest).length ≤ rest.length := by
  induction i, rest using copyLoop.induct turns with
  | case1 i rest more ih =>
      have taken := (written_front (turns i).write (readBytes (turns i).read rest)).length_le
      have whole := congrArg List.length (read_append (turns i).read rest)
      rw [List.length_append] at whole
      rw [copyLoop, dif_pos more, List.length_append]
      omega
  | case2 i rest last =>
      rw [copyLoop, dif_neg last]
      exact Nat.zero_le _

theorem copy_loop_whole (turns : Nat → Turn) (i : Nat) (rest : Bytes) :
    copyLoop turns i rest = rest ↔ Clean turns i rest := by
  induction i, rest using copyLoop.induct turns with
  | case1 i rest more ih =>
      have whole := read_append (turns i).read rest
      have taken := written_front (turns i).write (readBytes (turns i).read rest)
      have bound := copy_loop_length turns (i + 1) (rest.drop (readBytes (turns i).read rest).length)
      rw [copyLoop, dif_pos more]
      constructor
      · intro same
        -- a byte that a write leaves out is missing at the end
        have full : written (turns i).write (readBytes (turns i).read rest) = readBytes (turns i).read rest := by
          apply taken.eq_of_length_le
          have counts := congrArg List.length (same.trans whole.symm)
          rw [List.length_append, List.length_append] at counts
          omega
        refine .moved i rest more full (ih.mp ?_)
        rw [full] at same
        exact List.append_cancel_left (same.trans whole.symm)
      · intro clean
        cases clean with
        | finished => exact absurd (read_end _) more
        | moved _ _ _ takes later => rw [takes, ih.mpr later, whole]
  | case2 i rest last =>
      rw [copyLoop, dif_neg last]
      constructor
      · intro empty
        rw [← empty]
        exact .finished i
      · intro clean
        cases clean with
        | finished => rfl
        | moved _ _ brings _ _ => exact absurd brings last

-- The STATUS segment of an earlier run: its id as %08x prints it, and its
-- progress.
structure Segment where
  nID : Bytes
  nProgress : BitVec 32

structure Env where
  segment : Option Segment
  creatable : Bool
  statOk : Bool
  source : Bytes
  srcOpens : Bool
  destOpens : Bool
  turns : Nat → Turn

-- off_t has 32 bits on the target.
def stSize (env : Env) : BitVec 32 := BitVec.ofNat 32 env.source.length

structure Upgrade where
  ret : Int
  accepted : Bytes
  progress : List (BitVec 32)
  output : Bytes

def xtrace (traceOn : Bool) (text : Bytes) : Bytes := if traceOn then text else []

def openText (traceOn : Bool) (env : Env) : Bytes :=
  match env.segment with
  | some segment => xtrace traceOn (ascii "It's found shared memory [" ++ segment.nID ++ ascii ":00004432:520]\n")
  | none => ascii "It's not found shared memory [00004432:520]\n"

def upgradeFirmware (traceOn : Bool) (lpszSrc lpszDest : Bytes) (env : Env) : Upgrade :=
  let opened := openText traceOn env
  let invalid := ascii "Source file invalid[" ++ lpszSrc ++ ascii "]\n"
  if env.segment.isNone && !env.creatable then ⟨-1, [], [], opened ++ ascii "shared memory creation failed\n"⟩
  else if !env.statOk then ⟨-1, [], [0], opened ++ invalid⟩
  else if (stSize env).toInt ≤ 0 then ⟨-1, [], [0], opened ++ invalid⟩
  else if !env.srcOpens then ⟨-1, [], [0], opened ++ ascii "Source file open failed[" ++ lpszSrc ++ ascii "]\n"⟩
  else if !env.destOpens then ⟨-1, [], [0], opened ++ ascii "Destination file open failed[" ++ lpszDest ++ ascii "]\n"⟩
  else
    let copied := flashLoop env.turns (stSize env) 0 0 env.source
    ⟨0, copied.1, 0 :: copied.2, opened ++ xtrace traceOn (ascii "Disk Sync...\nFirmware upgrade done.\n")⟩

-- FTMC_UpgradeFW of system.c: the return value and what the destination took
def ftmcUpgradeFW (env : Env) : Int × Bytes :=
  if !env.srcOpens then (-1, [])
  else if !env.destOpens then (-1, [])
  else (0, copyLoop env.turns 0 env.source)

def Env.opens (env : Env) : Bool := env.srcOpens && env.destOpens

def Env.starts (env : Env) : Bool :=
  (env.segment.isSome || env.creatable) && env.statOk && decide (0 < (stSize env).toInt) && env.opens

theorem upgrade_run (traceOn : Bool) (lpszSrc lpszDest : Bytes) (env : Env) (starts : env.starts = true) :
    upgradeFirmware traceOn lpszSrc lpszDest env =
      ⟨0, (flashLoop env.turns (stSize env) 0 0 env.source).1, 0 :: (flashLoop env.turns (stSize env) 0 0 env.source).2,
        openText traceOn env ++ xtrace traceOn (ascii "Disk Sync...\nFirmware upgrade done.\n")⟩ := by
  simp only [Env.starts, Env.opens, Bool.and_eq_true, decide_eq_true_eq] at starts
  obtain ⟨⟨⟨segment, found⟩, size⟩, srcOpens, destOpens⟩ := starts
  have attached : (env.segment.isNone && !env.creatable) = false := by
    cases shared : env.segment with
    | some _ => rfl
    | none =>
        rw [shared] at segment
        simpa using segment
  have sized : ¬ (stSize env).toInt ≤ 0 := by omega
  simp only [upgradeFirmware, attached, found, if_neg sized, srcOpens, destOpens, Bool.not_true, Bool.false_eq_true,
    if_false]

theorem upgrade_starts (traceOn : Bool) (lpszSrc lpszDest : Bytes) (env : Env) (starts : env.starts = true) :
    (upgradeFirmware traceOn lpszSrc lpszDest env).ret = 0 ∧
      (upgradeFirmware traceOn lpszSrc lpszDest env).accepted = copyLoop env.turns 0 env.source := by
  rw [upgrade_run traceOn lpszSrc lpszDest env starts]
  exact ⟨rfl, flash_loop_copies _ _ _ _ _⟩

theorem upgrade_refused (traceOn : Bool) (lpszSrc lpszDest : Bytes) (env : Env) (refused : env.starts = false) :
    (upgradeFirmware traceOn lpszSrc lpszDest env).ret = -1 := by
  unfold upgradeFirmware
  split
  · rfl
  · split
    · rfl
    · split
      · rfl
      · split
        · rfl
        · split
          · rfl
          · rename_i attached found sized srcOpens destOpens
            have segment : (env.segment.isSome || env.creatable) = true := by
              cases shared : env.segment with
              | some _ => rfl
              | none => simpa [shared] using attached
            have size : 0 < (stSize env).toInt := by omega
            simp only [Env.starts, Env.opens, segment, size, decide_true, Bool.true_and, Bool.and_true] at refused
            simp_all

theorem ftmc_upgrade_spec (env : Env) :
    ftmcUpgradeFW env = if env.opens then (0, copyLoop env.turns 0 env.source) else (-1, []) := by
  unfold ftmcUpgradeFW Env.opens
  cases env.srcOpens <;> cases env.destOpens <;> rfl

def CompleteOrReported (ret : Int) (accepted source : Bytes) : Prop := ret = 0 → accepted = source

theorem complete_iff (starts : Bool) (ret : Int) (accepted : Bytes) (turns : Nat → Turn) (source : Bytes)
    (run : starts = true → ret = 0 ∧ accepted = copyLoop turns 0 source) (reported : starts = false → ret = -1) :
    CompleteOrReported ret accepted source ↔ (starts = true → Clean turns 0 source) := by
  cases starts with
  | true =>
      obtain ⟨ended, copied⟩ := run rfl
      rw [← copy_loop_whole, ← copied]
      exact ⟨fun complete _ => complete ended, fun clean _ => clean rfl⟩
  | false =>
      have failed : ret ≠ 0 := by
        rw [reported rfl]
        decide
      exact ⟨fun _ => nofun, fun _ ended => absurd ended failed⟩

theorem flash_copy_exact (traceOn : Bool) (lpszSrc lpszDest : Bytes) (env : Env) :
    (CompleteOrReported (upgradeFirmware traceOn lpszSrc lpszDest env).ret
        (upgradeFirmware traceOn lpszSrc lpszDest env).accepted env.source ↔
      (env.starts = true → Clean env.turns 0 env.source)) ∧
    (CompleteOrReported (ftmcUpgradeFW env).1 (ftmcUpgradeFW env).2 env.source ↔
      (env.opens = true → Clean env.turns 0 env.source)) := by
  constructor
  · exact complete_iff env.starts _ _ env.turns env.source (upgrade_starts traceOn lpszSrc lpszDest env)
      (upgrade_refused traceOn lpszSrc lpszDest env)
  · rw [ftmc_upgrade_spec]
    refine complete_iff env.opens _ _ env.turns env.source ?_ ?_
    · intro opens
      rw [if_pos opens]
      exact ⟨rfl, rfl⟩
    · intro closed
      rw [if_neg (by simp [closed])]

def failingWrite : Env where
  segment := none
  creatable := true
  statOk := true
  source := ascii "ramdisk image"
  srcOpens := true
  destOpens := true
  turns := fun i => if i = 1 then ⟨.upTo 5, .error⟩ else ⟨.upTo 5, .upTo 6⟩

-- The second write fails, its six bytes are missing, and both functions return 0.
theorem failed_write_not_reported : ¬ ∀ (traceOn : Bool) (lpszSrc lpszDest : Bytes) (env : Env),
    CompleteOrReported (upgradeFirmware traceOn lpszSrc lpszDest env).ret
        (upgradeFirmware traceOn lpszSrc lpszDest env).accepted env.source ∧
      CompleteOrReported (ftmcUpgradeFW env).1 (ftmcUpgradeFW env).2 env.source := by
  intro always
  have complete := (always true (ascii "/tmp/new_fw") (ascii "/dev/mtdblock5") failingWrite).2
  have whole : copyLoop failingWrite.turns 0 failingWrite.source = failingWrite.source := complete rfl
  have clean := (copy_loop_whole _ _ _).mp whole
  have second := (clean_step _ _ _ (by decide) clean).2
  exact absurd (clean_step _ _ _ (by decide) second).1 (by decide)

end Ftm50s.Fwmng
