import Ftm50s.Fwmng.Flash
import Ftm50s.Lib.Filter

set_option autoImplicit false

namespace Ftm50s.Fwmng

open Lib.Text Lib.Decimal Lib.Filter

def optString : Bytes := ascii "si: o: vV"

inductive OptKind where
  | unknown
  | flag
  | value
deriving DecidableEq, Repr

-- A letter of optString takes a value when a colon stands behind it.
def optKind (c : UInt8) : OptKind :=
  if c = 58 then .unknown
  else
    match optString.dropWhile (· != c) with
    | [] => .unknown
    | _ :: rest => if rest.head? = some 58 then .value else .flag

-- One return of getopt_long: the option with optarg, or the letter it answers
-- '?' for.
inductive Opt where
  | given (c : UInt8) (optarg : Option Bytes)
  | refused (c : UInt8)
deriving DecidableEq, Repr

-- The letters of one argument, and the last of them if its value is the next
-- argument
def letters : Bytes → List Opt × Option UInt8
  | [] => ([], none)
  | c :: more =>
      match optKind c with
      | .unknown => (.refused c :: (letters more).1, (letters more).2)
      | .flag => (.given c none :: (letters more).1, (letters more).2)
      | .value => if more = [] then ([], some c) else ([.given c (some more)], none)

-- long_options is empty, so only the short options are looked up; arguments
-- that are no options are passed over.
def getoptLong (waiting : Option UInt8) : List Bytes → List Opt
  | [] => (waiting.map Opt.refused).toList
  | arg :: rest =>
      match waiting with
      | some c => .given c (some arg) :: getoptLong none rest
      | none =>
          if arg = ascii "--" then []
          else if arg.head? = some 45 ∧ 2 ≤ arg.length then
            (letters (arg.drop 1)).1 ++ getoptLong (letters (arg.drop 1)).2 rest
          else getoptLong none rest

structure Options where
  lpszSrc : Option Bytes
  lpszDest : Option Bytes
  traceOn : Bool
deriving DecidableEq, Repr

-- How one call of fwmng ends: what it has written to its two outputs, and the
-- call of upgradeFirmware if it came to that.
structure Call where
  ret : Int
  output : Bytes
  upgrade : Option (Bytes × Bytes × Upgrade)

def showStatus (traceOn : Bool) (env : Env) : Call :=
  match env.segment with
  | some segment => ⟨0, openText traceOn env ++ decimalInt segment.nProgress.toInt ++ [10], none⟩
  | none =>
      if env.creatable then ⟨0, openText traceOn env ++ ascii "0\n", none⟩
      else ⟨-1, openText traceOn env ++ ascii "shared memory creation failed\n", none⟩

def invalidOption (argv0 : Bytes) (c : UInt8) : Bytes := argv0 ++ ascii ": invalid option -- '" ++ [c] ++ ascii "'\n"

-- The loop over the options; none when upgradeFirmware is given a pointer that
-- no option has set. getopt_long prints a message of its own before it answers
-- '?', and the default case prints another.
def mainLoop (argv0 : Bytes) (env : Env) (options : Options) : List Opt → Option Call
  | [] =>
      match options.lpszSrc, options.lpszDest with
      | some lpszSrc, some lpszDest =>
          let upgrade := upgradeFirmware options.traceOn lpszSrc lpszDest env
          some ⟨upgrade.ret, upgrade.output, some (lpszSrc, lpszDest, upgrade)⟩
      | _, _ => none
  | .refused c :: _ => some ⟨0, invalidOption argv0 c ++ invalidOption argv0 63, none⟩
  | .given c optarg :: rest =>
      if c = 115 then some (showStatus options.traceOn env)
      else if c = 105 then mainLoop argv0 env { options with lpszSrc := optarg } rest
      else if c = 111 then mainLoop argv0 env { options with lpszDest := optarg } rest
      else if c = 118 then mainLoop argv0 env options rest
      else if c = 86 then mainLoop argv0 env { options with traceOn := true } rest
      else some ⟨0, invalidOption argv0 c, none⟩

def fwmngMain (argv : List Bytes) (env : Env) : Option Call :=
  mainLoop (argv.headD []) env ⟨none, none, false⟩ (getoptLong none argv.tail)

def ramdiskArgs : List Bytes :=
  [ascii "/bin/fwmng", ascii "-i", ascii "/tmp/new_fw", ascii "-o", ascii "/dev/mtdblock5", ascii "-v", ascii "-V",
    ascii "-U"]

-- awk 'END { print }' | awk '/success/'
def succeeded (output : Bytes) : Bool := occurs (ascii "success") ((lines output).getLast?.getD [])

-- What the script has printed and the calls of fwmng it has made; none while it
-- is still running when the allowed number of calls is used up. `envs` is what
-- each call of fwmng meets.
def updateRamdisk (envs : Nat → Env) : Nat → Nat → Option (List Bytes × List Call)
  | 0, _ => none
  | budget + 1, k =>
      (fwmngMain ramdiskArgs (envs k)).bind fun call =>
        if succeeded call.output then some ([ascii "done"], [call])
        else (updateRamdisk envs budget (k + 1)).map fun later => (later.1, call :: later.2)

-- The script comes to an end, and says done exactly when a call of fwmng has
-- flashed the upload and reported no error.
def Agrees (envs : Nat → Env) : Prop :=
  ∃ budget printed calls, updateRamdisk envs budget 0 = some (printed, calls) ∧
    (ascii "done" ∈ printed ↔
      ∃ call ∈ calls, ∃ lpszDest upgrade, call.upgrade = some (ascii "/tmp/new_fw", lpszDest, upgrade) ∧
      upgrade.ret = 0)

-- optString has no U, so fwmng returns before it looks at the image.
theorem fwmng_refuses (env : Env) :
    fwmngMain ramdiskArgs env =
      some ⟨0, invalidOption (ascii "/bin/fwmng") 85 ++ invalidOption (ascii "/bin/fwmng") 63, none⟩ := by
  have options : getoptLong none ramdiskArgs.tail =
      [.given 105 (some (ascii "/tmp/new_fw")), .given 111 (some (ascii "/dev/mtdblock5")), .given 118 none,
      .given 86 none,
        .refused 85] := by decide
  rw [fwmngMain, options]
  rfl

theorem update_repeats (envs : Nat → Env) (budget k : Nat) : updateRamdisk envs budget k = none := by
  have refusal : succeeded (invalidOption (ascii "/bin/fwmng") 85 ++ invalidOption (ascii "/bin/fwmng") 63) =
    false := by
    decide +kernel
  induction budget generalizing k with
  | zero => rfl
  | succ budget ih =>
      rw [updateRamdisk, fwmng_refuses, Option.bind_some, refusal, ih]
      rfl

theorem update_never_agrees (envs : Nat → Env) : ¬ Agrees envs := by
  rintro ⟨budget, printed, calls, ended, _⟩
  rw [update_repeats] at ended
  cases ended

def goodUpload : Env where
  segment := none
  creatable := true
  statOk := true
  source := ascii "ramdisk image"
  srcOpens := true
  destOpens := true
  turns := fun _ => ⟨.upTo 4095, .upTo 4096⟩

-- A good image that every call could flash: the script still calls itself for
-- ever, and fwmng never opens the image.
theorem good_upload_never_done :
    (∀ budget, updateRamdisk (fun _ => goodUpload) budget 0 = none) ∧
      (fwmngMain ramdiskArgs goodUpload).map Call.upgrade = some none ∧ ¬ Agrees fun _ => goodUpload := by
  refine ⟨fun budget => update_repeats _ budget 0, by rw [fwmng_refuses]; rfl, ?_⟩
  rintro ⟨budget, printed, calls, ended, _⟩
  rw [update_repeats] at ended
  cases ended

end Ftm50s.Fwmng
