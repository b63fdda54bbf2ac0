import Ftm50s.Lib.Daemon
import Ftm50s.Lib.Filter
import Ftm50s.Lib.Decimal

set_option autoImplicit false

namespace Ftm50s.Daemons
open Lib.Text Lib.Filter Lib.Decimal Lib.Daemon

-- What the shell daemons do to the rest of the system. Everything that comes
-- back from a file or a command is bytes, as the command wrote them.
inductive Op where
  | echo (text : Bytes) (file : String)
  | cat (file : String)
  | isFile (file : String)
  | script (path : String)
  | mmd (command : String)
  | pidof (name : String)
  | kill15 (pids : Bytes)
  | killall (name : String)
  | pppd (options : String)
  | killLoggers
  | startLogger
deriving DecidableEq

abbrev Ans : Op → Type
  | .cat _ => Bytes
  | .isFile _ => Bool
  | .script _ => Bytes
  | .mmd _ => Bytes
  | .pidof _ => Bytes
  | .echo _ _ => Unit
  | .kill15 _ => Unit
  | .killall _ => Unit
  | .pppd _ => Unit
  | .killLoggers => Unit
  | .startLogger => Unit

-- Command substitution drops the newlines at the end of the output.
def backquote (output : Bytes) : Bytes := output.rdropWhile (· == 10)

theorem backquote_line (text : Bytes) (plain : (10 : UInt8) ∉ text) : backquote (text ++ [10]) = text := by
  rw [backquote, List.rdropWhile_concat_pos _ _ _ (by decide), List.rdropWhile_eq_self_iff]
  intro nonempty
  have last : text.getLast nonempty ≠ 10 := fun same => plain (same ▸ List.getLast_mem nonempty)
  simpa using last

def echo (text : Bytes) (file : String) : Prog Op Ans Unit := .call (.echo text file) .done

def cat (file : String) : Prog Op Ans Bytes := .call (.cat file) .done

def isFile (file : String) : Prog Op Ans Bool := .call (.isFile file) .done

def script (path : String) : Prog Op Ans Bytes := .call (.script path) .done

def mmd (command : String) : Prog Op Ans Bytes := .call (.mmd command) .done

def pidof (name : String) : Prog Op Ans Bytes := .call (.pidof name) fun output => .done (backquote output)

def kill15 (pids : Bytes) : Prog Op Ans Unit := .call (.kill15 pids) .done

def killall (name : String) : Prog Op Ans Unit := .call (.killall name) .done

def pppd (options : String) : Prog Op Ans Unit := .call (.pppd options) .done

def killLoggers : Prog Op Ans Unit := .call .killLoggers .done

def startLogger : Prog Op Ans Unit := .call .startLogger .done

section
variable {Next : Type}

@[simp]
theorem echo_bind (text : Bytes) (file : String) (rest : Unit → Prog Op Ans Next) :
    (echo text file >>= rest) = .call (.echo text file) fun _ => rest () := rfl

@[simp]
theorem cat_bind (file : String) (rest : Bytes → Prog Op Ans Next) : (cat file >>= rest) = .call (.cat file) rest := rfl

@[simp]
theorem is_file_bind (file : String) (rest : Bool → Prog Op Ans Next) :
    (isFile file >>= rest) = .call (.isFile file) rest := rfl

@[simp]
theorem script_bind (path : String) (rest : Bytes → Prog Op Ans Next) :
    (script path >>= rest) = .call (.script path) rest := rfl

@[simp]
theorem mmd_bind (command : String) (rest : Bytes → Prog Op Ans Next) :
    (mmd command >>= rest) = .call (.mmd command) rest := rfl

@[simp]
theorem pidof_bind (name : String) (rest : Bytes → Prog Op Ans Next) :
    (pidof name >>= rest) = .call (.pidof name) fun output => rest (backquote output) := rfl

@[simp]
theorem kill_15_bind (pids : Bytes) (rest : Unit → Prog Op Ans Next) :
    (kill15 pids >>= rest) = .call (.kill15 pids) fun _ => rest () := rfl

@[simp]
theorem killall_bind (name : String) (rest : Unit → Prog Op Ans Next) :
    (killall name >>= rest) = .call (.killall name) fun _ => rest () := rfl

@[simp]
theorem pppd_bind (options : String) (rest : Unit → Prog Op Ans Next) :
    (pppd options >>= rest) = .call (.pppd options) fun _ => rest () := rfl

end

def isNumber (digits : Bytes) : Bool := !digits.isEmpty && digits.all isDigit

def signedValue (word : Bytes) : Option Int :=
  match word with
  | 45 :: digits => if isNumber digits then some (-(digitsValue digits : Int)) else none
  | 43 :: digits => if isNumber digits then some (digitsValue digits) else none
  | digits => if isNumber digits then some (digitsValue digits) else none

-- An operand of [ .. -le .. ]: anything but a signed 64-bit decimal is an error.
def testOperand (word : Bytes) : Option Int :=
  (signedValue word).filter fun n => decide (-9223372036854775808 ≤ n ∧ n ≤ 9223372036854775807)

-- $n of awk, counted from 1; a field past the last one is empty.
def awkField (n : Nat) (line : Bytes) : Bytes := ((words line)[n - 1]?).getD []

end Ftm50s.Daemons
