import Mathlib.Data.List.Induction
import Mathlib.Tactic.Common

set_option autoImplicit false

namespace Lib.BlockStream

variable {σ β : Type}

-- A chaining state and the bytes of a block that is not yet full
structure Pending (σ β : Type) where
  state : σ
  block : List β

def push (size : Nat) (compress : σ → List β → σ) (pending : Pending σ β) (byte : β) : Pending σ β :=
  if (pending.block ++ [byte]).length = size then ⟨compress pending.state (pending.block ++ [byte]), []⟩
  else ⟨pending.state, pending.block ++ [byte]⟩

def absorb (size : Nat) (compress : σ → List β → σ) (pending : Pending σ β) (bytes : List β) : Pending σ β :=
  bytes.foldl (push size compress) pending

def nth (size k : Nat) (bytes : List β) : List β := (bytes.drop (size * k)).take size

-- All whole blocks of a message in their order
def run (size : Nat) (compress : σ → List β → σ) (state : σ) (bytes : List β) : σ :=
  (List.range (bytes.length / size)).foldl (fun state k => compress state (nth size k bytes)) state

def residue (size : Nat) (bytes : List β) : List β := bytes.drop (size * (bytes.length / size))

theorem residue_length (size : Nat) (bytes : List β) : (residue size bytes).length = bytes.length % size := by
  rw [residue, List.length_drop, Nat.mod_eq_sub]

theorem nth_append (size k : Nat) (bytes more : List β) (whole : size * (k + 1) ≤ bytes.length) :
    nth size k (bytes ++ more) = nth size k bytes := by
  have inside : size * k + size ≤ bytes.length := by rwa [Nat.mul_succ] at whole
  rw [nth, nth, List.drop_append_of_le_length (by omega), List.take_append_of_le_length
    (by rw [List.length_drop]; omega)]

theorem foldl_range_congr (count : Nat) (f g : σ → Nat → σ) (state : σ) (same : ∀ k < count, ∀ s, f s k = g s k) :
    (List.range count).foldl f state = (List.range count).foldl g state := by
  induction count with
  | zero => rfl
  | succ count ih =>
      rw [List.range_succ, List.foldl_append, List.foldl_append, ih (fun k bound => same k (Nat.lt_succ_of_lt bound))]
      exact same count (Nat.lt_succ_self count) _

theorem run_front (size : Nat) (compress : σ → List β → σ) (state : σ) (bytes more : List β) (positive : 0 < size) :
    (List.range (bytes.length / size)).foldl (fun state k => compress state (nth size k (bytes ++ more))) state =
      run size compress state bytes := by
  apply foldl_range_congr
  intro k bound s
  have whole : size * (k + 1) ≤ bytes.length := by
    have := (Nat.le_div_iff_mul_le positive).mp (Nat.succ_le_of_lt bound)
    rwa [Nat.mul_comm] at this
  rw [nth_append size k bytes more whole]

theorem run_same_blocks (size : Nat) (compress : σ → List β → σ) (state : σ) (bytes more : List β) (positive : 0 < size)
    (same : (bytes ++ more).length / size = bytes.length / size) :
    run size compress state (bytes ++ more) = run size compress state bytes := by
  rw [← run_front size compress state bytes more positive, run, same]

theorem run_next_block (size : Nat) (compress : σ → List β → σ) (state : σ) (bytes more : List β) (positive : 0 < size)
    (next : (bytes ++ more).length = size * (bytes.length / size + 1)) :
    run size compress state (bytes ++ more) = compress (run size compress state bytes) (residue size bytes ++
    more) := by
  have count : (bytes ++ more).length / size = bytes.length / size + 1 := by
    rw [next, Nat.mul_div_cancel_left _ positive]
  have before : size * (bytes.length / size) ≤ bytes.length := Nat.mul_div_le _ _
  have last : nth size (bytes.length / size) (bytes ++ more) = residue size bytes ++ more := by
    rw [nth, List.drop_append_of_le_length before, residue, List.take_of_length_le]
    rw [List.length_append, List.length_drop]
    rw [List.length_append, Nat.mul_succ] at next
    omega
  rw [run, count, List.range_succ, List.foldl_append, run_front size compress state bytes more positive]
  simp only [List.foldl_cons, List.foldl_nil, last]

theorem absorb_run (size : Nat) (compress : σ → List β → σ) (state : σ) (bytes : List β) (positive : 0 < size) :
    absorb size compress ⟨state, []⟩ bytes = ⟨run size compress state bytes, residue size bytes⟩ := by
  induction bytes using List.reverseRecOn with
  | nil => simp [absorb, run, residue]
  | append_singleton front byte ih =>
      have step : absorb size compress ⟨state, []⟩ (front ++ [byte]) =
          push size compress (absorb size compress ⟨state, []⟩ front) byte := by
        simp only [absorb, List.foldl_append, List.foldl_cons, List.foldl_nil]
      have parts := Nat.div_add_mod front.length size
      have length : (residue size front ++ [byte]).length = front.length % size + 1 := by
        rw [List.length_append, residue_length, List.length_singleton]
      rw [step, ih, push, length]
      by_cases full : front.length % size + 1 = size
      · have next : (front ++ [byte]).length = size * (front.length / size + 1) := by
          rw [List.length_append, List.length_singleton, Nat.mul_succ]
          omega
        rw [if_pos full, run_next_block size compress state front [byte] positive next]
        have empty : residue size (front ++ [byte]) = [] := by
          rw [residue, next, Nat.mul_div_cancel_left _ positive, ← next, List.drop_length]
        rw [empty]
      · have below : front.length % size + 1 < size := by
          have := Nat.mod_lt front.length positive
          omega
        have same : (front ++ [byte]).length / size = front.length / size := by
          rw [List.length_append, List.length_singleton]
          exact Nat.div_eq_of_lt_le (by rw [Nat.mul_comm]; omega) (by rw [Nat.add_mul, Nat.mul_comm]; omega)
        have rest : residue size (front ++ [byte]) = residue size front ++ [byte] := by
          rw [residue, same, List.drop_append_of_le_length (Nat.mul_div_le _ _), residue]
        rw [if_neg full, run_same_blocks size compress state front [byte] positive same, rest]

theorem absorb_append (size : Nat) (compress : σ → List β → σ) (pending : Pending σ β) (left right : List β) :
    absorb size compress pending (left ++ right) = absorb size compress (absorb size compress pending left) right :=
  List.foldl_append

end Lib.BlockStream
