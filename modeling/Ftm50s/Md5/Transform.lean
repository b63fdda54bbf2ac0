import Ftm50s.Lib.Memory

set_option autoImplicit false

namespace Ftm50s.Md5

-- unsigned long int of the target
abbrev UINT4 := BitVec 32

structure Registers (α : Type) where
  a : α
  b : α
  c : α
  d : α
deriving DecidableEq, Repr

inductive Register where
  | a | b | c | d
deriving DecidableEq, Repr

inductive Round where
  | F | G | H | I
deriving DecidableEq, Repr

-- One line of a round. The line that updates a register names the other three
-- in cyclic order after it: (a, b, c, d), (d, a, b, c), (c, d, a, b), (b, c, d, a).
structure Operation where
  round : Round
  target : Register
  word : Nat
  shift : Nat
  constant : Nat
deriving DecidableEq, Repr

def ff (target : Register) (word shift constant : Nat) : Operation := ⟨.F, target, word, shift, constant⟩

def gg (target : Register) (word shift constant : Nat) : Operation := ⟨.G, target, word, shift, constant⟩

def hh (target : Register) (word shift constant : Nat) : Operation := ⟨.H, target, word, shift, constant⟩

def ii (target : Register) (word shift constant : Nat) : Operation := ⟨.I, target, word, shift, constant⟩

def S11 := 7
def S12 := 12
def S13 := 17
def S14 := 22
def S21 := 5
def S22 := 9
def S23 := 14
def S24 := 20
def S31 := 4
def S32 := 11
def S33 := 16
def S34 := 23
def S41 := 6
def S42 := 10
def S43 := 15
def S44 := 21

def operations : List Operation :=
  [ff .a 0 S11 3614090360, ff .d 1 S12 3905402710, ff .c 2 S13 606105819, ff .b 3 S14 3250441966,
    ff .a 4 S11 4118548399, ff .d 5 S12 1200080426, ff .c 6 S13 2821735955, ff .b 7 S14 4249261313,
    ff .a 8 S11 1770035416, ff .d 9 S12 2336552879, ff .c 10 S13 4294925233, ff .b 11 S14 2304563134,
    ff .a 12 S11 1804603682, ff .d 13 S12 4254626195, ff .c 14 S13 2792965006, ff .b 15 S14 1236535329,
    gg .a 1 S21 4129170786, gg .d 6 S22 3225465664, gg .c 11 S23 643717713, gg .b 0 S24 3921069994,
    gg .a 5 S21 3593408605, gg .d 10 S22 38016083, gg .c 15 S23 3634488961, gg .b 4 S24 3889429448,
    gg .a 9 S21 568446438, gg .d 14 S22 3275163606, gg .c 3 S23 4107603335, gg .b 8 S24 1163531501,
    gg .a 13 S21 2850285829, gg .d 2 S22 4243563512, gg .c 7 S23 1735328473, gg .b 12 S24 2368359562,
    hh .a 5 S31 4294588738, hh .d 8 S32 2272392833, hh .c 11 S33 1839030562, hh .b 14 S34 4259657740,
    hh .a 1 S31 2763975236, hh .d 4 S32 1272893353, hh .c 7 S33 4139469664, hh .b 10 S34 3200236656,
    hh .a 13 S31 681279174, hh .d 0 S32 3936430074, hh .c 3 S33 3572445317, hh .b 6 S34 76029189,
    hh .a 9 S31 3654602809, hh .d 12 S32 3873151461, hh .c 15 S33 530742520, hh .b 2 S34 3299628645,
    ii .a 0 S41 4096336452, ii .d 7 S42 1126891415, ii .c 14 S43 2878612391, ii .b 5 S44 4237533241,
    ii .a 12 S41 1700485571, ii .d 3 S42 2399980690, ii .c 10 S43 4293915773, ii .b 1 S44 2240044497,
    ii .a 8 S41 1873313359, ii .d 15 S42 4264355552, ii .c 6 S43 2734768916, ii .b 13 S44 1309151649,
    ii .a 4 S41 4149444226, ii .d 11 S42 3174756917, ii .c 2 S43 718787259, ii .b 9 S44 3951481745]

def Registers.map {α β : Type} (f : α → β) (r : Registers α) : Registers β := ⟨f r.a, f r.b, f r.c, f r.d⟩

-- The parameters a, b, c, d of a line's macro or function
def Registers.seenFrom {α : Type} (r : Registers α) : Register → Registers α
  | .a => r
  | .d => ⟨r.d, r.a, r.b, r.c⟩
  | .c => ⟨r.c, r.d, r.a, r.b⟩
  | .b => ⟨r.b, r.c, r.d, r.a⟩

def Registers.put {α : Type} (r : Registers α) (value : α) : Register → Registers α
  | .a => { r with a := value }
  | .b => { r with b := value }
  | .c => { r with c := value }
  | .d => { r with d := value }

-- A line computes the new value of its target from the registers as it sees them,
-- a word of the block, its rotation and its constant.
abbrev Line (α ω : Type) := Round → Registers α → ω → Nat → Nat → α

def perform {α ω : Type} (line : Line α ω) (x : Nat → ω) (r : Registers α) (op : Operation) : Registers α :=
  r.put (line op.round (r.seenFrom op.target) (x op.word) op.shift op.constant) op.target

def F (x y z : UINT4) : UINT4 := (x &&& y) ||| (~~~x &&& z)
def G (x y z : UINT4) : UINT4 := (x &&& z) ||| (y &&& ~~~z)
def H (x y z : UINT4) : UINT4 := x ^^^ y ^^^ z
def I (x y z : UINT4) : UINT4 := y ^^^ (x ||| ~~~z)

def ROTATE_LEFT (x : UINT4) (n : Nat) : UINT4 := (x <<< n) ||| (x >>> (32 - n))

def roundFunction : Round → UINT4 → UINT4 → UINT4 → UINT4
  | .F => F
  | .G => G
  | .H => H
  | .I => I

-- FF, GG, HH and II differ in their function only.
def cLine : Line UINT4 UINT4 := fun round r x s ac =>
  ROTATE_LEFT (r.a + (roundFunction round r.b r.c r.d + x + BitVec.ofNat 32 ac)) s + r.b

def transform (buf : Registers UINT4) (input : Nat → UINT4) : Registers UINT4 :=
  let r := operations.foldl (perform cLine input) buf
  ⟨buf.a + r.a, buf.b + r.b, buf.c + r.c, buf.d + r.d⟩

theorem map_seen {α β : Type} (f : α → β) (r : Registers α) (target : Register) :
    (r.seenFrom target).map f = (r.map f).seenFrom target := by
  cases target <;> rfl

theorem map_put {α β : Type} (f : α → β) (r : Registers α) (value : α) (target : Register) :
    (r.put value target).map f = (r.map f).put (f value) target := by
  cases target <;> rfl

theorem perform_simulates {α β ω ψ : Type} (f : α → β) (g : ω → ψ) (left : Line α ω) (right : Line β ψ)
    (agree : ∀ round r x s ac, 0 < s → s < 32 → f (left round r x s ac) = right round (r.map f) (g x) s ac)
    (x : Nat → ω) (r : Registers α) (ops : List Operation) (shifts : ∀ op ∈ ops, 0 < op.shift ∧ op.shift < 32) :
    (ops.foldl (perform left x) r).map f = ops.foldl (perform right fun i => g (x i)) (r.map f) := by
  induction ops generalizing r with
  | nil => rfl
  | cons op rest ih =>
      rw [List.forall_mem_cons] at shifts
      rw [List.foldl_cons, List.foldl_cons, ih _ shifts.2]
      congr 1
      rw [perform, perform, map_put, agree _ _ _ _ _ shifts.1.1 shifts.1.2, map_seen]

theorem operations_shift : ∀ op ∈ operations, 0 < op.shift ∧ op.shift < 32 := by decide

theorem operations_word : ∀ op ∈ operations, op.word < 16 := by decide

theorem perform_words {α ω : Type} (line : Line α ω) (x y : Nat → ω) (r : Registers α) (ops : List Operation)
    (inside : ∀ op ∈ ops, op.word < 16) (same : ∀ i < 16, x i = y i) :
    ops.foldl (perform line x) r = ops.foldl (perform line y) r := by
  induction ops generalizing r with
  | nil => rfl
  | cons op rest ih =>
      rw [List.forall_mem_cons] at inside
      rw [List.foldl_cons, List.foldl_cons, ih _ inside.2, perform, perform, same op.word inside.1]

-- Transform reads in[0] to in[15] and nothing else.
theorem transform_words (buf : Registers UINT4) (x y : Nat → UINT4) (same : ∀ i < 16, x i = y i) :
    transform buf x = transform buf y := by
  rw [transform, transform, perform_words cLine x y buf operations operations_word same]

end Ftm50s.Md5
