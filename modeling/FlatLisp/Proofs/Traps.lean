import FlatLisp.Number.Basic

/-!
# Operations that may trap

A machine reads memory by position and computes in words, and each of these operations has a
domain: a position must lie inside, a difference of lengths must not be negative, a number must
fit, a division or a shift must have an operand that it is defined for. Outside its domain an
operation traps (`Trap`), which no program can catch. A `Checked` computation ends in a result,
in an error of its own, or in a trap; `sound` takes a computation that cannot trap as one.

A computation is free of traps exactly if it is `sound m` for some `m` (`exists_sound`), so the
modules below show of each checked algorithm which plain one it is.
-/

namespace FlatLisp

/-- Why an operation has no result. -/
inductive Trap where
  /-- A read outside a text or a list of arguments. -/
  | position
  /-- A part that does not lie inside the whole. -/
  | slice
  /-- A count or a position below zero. -/
  | belowZero
  /-- A number that needs more than 32 bits. -/
  | overflow
  /-- A number that does not fit into a byte. -/
  | lostBits
  /-- A division by zero, or one whose quotient does not fit into 64 bits. -/
  | division
  /-- A shift of a word by its width or more. -/
  | wideShift
  /-- A round of a loop that takes nothing. -/
  | stuck
deriving DecidableEq

/-- Why a computation ends early: an error of its own, or a trap. -/
inductive Halt (ε : Type) where
  | error (e : ε)
  | trap (t : Trap)

abbrev Checked (ε α : Type) := Except (Halt ε) α

namespace Checked

variable {ε ε' α β : Type}

/-- Ends with an error. -/
def fail (e : ε) : Checked ε α := .error (.error e)

/-- Ends with a trap. -/
def trap (t : Trap) : Checked ε α := .error (.trap t)

/-- A computation that has no operation that may trap. -/
def sound (m : Except ε α) : Checked ε α := m.mapError .error

/-- Gives the errors another form. -/
def rename (f : ε → ε') : Checked ε α → Checked ε' α
  | .ok a => .ok a
  | .error (.error e) => .error (.error (f e))
  | .error (.trap t) => .error (.trap t)

/-- The computation ends in a result or in an error of its own. -/
def Safe (m : Checked ε α) : Prop := ∀ t, m ≠ .error (.trap t)

/-! ## Operations -/

/-- Reads a position. -/
def get (xs : List α) (i : Nat) : Checked ε α :=
  match xs[i]? with
  | some x => .ok x
  | none => trap .position

/-- The part from position `first` up to position `last`. -/
def slice (xs : List α) (first last : Nat) : Checked ε (List α) :=
  if first ≤ last ∧ last ≤ xs.length then .ok ((xs.take last).drop first) else trap .slice

/-- The difference of two positions. -/
def minus (n k : Nat) : Checked ε Nat := if k ≤ n then .ok (n - k) else trap .belowZero

/-- A number as a word of 32 bits. -/
def word32 (n : Nat) : Checked ε Nat := if n < UInt32.size then .ok n else trap .overflow

/-- A number as a byte. -/
def byte (n : Nat) : Checked ε UInt8 := if n < UInt8.size then .ok (.ofNat n) else trap .lostBits

/-- The remainder of two 64-bit integers. -/
def remainder64 (l r : Int) : Checked ε Int :=
  if r = 0 ∨ l = Number.minInteger ∧ r = -1 then trap .division
  else .ok ((BitVec.ofInt 64 l).srem (.ofInt 64 r)).toInt

/-- The one quotient of 64-bit integers that does not fit. -/
example : (remainder64 Number.minInteger (-1) : Checked Unit Int) = trap .division := rfl

/-- A 64-bit integer shifted to the left. -/
def left64 (l : Int) (count : Nat) : Checked ε Int :=
  if count < 64 then .ok (BitVec.ofInt 64 l <<< count).toInt else trap .wideShift

/-- A 64-bit integer shifted to the right; its sign comes in from the left. -/
def right64 (l : Int) (count : Nat) : Checked ε Int :=
  if count < 64 then .ok ((BitVec.ofInt 64 l).sshiftRight count).toInt else trap .wideShift

/-! ## Computations without traps -/

@[simp]
theorem sound_ok (a : α) : sound (.ok a : Except ε α) = .ok a := rfl

@[simp]
theorem sound_error (e : ε) : sound (.error e : Except ε α) = fail e := rfl

theorem sound_bind (m : Except ε α) (go : α → Except ε β) :
    sound (m >>= go) = sound m >>= fun a => sound (go a) := by
  cases m <;> rfl

@[simp]
theorem ok_bind (a : α) (go : α → Checked ε β) : (.ok a : Checked ε α) >>= go = go a := rfl

@[simp]
theorem fail_bind (e : ε) (go : α → Checked ε β) : (fail e : Checked ε α) >>= go = fail e := rfl

theorem safe_sound (m : Except ε α) : Safe (sound m) := by
  intro t h
  cases m with
  | ok a => exact absurd h (by simp)
  | error e => exact absurd h (by simp [fail])

/-- **To be free of traps is to be a plain computation.** -/
theorem exists_sound {m : Checked ε α} : Safe m ↔ ∃ m', m = sound m' := by
  constructor
  · intro h
    match m with
    | .ok a => exact ⟨.ok a, rfl⟩
    | .error (.error e) => exact ⟨.error e, rfl⟩
    | .error (.trap t) => exact absurd rfl (h t)
  · rintro ⟨m', rfl⟩
    exact safe_sound m'

/-! ## Operations inside their domain -/

theorem get_append (front : List α) (x : α) (rest : List α) :
    (get (front ++ x :: rest) front.length : Checked ε α) = .ok x := by
  simp [get]

/-- The part behind `front` that consists of `part`. -/
theorem slice_append (front part rest : List α) :
    (slice (front ++ (part ++ rest)) front.length (front.length + part.length) : Checked ε (List α)) =
      .ok part := by
  have htake : (front ++ (part ++ rest)).take (front.length + part.length) = front ++ part := by
    rw [← List.append_assoc]
    exact List.take_left' List.length_append
  rw [slice, if_pos ⟨by omega, by simp⟩, htake, List.drop_left]

theorem minus_add (n k : Nat) : (minus (n + k) k : Checked ε Nat) = .ok n := by
  simp [minus]

theorem word32_of_lt {n : Nat} (h : n < UInt32.size) : (word32 n : Checked ε Nat) = .ok n := if_pos h

theorem byte_of_lt {n : Nat} (h : n < UInt8.size) : (byte n : Checked ε UInt8) = .ok (.ofNat n) := if_pos h

end Checked

end FlatLisp
