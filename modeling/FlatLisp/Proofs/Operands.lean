import FlatLisp.Builtin.Call
import FlatLisp.Proofs.Traps

/-!
# Builtins by positions

A builtin on a machine has its arguments as an array. It checks their number against one that is
written next to its name, and reads them at positions that are written further on; nothing but
this check keeps a read inside the array. Integers are words of 64 bits: a remainder has a
divisor for which it is not defined, and a shift a width that it must not reach.
`Checked.operate` has the builtins with all of this checked.

* `counted_unary`, `counted_binary`, and so on: after the right check all reads are inside.
* `remainder_eq`, `shifted_eq`: the integer operations stay inside their domain.
* `operate_eq`: **a builtin never traps, on any arguments, and does what the plain one does.**
-/

namespace FlatLisp

-- powers are the core ones, whatever else is imported
attribute [local instance (high)] instPowNat

/-- The number of arguments that is taken. -/
def Arity.Admits : Arity → Nat → Prop
  | .exactly n, count => count = n
  | .atLeast n, count => n ≤ count

instance (arity : Arity) (count : Nat) : Decidable (arity.Admits count) :=
  match arity with
  | .exactly n => inferInstanceAs (Decidable (count = n))
  | .atLeast n => inferInstanceAs (Decidable (n ≤ count))

namespace Checked

/-! ## The builtins -/

/-- Checks the number of arguments first. -/
def counted (b : Builtin) (arity : Arity) (go : List Value → Checked RuntimeError Yield)
    (args : List Value) : Checked RuntimeError Yield :=
  if arity.Admits args.length then go args else fail (.wrongCount b.name arity args.length)

def numberAt (b : Builtin) (args : List Value) (i : Nat) : Checked RuntimeError Number := do
  let v ← get args i
  sound (b.numberArgument i v)

def integerAt (b : Builtin) (args : List Value) (i : Nat) : Checked RuntimeError Int := do
  let v ← get args i
  sound (b.integerArgument i v)

def stringAt (b : Builtin) (args : List Value) (i : Nat) : Checked RuntimeError String := do
  let v ← get args i
  sound (b.stringArgument i v)

/-- An operation on two numbers. -/
def onNumbers (b : Builtin) (f : Number → Number → Value) : List Value → Checked RuntimeError Yield :=
  counted b (.exactly 2) fun args => do
    let l ← numberAt b args 0
    let r ← numberAt b args 1
    .ok (.value (f l r))

/-- An operation on two 64-bit integers. -/
def onIntegers (b : Builtin) (f : Int → Int → Checked RuntimeError Int) :
    List Value → Checked RuntimeError Yield :=
  counted b (.exactly 2) fun args => do
    let l ← integerAt b args 0
    let r ← integerAt b args 1
    let n ← f l r
    .ok (.value (.number (.ofInt n)))

/-- A bitwise operation. -/
def onBits (b : Builtin) (f : BitVec 64 → BitVec 64 → BitVec 64) : List Value → Checked RuntimeError Yield :=
  onIntegers b fun l r => .ok (Number.bitwise f l r)

/-- The remainder, with the divisor `-1` apart. -/
def remainder (l r : Int) : Checked RuntimeError Int :=
  if r = 0 then fail .moduloByZero else if r = -1 then .ok 0 else remainder64 l r

/-- The count of a shift as a word of 32 bits; greater counts give the greatest word. -/
def shiftCount (b : Builtin) (count : Int) : Checked RuntimeError Nat :=
  if count < 0 then fail (.negativeShift b count) else word32 (min count.toNat (UInt32.size - 1))

/-- A shift; `fill` is left when the count reaches the width. -/
def shifted (b : Builtin) (f : Int → Nat → Checked RuntimeError Int) (fill : Int → Int) (l r : Int) :
    Checked RuntimeError Int := do
  let count ← shiftCount b r
  if count < 64 then f l count else .ok (fill l)

/-- An operation on one string. -/
def onString (b : Builtin) (f : String → Value) : List Value → Checked RuntimeError Yield :=
  counted b (.exactly 1) fun args => do
    let s ← stringAt b args 0
    .ok (.value (f s))

/-- An operation on two strings. -/
def onStrings (b : Builtin) (f : String → String → Yield) : List Value → Checked RuntimeError Yield :=
  counted b (.exactly 2) fun args => do
    let s ← stringAt b args 0
    let t ← stringAt b args 1
    .ok (f s t)

/-- A number less one, which must not be below zero. -/
def countDown {ε : Type} (n : Int) : Checked ε Int := if 1 ≤ n then .ok (n - 1) else trap .belowZero

/-- Goes along a chain, with `remaining` cells to pass. -/
def nthFrom : Value → Int → Checked RuntimeError Value
  | .cell _ head tail, remaining =>
    if remaining = 0 then .ok head
    else do
      let remaining ← countDown remaining
      nthFrom tail remaining
  | .nil, _ => .ok .nil
  | .atom a, _ => fail (.notList a)

/-- What a builtin does with its arguments. -/
def operate : Builtin → List Value → Checked RuntimeError Yield
  | .add => onNumbers .add fun l r => .number (l.add r)
  | .sub => onNumbers .sub fun l r => .number (l.sub r)
  | .mul => onNumbers .mul fun l r => .number (l.mul r)
  | .div => onNumbers .div fun l r => .number (l.div r)
  | .modulo => onIntegers .modulo remainder
  | .bitAnd => onBits .bitAnd fun l r => l &&& r
  | .bitOr => onBits .bitOr fun l r => l ||| r
  | .bitXor => onBits .bitXor fun l r => l ^^^ r
  | .bitClear => onBits .bitClear fun l r => l &&& ~~~r
  | .shiftRight =>
    onIntegers .shiftRight (shifted .shiftRight right64 fun l => if l < 0 then -1 else 0)
  | .shiftLeft => onIntegers .shiftLeft (shifted .shiftLeft left64 fun _ => 0)
  | .equal => counted .equal (.exactly 2) fun args => do
    let v ← get args 0
    let w ← get args 1
    .ok (.value (.bool (v.same w)))
  | .and => counted .and (.exactly 2) fun args => do
    let v ← get args 0
    if v.truthy then do
      let w ← get args 1
      .ok (.value (.bool w.truthy))
    else .ok (.value (.bool false))
  | .or => counted .or (.exactly 2) fun args => do
    let v ← get args 0
    if v.truthy then .ok (.value (.bool true))
    else do
      let w ← get args 1
      .ok (.value (.bool w.truthy))
  | .not => counted .not (.exactly 1) fun args => do
    let v ← get args 0
    .ok (.value (.bool (!v.truthy)))
  | .greater => onNumbers .greater fun l r => .bool (r.less l)
  | .less => onNumbers .less fun l r => .bool (l.less r)
  | .print => fun args => .ok (.print (Value.joinedText args ++ "\n"))
  | .cons => counted .cons (.exactly 2) fun args => do
    let head ← get args 0
    let tail ← get args 1
    .ok (.cell head tail)
  | .car => counted .car (.exactly 1) fun args => do
    let v ← get args 0
    sound (Builtin.headOf v)
  | .cdr => counted .cdr (.exactly 1) fun args => do
    let v ← get args 0
    sound (Builtin.tailOf v)
  | .list => fun args => .ok (.list args)
  | .nth => counted .nth (.exactly 2) fun args => do
    let index ← integerAt .nth args 1
    if index < 0 then fail (.negativeIndex index)
    else do
      let v ← get args 0
      let head ← nthFrom v index
      .ok (.value head)
  | .length => counted .length (.exactly 1) fun args => do
    let v ← get args 0
    sound (Builtin.lengthOf v)
  | .typeOf => counted .typeOf (.exactly 1) fun args => do
    let v ← get args 0
    .ok (.value (.string v.kind.name))
  | .contains => onStrings .contains fun s t => .value (.bool (Search.occurs t.toList s.toList))
  | .startsWith => onStrings .startsWith fun s t => .value (.bool (t.toList.isPrefixOf s.toList))
  | .endsWith => onStrings .endsWith fun s t => .value (.bool (t.toList.isSuffixOf s.toList))
  | .join => counted .join (.exactly 2) fun args => do
    let separator ← stringAt .join args 1
    let v ← get args 0
    if v.isProper then do
      let parts ← sound (Builtin.stringsOf v.heads)
      .ok (.value (.string (separator.intercalate parts)))
    else fail (.joinOfOther v.kind)
  | .split => onStrings .split fun s t => .list ((Builtin.pieces s t).map Value.string)
  | .replace => counted .replace (.exactly 3) fun args => do
    let s ← stringAt .replace args 0
    let old ← stringAt .replace args 1
    let new ← stringAt .replace args 2
    if old = "" then .ok (.value (.string s))
    else .ok (.value (.string (.ofList (Search.replace old.toList new.toList s.toList))))
  | .upper => onString .upper fun s => .string (Case.upper s)
  | .lower => onString .lower fun s => .string (Case.lower s)
  | .concat => fun args => .ok (.value (.string (String.join (args.map Value.text))))
  | .format => counted .format (.atLeast 1) fun args => do
    let template ← stringAt .format args 0
    let pairs ← slice args 1 args.length
    let text ← sound (Builtin.filled .plain template pairs)
    .ok (.value (.string text))

/-- Calls a builtin in a session. -/
def call (b : Builtin) (args : List Value) (s : Session) :
    Except Trap (Except RuntimeError Value × Session) :=
  match operate b args with
  | .ok y =>
    let (v, s) := s.receive y
    .ok (.ok v, s)
  | .error (.error e) => .ok (.error e, s)
  | .error (.trap t) => .error t

/-! ## Reads inside the arguments -/

section Counted

variable {b : Builtin} {go : List Value → Checked RuntimeError Yield}

theorem counted_unary {f : Value → Result} (h : ∀ x, go [x] = sound (f x)) (args : List Value) :
    counted b (.exactly 1) go args = sound ((Operation.unary f).apply b.name args) := by
  match args with
  | [x] => exact h x
  | [] | _ :: _ :: _ => rfl

theorem counted_binary {f : Value → Value → Result} (h : ∀ x y, go [x, y] = sound (f x y))
    (args : List Value) :
    counted b (.exactly 2) go args = sound ((Operation.binary f).apply b.name args) := by
  match args with
  | [x, y] => exact h x y
  | [] | [_] | _ :: _ :: _ :: _ => rfl

theorem counted_ternary {f : Value → Value → Value → Result}
    (h : ∀ x y z, go [x, y, z] = sound (f x y z)) (args : List Value) :
    counted b (.exactly 3) go args = sound ((Operation.ternary f).apply b.name args) := by
  match args with
  | [x, y, z] => exact h x y z
  | [] | [_] | [_, _] | _ :: _ :: _ :: _ :: _ => rfl

theorem counted_atLeastOne {f : Value → List Value → Result}
    (h : ∀ x xs, go (x :: xs) = sound (f x xs)) (args : List Value) :
    counted b (.atLeast 1) go args = sound ((Operation.atLeastOne f).apply b.name args) := by
  match args with
  | x :: xs => exact h x xs
  | [] => rfl

end Counted

/-! ## Integers -/

/-- The integer fits into 64 bits. -/
def Fits64 (n : Int) : Prop := Number.minInteger ≤ n ∧ n ≤ Number.maxInteger

theorem fits64_toInteger (x : Number) : Fits64 x.toInteger := by
  unfold Fits64 Number.toInteger
  have hzero : Number.minInteger ≤ 0 ∧ 0 ≤ Number.maxInteger := by decide
  split
  · exact hzero
  · omega

/-- An integer of 64 bits is not changed on its way through a word. -/
theorem toInt_ofInt {n : Int} (h : Fits64 n) : (BitVec.ofInt 64 n).toInt = n := by
  obtain ⟨hmin, hmax⟩ := h
  simp only [Number.minInteger, Number.maxInteger] at hmin hmax
  refine BitVec.toInt_ofInt_eq_self (by decide) hmin ?_
  show n < 2 ^ (63 : Nat)
  omega

/-- **The remainder is only taken where it is defined.** -/
theorem remainder_eq {l r : Int} (hl : Fits64 l) (hr : Fits64 r) :
    remainder l r = sound (Builtin.remainder l r) := by
  unfold remainder Builtin.remainder
  by_cases hzero : r = 0
  · simp [hzero]
  by_cases hone : r = -1
  · simp [hone]
  · simp [hzero, hone, remainder64, BitVec.toInt_srem, toInt_ofInt hl, toInt_ofInt hr]

theorem left64_eq {l : Int} {count : Nat} (h : count < 64) :
    left64 l count = sound (ε := RuntimeError) (.ok (Number.shiftLeft l count)) := by
  have hword : BitVec.ofInt 64 l <<< count = BitVec.ofInt 64 (l * 2 ^ count) := by
    have hpow : (2 : Int) ^ count = ((2 ^ count : Nat) : Int) := by simp
    have htwoPow : BitVec.ofInt 64 (2 ^ count) = BitVec.twoPow 64 count := by
      apply BitVec.eq_of_toNat_eq
      rw [hpow, BitVec.ofInt_natCast, BitVec.toNat_ofNat, BitVec.toNat_twoPow]
    rw [BitVec.shiftLeft_eq_mul_twoPow, BitVec.ofInt_mul, htwoPow]
  rw [left64, if_pos h, hword, BitVec.toInt_ofInt, Number.shiftLeft, if_neg (by omega)]
  rfl

theorem right64_eq {l : Int} (hl : Fits64 l) {count : Nat} (h : count < 64) :
    right64 l count = sound (ε := RuntimeError) (.ok (Number.shiftRight l count)) := by
  rw [right64, if_pos h, BitVec.toInt_sshiftRight, toInt_ofInt hl, Int.shiftRight_eq_div_pow,
    Number.shiftRight, if_neg (by omega)]
  rfl

/-- **A shift never reaches the width of a word**; the count is a word itself. -/
theorem shifted_eq {b : Builtin} {checked : Int → Nat → Checked RuntimeError Int}
    {fill : Int → Int} {plain : Int → Nat → Int} {l : Int}
    (hshort : ∀ count < 64, checked l count = sound (.ok (plain l count)))
    (hlong : ∀ count, 64 ≤ count → fill l = plain l count) (r : Int) :
    shifted b checked fill l r =
      sound (if r < 0 then .error (.negativeShift b r) else .ok (plain l r.toNat)) := by
  unfold shifted shiftCount
  by_cases hr : r < 0
  · simp [hr]
  · have hword : min r.toNat (UInt32.size - 1) < UInt32.size := by
      have : 0 < UInt32.size := by decide
      omega
    have hsize : 64 ≤ UInt32.size - 1 := by decide
    simp only [hr, if_false, word32_of_lt hword, ok_bind]
    by_cases hcount : min r.toNat (UInt32.size - 1) < 64
    · have hsame : min r.toNat (UInt32.size - 1) = r.toNat := by omega
      rw [if_pos hcount, hshort _ hcount, hsame]
    · rw [if_neg hcount, hlong r.toNat (by omega)]
      rfl

/-! ## Families of builtins -/

section Families

variable {b : Builtin}

theorem onNumbers_eq (f : Number → Number → Value) (args : List Value) :
    onNumbers b f args = sound ((b.onNumbers f).apply b.name args) := by
  refine counted_binary (fun x y => ?_) args
  simp only [sound_bind]
  rfl

/-- What follows an integer argument may take it to fit into 64 bits. -/
theorem integerArgument_bind {α : Type} {i : Nat} {v : Value} {go go' : Int → Checked RuntimeError α}
    (h : ∀ n, Fits64 n → go n = go' n) :
    sound (b.integerArgument i v) >>= go = sound (b.integerArgument i v) >>= go' := by
  unfold Builtin.integerArgument
  cases b.numberArgument i v with
  | error e => rfl
  | ok x => exact h _ (fits64_toInteger x)

theorem onIntegers_eq {checked : Int → Int → Checked RuntimeError Int}
    {plain : Int → Int → Except RuntimeError Int}
    (h : ∀ l r, Fits64 l → Fits64 r → checked l r = sound (plain l r)) (args : List Value) :
    onIntegers b checked args = sound ((b.onIntegers plain).apply b.name args) := by
  refine counted_binary (fun x y => ?_) args
  simp only [sound_bind]
  refine integerArgument_bind fun l hl => integerArgument_bind fun r hr => ?_
  rw [h l r hl hr]
  rfl

theorem onBits_eq (f : BitVec 64 → BitVec 64 → BitVec 64) (args : List Value) :
    onBits b f args = sound ((b.onBits f).apply b.name args) := by
  have h : ∀ l r, Fits64 l → Fits64 r → (.ok (Number.bitwise f l r) : Checked RuntimeError Int) =
      sound (.ok (Number.bitwise f l r)) := fun _ _ _ _ => rfl
  exact onIntegers_eq h args

theorem onString_eq (f : String → Value) (args : List Value) :
    onString b f args = sound ((b.onString f).apply b.name args) := by
  refine counted_unary (fun x => ?_) args
  simp only [sound_bind]
  rfl

theorem onStrings_eq (f : String → String → Yield) (args : List Value) :
    onStrings b f args = sound ((b.onStrings f).apply b.name args) := by
  refine counted_binary (fun x y => ?_) args
  simp only [sound_bind]
  rfl

end Families

/-! ## All builtins -/

/-- **The way along a chain never counts below zero.** -/
theorem nthFrom_eq (v : Value) (n : Nat) : nthFrom v n = sound ((v.nth n).mapError .notList) := by
  induction v generalizing n with
  | atom a => cases a <;> cases n <;> rfl
  | cell stamp head tail _ ih =>
    cases n with
    | zero => rfl
    | succ n =>
      have hdown : countDown (ε := RuntimeError) ((n + 1 : Nat) : Int) = .ok (n : Int) := by
        rw [countDown, if_pos (by omega)]
        congr 1
        omega
      rw [nthFrom, if_neg (by omega), hdown, ok_bind, ih]
      rfl

theorem operate_nth (args : List Value) :
    operate .nth args = sound (Builtin.nth.operation.apply Builtin.nth.name args) := by
  rw [operate, Builtin.operation]
  refine counted_binary (fun v index => ?_) args
  rw [Builtin.element, sound_bind]
  refine integerArgument_bind fun n _ => ?_
  split
  · rfl
  · next hn =>
    have hnat : ((n.toNat : Nat) : Int) = n := by omega
    have hfrom := nthFrom_eq v n.toNat
    rw [hnat] at hfrom
    rw [show get [v, index] 0 = (.ok v : Checked RuntimeError Value) from rfl, ok_bind, hfrom]
    cases v.nth n.toNat <;> rfl

/-- **A builtin never traps, on any arguments, and does what the plain one does.** -/
theorem operate_eq (b : Builtin) (args : List Value) :
    operate b args = sound (b.operation.apply b.name args) := by
  cases b with
  | add | sub | mul | div | greater | less => exact onNumbers_eq _ args
  | modulo => exact onIntegers_eq (fun _ _ => remainder_eq) args
  | bitAnd | bitOr | bitXor | bitClear => exact onBits_eq _ args
  | shiftRight =>
    refine onIntegers_eq (fun l r hl _ => ?_) args
    refine shifted_eq (fun _ => right64_eq hl) (fun count hcount => ?_) r
    rw [Number.shiftRight, if_pos hcount]
  | shiftLeft =>
    refine onIntegers_eq (fun l r _ _ => ?_) args
    refine shifted_eq (fun _ => left64_eq) (fun count hcount => ?_) r
    rw [Number.shiftLeft, if_pos hcount]
  | equal | cons =>
    rw [operate, Builtin.operation]
    refine counted_binary (fun _ _ => ?_) args
    rfl
  | and =>
    rw [operate, Builtin.operation]
    refine counted_binary (fun v w => ?_) args
    show (if v.truthy then _ else _) = sound (.ok (Yield.value (.bool (v.truthy && w.truthy))))
    cases v.truthy <;> rfl
  | or =>
    rw [operate, Builtin.operation]
    refine counted_binary (fun v w => ?_) args
    show (if v.truthy then _ else _) = sound (.ok (Yield.value (.bool (v.truthy || w.truthy))))
    cases v.truthy <;> rfl
  | not | car | cdr | length | typeOf =>
    rw [operate, Builtin.operation]
    refine counted_unary (fun _ => ?_) args
    rfl
  | print | list | concat => rfl
  | nth => exact operate_nth args
  | contains | startsWith | endsWith | split => exact onStrings_eq _ args
  | join =>
    rw [operate, Builtin.operation]
    refine counted_binary (fun v separator => ?_) args
    rw [Builtin.joined, sound_bind]
    refine congrArg _ (funext fun t => ?_)
    show (if v.isProper then _ else _) = sound (if v.isProper then _ else _)
    split
    · rw [sound_bind]
      rfl
    · rfl
  | replace =>
    rw [operate, Builtin.operation]
    refine counted_ternary (fun s old new => ?_) args
    simp only [Builtin.replaced, sound_bind]
    refine congrArg _ (funext fun s => congrArg _ (funext fun old => congrArg _ (funext fun new => ?_)))
    split <;> rfl
  | upper | lower => exact onString_eq _ args
  | format =>
    rw [operate, Builtin.operation]
    refine counted_atLeastOne (fun template pairs => ?_) args
    simp only [Builtin.formatted, sound_bind]
    refine congrArg _ (funext fun t => ?_)
    have hslice : (slice (template :: pairs) 1 (template :: pairs).length : Checked RuntimeError _) =
        .ok pairs := by simp [slice]
    rw [hslice, ok_bind]
    rfl

/-- **A call of a builtin never traps.** -/
theorem call_eq (b : Builtin) (args : List Value) (s : Session) :
    call b args s = .ok (b.call args s) := by
  rw [call, operate_eq, Builtin.call]
  cases b.operation.apply b.name args <;> rfl

end Checked

end FlatLisp
