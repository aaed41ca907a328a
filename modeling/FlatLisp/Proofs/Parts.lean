import FlatLisp.Builtin.Call
import Mathlib.Data.List.Basic

/-!
# What builtins make of their arguments

A builtin puts together what it returns from parts of its arguments and from atoms that hold no
code. It never fails for want of a binding, since it sees none.

* `Builtin.draws`: **every builtin draws on its arguments only.**
* `Builtin.call_env`: a call of a builtin changes no binding.
* `part_ofList`: an atom in a chain of fresh cells lies in what the cells are made of.
-/

namespace FlatLisp

/-! ## Parts of values -/

namespace Value

/-- The value `w` is the other one, or lies in one of its cells. -/
inductive Part (w : Value) : Value → Prop
  | refl : Part w w
  | head {stamp : Nat} {h t : Value} : Part w h → Part w (.cell stamp h t)
  | tail {stamp : Nat} {h t : Value} : Part w t → Part w (.cell stamp h t)

theorem Part.trans {u v w : Value} (huv : Part u v) (hvw : Part v w) : Part u w := by
  induction hvw with
  | refl => exact huv
  | head _ ih => exact .head ih
  | tail _ ih => exact .tail ih

theorem part_atom {w : Value} {a : Atom} (h : Part w (.atom a)) : w = .atom a := by
  cases h
  rfl

/-- An atom that is no procedure. -/
def Plain : Value → Prop
  | .atom (.procedure _) | .cell _ _ _ => False
  | .atom _ => True

theorem Plain.no_procedure {v : Value} (hv : v.Plain) {p : Procedure Form} (h : Part (.procedure p) v) :
    False := by
  cases h with
  | refl => exact hv
  | head _ => exact hv
  | tail _ => exact hv

theorem Plain.exists_atom {v : Value} (hv : v.Plain) : ∃ a, v = .atom a := by
  cases v with
  | atom a => exact ⟨a, rfl⟩
  | cell stamp h t => exact hv.elim

theorem part_prepend {a : Atom} {stamp : Nat} {items : List Value} {tail : Value}
    (h : Part (.atom a) (prepend stamp items tail)) :
    ∃ v ∈ tail :: items, Part (.atom a) v := by
  induction items generalizing stamp tail with
  | nil => exact ⟨tail, List.mem_cons_self, h⟩
  | cons item items ih =>
    obtain ⟨v, hv, hpart⟩ := ih h
    rcases List.mem_cons.1 hv with rfl | hv
    · cases hpart with
      | head hpart => exact ⟨item, by simp, hpart⟩
      | tail hpart => exact ⟨tail, by simp, hpart⟩
    · exact ⟨v, by simp [hv], hpart⟩

/-- An atom in a chain lies in what the chain is made of. -/
theorem part_ofList {a : Atom} {stamp : Nat} {items : List Value} {tail : Value}
    (h : Part (.atom a) (ofList stamp items tail)) :
    ∃ v ∈ tail :: items, Part (.atom a) v := by
  simpa using part_prepend h

/-- The element of a list is a part of it, or nil behind its end. -/
theorem part_of_nth {n : Nat} {v w : Value} (h : v.nth n = .ok w) : w.Plain ∨ Part w v := by
  induction n generalizing v with
  | zero =>
    cases v with
    | atom a => cases a <;> simp only [nth, Except.ok.injEq, reduceCtorEq] at h; subst h; exact .inl trivial
    | cell stamp head tail =>
      obtain rfl := Except.ok.inj h
      exact .inr (.head .refl)
  | succ n ih =>
    cases v with
    | atom a => cases a <;> simp only [nth, Except.ok.injEq, reduceCtorEq] at h; subst h; exact .inl trivial
    | cell stamp head tail => exact (ih h).imp_right .tail

end Value

open Value

/-! ## Results -/

/-- The value is plain, or a part of an argument. -/
def Value.DrawnFrom (arguments : List Value) (v : Value) : Prop :=
  v.Plain ∨ ∃ a ∈ arguments, Part v a

/-- The failure is not for want of a binding. -/
def NoLookup {α : Type} (m : Except RuntimeError α) : Prop := ∀ name, m ≠ .error (.unbound name)

/-- A result that is put together from parts of the arguments. -/
structure Draws (arguments : List Value) (r : Result) : Prop where
  parts : ∀ y, r = .ok y → ∀ v ∈ y.tail :: y.items, v.DrawnFrom arguments
  noLookup : NoLookup r

/-- An operation whose results are put together from parts of the arguments. -/
def Operation.Draws (op : Operation) : Prop :=
  ∀ name arguments, FlatLisp.Draws arguments (op.apply name arguments)

section Results

variable {α : Type} {arguments : List Value} {r : Result} {y : Yield} {v : Value}

theorem draws_ok (h : ∀ v ∈ y.tail :: y.items, v.DrawnFrom arguments) : Draws arguments (.ok y) where
  parts := by
    intro y' hy'
    obtain rfl := Except.ok.inj hy'
    exact h
  noLookup := by simp [NoLookup]

theorem draws_value (h : v.DrawnFrom arguments) : Draws arguments (.ok (.value v)) :=
  draws_ok fun w hw => by
    obtain rfl : w = v := by simpa [Yield.value] using hw
    exact h

theorem draws_plain (h : v.Plain) : Draws arguments (.ok (.value v)) := draws_value (.inl h)

theorem draws_error {e : RuntimeError} (h : ∀ name, e ≠ .unbound name) :
    Draws arguments (.error e) where
  parts := by simp
  noLookup := fun name he => h name (Except.error.inj he)

theorem draws_bind {m : Except RuntimeError α} {go : α → Result} (hm : NoLookup m)
    (hgo : ∀ a, m = .ok a → Draws arguments (go a)) : Draws arguments (m >>= go) := by
  cases m with
  | error e => exact draws_error fun name he => hm name (he ▸ rfl)
  | ok a => exact hgo a rfl

end Results

/-! ## Operations of each arity -/

namespace Operation

theorem draws_unary {f : Value → Result} (h : ∀ x, FlatLisp.Draws [x] (f x)) : (unary f).Draws := by
  intro name arguments
  match arguments with
  | [x] => exact h x
  | [] | _ :: _ :: _ => exact draws_error (by simp)

theorem draws_binary {f : Value → Value → Result} (h : ∀ x y, FlatLisp.Draws [x, y] (f x y)) :
    (binary f).Draws := by
  intro name arguments
  match arguments with
  | [x, y] => exact h x y
  | [] | [_] | _ :: _ :: _ :: _ => exact draws_error (by simp)

theorem draws_ternary {f : Value → Value → Value → Result}
    (h : ∀ x y z, FlatLisp.Draws [x, y, z] (f x y z)) : (ternary f).Draws := by
  intro name arguments
  match arguments with
  | [x, y, z] => exact h x y z
  | [] | [_] | [_, _] | _ :: _ :: _ :: _ :: _ => exact draws_error (by simp)

theorem draws_atLeastOne {f : Value → List Value → Result}
    (h : ∀ x xs, FlatLisp.Draws (x :: xs) (f x xs)) : (atLeastOne f).Draws := by
  intro name arguments
  match arguments with
  | x :: xs => exact h x xs
  | [] => exact draws_error (by simp)

theorem draws_variadic {f : List Value → Result} (h : ∀ xs, FlatLisp.Draws xs (f xs)) :
    (variadic f).Draws := fun _ arguments => h arguments

end Operation

/-! ## Arguments of a kind -/

namespace Builtin

theorem noLookup_numberArgument (b : Builtin) (index : Nat) (v : Value) :
    NoLookup (b.numberArgument index v) := by
  intro name
  unfold numberArgument
  split <;> simp

theorem noLookup_stringArgument (b : Builtin) (index : Nat) (v : Value) :
    NoLookup (b.stringArgument index v) := by
  intro name
  unfold stringArgument
  split <;> simp

theorem noLookup_integerArgument (b : Builtin) (index : Nat) (v : Value) :
    NoLookup (b.integerArgument index v) := by
  intro name
  have h := b.noLookup_numberArgument index v name
  unfold integerArgument
  cases hv : b.numberArgument index v with
  | ok x => simp [Except.map]
  | error e => simpa [Except.map, hv] using h

theorem noLookup_stringsOf (vs : List Value) : NoLookup (stringsOf vs) := by
  intro name
  induction vs with
  | nil => simp [stringsOf]
  | cons v vs ih =>
    unfold stringsOf
    split
    · simp
    · next heq =>
      obtain ⟨-, rfl⟩ := List.cons.inj heq
      cases hvs : stringsOf vs with
      | ok parts => simp [Except.map]
      | error e => simpa [Except.map, hvs] using ih
    · simp

theorem noLookup_filled (E : Template.Expressions) (template : String) (pairs : List Value) :
    NoLookup (filled E template pairs) := by
  intro name
  induction pairs generalizing template with
  | nil => simp [filled]
  | cons pair pairs ih =>
    unfold filled
    split
    · exact ih _
    · next e he =>
      unfold pairOf at he
      split at he <;> simp only [Except.error.injEq, reduceCtorEq] at he <;> subst he <;> simp

/-! ## Families of operations -/

variable {b : Builtin}

theorem draws_onNumbers {f : Number → Number → Value} (hf : ∀ l r, (f l r).Plain) :
    (b.onNumbers f).Draws := by
  refine Operation.draws_binary fun x y => ?_
  refine draws_bind (b.noLookup_numberArgument 0 x) fun l _ => ?_
  refine draws_bind (b.noLookup_numberArgument 1 y) fun r _ => ?_
  exact draws_plain (hf l r)

theorem draws_onIntegers {f : Int → Int → Except RuntimeError Int} (hf : ∀ l r, NoLookup (f l r)) :
    (b.onIntegers f).Draws := by
  refine Operation.draws_binary fun x y => ?_
  refine draws_bind (b.noLookup_integerArgument 0 x) fun l _ => ?_
  refine draws_bind (b.noLookup_integerArgument 1 y) fun r _ => ?_
  exact draws_bind (hf l r) fun n _ => draws_plain trivial

theorem draws_onBits (f : BitVec 64 → BitVec 64 → BitVec 64) : (b.onBits f).Draws :=
  draws_onIntegers fun _ _ => by simp [NoLookup]

theorem draws_shift (f : Int → Nat → Int) : (b.shift f).Draws := by
  refine draws_onIntegers fun l r name => ?_
  split <;> simp

theorem draws_onString {f : String → Value} (hf : ∀ s, (f s).Plain) : (b.onString f).Draws := by
  refine Operation.draws_unary fun x => ?_
  exact draws_bind (b.noLookup_stringArgument 0 x) fun s _ => draws_plain (hf s)

theorem draws_onStrings {f : String → String → Yield}
    (hf : ∀ s t, ∀ v ∈ (f s t).tail :: (f s t).items, v.Plain) : (b.onStrings f).Draws := by
  refine Operation.draws_binary fun x y => ?_
  refine draws_bind (b.noLookup_stringArgument 0 x) fun s _ => ?_
  refine draws_bind (b.noLookup_stringArgument 1 y) fun t _ => ?_
  exact draws_ok fun v hv => .inl (hf s t v hv)

/-! ## Cells and lists -/

theorem draws_headOf (v : Value) : Draws [v] (headOf v) := by
  unfold headOf
  split
  · exact draws_value (.inr ⟨_, List.mem_cons_self, .head .refl⟩)
  · exact draws_plain trivial
  · exact draws_error (by simp)

theorem draws_tailOf (v : Value) : Draws [v] (tailOf v) := by
  unfold tailOf
  split
  · exact draws_value (.inr ⟨_, List.mem_cons_self, .tail .refl⟩)
  · exact draws_plain trivial
  · exact draws_error (by simp)

theorem draws_element (v index : Value) : Draws [v, index] (element v index) := by
  refine draws_bind (Builtin.nth.noLookup_integerArgument 1 index) fun i _ => ?_
  split
  · exact draws_error (by simp)
  · split
    · next h =>
      refine draws_value ((part_of_nth h).imp_right fun hpart => ?_)
      exact ⟨v, List.mem_cons_self, hpart⟩
    · exact draws_error (by simp)

theorem draws_lengthOf (v : Value) : Draws [v] (lengthOf v) := by
  unfold lengthOf
  split
  · exact draws_plain trivial
  · exact draws_error (by simp)

/-! ## Text -/

theorem draws_joined (v separator : Value) : Draws [v, separator] (joined v separator) := by
  refine draws_bind (Builtin.join.noLookup_stringArgument 1 separator) fun s _ => ?_
  split
  · exact draws_bind (noLookup_stringsOf v.heads) fun parts _ => draws_plain trivial
  · exact draws_error (by simp)

theorem draws_replaced (s old new : Value) : Draws [s, old, new] (replaced s old new) := by
  refine draws_bind (Builtin.replace.noLookup_stringArgument 0 s) fun s' _ => ?_
  refine draws_bind (Builtin.replace.noLookup_stringArgument 1 old) fun old' _ => ?_
  refine draws_bind (Builtin.replace.noLookup_stringArgument 2 new) fun new' _ => ?_
  split <;> exact draws_plain trivial

theorem draws_formatted (E : Template.Expressions) (template : Value) (pairs : List Value) :
    Draws (template :: pairs) (formatted E template pairs) := by
  refine draws_bind (Builtin.format.noLookup_stringArgument 0 template) fun t _ => ?_
  exact draws_bind (noLookup_filled E t pairs) fun text _ => draws_plain trivial

/-! ## All builtins -/

theorem noLookup_remainder (l r : Int) : NoLookup (remainder l r) := by
  intro name
  unfold remainder
  split <;> simp

/-- The pieces of a text hold no code. -/
theorem plain_pieces (s t : String) :
    ∀ v ∈ (Yield.list ((pieces s t).map Value.string)).tail ::
      (Yield.list ((pieces s t).map Value.string)).items, v.Plain := by
  intro v hv
  rcases List.mem_cons.1 hv with rfl | hv
  · exact trivial
  · obtain ⟨piece, -, rfl⟩ := List.mem_map.1 hv
    exact trivial

/-- **Every builtin draws on its arguments only.** -/
theorem draws (b : Builtin) : b.operation.Draws := by
  have hplain : ∀ v : Value, v.Plain → ∀ w ∈ (Yield.value v).tail :: (Yield.value v).items, w.Plain := by
    intro v hv w hw
    obtain rfl : w = v := by simpa [Yield.value] using hw
    exact hv
  cases b with
  | add | sub | mul | div | greater | less => exact draws_onNumbers fun _ _ => trivial
  | modulo => exact draws_onIntegers noLookup_remainder
  | bitAnd | bitOr | bitXor | bitClear => exact draws_onBits _
  | shiftRight | shiftLeft => exact draws_shift _
  | equal | and | or => exact Operation.draws_binary fun _ _ => draws_plain trivial
  | not | typeOf => exact Operation.draws_unary fun _ => draws_plain trivial
  | print =>
    refine Operation.draws_variadic fun xs => draws_ok fun v hv => ?_
    obtain rfl : v = .nil := by simpa [Yield.print] using hv
    exact .inl trivial
  | cons =>
    refine Operation.draws_binary fun x y => draws_ok fun v hv => ?_
    have hv : v ∈ [x, y] := by simpa [Yield.cell, or_comm] using hv
    exact .inr ⟨v, hv, .refl⟩
  | car => exact Operation.draws_unary draws_headOf
  | cdr => exact Operation.draws_unary draws_tailOf
  | list =>
    refine Operation.draws_variadic fun xs => draws_ok fun v hv => ?_
    rcases List.mem_cons.1 hv with rfl | hv
    · exact .inl trivial
    · exact .inr ⟨v, hv, .refl⟩
  | nth => exact Operation.draws_binary draws_element
  | length => exact Operation.draws_unary draws_lengthOf
  | contains | startsWith | endsWith => exact draws_onStrings fun _ _ => hplain _ trivial
  | join => exact Operation.draws_binary draws_joined
  | split => exact draws_onStrings plain_pieces
  | replace => exact Operation.draws_ternary draws_replaced
  | upper | lower => exact draws_onString fun _ => trivial
  | concat => exact Operation.draws_variadic fun _ => draws_plain trivial
  | format => exact Operation.draws_atLeastOne (draws_formatted _)

/-! ## Calls -/

/-- A call succeeds with fresh cells in front of a value, both drawn from the arguments, or it
fails and leaves the session as it was. -/
theorem call_cases (b : Builtin) (arguments : List Value) (s : Session) :
    (∃ y : Yield, (∀ v ∈ y.tail :: y.items, v.DrawnFrom arguments) ∧
      b.call arguments s = (.ok (s.receive y).1, (s.receive y).2)) ∨
    ∃ e, (∀ name, e ≠ .unbound name) ∧ b.call arguments s = (.error e, s) := by
  have h := b.draws b.name arguments
  unfold call
  cases hr : b.operation.apply b.name arguments with
  | ok y => exact .inl ⟨y, h.parts y hr, rfl⟩
  | error e => exact .inr ⟨e, fun name he => h.noLookup name (he ▸ hr), rfl⟩

/-- A builtin changes no binding. -/
theorem call_env (b : Builtin) (arguments : List Value) (s : Session) :
    (b.call arguments s).2.env = s.env := by
  rcases b.call_cases arguments s with ⟨y, -, h⟩ | ⟨e, -, h⟩ <;> rw [h]
  rfl

end Builtin

end FlatLisp
