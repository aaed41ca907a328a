import FlatLisp.Proofs.Integers

/-!
# Chains of cells

A chain is looked at in many ways: its flag, its heads in order, the element behind an index, its
length, its text, and what is joined of it. Each of these walks along the cells by itself, or
trusts the flag and does not walk. What they are compared with is the chain as such
(`Value.Chain`): the heads of its cells, and the atom that it ends in.

* `Value.exists_chain`: every value is a chain, an atom one without cells.
* `Value.Chain.isProper_iff`: **the flag, which each cell has from the next one, is right.**
* `Value.Chain.text_eq`: the text of a chain.
* `chain_views`: **all views of a chain agree.**
-/

namespace FlatLisp

namespace Value

/-- The cells of `v` have the heads `items`, in order, and behind the last one there is `z`. -/
inductive Chain (z : Atom) : List Value → Value → Prop
  | last : Chain z [] (.atom z)
  | cell {items : List Value} {tail : Value} (stamp : Nat) (head : Value) :
    Chain z items tail → Chain z (head :: items) (.cell stamp head tail)

variable {z : Atom} {items : List Value} {v : Value}

/-! ## Chains are made of cells -/

/-- Every value is a chain; an atom is one without cells. -/
theorem exists_chain : ∀ v : Value, ∃ z items, Chain z items v
  | .atom a => ⟨a, [], .last⟩
  | .cell stamp head tail =>
    have ⟨z, items, h⟩ := exists_chain tail
    ⟨z, head :: items, h.cell stamp head⟩

theorem Chain.prepend (h : Chain z items v) (stamp : Nat) (front : List Value) :
    Chain z (front.reverse ++ items) (prepend stamp front v) := by
  induction front generalizing stamp items v with
  | nil => exact h
  | cons head front ih =>
    rw [List.reverse_cons, List.append_assoc]
    exact ih (h.cell stamp head) (stamp + 1)

/-- Fresh cells have the heads that they are made for. -/
theorem chain_ofList (stamp : Nat) (items : List Value) : Chain .nil items (ofList stamp items .nil) := by
  have h := Chain.last.prepend (z := .nil) stamp items.reverse
  rwa [List.reverse_reverse, List.append_nil] at h

/-! ## Walks -/

theorem Chain.isProper_iff (h : Chain z items v) : v.isProper = true ↔ z = .nil := by
  induction h with
  | last => cases z <;> simp [isProper]
  | cell stamp head _ ih => exact ih

theorem Chain.headsFrom_eq (h : Chain z items v) (found : List Value) :
    headsFrom found v = found.reverse ++ items := by
  induction h generalizing found with
  | last => simp [headsFrom]
  | cell stamp head _ ih => rw [headsFrom, ih]; simp

theorem Chain.heads_eq (h : Chain z items v) : v.heads = items := h.headsFrom_eq []

theorem Chain.countFrom_eq (h : Chain z items v) (n : Nat) : countFrom n v = n + items.length := by
  induction h generalizing n with
  | last => rfl
  | cell stamp head _ ih => rw [countFrom, ih, List.length_cons]; omega

theorem Chain.cellCount_eq (h : Chain z items v) : v.cellCount = items.length := by
  rw [cellCount, h.countFrom_eq, Nat.zero_add]

theorem Chain.nth_eq (h : Chain z items v) {i : Nat} (hi : i < items.length) :
    v.nth i = .ok items[i] := by
  induction h generalizing i with
  | last => exact absurd hi (by simp)
  | cell stamp head _ ih =>
    cases i with
    | zero => rfl
    | succ i => exact ih (by simpa using hi)

/-- Behind the end there is nil or nothing, depending on the end. -/
theorem Chain.nth_behind (h : Chain z items v) {i : Nat} (hi : items.length ≤ i) :
    v.nth i = if z.isNil then .ok .nil else .error z := by
  induction h generalizing i with
  | last => cases z <;> cases i <;> rfl
  | cell stamp head _ ih =>
    cases i with
    | zero => exact absurd hi (by simp)
    | succ i => exact ih (by simpa using hi)

/-! ## Text -/

mutual

/-- What is written stands behind what was written before. -/
theorem write_eq : ∀ (out : String) (v : Value), v.write out = out ++ v.text
  | out, .atom a => by simp [write, text]
  | out, .cell stamp head tail => by
    rw [text, write, write, write_eq (out ++ "(") head, write_eq ("" ++ "(") head,
      writeTail_eq (out ++ "(" ++ head.text) tail, writeTail_eq ("" ++ "(" ++ head.text) tail]
    simp only [String.append_assoc, String.empty_append]

theorem writeTail_eq : ∀ (out : String) (v : Value), v.writeTail out = out ++ v.writeTail ""
  | out, .atom a => by cases a <;> simp [writeTail, String.append_assoc]
  | out, .cell stamp head tail => by
    rw [writeTail, writeTail, write_eq (out ++ " ") head, write_eq ("" ++ " ") head,
      writeTail_eq (out ++ " " ++ head.text) tail, writeTail_eq ("" ++ " " ++ head.text) tail]
    simp only [String.append_assoc, String.empty_append]

end

/-- What is written at the end of a chain, the closing parenthesis apart. -/
def endText (z : Atom) : String := if z.isNil then "" else " . " ++ z.text

theorem Chain.writeTail_eq (h : Chain z items v) :
    v.writeTail "" = String.join (items.map fun item => " " ++ item.text) ++ endText z ++ ")" := by
  induction h with
  | last => cases z <;> simp [writeTail, endText, Atom.isNil]
  | cell stamp head _ ih =>
    rw [writeTail, write_eq, Value.writeTail_eq, ih]
    simp [String.append_assoc]

theorem joinedText_cons (v : Value) (vs : List Value) :
    joinedText (v :: vs) = v.text ++ String.join (vs.map fun w => " " ++ w.text) := by
  unfold joinedText
  induction vs generalizing v with
  | nil => simp
  | cons w vs ih =>
    rw [List.map_cons, List.map_cons, String.intercalate_cons_cons, ← List.map_cons, ih]
    simp [String.append_assoc]

/-- **The text of a chain** has its items with spaces between, and the end unless it is nil. -/
theorem Chain.text_eq (h : Chain z items v) (hcell : items ≠ []) :
    v.text = "(" ++ joinedText items ++ endText z ++ ")" := by
  cases h with
  | last => exact absurd rfl hcell
  | cell stamp head htail =>
    rw [text, write, write_eq, Value.writeTail_eq, htail.writeTail_eq, joinedText_cons]
    simp [String.append_assoc]

end Value

namespace Builtin

variable {z : Atom} {items : List Value} {v : Value}

/-! ## Strings -/

theorem stringsOf_strings (parts : List String) : stringsOf (parts.map Value.string) = .ok parts := by
  induction parts with
  | nil => rfl
  | cons part parts ih => simp only [List.map_cons, stringsOf, ih]; rfl

/-- Only strings are read as strings. -/
theorem strings_of_stringsOf {vs : List Value} {parts : List String} (h : stringsOf vs = .ok parts) :
    vs = parts.map Value.string := by
  induction vs generalizing parts with
  | nil => simp only [stringsOf, Except.ok.injEq] at h; simp [← h]
  | cons v vs ih =>
    unfold stringsOf at h
    split at h
    · simp_all
    · next s rest heq =>
      obtain ⟨rfl, rfl⟩ := List.cons.inj heq
      cases hrest : stringsOf vs with
      | error e => simp [hrest, Except.map] at h
      | ok rest =>
        simp only [hrest, Except.map, Except.ok.injEq] at h
        rw [← h, List.map_cons, ih hrest]
    · exact absurd h (by simp)

theorem apply_join (v : Value) (separator : String) :
    join.operation.apply join.name [v, .string separator] =
      if v.isProper then
        (stringsOf v.heads).map fun parts => .value (.string (separator.intercalate parts))
      else .error (.joinOfOther v.kind) := by
  rfl

/-- The join of a proper list of strings. -/
theorem join_call {parts : List String} (h : Value.Chain .nil (parts.map .string) v)
    (separator : String) (s : Session) :
    join.call [v, .string separator] s = (.ok (.string (separator.intercalate parts)), s) := by
  refine call_value ?_
  rw [apply_join, if_pos (h.isProper_iff.2 rfl), h.heads_eq, stringsOf_strings]
  rfl

/-- Nothing else can be joined. -/
theorem strings_of_join {separator : String} {w : Value} {s : Session}
    (h : Value.Chain z items v) (hjoin : (join.call [v, .string separator] s).1 = .ok w) :
    z = .nil ∧ ∃ parts : List String, items = parts.map .string := by
  have happly := apply_join v separator
  split_ifs at happly with hproper
  · refine ⟨h.isProper_iff.1 hproper, ?_⟩
    rw [h.heads_eq] at happly
    cases hparts : stringsOf items with
    | error e =>
      rw [call_error (by rw [happly, hparts]; rfl)] at hjoin
      exact absurd hjoin nofun
    | ok parts => exact ⟨parts, strings_of_stringsOf hparts⟩
  · rw [call_error happly] at hjoin
    exact absurd hjoin nofun

/-! ## Elements -/

/-- So many calls of `cdr`, each on what the last one returned, lead from one value to another. -/
inductive Cdrs : Nat → Value → Value → Prop
  | none {v : Value} : Cdrs 0 v v
  | next {n : Nat} {v u w : Value} :
    (∀ s, cdr.call [v] s = (.ok u, s)) → Cdrs n u w → Cdrs (n + 1) v w

/-- An element is the `car` after as many calls of `cdr` as its index says. -/
theorem exists_cdrs (h : Value.Chain z items v) {i : Nat} (hi : i < items.length) :
    ∃ w, Cdrs i v w ∧ ∀ s, car.call [w] s = (.ok items[i], s) := by
  induction h generalizing i with
  | last => exact absurd hi (by simp)
  | cell stamp head htail ih =>
    cases i with
    | zero => exact ⟨_, .none, fun s => call_value rfl⟩
    | succ i =>
      obtain ⟨w, hcdrs, hcar⟩ := ih (i := i) (by simpa using hi)
      exact ⟨w, .next (fun s => call_value rfl) hcdrs, hcar⟩

theorem apply_nth (v : Value) (x : Number) :
    nth.operation.apply nth.name [v, .number x] =
      if x.operand < 0 then .error (.negativeIndex x.operand)
      else match v.nth x.operand.toNat with
        | .ok head => .ok (.value head)
        | .error reached => .error (.notList reached) := by
  rw [← Number.toInteger_eq_operand]
  rfl

theorem nth_call_negative {x : Number} (hneg : x.operand < 0) (v : Value) (s : Session) :
    nth.call [v, .number x] s = (.error (.negativeIndex x.operand), s) :=
  call_error (by rw [apply_nth, if_pos hneg])

theorem nth_call (h : Value.Chain z items v) {x : Number} {i : Nat} (hi : i < items.length)
    (hx : x.operand = i) (s : Session) : nth.call [v, .number x] s = (.ok items[i], s) := by
  refine call_value ?_
  rw [apply_nth, if_neg (by omega), hx, Int.toNat_natCast, h.nth_eq hi]

theorem nth_call_behind (h : Value.Chain z items v) {x : Number} (hx : items.length ≤ x.operand)
    (s : Session) :
    nth.call [v, .number x] s = (if z.isNil then .ok .nil else .error (.notList z), s) := by
  have hnth := h.nth_behind (i := x.operand.toNat) (by omega)
  split_ifs at hnth ⊢
  · exact call_value (by rw [apply_nth, if_neg (by omega), hnth])
  · exact call_error (by rw [apply_nth, if_neg (by omega), hnth])

/-! ## Length -/

theorem length_call (h : Value.Chain .nil items v) (s : Session) :
    length.call [v] s = (.ok (.number (.ofInt items.length)), s) := by
  have hproper : v.isProper = true := h.isProper_iff.2 rfl
  refine call_value ?_
  change lengthOf v = _
  rw [lengthOf, if_pos hproper, h.cellCount_eq]

theorem length_call_improper (h : Value.Chain z items v) (hz : z ≠ .nil) (s : Session) :
    length.call [v] s = (.error (.notProper v), s) := by
  have hproper : ¬v.isProper = true := fun hv => hz (h.isProper_iff.1 hv)
  refine call_error ?_
  change lengthOf v = _
  rw [lengthOf, if_neg hproper]

/-! ## Lists -/

theorem exists_list_call (vs : List Value) (s : Session) :
    ∃ w, (list.call vs s).1 = .ok w ∧ Value.Chain .nil vs w :=
  ⟨_, congrArg Prod.fst (call_list rfl), Value.chain_ofList s.nextStamp vs⟩

end Builtin

open Builtin

/-- **All views of a chain agree.** For a value made of cells that has the heads `items` and ends
in `z`: the flag says whether `z` is nil; walking, indexing and `cdr` find the items in order, and
indexing beyond them finds nil or fails, depending on `z`; the length is their number; exactly the
proper lists of strings can be joined; the text has the items and the end; and a list of what
walking found has the same items and ends in nil. -/
theorem chain_views {z : Atom} {items : List Value} {v : Value} (h : Value.Chain z items v)
    (hcell : items ≠ []) :
    (v.isProper = true ↔ z = .nil) ∧
    v.heads = items ∧
    (∀ (i : Nat) (hi : i < items.length),
      (∃ w, Cdrs i v w ∧ ∀ s, car.call [w] s = (.ok items[i], s)) ∧
      ∀ x : Number, x.operand = i → ∀ s, nth.call [v, .number x] s = (.ok items[i], s)) ∧
    (∀ x : Number, items.length ≤ x.operand → ∀ s,
      nth.call [v, .number x] s = (if z.isNil then .ok .nil else .error (.notList z), s)) ∧
    (∀ x : Number, x.operand < 0 → ∀ s,
      nth.call [v, .number x] s = (.error (.negativeIndex x.operand), s)) ∧
    (z = .nil → ∃ y : Number, y.NearestTo items.length ∧
      (items.length ≤ 2 ^ 53 → y.value = items.length) ∧
      ∀ s, length.call [v] s = (.ok (.number y), s)) ∧
    (z ≠ .nil → ∀ s, length.call [v] s = (.error (.notProper v), s)) ∧
    (∀ separator s, (∃ w, (join.call [v, .string separator] s).1 = .ok w) ↔
      z = .nil ∧ ∃ parts : List String, items = parts.map .string) ∧
    v.text = "(" ++ Value.joinedText items ++ (if z.isNil then "" else " . " ++ z.text) ++ ")" ∧
    (∀ s, ∃ w, (list.call v.heads s).1 = .ok w ∧ Value.Chain .nil items w) := by
  refine ⟨h.isProper_iff, h.heads_eq, fun i hi => ⟨exists_cdrs h hi, fun x hx => nth_call h hi hx⟩,
    fun x hx => nth_call_behind h hx, fun x hx => nth_call_negative hx v, ?length,
    length_call_improper h, fun separator s => ⟨fun ⟨w, hw⟩ => strings_of_join h hw, ?join⟩,
    h.text_eq hcell, fun s => ?list⟩
  case length =>
    rintro rfl
    exact ⟨_, Number.nearestTo_ofInt _, Number.value_ofInt, length_call h⟩
  case join =>
    rintro ⟨rfl, parts, rfl⟩
    exact ⟨_, congrArg Prod.fst (join_call h separator s)⟩
  case list =>
    rw [h.heads_eq]
    exact exists_list_call items s

/-- A chain with a chain in it that does not end in nil. -/
theorem chain_views_nested :
    let v := Value.cell 3 (.string "a") (.cell 2 (.cell 1 (.string "b") .nil) (.bool true))
    let items := [Value.string "a", .cell 1 (.string "b") .nil]
    Value.Chain (.bool true) items v ∧ items ≠ [] ∧ v.isProper ≠ true ∧
      v.text = "(a (b) . true)" := by
  intro v items
  have h : Value.Chain (.bool true) items v := (Value.Chain.last.cell 2 _).cell 3 _
  have hcell : items ≠ [] := List.cons_ne_nil _ _
  obtain ⟨hproper, -, -, -, -, -, -, -, htext, -⟩ := chain_views h hcell
  refine ⟨h, hcell, mt hproper.1 nofun, htext.trans ?_⟩
  decide +kernel

end FlatLisp
