import FlatLisp.Proofs.Searching

/-!
# Filling in templates

A template takes the pairs of a key and a value one after another, and each time the whole text
so far is looked through for the placeholder of the key, with a regular expression in which the
key is escaped. The builtins for strings do the same to a text when they replace one placeholder
after another. Nothing is used of the library of regular expressions but what its users are told
(`Template.Expressions.Documented`), and the library that programs run with keeps to it
(`Template.Expressions.plain_documented`).

* `Template.Expressions.Documented.fill_eq`: **an escaped key stands for its characters**, whatever
  they mean in expressions.
* `Builtin.filled_of_noPair`: the first argument that is no pair is refused.
* `Builtin.format_replaces`: **filling in pairs is replacing one placeholder after another.**
-/

namespace FlatLisp

namespace Template

variable {E : Expressions} {key : String}

/-! ## Placeholders -/

theorem placeholder_ne_empty (key : String) : placeholder key ≠ "" := by
  simp [placeholder]

theorem toList_placeholder (key : String) :
    (placeholder key).toList = '%' :: '\x7b' :: (key.toList ++ ['\x7d']) := by
  simp [placeholder]

/-! ## Regular expressions -/

namespace Expressions

/-- What is told to the users of the library. An escaped text has a backslash before each character
that needs one. If the library takes it as an expression, it matches that text, leftmost first and
without overlap. -/
structure Documented (E : Expressions) : Prop where
  escape_eq : ∀ s, E.escape s = String.ofList (s.toList.flatMap escapeChar)
  literal : ∀ s e, s ≠ "" → E.compile? (E.escape s) = some e → ∀ new text, ∃ pieces,
    Search.Cuts s.toList text.toList pieces ∧
      (E.replaceAll e new text).toList = new.toList.intercalate pieces

/-- The expression for a placeholder is the escaped placeholder. -/
theorem Documented.pattern_eq (hE : E.Documented) (key : String) :
    E.pattern key = E.escape (placeholder key) := by
  have hfront : "%\x7b".toList.flatMap escapeChar = "%\\\x7b".toList := by decide
  have hback : "\x7d".toList.flatMap escapeChar = "\\\x7d".toList := by decide
  refine String.toList_injective ?_
  rw [pattern, hE.escape_eq, hE.escape_eq, placeholder]
  simp only [String.toList_append, String.toList_ofList, List.flatMap_append, hfront, hback]

/-- **An escaped key stands for its characters.** -/
theorem Documented.fill_eq (hE : E.Documented) (hkey : E.Fits key) (template text : String) :
    E.fill template key text =
      .ofList (Search.replace (placeholder key).toList text.toList template.toList) := by
  have hp : (placeholder key).toList ≠ [] :=
    mt String.toList_eq_nil_iff.1 (placeholder_ne_empty key)
  obtain ⟨e, hcompile⟩ := Option.isSome_iff_exists.1 hkey
  have htakes : E.compile? (E.escape (placeholder key)) = some e := hE.pattern_eq key ▸ hcompile
  obtain ⟨pieces, hcuts, htext⟩ := hE.literal _ e (placeholder_ne_empty key) htakes text template
  rw [fill, hcompile]
  refine String.toList_injective ?_
  rw [String.toList_ofList, Search.replace_eq, (Search.cuts_iff hp).1 hcuts]
  exact htext

/-! ### Expressions for texts -/

theorem literal?_escape (cs : List Char) : literal? (cs.flatMap escapeChar) = some cs := by
  induction cs with
  | nil => rfl
  | cons c cs ih =>
    rw [List.flatMap_cons, escapeChar]
    split_ifs with hc
    · simp only [List.cons_append, List.nil_append, literal?, if_pos hc, if_true, ih,
        Option.map_some]
    · have hback : c ≠ '\\' := by
        rintro rfl
        exact hc (by decide)
      rw [List.singleton_append]
      cases hrest : cs.flatMap escapeChar with
      | nil =>
        rw [hrest] at ih
        rw [literal?, if_neg hc, ← Option.some.inj ih]
      | cons d ds => rw [literal?, if_neg hback, if_neg hc, ← hrest, ih, Option.map_some]

/-- The expression for a text is taken unless it is too large. -/
theorem compile?_plain (s : String) : plain.compile? (plain.escape s) =
    if s.utf8ByteSize ≤ expressionLimit then some s.toList else none := by
  simp only [plain, String.toList_ofList, literal?_escape]
  simp [Option.filter]

theorem plain_documented : plain.Documented where
  escape_eq _ := rfl
  literal s e hs hcompile new text := by
    have hp : s.toList ≠ [] := mt String.toList_eq_nil_iff.1 hs
    obtain rfl : s.toList = e := by
      rw [compile?_plain] at hcompile
      split at hcompile
      · exact Option.some.inj hcompile
      · exact absurd hcompile (by simp)
    exact ⟨_, Search.cuts_split hp _, String.toList_ofList.trans (Search.replace_eq _ _ _)⟩

/-- Programs can fill in placeholders up to a size. -/
theorem fits_plain_iff : plain.Fits key ↔ (placeholder key).utf8ByteSize ≤ expressionLimit := by
  rw [Fits, plain_documented.pattern_eq, compile?_plain]
  split
  · next hsize => exact iff_of_true rfl hsize
  · next hsize => exact iff_of_false Bool.false_ne_true hsize

end Expressions

end Template

namespace Builtin

open Template

variable {pairs : List (String × Value)} {ws front rest : List Value} {w : Value} {message : String}
  {E : Expressions}

/-! ## Pairs -/

/-- A cell with a string as its head is a pair of a key and a value. -/
inductive IsPair : String × Value → Value → Prop
  | cell (stamp : Nat) (key : String) (v : Value) : IsPair (key, v) (.cell stamp (.string key) v)

/-- The value is no pair, and it is refused with a message that tells what it is, or its head. -/
inductive NoPair : Value → String → Prop
  | atom (a : Atom) : NoPair (.atom a) ("Invalid key-value pair in format: " ++ a.text)
  | head (stamp : Nat) {head : Value} (tail : Value) : (∀ key, head ≠ .string key) →
    NoPair (.cell stamp head tail) ("Invalid key in format: " ++ head.text)

/-- A value is a pair, or it is refused. -/
theorem isPair_or_noPair (w : Value) : (∃ p, IsPair p w) ∨ ∃ message, NoPair w message := by
  match w with
  | .atom a => exact .inr ⟨_, .atom a⟩
  | .cell stamp (.atom (.string key)) v => exact .inl ⟨_, .cell stamp key v⟩
  | .cell stamp (.atom (.number _)) v => exact .inr ⟨_, .head stamp v nofun⟩
  | .cell stamp (.atom (.bool _)) v => exact .inr ⟨_, .head stamp v nofun⟩
  | .cell stamp (.atom (.builtin _)) v => exact .inr ⟨_, .head stamp v nofun⟩
  | .cell stamp (.atom (.procedure _)) v => exact .inr ⟨_, .head stamp v nofun⟩
  | .cell stamp (.atom .nil) v => exact .inr ⟨_, .head stamp v nofun⟩
  | .cell stamp (.cell _ _ _) v => exact .inr ⟨_, .head stamp v nofun⟩

theorem IsPair.pairOf {p : String × Value} (h : IsPair p w) : pairOf w = .ok (p.1, p.2.text) := by
  cases h
  rfl

theorem NoPair.pairOf (h : NoPair w message) : ∃ e, pairOf w = .error e ∧ e.message = message := by
  cases h with
  | atom a => exact ⟨.badPair (.atom a), rfl, rfl⟩
  | @head stamp head tail hhead =>
    refine ⟨.badKey head, ?_, rfl⟩
    unfold Builtin.pairOf
    split
    · next key _ heq => exact absurd (Value.cell.inj heq).2.1 (hhead key)
    · next heq => rw [(Value.cell.inj heq).2.1]
    · next hcell => exact absurd rfl (hcell stamp head tail)

/-! ## Filling in -/

/-- The template with one pair after another filled in. -/
def fillAll (E : Expressions) (template : String) (pairs : List (String × Value)) : String :=
  pairs.foldl (fun t p => E.fill t p.1 p.2.text) template

theorem filled_append (h : List.Forall₂ IsPair pairs front) (template : String)
    (rest : List Value) :
    filled E template (front ++ rest) = filled E (fillAll E template pairs) rest := by
  induction h generalizing template with
  | nil => rfl
  | cons hp _ ih =>
    rw [List.cons_append, filled, hp.pairOf]
    exact ih _

theorem filled_of_pairs (h : List.Forall₂ IsPair pairs ws) (template : String) :
    filled E template ws = .ok (fillAll E template pairs) := by
  have hall := filled_append (E := E) h template []
  rwa [List.append_nil] at hall

/-- **The first argument that is no pair is refused**, whatever comes behind it. -/
theorem filled_of_noPair (h : List.Forall₂ IsPair pairs front) (hw : NoPair w message)
    (template : String) (rest : List Value) :
    ∃ e, filled E template (front ++ w :: rest) = .error e ∧ e.message = message := by
  obtain ⟨e, he, hmessage⟩ := hw.pairOf
  exact ⟨e, by rw [filled_append h, filled, he], hmessage⟩

theorem exists_first_noPair (h : ∃ w ∈ ws, ∀ p, ¬IsPair p w) :
    ∃ pairs front w rest message, ws = front ++ w :: rest ∧ List.Forall₂ IsPair pairs front ∧
      NoPair w message := by
  obtain ⟨w, hmem, hw⟩ := h
  induction ws with
  | nil => exact absurd hmem List.not_mem_nil
  | cons v vs ih =>
    rcases isPair_or_noPair v with ⟨p, hp⟩ | ⟨message, hv⟩
    · have hvs : w ∈ vs := (List.mem_cons.1 hmem).resolve_left fun heq => hw p (heq ▸ hp)
      obtain ⟨pairs, front, u, rest, message, rfl, hfront, hu⟩ := ih hvs
      exact ⟨p :: pairs, v :: front, u, rest, message, rfl, hfront.cons hp, hu⟩
    · exact ⟨[], [], v, vs, message, rfl, .nil, hv⟩

/-! ## Calls -/

theorem apply_format (template : String) (ws : List Value) :
    (format.operation E).apply format.name (.string template :: ws) =
      (filled E template ws).map fun text => .value (.string text) := rfl

theorem format_call (h : List.Forall₂ IsPair pairs ws) (template : String) (s : Session) :
    format.call (.string template :: ws) s E = (.ok (.string (fillAll E template pairs)), s) := by
  refine call_value ?_
  rw [apply_format, filled_of_pairs h]
  rfl

theorem concat_call (v : Value) (s : Session) : concat.call [v] s = (.ok (.string v.text), s) := by
  refine call_value ?_
  change Except.ok (Yield.value (.string (String.join [v.text]))) = _
  rw [String.join_cons, String.join_nil, String.append_empty]

theorem replace_placeholder_call (hE : E.Documented) {key : String} (hkey : E.Fits key)
    (template text : String) (s : Session) :
    replace.call [.string template, .string (placeholder key), .string text] s =
      (.ok (.string (E.fill template key text)), s) := by
  rw [replace_call (placeholder_ne_empty key), hE.fill_eq hkey,
    replace_pieces (placeholder_ne_empty key)]

/-- Calls of `replace` in a row, one for the placeholder of each key, with what `str` gives for the
value, lead from one text to another. -/
inductive Replaces : String → List (String × Value) → String → Prop
  | none {text : String} : Replaces text [] text
  | next {before after result key text : String} {v : Value} {pairs : List (String × Value)} :
    (∀ s, concat.call [v] s = (.ok (.string text), s)) →
    (∀ s, replace.call [.string before, .string (placeholder key), .string text] s =
      (.ok (.string after), s)) →
    Replaces after pairs result → Replaces before ((key, v) :: pairs) result

theorem replaces_fillAll (hE : E.Documented) (hfits : ∀ p ∈ pairs, E.Fits p.1) (template : String) :
    Replaces template pairs (fillAll E template pairs) := by
  induction pairs generalizing template with
  | nil => exact .none
  | cons p pairs ih =>
    obtain ⟨hp, hpairs⟩ := List.forall_mem_cons.1 hfits
    exact .next (concat_call p.2) (replace_placeholder_call hE hp template p.2.text) (ih hpairs _)

/-- **Filling in pairs is replacing one placeholder after another**, with any library of regular
expressions that keeps to what its users are told and takes the expressions for the placeholders:
what `format` returns is what the expressions lead to one after another, and what calls of `replace`
lead to. If some argument is no pair, the first such argument is refused, whatever the others are. -/
theorem format_replaces {E : Expressions} (hE : E.Documented) (template : String)
    (ws : List Value) :
    (∀ pairs, List.Forall₂ IsPair pairs ws → (∀ p ∈ pairs, E.Fits p.1) → ∃ result,
      Replaces template pairs result ∧
      pairs.foldl (fun t p => E.fill t p.1 p.2.text) template = result ∧
      ∀ s, format.call (.string template :: ws) s E = (.ok (.string result), s)) ∧
    ((∃ w ∈ ws, ∀ p, ¬IsPair p w) → ∃ pairs front w rest message e,
      ws = front ++ w :: rest ∧ List.Forall₂ IsPair pairs front ∧ NoPair w message ∧
      e.message = message ∧ ∀ s, format.call (.string template :: ws) s E = (.error e, s)) := by
  constructor
  · intro pairs hpairs hfits
    exact ⟨_, replaces_fillAll hE hfits template, rfl, format_call hpairs template⟩
  · intro hws
    obtain ⟨pairs, front, w, rest, message, rfl, hfront, hw⟩ := exists_first_noPair hws
    obtain ⟨e, he, hmessage⟩ := filled_of_noPair (E := E) hfront hw template rest
    refine ⟨pairs, front, w, rest, message, e, rfl, hfront, hw, hmessage, fun s => ?_⟩
    exact call_error (by rw [apply_format, he]; rfl)

/-- Keys with metacharacters and without characters, a value that is a dotted pair, and an argument
whose head is no string in front of one that is no cell. -/
theorem format_replaces_metacharacters :
    let pairs := [("a.b", .string "$1"), ("", Value.cell 1 (.bool true) (.string "%\x7ba.b\x7d"))]
    let ws := [Value.cell 0 (.string "a.b") (.string "$1"),
      .cell 2 (.string "") (.cell 1 (.bool true) (.string "%\x7ba.b\x7d"))]
    let broken := [Value.cell 0 (.string "a.b") .nil, .cell 0 (.bool true) .nil, .nil]
    Expressions.plain.Documented ∧
    (List.Forall₂ IsPair pairs ws ∧ (∀ p ∈ pairs, Expressions.plain.Fits p.1) ∧
      ∀ s, format.call (.string "%\x7ba.b\x7d %\x7baxb\x7d %\x7b\x7d" :: ws) s =
        (.ok (.string "$1 %\x7baxb\x7d (true . %\x7ba.b\x7d)"), s)) ∧
    (∃ w ∈ broken, ∀ p, ¬IsPair p w) ∧ ∃ e, ∀ s,
      format.call (.string "%\x7ba.b\x7d" :: broken) s = (.error e, s) := by
  intro pairs ws broken
  have hpairs : List.Forall₂ IsPair pairs ws := .cons (.cell 0 _ _) (.cons (.cell 2 _ _) .nil)
  have hfits : ∀ p ∈ pairs, Expressions.plain.Fits p.1 := by decide
  have hbroken : ∃ w ∈ broken, ∀ p, ¬IsPair p w := ⟨.nil, by simp [broken], nofun⟩
  refine ⟨Expressions.plain_documented, ⟨hpairs, hfits, fun s => ?_⟩, hbroken, ?_⟩
  · obtain ⟨result, -, hfold, hcall⟩ :=
      (format_replaces Expressions.plain_documented _ ws).1 pairs hpairs hfits
    have hresult : pairs.foldl (fun t p => Expressions.plain.fill t p.1 p.2.text)
        "%\x7ba.b\x7d %\x7baxb\x7d %\x7b\x7d" = "$1 %\x7baxb\x7d (true . %\x7ba.b\x7d)" := by
      decide +kernel
    rw [hcall, ← hfold, hresult]
  · obtain ⟨-, -, -, -, -, e, -, -, -, -, hcall⟩ :=
      (format_replaces Expressions.plain_documented "%\x7ba.b\x7d" broken).2 hbroken
    exact ⟨e, hcall⟩

end Builtin

end FlatLisp
