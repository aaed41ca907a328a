import FlatLisp.Proofs.Lexing
import FlatLisp.Proofs.Traps

/-!
# Lexing by positions

The lexer on a machine has the text as an array and moves a position through it. It looks ahead
for the digits of an escape, which the end of the text may cut off anywhere; it copies parts of
the text, into words and into the message about a broken escape; it adds up digits in 32 bits
and stores bytes. `Checked.tokenize` is this lexer with every such operation checked.

The position `i` stands for the text from there on: behind `front`, of length `i`, comes `rest`.
Each function at a position is the plain one on `rest`.

* `digitsFrom_eq`: the digits of an escape, with the message if some are missing.
* `escapeAt_eq`, `literalFrom_eq`, `lexemesFrom_eq`: escapes, literals and lexemes.
* `tokenize_eq`: **the lexer by positions never traps and gives what the lexer gives.**
-/

namespace FlatLisp

-- powers are the core ones, whatever else is imported
attribute [local instance (high)] instPowNat

namespace Quoted.Digits

variable {base k : Nat}

/-- Digits with one more behind them. -/
def snoc (ds : Digits base k) (c : Char) (h : (digit? base c).isSome) : Digits base (k + 1) where
  chars := ds.chars ++ [c]
  length_eq := by simp [ds.length_eq]
  isDigit d hd := by
    rcases List.mem_append.1 hd with hd | hd
    · exact ds.isDigit d hd
    · exact List.mem_singleton.1 hd ▸ h

theorem value_snoc (ds : Digits base k) {c : Char} {d : Nat} (h : digit? base c = some d) :
    (ds.snoc c (by simp [h])).value = ds.value * base + d := by
  simp [snoc, value, h, Nat.mul_comm]

theorem digit_lt {d : Nat} {c : Char} (h : digit? base c = some d) : d < base := by
  unfold digit? at h
  simp only [Option.ite_none_right_eq_some, Option.some.injEq] at h
  exact h.2 ▸ h.1

theorem foldl_lt {cs : List Char} (h : ∀ c ∈ cs, (digit? base c).isSome) (n : Nat) :
    cs.foldl (fun n c => base * n + (digit? base c).getD 0) n < (n + 1) * base ^ cs.length := by
  induction cs generalizing n with
  | nil => simp
  | cons c cs ih =>
    obtain ⟨d, hd⟩ := Option.isSome_iff_exists.1 (h c List.mem_cons_self)
    have hnext : base * n + d + 1 ≤ (n + 1) * base := by
      have := digit_lt hd
      rw [Nat.add_mul, Nat.mul_comm n]
      omega
    calc (c :: cs).foldl (fun n c => base * n + (digit? base c).getD 0) n
        = cs.foldl (fun n c => base * n + (digit? base c).getD 0) (base * n + d) := by simp [hd]
      _ < (base * n + d + 1) * base ^ cs.length := ih (fun c hc => h c (List.mem_cons_of_mem _ hc)) _
      _ ≤ (n + 1) * base * base ^ cs.length := Nat.mul_le_mul_right _ hnext
      _ = (n + 1) * base ^ (c :: cs).length := by rw [List.length_cons, Nat.pow_succ', Nat.mul_assoc]

theorem value_lt (ds : Digits base k) : ds.value < base ^ k := by
  have h := foldl_lt ds.isDigit 0
  rwa [ds.length_eq, Nat.zero_add, Nat.one_mul] at h

end Quoted.Digits

namespace Checked

open Quoted

/-! ## The lexer -/

/-- Reads the digits of an escape from position `start + k` on, `k` of which are read with the
value `value` and `left` are to come. If one is missing, the text from the character before
them up to there is copied into the error. -/
def digitsFrom (cs : List Char) (base start : Nat) : Nat → Nat → Nat → Checked Fault Nat
  | 0, _, value => .ok value
  | left + 1, k, value =>
    match (cs[start + k]?).bind (digit? base) with
    | some d => do
      let scaled ← word32 (value * base)
      let value ← word32 (scaled + d)
      digitsFrom cs base start left (k + 1) value
    | none => do
      let first ← minus start 1
      let shown ← slice cs first (min (start + k) cs.length)
      fail (.malformed (String.ofList shown))

/-- Reads the escape whose first character after the backslash is at position `i`: its bytes,
and the number of characters that it takes from there. -/
def escapeAt (cs : List Char) (i : Nat) : Checked Fault (List UInt8 × Nat) := do
  let c ← get cs i
  match letters.lookup c with
  | some meant => .ok (String.utf8EncodeChar meant, 1)
  | none =>
    if c = 'x' then do
      let value ← digitsFrom cs 16 (i + 1) 2 0 0
      let b ← byte value
      .ok ([b], 3)
    else if '0' ≤ c ∧ c ≤ '7' then do
      let value ← digitsFrom cs 8 i 3 0 0
      if value ≤ 255 then do
        let b ← byte value
        .ok ([b], 3)
      else fail (.octalTooLarge value)
    else if c = 'u' ∨ c = 'U' then do
      let width := if c = 'u' then 4 else 8
      let value ← digitsFrom cs 16 (i + 1) width 0 0
      if value.isValidChar then .ok (String.utf8EncodeChar (Char.ofNat value), 1 + width)
      else fail (.notScalar c value)
    else fail (.unknown c)

/-- Reads a literal from position `i` on, after the bytes `bytes` of it: its text, and the
position behind its closing quote. -/
def literalFrom (cs : List Char) (i : Nat) (bytes : ByteArray) : Checked Fault (String × Nat) :=
  if _h : cs.length ≤ i then fail (unterminated bytes)
  else do
    let c ← get cs i
    if c = '"' then (sound (close bytes)).map (·, i + 1)
    else if c = '\n' then fail (unterminated bytes)
    else if c = '\\' then
      if cs.length ≤ i + 1 then fail (unterminated bytes)
      else do
        let d ← get cs (i + 1)
        if d = '\n' then fail (unterminated bytes)
        else do
          let (bs, n) ← escapeAt cs (i + 1)
          literalFrom cs (i + 1 + n) (bytes ++ bs.toByteArray)
    else literalFrom cs (i + 1) (bytes ++ (String.utf8EncodeChar c).toByteArray)
termination_by cs.length - i

/-- The position of the first delimiter from position `i` on, or the end of the text. -/
def wordEnd {ε : Type} (cs : List Char) (i : Nat) : Checked ε Nat :=
  if _h : i < cs.length then do
    let c ← get cs i
    if isDelimiter c then .ok i else wordEnd cs (i + 1)
  else .ok i
termination_by cs.length - i

/-- The word at position `i`, and the position behind it. -/
def wordAt {ε : Type} (cs : List Char) (i : Nat) : Checked ε (Lexeme × Nat) := do
  let j ← wordEnd cs i
  let w ← slice cs i j
  .ok (.word (String.ofList w), j)

/-- What one round of the lexer finds: a lexeme or a separator, the line after it, and the
position behind it. -/
structure Turn where
  lexeme? : Option Lexeme
  line : Nat
  position : Nat

/-- One round of the lexer. -/
def turnAt (cs : List Char) (line i : Nat) : Checked LexError Turn := do
  let c ← get cs i
  if c = '(' then .ok ⟨some .leftParen, line, i + 1⟩
  else if c = ')' then .ok ⟨some .rightParen, line, i + 1⟩
  else if c.isDigit then do
    let (w, j) ← wordAt cs i
    .ok ⟨some w, line, j⟩
  else if c = '"' then do
    let (text, j) ← rename (⟨line, .badString ·⟩) (literalFrom cs (i + 1) .empty)
    .ok ⟨some (.string text), line, j⟩
  else if isSeparator c then .ok ⟨none, if c = '\n' then line + 1 else line, i + 1⟩
  else do
    let (w, j) ← wordAt cs i
    .ok ⟨some w, line, j⟩

/-- The lexemes from position `i` on, which is on the given line. -/
def lexemesFrom (cs : List Char) (line i : Nat) : Checked LexError (List (Nat × Lexeme)) :=
  if _hi : i < cs.length then do
    let turn ← turnAt cs line i
    if _h : i < turn.position then do
      let rest ← lexemesFrom cs turn.line turn.position
      .ok ((turn.lexeme?.map (line, ·)).toList ++ rest)
    else trap .stuck
  else .ok []
termination_by cs.length - i

/-- The tokens of a program text. -/
def tokenize (source : String) : Checked LexError (List Token) := do
  let lexemes ← lexemesFrom source.toList 1 0
  sound (Token.ofLexemes lexemes)

/-! ## Digits -/

theorem length_snoc {α : Type} (front : List α) (x : α) : (front ++ [x]).length = front.length + 1 :=
  List.length_append

/-- The position behind `front` has the first character of the rest. -/
theorem getElem?_behind {α : Type} (front rest : List α) :
    (front ++ rest)[front.length]? = rest.head? := by
  rw [List.getElem?_append_right (Nat.le_refl _), Nat.sub_self, List.head?_eq_getElem?]

/-- The reading of digits, with those of `ds` read and `left` to come. All of them fit into a
word. -/
theorem digitsFrom_behind {base k left : Nat} (hbase : base ^ (k + left) ≤ UInt32.size)
    (front : List Char) (shown : Char) (ds : Digits base k) (more : List Char) :
    digitsFrom (front ++ shown :: (ds.chars ++ more)) base (front.length + 1) left k ds.value =
      sound ((readDigits base (k + left) shown (ds.chars ++ more)).map Prod.fst) := by
  induction left generalizing k more with
  | zero =>
    have hread : readDigits base k shown (ds.chars ++ more) = .ok (ds.value, more) :=
      readDigits_eq_ok_iff.2 ⟨ds, rfl, rfl⟩
    simp only [Nat.add_zero, hread, digitsFrom]
    rfl
  | succ left ih =>
    have hlen : (front ++ shown :: ds.chars).length = front.length + 1 + k := by
      simp [ds.length_eq]; omega
    have hget : (front ++ shown :: (ds.chars ++ more))[front.length + 1 + k]? = more.head? := by
      rw [← hlen, ← getElem?_behind (front ++ shown :: ds.chars) more]
      simp
    rw [digitsFrom, hget]
    cases hd : (more.head?).bind (digit? base) with
    | some d =>
      obtain ⟨c, hc, hdigit⟩ := Option.bind_eq_some_iff.1 hd
      obtain ⟨more, rfl⟩ := List.head?_eq_some_iff.1 hc
      -- the value goes on to be below a power of the base
      have hlt := (ds.snoc c (by simp [hdigit])).value_lt
      rw [ds.value_snoc hdigit] at hlt
      have hpow : base ^ (k + 1) ≤ base ^ (k + (left + 1)) := by
        have := Digits.digit_lt hdigit
        exact Nat.pow_le_pow_right (by omega) (by omega)
      have hword : word32 (ε := Fault) (ds.value * base + d) = .ok (ds.value * base + d) :=
        word32_of_lt (by omega)
      have hscaled : word32 (ε := Fault) (ds.value * base) = .ok (ds.value * base) :=
        word32_of_lt (by omega)
      have hrest := ih (by rwa [Nat.add_assoc, Nat.add_comm 1]) (ds.snoc c (by simp [hdigit])) more
      rw [ds.value_snoc hdigit] at hrest
      have hchars : (ds.snoc c (by simp [hdigit])).chars ++ more = ds.chars ++ c :: more := by
        simp [Digits.snoc]
      rw [hchars] at hrest
      simp only [hscaled, hword, ok_bind, hrest]
      rw [Nat.add_assoc, Nat.add_comm 1]
    | none =>
      rw [readDigits_missing ds hd (by omega)]
      have hlast : min (front.length + 1 + k) (front ++ shown :: (ds.chars ++ more)).length =
          front.length + (shown :: ds.chars).length := by
        simp [ds.length_eq]
        omega
      have hshown := slice_append (ε := Fault) front (shown :: ds.chars) more
      simp only [List.cons_append] at hshown
      simp only [minus_add, ok_bind, hlast, hshown]
      rfl

/-- **The digits of an escape**, behind the character that is shown with them. -/
theorem digitsFrom_eq {base count : Nat} (hbase : base ^ count ≤ UInt32.size) (front : List Char)
    (shown : Char) (rest : List Char) :
    digitsFrom (front ++ shown :: rest) base (front.length + 1) count 0 0 =
      sound ((readDigits base count shown rest).map Prod.fst) := by
  have hbase : base ^ (0 + count) ≤ UInt32.size := by rwa [Nat.zero_add]
  have h := digitsFrom_behind hbase front shown ⟨[], rfl, by simp⟩ rest
  rwa [Nat.zero_add] at h

/-- The text ends in the middle of an escape. -/
example : digitsFrom ['"', '\\', 'x', '4'] 16 3 2 0 0 = fail (.malformed "x4") := rfl

/-! ## Escapes and literals -/

/-- What is read, with the number of characters that it takes from `n` of them. -/
def taking {α : Type} (n : Nat) (p : α × List Char) : α × Nat := (p.1, n - p.2.length)

theorem of_readDigits {base count v : Nat} {shown : Char} {cs rest : List Char}
    (h : readDigits base count shown cs = .ok (v, rest)) :
    v < base ^ count ∧ cs.length = count + rest.length := by
  obtain ⟨ds, rfl, rfl⟩ := readDigits_eq_ok_iff.1 h
  exact ⟨ds.value_lt, by simp [ds.length_eq]⟩

/-- Digits that name a code point take their number of characters behind the letter. -/
theorem scalar_eq {count : Nat} (letter : Char) (rest : List Char) :
    (sound ((readDigits 16 count letter rest).map Prod.fst) >>= fun value =>
        if value.isValidChar then
          .ok (String.utf8EncodeChar (Char.ofNat value), 1 + count)
        else fail (.notScalar letter value)) =
      sound ((readScalar letter count rest).map (taking (rest.length + 1))) := by
  unfold readScalar
  cases h : readDigits 16 count letter rest with
  | error e => rfl
  | ok p =>
    obtain ⟨value, behind⟩ := p
    have hlen := (of_readDigits h).2
    simp only [Except.map, sound_ok, bind, Except.bind]
    split
    · have htaken : rest.length + 1 - behind.length = 1 + count := by omega
      simp [taking, htaken]
    · rfl

/-- Two hexadecimal digits behind their letter are a byte. -/
theorem hexByte_eq (rest : List Char) :
    (sound ((readDigits 16 2 'x' rest).map Prod.fst) >>= fun value =>
        byte value >>= fun b => .ok ([b], 3)) =
      sound ((readDigits 16 2 'x' rest >>= fun (value, behind) =>
        .ok ([UInt8.ofNat value], behind)).map (taking (rest.length + 1))) := by
  cases h : readDigits 16 2 'x' rest with
  | error e => rfl
  | ok p =>
    obtain ⟨value, behind⟩ := p
    obtain ⟨hvalue, hrest⟩ := of_readDigits h
    have htaken : rest.length + 1 - behind.length = 3 := by omega
    have hbyte : byte (ε := Fault) value = .ok (.ofNat value) := byte_of_lt hvalue
    simp [Except.map, hbyte, taking, htaken, bind, Except.bind]

/-- Three octal digits, the first of which is `c`, are a byte if they are not too large. -/
theorem octalByte_eq (c : Char) (rest : List Char) :
    (sound ((readDigits 8 3 '\\' (c :: rest)).map Prod.fst) >>= fun value =>
        if value ≤ 255 then byte value >>= fun b => .ok ([b], 3) else fail (.octalTooLarge value)) =
      sound ((readDigits 8 3 '\\' (c :: rest) >>= fun (value, behind) =>
        if value ≤ 255 then .ok ([UInt8.ofNat value], behind)
        else .error (.octalTooLarge value)).map (taking (rest.length + 1))) := by
  cases h : readDigits 8 3 '\\' (c :: rest) with
  | error e => rfl
  | ok p =>
    obtain ⟨value, behind⟩ := p
    obtain ⟨-, hrest⟩ := of_readDigits h
    have htaken : rest.length + 1 - behind.length = 3 := by
      rw [List.length_cons] at hrest
      omega
    simp only [Except.map, sound_ok, bind, Except.bind]
    split
    · next hvalue =>
      have hbyte : byte (ε := Fault) value = .ok (.ofNat value) :=
        byte_of_lt (Nat.lt_succ_of_le hvalue)
      simp [hbyte, taking, htaken]
    · rfl

/-- **An escape** behind its backslash, and how many characters it takes. -/
theorem escapeAt_eq (front : List Char) (c : Char) (rest : List Char) :
    escapeAt (front ++ '\\' :: c :: rest) (front.length + 1) =
      sound ((readEscape c rest).map (taking (rest.length + 1))) := by
  have hget := get_append (ε := Fault) (front ++ ['\\']) c rest
  rw [← List.append_cons, length_snoc] at hget
  have hbehind : ∀ count, 16 ^ count ≤ UInt32.size →
      digitsFrom (front ++ '\\' :: c :: rest) 16 (front.length + 1 + 1) count 0 0 =
        sound ((readDigits 16 count c rest).map Prod.fst) := by
    intro count hcount
    have hdigits := digitsFrom_eq hcount (front ++ ['\\']) c rest
    rwa [← List.append_cons, length_snoc] at hdigits
  rw [escapeAt, hget, ok_bind, readEscape]
  cases letters.lookup c with
  | some meant => simp [taking, Except.map]
  | none =>
    simp only
    by_cases hx : c = 'x'
    · simp only [hx, if_true] at hbehind ⊢
      rw [hbehind 2 (by decide), hexByte_eq]
    by_cases ho : '0' ≤ c ∧ c ≤ '7'
    · simp only [hx, ho, if_true, if_false, and_self]
      rw [digitsFrom_eq (by decide) front '\\' (c :: rest), octalByte_eq]
    simp only [hx, ho, if_false]
    by_cases hu : c = 'u'
    · subst hu
      simp only [if_true, true_or]
      rw [hbehind 4 (by decide), scalar_eq]
    by_cases hU : c = 'U'
    · subst hU
      simp only [hu, if_true, if_false, or_true]
      rw [hbehind 8 (by decide), scalar_eq]
    simp [hu, hU, Except.map]

/-- A literal that goes on with the character `c`. -/
theorem literalFrom_cons (front : List Char) (bytes : ByteArray) (c : Char) (rest : List Char) :
    literalFrom (front ++ c :: rest) front.length bytes =
      if c = '"' then (sound (close bytes)).map (·, front.length + 1)
      else if c = '\n' then fail (unterminated bytes)
      else if c = '\\' then
        match rest with
        | [] => fail (unterminated bytes)
        | d :: _ =>
          if d = '\n' then fail (unterminated bytes)
          else do
            let (bs, n) ← escapeAt (front ++ c :: rest) (front.length + 1)
            literalFrom (front ++ c :: rest) (front.length + 1 + n) (bytes ++ bs.toByteArray)
      else
        literalFrom (front ++ c :: rest) (front.length + 1)
          (bytes ++ (String.utf8EncodeChar c).toByteArray) := by
  have hin : ¬ (front ++ c :: rest).length ≤ front.length := by simp
  rw [literalFrom, dif_neg hin, get_append, ok_bind]
  congr 3
  cases rest with
  | nil => simp
  | cons d rest =>
    have hnext : ¬ (front ++ c :: d :: rest).length ≤ front.length + 1 := by simp
    have hget := get_append (ε := Fault) (front ++ [c]) d rest
    rw [← List.append_cons, length_snoc] at hget
    rw [if_neg hnext, hget, ok_bind]

/-- **A literal** from behind its opening quote, and the position behind it. -/
theorem literalFrom_eq (front : List Char) (bytes : ByteArray) (rest : List Char) :
    literalFrom (front ++ rest) front.length bytes =
      sound ((decodeFrom bytes rest).map (taking (front ++ rest).length)) := by
  -- along the reader: a literal ends, or it starts with a plain character or an escape
  fun_induction decodeFrom bytes rest generalizing front with
  | case1 bytes =>
    rw [literalFrom, dif_pos (by simp)]
    rfl
  | case2 bytes rest =>
    have hposition : (front ++ '"' :: rest).length - rest.length = front.length + 1 := by
      simp
      omega
    rw [literalFrom_cons, if_pos rfl, ← hposition]
    cases close bytes <;> rfl
  | case3 bytes rest => rw [literalFrom_cons]; rfl
  | case4 bytes => rw [literalFrom_cons]; rfl
  | case5 bytes rest => rw [literalFrom_cons]; rfl
  | case6 bytes c cs hc bs rest hr ih =>
    obtain ⟨p, hp, -⟩ := readEscape_eq_ok_iff.1 hr
    have hlen : p.text.length + rest.length = cs.length + 2 := by
      rw [← List.length_append, hp]
      simp
    have hshort := readEscape_length hr
    have hposition : front.length + 1 + (cs.length + 1 - rest.length) = (front ++ p.text).length := by
      rw [List.length_append]
      omega
    have hrest := ih (front ++ p.text)
    rw [List.append_assoc, hp, ← hposition] at hrest
    rw [literalFrom_cons, if_neg (by decide), if_neg (by decide), if_pos rfl]
    simp only [if_neg hc]
    rw [escapeAt_eq, hr]
    exact hrest
  | case7 bytes c cs hc fault hr =>
    rw [literalFrom_cons, if_neg (by decide), if_neg (by decide), if_pos rfl]
    simp only [if_neg hc]
    rw [escapeAt_eq, hr]
    rfl
  | case8 bytes c cs hq hn hb₁ hb₂ hb₃ ih =>
    have hb : c ≠ '\\' := by
      rintro rfl
      cases cs with
      | nil => exact hb₁ rfl rfl
      | cons c cs => exact hb₃ c cs rfl rfl
    have hrest := ih (front ++ [c])
    rw [← List.append_cons, length_snoc] at hrest
    rw [literalFrom_cons, if_neg hq, if_neg hn, if_neg hb, hrest]

/-! ## Lexemes -/

theorem wordEnd_eq {ε : Type} (front rest : List Char) :
    (wordEnd (front ++ rest) front.length : Checked ε Nat) =
      .ok (front.length + (rest.takeWhile fun c => !isDelimiter c).length) := by
  induction rest generalizing front with
  | nil => rw [wordEnd, dif_neg (by simp)]; rfl
  | cons c rest ih =>
    rw [wordEnd, dif_pos (by simp), get_append, ok_bind]
    cases hc : isDelimiter c with
    | true => simp [hc]
    | false =>
      have hrest := ih (front ++ [c])
      rw [← List.append_cons, length_snoc] at hrest
      simp [hc, hrest]
      omega

/-- **A word** reaches to the next delimiter. -/
theorem wordAt_eq {ε : Type} (front : List Char) {c : Char} (hc : isDelimiter c = false)
    (rest : List Char) :
    (wordAt (front ++ c :: rest) front.length : Checked ε (Lexeme × Nat)) =
      .ok (.word (String.ofList (c :: rest.takeWhile fun c => !isDelimiter c)),
        (front ++ c :: rest).length - (rest.dropWhile fun c => !isDelimiter c).length) := by
  set word := rest.takeWhile fun c => !isDelimiter c with hword
  set behind := rest.dropWhile fun c => !isDelimiter c with hbehind
  have hrest : word ++ behind = rest := List.takeWhile_append_dropWhile
  have htake : (c :: rest).takeWhile (fun c => !isDelimiter c) = c :: word := by simp [hc, hword]
  have hposition : (front ++ c :: rest).length - behind.length = front.length + (c :: word).length := by
    rw [← hrest]
    simp
    omega
  have hslice := slice_append (ε := ε) front (c :: word) behind
  rw [List.cons_append, hrest] at hslice
  rw [wordAt, wordEnd_eq, ok_bind, htake, hslice, hposition]
  rfl

/-- **One round of the lexer** at a separator. -/
theorem turnAt_separator (front : List Char) {c : Char} (hc : isSeparator c = true) (rest : List Char)
    (line : Nat) :
    turnAt (front ++ c :: rest) line front.length =
      .ok ⟨none, line + [c].count '\n', front.length + 1⟩ := by
  rw [turnAt, get_append, ok_bind]
  simp only [isSeparator, Bool.or_eq_true, decide_eq_true_eq] at hc
  rcases hc with ((rfl | rfl) | rfl) | rfl <;> rfl

/-- **One round of the lexer** at a lexeme. -/
theorem turnAt_lexeme (front : List Char) {c : Char} (hc : isSeparator c = false) (rest : List Char)
    (line : Nat) :
    turnAt (front ++ c :: rest) line front.length =
      sound (((Lexeme.next c rest).mapError (⟨line, .badString ·⟩)).map fun p =>
        ⟨some p.1, line, (front ++ c :: rest).length - p.2.length⟩) := by
  rw [turnAt, get_append, ok_bind, Lexeme.next]
  have hposition : (front ++ c :: rest).length - rest.length = front.length + 1 := by
    simp
    omega
  by_cases hl : c = '('
  · simp [hl, Except.mapError, Except.map, ← hposition]
  by_cases hr : c = ')'
  · simp [hr, Except.mapError, Except.map, ← hposition]
  have hword := wordAt_eq (ε := LexError) front (Lexeme.isDelimiter_eq_false hl hr hc) rest
  by_cases hq : c = '"'
  · subst hq
    have hliteral := literalFrom_eq (front ++ ['"']) .empty rest
    rw [← List.append_cons, length_snoc] at hliteral
    have hdigit : ¬ ('"'.isDigit = true) := by decide
    simp only [hl, hr, hdigit, if_true, if_false, hliteral, decode]
    cases decodeFrom .empty rest <;> rfl
  -- a word and a numeral are cut out alike
  simp only [hl, hr, hq, hc, if_false, hword, ok_bind, Bool.false_eq_true, ite_self]
  rfl

/-- **The lexemes of a text**, from a position on. -/
theorem lexemesFrom_eq (front rest : List Char) (line : Nat) :
    lexemesFrom (front ++ rest) line front.length = sound (Lexeme.cut line rest) := by
  induction rest using Lexeme.cut_induction generalizing front line with
  | nil => rw [lexemesFrom, dif_neg (by simp), Lexeme.cut]; rfl
  | separator c rest hc ih =>
    have hrest := ih (front ++ [c]) (line + [c].count '\n')
    rw [← List.append_cons, length_snoc] at hrest
    rw [lexemesFrom, dif_pos (by simp), turnAt_separator front hc, ok_bind, Lexeme.cut_separator hc]
    simp only [Nat.lt_succ_self, dite_true, hrest]
    cases Lexeme.cut (line + [c].count '\n') rest <;> rfl
  | lexeme c rest l behind hc hnext ih =>
    obtain ⟨w, hw, htext, -⟩ := (Lexeme.next_eq_ok_iff hc).1 hnext
    obtain ⟨d, w', rfl, -⟩ := hw.cons
    have hposition : (front ++ c :: rest).length - behind.length = (front ++ d :: w').length := by
      rw [htext]
      simp
      omega
    have hrest := ih (front ++ d :: w') line
    rw [List.append_assoc, ← htext] at hrest
    rw [lexemesFrom, dif_pos (by simp), turnAt_lexeme front hc, hnext, Lexeme.cut_lexeme hc hnext]
    simp only [Except.mapError, Except.map, sound_ok, ok_bind, hposition]
    rw [dif_pos (by simp), hrest]
    cases Lexeme.cut line behind <;> rfl
  | fault c rest e hc hnext =>
    rw [lexemesFrom, dif_pos (by simp), turnAt_lexeme front hc, hnext, Lexeme.cut_fault hc hnext]
    rfl

/-- **The lexer by positions never traps and gives what the lexer gives.** -/
theorem tokenize_eq (source : String) : tokenize source = sound (FlatLisp.tokenize source) := by
  have h := lexemesFrom_eq [] source.toList 1
  rw [List.nil_append, List.length_nil] at h
  rw [tokenize, h, FlatLisp.tokenize]
  cases Lexeme.cut 1 source.toList <;> rfl

end Checked

end FlatLisp
