import FlatLisp.Text.Utf8

/-!
# Quoted strings

A string literal stands between double quotes on one line. Inside, a backslash starts an
escape: a letter for a control character, a backslash or a quote (`letters`), `\xHH` and
three octal digits for a byte, `\uXXXX` and `\UXXXXXXXX` for a code point. The bytes of a
literal must be UTF-8 as a whole, so that two byte escapes may form one character.

`Quoted.decode` reads a literal after its opening quote; `Quoted.encode` writes the inside
of one. Faults say what is quoted in their message.
-/

namespace FlatLisp

namespace Quoted

/-- The escape letters and the characters that they stand for. -/
def letters : List (Char × Char) :=
  [('a', '\x07'), ('b', '\x08'), ('f', '\x0c'), ('n', '\n'), ('r', '\x0d'), ('t', '\t'),
   ('v', '\x0b'), ('\\', '\\'), ('"', '"')]

/-- Why a literal cannot be read. -/
inductive Fault where
  /-- The line ends first. Carries the text up to there. -/
  | unterminated (text : String)
  /-- A digit is missing. Carries the escape up to there, without its backslash. -/
  | malformed (escape : String)
  | octalTooLarge (value : Nat)
  /-- The digits after `\u` or `\U` name no Unicode scalar value. -/
  | notScalar (letter : Char) (value : Nat)
  | unknown (c : Char)
  | notUtf8
deriving DecidableEq

/-- Lower-case hexadecimal digits, without leading zeros. -/
def hex (n : Nat) : String := String.ofList (Nat.toDigits 16 n)

def Fault.message : Fault → String
  | .unterminated text => "unterminated string \"" ++ text
  | .malformed escape => "malformed escape sequence: \\" ++ escape
  | .octalTooLarge value => "octal escape value " ++ toString value ++ " > 255"
  | .notScalar letter value =>
    "escape \\" ++ letter.toString ++ hex value ++ " is not a valid code point"
  | .unknown c => "invalid escape sequence: \\" ++ c.toString
  | .notUtf8 => "string literal is not valid UTF-8"

/-! ## Reading -/

/-- The value of a digit in a base up to sixteen. -/
def digit? (base : Nat) (c : Char) : Option Nat :=
  let value :=
    if '0' ≤ c ∧ c ≤ '9' then c.toNat - '0'.toNat
    else if 'a' ≤ c ∧ c ≤ 'f' then c.toNat - 'a'.toNat + 10
    else if 'A' ≤ c ∧ c ≤ 'F' then c.toNat - 'A'.toNat + 10
    else base
  if value < base then some value else none

/-- Reads exactly `count` digits. Fails with the digits that are there, behind `shown`. -/
def readDigits (base count : Nat) (shown : Char) (cs : List Char) :
    Except Fault (Nat × List Char) :=
  let found := (cs.take count).takeWhile fun c => (digit? base c).isSome
  if found.length = count then
    .ok (found.foldl (fun n c => base * n + (digit? base c).getD 0) 0, cs.drop count)
  else .error (.malformed (String.ofList (shown :: found)))

/-- Reads a code point of `count` hexadecimal digits as the bytes of its character. -/
def readScalar (letter : Char) (count : Nat) (cs : List Char) :
    Except Fault (List UInt8 × List Char) := do
  let (value, rest) ← readDigits 16 count letter cs
  if value.isValidChar then .ok (String.utf8EncodeChar (Char.ofNat value), rest)
  else .error (.notScalar letter value)

/-- Reads the escape whose first character after the backslash is `c`: its bytes, and the
text after it. -/
def readEscape (c : Char) (cs : List Char) : Except Fault (List UInt8 × List Char) :=
  match letters.lookup c with
  | some meant => .ok (String.utf8EncodeChar meant, cs)
  | none =>
    if c = 'x' then do
      let (value, rest) ← readDigits 16 2 'x' cs
      .ok ([UInt8.ofNat value], rest)
    else if '0' ≤ c ∧ c ≤ '7' then do
      let (value, rest) ← readDigits 8 3 '\\' (c :: cs)
      if value ≤ 255 then .ok ([UInt8.ofNat value], rest) else .error (.octalTooLarge value)
    else if c = 'u' then readScalar 'u' 4 cs
    else if c = 'U' then readScalar 'U' 8 cs
    else .error (.unknown c)

theorem readDigits_length {base count : Nat} {shown : Char} {cs r : List Char} {v : Nat}
    (h : readDigits base count shown cs = .ok (v, r)) : r.length = cs.length - count := by
  unfold readDigits at h
  simp only at h
  split at h
  · simp only [Except.ok.injEq, Prod.mk.injEq] at h
    rw [← h.2, List.length_drop]
  · simp at h

theorem readScalar_length {letter : Char} {count : Nat} {cs r : List Char} {bs : List UInt8}
    (h : readScalar letter count cs = .ok (bs, r)) : r.length ≤ cs.length := by
  unfold readScalar at h
  cases hd : readDigits 16 count letter cs with
  | error e => rw [hd] at h; simp [bind, Except.bind] at h
  | ok p =>
    have := readDigits_length (v := p.1) (r := p.2) hd
    rw [hd] at h
    simp only [bind, Except.bind] at h
    split at h
    · simp only [Except.ok.injEq, Prod.mk.injEq] at h
      rw [← h.2]; omega
    · simp at h

/-- An escape takes nothing back: what follows it is not longer than before. -/
theorem readEscape_length {c : Char} {cs r : List Char} {bs : List UInt8}
    (h : readEscape c cs = .ok (bs, r)) : r.length ≤ cs.length := by
  unfold readEscape at h
  split at h
  · simp only [Except.ok.injEq, Prod.mk.injEq] at h
    exact h.2 ▸ Nat.le_refl _
  · split at h
    · cases hd : readDigits 16 2 'x' cs with
      | error e => rw [hd] at h; simp [bind, Except.bind] at h
      | ok p =>
        have := readDigits_length (v := p.1) (r := p.2) hd
        rw [hd] at h
        simp only [bind, Except.bind, Except.ok.injEq, Prod.mk.injEq] at h
        rw [← h.2]; omega
    · split at h
      · cases hd : readDigits 8 3 '\\' (c :: cs) with
        | error e => rw [hd] at h; simp [bind, Except.bind] at h
        | ok p =>
          have := readDigits_length (v := p.1) (r := p.2) hd
          rw [hd] at h
          simp only [bind, Except.bind] at h
          split at h
          · simp only [Except.ok.injEq, Prod.mk.injEq] at h
            rw [← h.2]; simp only [List.length_cons] at this; omega
          · simp at h
      · split at h
        · exact readScalar_length h
        · split at h
          · exact readScalar_length h
          · simp at h

/-- The text of the bytes read so far, if they are UTF-8. -/
def close (bytes : ByteArray) : Except Fault String :=
  match String.fromUTF8? bytes with
  | some s => .ok s
  | none => .error .notUtf8

/-- The fault of a literal that ends with its line. -/
def unterminated (bytes : ByteArray) : Fault :=
  .unterminated (String.ofList (Utf8.lossy bytes.toList))

/-- Reads a literal from behind its opening quote, after the bytes `bytes` of it: its text,
and what follows its closing quote. -/
def decodeFrom (bytes : ByteArray) : List Char → Except Fault (String × List Char)
  | [] => .error (unterminated bytes)
  | '"' :: rest => (close bytes).map (·, rest)
  | '\n' :: _ => .error (unterminated bytes)
  | '\\' :: [] => .error (unterminated bytes)
  | '\\' :: '\n' :: _ => .error (unterminated bytes)
  | '\\' :: c :: cs =>
    match _h : readEscape c cs with
    | .ok (bs, rest) => decodeFrom (bytes ++ bs.toByteArray) rest
    | .error fault => .error fault
  | c :: cs => decodeFrom (bytes ++ (String.utf8EncodeChar c).toByteArray) cs
termination_by cs => cs.length
decreasing_by
  · have := readEscape_length _h
    simp only [List.length_cons]; omega
  · simp

/-- Reads a literal from behind its opening quote. -/
def decode (cs : List Char) : Except Fault (String × List Char) := decodeFrom .empty cs

/-- What follows a literal is shorter than what followed its opening quote. -/
theorem decodeFrom_length {bytes : ByteArray} {cs r : List Char} {s : String}
    (h : decodeFrom bytes cs = .ok (s, r)) : r.length < cs.length := by
  fun_induction decodeFrom bytes cs with
  | case2 bytes r =>
    cases hc : close bytes with
    | error e => simp [hc, Except.map] at h
    | ok t =>
      simp only [hc, Except.map, Except.ok.injEq, Prod.mk.injEq] at h
      rw [← h.2]; simp
  | case6 bytes c cs _ bs r hr ih =>
    have := readEscape_length hr
    have := ih h
    simp only [List.length_cons]; omega
  | case8 bytes c cs _ _ _ _ _ ih => have := ih h; simp only [List.length_cons]; omega
  | _ => simp at h

/-! ## Writing -/

/-- A character as it stands inside a literal: an escape letter where there is one, two
hexadecimal digits for the other ASCII control characters, itself otherwise. -/
def encodeChar (c : Char) : List Char :=
  match letters.find? (·.2 = c) with
  | some (letter, _) => ['\\', letter]
  | none =>
    if c.toNat < 0x20 ∨ c.toNat = 0x7F then
      ['\\', 'x', Nat.digitChar (c.toNat / 16), Nat.digitChar (c.toNat % 16)]
    else [c]

/-- The inside of a literal for a text. -/
def encode (s : String) : String := String.ofList (s.toList.flatMap encodeChar)

end Quoted

end FlatLisp
