import FlatLisp.Proofs.Literals
import FlatLisp.Token.Lexer

/-!
# Lexemes and how a text is cut into them

`Lexeme.Spells w l` says which texts `w` spell the lexeme `l`: a parenthesis, a complete
string literal, or a run without delimiters. A run goes on to the next delimiter
(`Boundary`); the others end by themselves.

`scan line cs` are the tokens of the text `cs` whose first line has number `line`.

* `Lexeme.next_eq_ok_iff`: the next lexeme is the one that is spelled there.
* `scan_append`: a text with tokens, and behind a boundary another text, have the tokens of
  the one and then those of the other, on the lines where they stand.
* `scan_add`: the line numbers count from that of the first line.
-/

namespace FlatLisp

/-! ## Runs and boundaries -/

/-- A run of separators, possibly empty. -/
def Gap (w : List Char) : Prop := ∀ c ∈ w, isSeparator c

/-- A run of characters without a delimiter. -/
def Run (w : List Char) : Prop := w ≠ [] ∧ ∀ c ∈ w, isDelimiter c = false

/-- The text ends here, or a delimiter follows. -/
def Boundary (cs : List Char) : Prop := ∀ c ∈ cs.head?, isDelimiter c

theorem isDelimiter_of_isSeparator {c : Char} (h : isSeparator c) : isDelimiter c := by
  simp [isDelimiter, h]

theorem Boundary.nil : Boundary [] := by simp [Boundary]

theorem Boundary.cons {c : Char} (h : isDelimiter c) (cs : List Char) : Boundary (c :: cs) := by
  simp [Boundary, h]

theorem Boundary.append {cs ds : List Char} (hcs : Boundary cs) (hds : Boundary ds) :
    Boundary (cs ++ ds) := by
  cases cs with
  | nil => exact hds
  | cons c cs => exact .cons (hcs c (by simp)) _

theorem Run.count_newline {w : List Char} (h : Run w) : w.count '\n' = 0 :=
  List.count_eq_zero.2 fun hn => absurd (h.2 _ hn) (by decide)

/-- A text splits where a property of its characters ends. -/
theorem span_append {p : Char → Bool} {w rest : List Char} (hw : ∀ c ∈ w, p c = true)
    (hr : ∀ c ∈ rest.head?, p c = false) :
    (w ++ rest).takeWhile p = w ∧ (w ++ rest).dropWhile p = rest := by
  rw [List.takeWhile_append_of_pos hw, List.dropWhile_append_of_pos hw]
  cases rest with
  | nil => simp
  | cons c cs => simp [hr c (by simp)]

/-- What the lexer takes up to a boundary. -/
theorem Boundary.takeWhile {w rest : List Char} (hr : Boundary rest)
    (hw : ∀ c ∈ w, isDelimiter c = false) :
    (w ++ rest).takeWhile (fun c => !isDelimiter c) = w ∧
      (w ++ rest).dropWhile (fun c => !isDelimiter c) = rest :=
  span_append (fun c hc => by simp [hw c hc]) (fun c hc => by simp [hr c hc])

theorem of_map {ε α β : Type} {m : Except ε α} {f : α → β} {b : β} (h : m.map f = .ok b) :
    ∃ a, m = .ok a ∧ f a = b := by
  cases m with
  | error e => exact absurd h (by simp [Except.map])
  | ok a => exact ⟨a, rfl, Except.ok.inj h⟩

namespace Lexeme

/-! ## The next lexeme -/

/-- The text `w` spells the lexeme. -/
inductive Spells : List Char → Lexeme → Prop
  | leftParen : Spells ['('] .leftParen
  | rightParen : Spells [')'] .rightParen
  | string (ps : List Quoted.Piece) (s : String)
    (h : s.toByteArray = (ps.flatMap Quoted.Piece.bytes).toByteArray) :
    Spells ('"' :: ps.flatMap Quoted.Piece.text ++ ['"']) (.string s)
  | word (w : List Char) (h : Run w) (hq : w.head? ≠ some '"') :
    Spells w (.word (String.ofList w))

/-- A lexeme that only a delimiter ends. -/
def IsWord : Lexeme → Prop
  | .word _ => True
  | _ => False

/-- A lexeme has a first character, and it is no separator. -/
theorem Spells.cons {w : List Char} {l : Lexeme} (h : Spells w l) :
    ∃ c cs, w = c :: cs ∧ isSeparator c = false := by
  cases h with
  | leftParen => exact ⟨_, _, rfl, by decide⟩
  | rightParen => exact ⟨_, _, rfl, by decide⟩
  | string ps s _ => exact ⟨_, _, rfl, by decide⟩
  | word _ h _ =>
    obtain ⟨c, cs, rfl⟩ := List.exists_cons_of_ne_nil h.1
    refine ⟨c, cs, rfl, ?_⟩
    by_contra hc
    exact absurd (isDelimiter_of_isSeparator (by simpa using hc)) (by simp [h.2 c])

/-- A lexeme stands on one line. -/
theorem Spells.count_newline {w : List Char} {l : Lexeme} (h : Spells w l) :
    w.count '\n' = 0 := by
  cases h with
  | leftParen => rfl
  | rightParen => rfl
  | string ps s _ =>
    rw [List.count_eq_zero]
    simp [Quoted.Piece.newline_notMem_text]
  | word _ h _ => exact h.count_newline

theorem isDelimiter_eq_false {c : Char} (hl : c ≠ '(') (hr : c ≠ ')') (hs : isSeparator c = false) :
    isDelimiter c = false := by
  simp [isDelimiter, hl, hr, hs]

theorem boundary_dropWhile (cs : List Char) : Boundary (cs.dropWhile fun c => !isDelimiter c) := by
  have h := List.head?_dropWhile_not (fun c => !isDelimiter c) cs
  intro c hc
  rw [Option.mem_def.1 hc] at h
  simpa using h

/-- **The next lexeme is the one that is spelled there**; a word ends at a boundary. -/
theorem next_eq_ok_iff {c : Char} {cs rest : List Char} {l : Lexeme} (hc : isSeparator c = false) :
    next c cs = .ok (l, rest) ↔
      ∃ w, Spells w l ∧ c :: cs = w ++ rest ∧ (l.IsWord → Boundary rest) := by
  unfold next
  constructor
  · intro h
    -- a parenthesis, a literal or a word, told apart by the first character
    split_ifs at h with hl hr hq
    · obtain ⟨rfl, rfl⟩ := Prod.mk.inj (Except.ok.inj h)
      exact ⟨_, .leftParen, by simp [hl], False.elim⟩
    · obtain ⟨rfl, rfl⟩ := Prod.mk.inj (Except.ok.inj h)
      exact ⟨_, .rightParen, by simp [hr], False.elim⟩
    · cases hd : Quoted.decode cs with
      | error e => simp [hd, Except.map] at h
      | ok p =>
        obtain ⟨s, r⟩ := p
        obtain ⟨ps, hcs, hs⟩ := Quoted.decode_eq_ok_iff.1 hd
        simp only [hd, Except.map, Except.ok.injEq, Prod.mk.injEq] at h
        obtain ⟨rfl, rfl⟩ := h
        exact ⟨_, .string ps s hs, by simp [hcs, hq], False.elim⟩
    · obtain ⟨rfl, rfl⟩ := Prod.mk.inj (Except.ok.inj h)
      refine ⟨_, .word _ ⟨by simp, ?_⟩ (by simpa using hq), by simp, fun _ => boundary_dropWhile cs⟩
      intro d hd
      rcases List.mem_cons.1 hd with rfl | hd
      · exact isDelimiter_eq_false hl hr hc
      · simpa using List.mem_takeWhile_imp hd
  · rintro ⟨w, hw, hcs, hb⟩
    cases hw with
    | leftParen =>
      obtain ⟨rfl, rfl⟩ := List.cons.inj hcs
      rfl
    | rightParen =>
      obtain ⟨rfl, rfl⟩ := List.cons.inj hcs
      rfl
    | string ps s hs =>
      obtain ⟨rfl, rfl⟩ : c = '"' ∧ cs = ps.flatMap Quoted.Piece.text ++ '"' :: rest := by
        simpa using hcs
      have hd : Quoted.decode (ps.flatMap Quoted.Piece.text ++ '"' :: rest) = .ok (s, rest) :=
        Quoted.decode_eq_ok_iff.2 ⟨ps, rfl, hs⟩
      simp [hd, Except.map]
    | word w hw hq =>
      obtain ⟨d, w, rfl⟩ := List.exists_cons_of_ne_nil hw.1
      obtain ⟨rfl, rfl⟩ : c = d ∧ cs = w ++ rest := by simpa using hcs
      have hd := hw.2 c (by simp)
      have hl : c ≠ '(' := by rintro rfl; exact absurd hd (by decide)
      have hr : c ≠ ')' := by rintro rfl; exact absurd hd (by decide)
      have hq : c ≠ '"' := by simpa using hq
      obtain ⟨htake, hdrop⟩ := (hb trivial).takeWhile fun d hd => hw.2 d (List.mem_cons_of_mem c hd)
      simp only [hl, hr, hq, if_false, htake, hdrop]

/-- A lexeme that is read stays the same when more text follows, if that keeps it apart. -/
theorem next_append {c : Char} {cs rest tail : List Char} {l : Lexeme} (hc : isSeparator c = false)
    (h : next c cs = .ok (l, rest)) (ht : Boundary tail) :
    next c (cs ++ tail) = .ok (l, rest ++ tail) := by
  obtain ⟨w, hw, hcs, hb⟩ := (next_eq_ok_iff hc).1 h
  refine (next_eq_ok_iff hc).2 ⟨w, hw, ?_, fun hl => (hb hl).append ht⟩
  rw [← List.append_assoc, ← hcs, List.cons_append]

/-- A lexeme that is read takes no line end with it. -/
theorem count_newline_of_next {c : Char} {cs rest : List Char} {l : Lexeme}
    (hc : isSeparator c = false) (h : next c cs = .ok (l, rest)) :
    (c :: cs).count '\n' = rest.count '\n' := by
  obtain ⟨w, hw, hcs, -⟩ := (next_eq_ok_iff hc).1 h
  rw [hcs, List.count_append, hw.count_newline, Nat.zero_add]

/-! ## All lexemes -/

theorem cut_separator {line : Nat} {c : Char} {cs : List Char} (hc : isSeparator c = true) :
    cut line (c :: cs) = cut (line + [c].count '\n') cs := by
  rw [cut, if_pos hc]
  by_cases hn : c = '\n' <;> simp [hn]

theorem cut_lexeme {line : Nat} {c : Char} {cs rest : List Char} {l : Lexeme}
    (hc : isSeparator c = false) (h : next c cs = .ok (l, rest)) :
    cut line (c :: cs) = (cut line rest).map ((line, l) :: ·) := by
  rw [cut, if_neg (by simp [hc])]
  split
  · next h' =>
    obtain ⟨rfl, rfl⟩ := Prod.mk.inj (Except.ok.inj (h.symm.trans h'))
    rfl
  · next h' => exact absurd (h.symm.trans h') (by simp)

theorem cut_fault {line : Nat} {c : Char} {cs : List Char} {fault : Quoted.Fault}
    (hc : isSeparator c = false) (h : next c cs = .error fault) :
    cut line (c :: cs) = .error ⟨line, .badString fault⟩ := by
  rw [cut, if_neg (by simp [hc])]
  split
  · next h' => exact absurd (h.symm.trans h') (by simp)
  · next h' =>
    obtain rfl := Except.error.inj (h.symm.trans h')
    rfl

/-- Induction along a text: it ends, a separator comes first, or a lexeme does, or what comes
first is none. -/
@[elab_as_elim]
theorem cut_induction {motive : List Char → Prop} (nil : motive [])
    (separator : ∀ c cs, isSeparator c = true → motive cs → motive (c :: cs))
    (lexeme : ∀ c cs l rest, isSeparator c = false → next c cs = .ok (l, rest) → motive rest →
      motive (c :: cs))
    (fault : ∀ c cs e, isSeparator c = false → next c cs = .error e → motive (c :: cs))
    (cs : List Char) : motive cs := by
  induction hn : cs.length using Nat.strong_induction_on generalizing cs with
  | _ n ih =>
    subst hn
    cases cs with
    | nil => exact nil
    | cons c cs =>
      by_cases hc : isSeparator c = true
      · exact separator c cs hc (ih cs.length (by simp) cs rfl)
      · have hc : isSeparator c = false := by simpa using hc
        cases hnext : next c cs with
        | error e => exact fault c cs e hc hnext
        | ok p =>
          have hlen : p.2.length < (c :: cs).length := Nat.lt_succ_of_le (next_length hnext)
          exact lexeme c cs p.1 p.2 hc hnext (ih _ hlen p.2 rfl)

/-- **The lexemes of a text in two parts.** -/
theorem cut_append {line : Nat} {cs tail : List Char} {ls : List (Nat × Lexeme)}
    (h : cut line cs = .ok ls) (ht : Boundary tail) :
    cut line (cs ++ tail) = (cut (line + cs.count '\n') tail).map (ls ++ ·) := by
  induction cs using cut_induction generalizing line ls with
  | nil =>
    rw [cut] at h
    obtain rfl := Except.ok.inj h
    cases htail : cut line tail <;> simp [htail, Except.map]
  | separator c cs hc ih =>
    rw [cut_separator hc] at h
    rw [List.cons_append, cut_separator hc, ih h, Nat.add_assoc, ← List.count_append,
      List.singleton_append]
  | lexeme c cs l rest hc hnext ih =>
    rw [cut_lexeme hc hnext] at h
    obtain ⟨ls, hls, rfl⟩ := of_map h
    rw [List.cons_append, cut_lexeme hc (next_append hc hnext ht), ih hls,
      count_newline_of_next hc hnext]
    cases cut (line + rest.count '\n') tail <;> rfl
  | fault c cs e hc hnext =>
    rw [cut_fault hc hnext] at h
    exact absurd h (by simp)

end Lexeme

/-! ## Lines -/

/-- The same token `k` lines further down. -/
def Token.shift (k : Nat) (t : Token) : Token := { t with line := t.line + k }

/-- The same error `k` lines further down. -/
def LexError.shift (k : Nat) (e : LexError) : LexError := { e with line := e.line + k }

theorem Lexeme.cut_add (line k : Nat) (cs : List Char) :
    cut (line + k) cs =
      ((cut line cs).map (List.map fun p => (p.1 + k, p.2))).mapError (LexError.shift k) := by
  induction cs using cut_induction generalizing line with
  | nil => rw [cut, cut]; rfl
  | separator c cs hc ih => rw [cut_separator hc, cut_separator hc, Nat.add_right_comm, ih]
  | lexeme c cs l rest hc hnext ih =>
    rw [cut_lexeme hc hnext, cut_lexeme hc hnext, ih]
    cases cut line rest <;> rfl
  | fault c cs e hc hnext => rw [cut_fault hc hnext, cut_fault hc hnext]; rfl

namespace Token

theorem ofLexeme_add (line k : Nat) (l : Lexeme) :
    ofLexeme (line + k) l = ((ofLexeme line l).map (shift k)).mapError (LexError.shift k) := by
  cases l with
  | word w => simp only [ofLexeme]; cases ofWord w <;> rfl
  | _ => rfl

theorem ofLexemes_add (k : Nat) (ls : List (Nat × Lexeme)) :
    ofLexemes (ls.map fun p => (p.1 + k, p.2)) =
      ((ofLexemes ls).map (List.map (shift k))).mapError (LexError.shift k) := by
  induction ls with
  | nil => rfl
  | cons p ls ih =>
    simp only [List.map_cons, ofLexemes, ofLexeme_add p.1 k p.2]
    cases ofLexeme p.1 p.2 with
    | error e => rfl
    | ok t =>
      simp only [Except.map, Except.mapError, ih]
      cases ofLexemes ls <;> rfl

theorem ofLexemes_append {ls ms : List (Nat × Lexeme)} {ts : List Token} (h : ofLexemes ls = .ok ts) :
    ofLexemes (ls ++ ms) = (ofLexemes ms).map (ts ++ ·) := by
  induction ls generalizing ts with
  | nil =>
    obtain rfl := Except.ok.inj h
    cases hms : ofLexemes ms <;> simp [hms, Except.map]
  | cons p ls ih =>
    simp only [List.cons_append, ofLexemes] at h ⊢
    cases ht : ofLexeme p.1 p.2 with
    | error e => simp [ht] at h
    | ok t =>
      simp only [ht] at h ⊢
      obtain ⟨us, hus, rfl⟩ := of_map h
      rw [ih hus]
      cases ofLexemes ms <;> rfl

end Token

/-! ## The tokens of a text -/

/-- The tokens of a text that starts on the given line. -/
def scan (line : Nat) (cs : List Char) : Except LexError (List Token) :=
  match Lexeme.cut line cs with
  | .ok ls => Token.ofLexemes ls
  | .error e => .error e

theorem tokenize_eq_scan (source : String) : tokenize source = scan 1 source.toList := rfl

theorem scan_eq_ok_iff {line : Nat} {cs : List Char} {ts : List Token} :
    scan line cs = .ok ts ↔ ∃ ls, Lexeme.cut line cs = .ok ls ∧ Token.ofLexemes ls = .ok ts := by
  unfold scan
  cases Lexeme.cut line cs <;> simp

@[simp]
theorem scan_nil (line : Nat) : scan line [] = .ok [] := by simp [scan, Lexeme.cut, Token.ofLexemes]

theorem scan_separator {line : Nat} {c : Char} {cs : List Char} (hc : isSeparator c = true) :
    scan line (c :: cs) = scan (line + [c].count '\n') cs := by
  rw [scan, Lexeme.cut_separator hc, scan]

theorem scan_lexeme {line : Nat} {c : Char} {cs rest : List Char} {l : Lexeme} {t : Token}
    (hc : isSeparator c = false) (h : Lexeme.next c cs = .ok (l, rest))
    (ht : Token.ofLexeme line l = .ok t) :
    scan line (c :: cs) = (scan line rest).map (t :: ·) := by
  rw [scan, Lexeme.cut_lexeme hc h, scan]
  cases Lexeme.cut line rest with
  | error e => rfl
  | ok ls => simp [Except.map, Token.ofLexemes, ht]

theorem scan_fault {line : Nat} {c : Char} {cs rest : List Char} {l : Lexeme} {e : LexError}
    (hc : isSeparator c = false) (h : Lexeme.next c cs = .ok (l, rest))
    (he : Token.ofLexeme line l = .error e) : ∀ ts, scan line (c :: cs) ≠ .ok ts := by
  intro ts hts
  obtain ⟨ls, hls, hts⟩ := scan_eq_ok_iff.1 hts
  rw [Lexeme.cut_lexeme hc h] at hls
  obtain ⟨ms, -, rfl⟩ := of_map hls
  simp [Token.ofLexemes, he] at hts

/-- **A text in two parts**: behind a boundary the second part keeps its tokens and faults,
on the lines where it stands. -/
theorem scan_append {line : Nat} {cs tail : List Char} {ts : List Token}
    (h : scan line cs = .ok ts) (ht : Boundary tail) :
    scan line (cs ++ tail) = (scan (line + cs.count '\n') tail).map (ts ++ ·) := by
  obtain ⟨ls, hls, hts⟩ := scan_eq_ok_iff.1 h
  rw [scan, Lexeme.cut_append hls ht, scan]
  cases Lexeme.cut (line + cs.count '\n') tail with
  | error e => rfl
  | ok ms => exact Token.ofLexemes_append hts

/-- **Lines count from the first line.** -/
theorem scan_add (line k : Nat) (cs : List Char) :
    scan (line + k) cs =
      ((scan line cs).map (List.map (Token.shift k))).mapError (LexError.shift k) := by
  rw [scan, Lexeme.cut_add, scan]
  cases Lexeme.cut line cs with
  | error e => rfl
  | ok ls => exact Token.ofLexemes_add k ls

end FlatLisp
