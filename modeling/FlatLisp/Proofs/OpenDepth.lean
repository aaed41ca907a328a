import FlatLisp.Proofs.Buffers

/-!
# The depth of a text

The count of parentheses by characters is the one by tokens for every text whose symbols close
their quotes (`Settled`): inside string literals, whatever their escapes, the scanner and the
lexer stay in step. Only a symbol can bring them apart, since to the lexer a quote inside a word
is a part of it, and to the scanner it starts a string.

* `closes_iff_even`: which symbols do no harm.
* `openDepth_counts`: **the depth of a text is what its tokens open more than they close**, so a
  complete program is evaluated at once. A symbol that does not close its quotes is enough to
  make it wrong.
-/

namespace FlatLisp

open Repl

/-! ## Symbols with quotes -/

section Symbols

variable {n : String}

/-- Without backslashes and line ends, quotes start and end strings by turns. -/
theorem scanText_turns {w : List Char} (hw : ∀ c ∈ w, c ≠ '\\' ∧ c ≠ '\n') (d : Int) :
    ((scanText d .code w).2 = .code ↔ Even (w.count '"')) ∧
      ((scanText d .string w).2 = .code ↔ ¬ Even (w.count '"')) := by
  induction w generalizing d with
  | nil => simp [scanText]
  | cons c w ih =>
    have ih := ih fun c hc => hw c (List.mem_cons_of_mem _ hc)
    have hcons : ∀ mode, scanText d mode (c :: w) =
        scanText (Repl.scan (d, mode) c).1 (Repl.scan (d, mode) c).2 w := fun _ => rfl
    by_cases hc : c = '"'
    · -- the other mode, and another parity
      subst hc
      have hcode : Repl.scan (d, .code) '"' = (d, .string) := rfl
      have hstring : Repl.scan (d, .string) '"' = (d, .code) := rfl
      rw [hcons, hcons, hcode, hstring, List.count_cons_self, Nat.even_add_one, not_not]
      exact ⟨(ih d).2, (ih d).1⟩
    · obtain ⟨hb, hl⟩ := hw c List.mem_cons_self
      have hcode : (Repl.scan (d, .code) c).2 = .code := by simp only [Repl.scan, if_neg hc]; split_ifs <;> rfl
      have hstring : Repl.scan (d, .string) c = (d, .string) := by simp [Repl.scan, hc, hb, hl]
      rw [hcons, hcons, hcode, hstring, List.count_cons_of_ne hc]
      exact ⟨(ih _).1, (ih d).2⟩

/-- A symbol without a backslash closes its quotes if they are even in number. -/
theorem closes_iff_even (hn : IsName n) (hb : '\\' ∉ n.toList) :
    Closes n ↔ Even (n.toList.count '"') := by
  refine (scanText_turns (fun c hc => ⟨fun h => hb (h ▸ hc), ?_⟩) 0).1
  rintro rfl
  exact absurd (hn.not_delimiter _ hc) (by decide)

/-- The application of a name to nothing. -/
def enclosed (n : String) : String := "(" ++ n ++ ")"

theorem readForms_enclosed (hn : IsName n) : readForms (enclosed n) = .ok [.apply [.symbol n]] := by
  have htext : (enclosed n).toList = '(' :: n.toList ++ [')'] := by simp [enclosed]
  rw [readForms_iff_writes, htext]
  refine ⟨⟨⟨trivial, trivial⟩, trivial⟩, ?_⟩
  simpa [Form.flatAll, Form.flat] using (Writes.spelled hn.spelled).opened.closed

/-- Behind a symbol that does not close its quotes the parenthesis is not seen. -/
theorem openDepth_enclosed (hn : IsName n) (hc : ¬ Closes n) : openDepth (enclosed n) = 1 := by
  have hopen : scanText 0 .code ['('] = (1, .code) := rfl
  have hname : scanText 1 .code n.toList = (1, (scanText 0 .code n.toList).2) :=
    scanText_level hn.run.not_paren 1 .code
  have htext : (enclosed n).toList = ['('] ++ (n.toList ++ [')']) := by simp [enclosed]
  rw [openDepth_eq, htext, scanText_append hopen, scanText_append hname]
  cases hmode : (scanText 0 .code n.toList).2 with
  | code => exact absurd hmode hc
  | string => rfl
  | escape => rfl

/-- The session waits for more, and drops the text at the end of the input. -/
theorem buffersFrom_enclosed (hn : IsName n) (hc : ¬ Closes n) : buffersFrom "" [enclosed n] = [] := by
  have hparen : isBlankChar '(' = false := by decide
  have hblank : ¬ isBlank (enclosed n) = true := by simp [isBlank, enclosed, hparen]
  have hgathered : gathered "" (enclosed n) = enclosed n := rfl
  rw [buffersFrom_cons, if_neg hblank, hgathered, openDepth_enclosed hn hc]
  rfl

end Symbols

/-! ## Texts -/

/-- **The depth of a text is what its tokens open more than they close**, if its symbols close
their quotes. Then the depth of a program is zero, and a line that completes one is not waited
behind. A symbol without a backslash closes its quotes if they are even in number. One that does
not close them makes a program with the wrong depth, which is never evaluated. -/
theorem openDepth_counts {source : String} {ts : List Token} (h : tokenize source = .ok ts) :
    (Settled (ts.map Token.kind) →
        openDepth source =
            (ts.map Token.kind).count .leftParen - (ts.map Token.kind).count .rightParen ∧
          ∀ fs, parse ts = .ok fs → openDepth source = 0 ∧
            ∀ pending line lines, gathered pending line = source → ¬ isBlank line = true →
              buffersFrom pending (line :: lines) = source :: buffersFrom "" lines) ∧
      ∀ n, .symbol n ∈ ts.map Token.kind →
        ('\\' ∉ n.toList → (Closes n ↔ Even (n.toList.count '"'))) ∧
          (¬ Closes n → readForms (enclosed n) = .ok [.apply [.symbol n]] ∧
            openDepth (enclosed n) = 1 ∧ buffersFrom "" [enclosed n] = []) := by
  refine ⟨fun hq => ?_, fun n hmem => ?_⟩
  · have hcount := openDepth_of_tokenize h hq
    refine ⟨hcount.trans (depthOf_eq_count _), fun fs hfs => ?_⟩
    have hzero : openDepth source = 0 := by
      rw [hcount, flatAll_of_parse hfs]
      exact (Form.balanced_flatAll fs).total
    refine ⟨hzero, fun pending line lines hsource hline => ?_⟩
    rw [buffersFrom_cons, if_neg hline, hsource, if_pos (by omega)]
  · have hn : IsName n := plain_of_tokenize h _ hmem
    exact ⟨closes_iff_even hn, fun hc =>
      ⟨readForms_enclosed hn, openDepth_enclosed hn hc, buffersFrom_enclosed hn hc⟩⟩

/-- A symbol with two quotes, and one with one. -/
theorem openDepth_counts_quotes :
    (∃ ts, tokenize "(a\"b\")" = .ok ts ∧ Settled (ts.map Token.kind) ∧ openDepth "(a\"b\")" = 0) ∧
      ∃ ts, tokenize "a\"" = .ok ts ∧ .symbol "a\"" ∈ ts.map Token.kind ∧ ¬ Closes "a\"" ∧
        buffersFrom "" [enclosed "a\""] = [] := by
  constructor
  · have hcut : Lexeme.cut 1 "(a\"b\")".toList =
        .ok [(1, .leftParen), (1, .word "a\"b\""), (1, .rightParen)] := by cbv
    have hts : tokenize "(a\"b\")" =
        .ok [⟨.leftParen, "(", 1⟩, ⟨.symbol "a\"b\"", "a\"b\"", 1⟩, ⟨.rightParen, ")", 1⟩] := by
      rw [tokenize, hcut]
      rfl
    have hsettled : Settled [.leftParen, .symbol "a\"b\"", .rightParen] := by
      intro n hn
      obtain rfl : n = "a\"b\"" := by simpa using hn
      decide
    exact ⟨_, hts, hsettled, ((openDepth_counts hts).1 hsettled).1⟩
  · have hcut : Lexeme.cut 1 "a\"".toList = .ok [(1, .word "a\"")] := by cbv
    have hts : tokenize "a\"" = .ok [⟨.symbol "a\"", "a\"", 1⟩] := by
      rw [tokenize, hcut]
      rfl
    have hmem : .symbol "a\"" ∈ [Token.mk (.symbol "a\"") "a\"" 1].map Token.kind := by simp
    obtain ⟨heven, hmisled⟩ := (openDepth_counts hts).2 _ hmem
    have hc : ¬ Closes "a\"" := fun h => absurd ((heven (by decide)).1 h) (by decide)
    exact ⟨_, hts, hmem, hc, (hmisled hc).2.2⟩

/-- **A quote in a symbol misleads the scanner.** The text is a program, and the depth is one. -/
theorem openDepth_misled : ∃ ts fs, tokenize "(a\" b)" = .ok ts ∧ parse ts = .ok fs ∧
    (ts.map Token.kind).count .leftParen = 1 ∧ (ts.map Token.kind).count .rightParen = 1 ∧
    openDepth "(a\" b)" = 1 := by
  have hcut : Lexeme.cut 1 "(a\" b)".toList =
      .ok [(1, .leftParen), (1, .word "a\""), (1, .word "b"), (1, .rightParen)] := by cbv
  have hts : tokenize "(a\" b)" = .ok [⟨.leftParen, "(", 1⟩, ⟨.symbol "a\"", "a\"", 1⟩,
      ⟨.symbol "b", "b", 1⟩, ⟨.rightParen, ")", 1⟩] := by
    rw [tokenize, hcut]
    rfl
  exact ⟨_, [.apply [.symbol "a\"", .symbol "b"]], hts, by rfl, by decide, by decide, by decide⟩

end FlatLisp
