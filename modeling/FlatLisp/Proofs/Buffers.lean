import FlatLisp.Proofs.Concatenation
import FlatLisp.Proofs.Depth

/-!
# The buffers of a program text

The interactive session reads a program line by line. No lexeme reaches over the end of a line
(`Apart`), so the lines of a readable text have its tokens in a row. Lines are gathered as long
as a form is open; when none is, the lines so far have whole forms, and the session starts anew.
Blank lines do no harm between forms.

* `writes_split`: a text cut where no lexeme reaches over.
* `exists_line`: the first line of an input.
* `buffersFrom_lines`: **the buffers of a readable text are readable and have its forms**, and
  none is left open at its end.
-/

namespace FlatLisp

/-! ## Texts and their tokens -/

theorem writes_of_scan {line : Nat} {cs : List Char} {ts : List Token} (h : scan line cs = .ok ts) :
    Writes cs (ts.map Token.kind) := by
  intro line'
  rw [← Nat.zero_add line, scan_add] at h
  cases h0 : scan 0 cs with
  | error e => simp [h0, Except.map, Except.mapError] at h
  | ok us =>
    rw [h0] at h
    obtain rfl := Except.ok.inj h
    refine ⟨us.map (Token.shift line'), ?_, ?_⟩
    · rw [← Nat.zero_add line', scan_add, h0]
      simp [Except.map, Except.mapError]
    · simp [Token.shift, Function.comp_def]

theorem Writes.unique {cs : List Char} {ks ls : List TokenKind} (hk : Writes cs ks)
    (hl : Writes cs ls) : ks = ls := by
  obtain ⟨ts, hts, rfl⟩ := hk 0
  obtain ⟨us, hus, rfl⟩ := hl 0
  obtain rfl := Except.ok.inj (hts.symm.trans hus)
  rfl

/-- A text is read as forms exactly when these are forms from text and it has their tokens. -/
theorem readForms_iff_writes {source : String} {fs : List Form} :
    readForms source = .ok fs ↔ Form.AllTextual fs ∧ Writes source.toList (Form.flatAll fs) := by
  rw [readForms_eq, readFrom_eq_ok_iff]
  constructor
  · rintro ⟨ts, hts, hfs⟩
    refine ⟨textual_of_parse hfs, ?_⟩
    rw [← flatAll_of_parse hfs]
    exact writes_of_scan hts
  · rintro ⟨htextual, h⟩
    obtain ⟨ts, hts, hkinds⟩ := h 1
    exact ⟨ts, hts, parse_of_flatAll htextual hkinds⟩

theorem writes_separator {c : Char} {cs : List Char} {ks : List TokenKind} (hc : isSeparator c = true) :
    Writes (c :: cs) ks ↔ Writes cs ks := by
  constructor
  · intro h
    obtain ⟨ts, hts, rfl⟩ := h 0
    rw [scan_separator hc] at hts
    exact writes_of_scan hts
  · intro h
    exact .gap (w := [c]) (by simpa [Gap] using hc) h

/-- The first lexeme of a text is a token, and the other tokens stand behind it. -/
theorem writes_lexeme {c : Char} {cs rest : List Char} {l : Lexeme} {ks : List TokenKind}
    (hc : isSeparator c = false) (hnext : Lexeme.next c cs = .ok (l, rest)) (h : Writes (c :: cs) ks) :
    ∃ w k ls, TokenKind.Spelled w k ∧ (k.IsRun → Boundary rest) ∧ Lexeme.Spells w l ∧
      c :: cs = w ++ rest ∧ ks = k :: ls ∧ Writes rest ls := by
  obtain ⟨w, hw, hcs, hmax⟩ := (Lexeme.next_eq_ok_iff hc).1 hnext
  obtain ⟨ts, hts, rfl⟩ := h 0
  cases ht : Token.ofLexeme 0 l with
  | error e => exact absurd hts (scan_fault hc hnext ht ts)
  | ok t =>
    rw [scan_lexeme hc hnext ht] at hts
    obtain ⟨us, hus, rfl⟩ := of_map hts
    obtain ⟨hspell, hrun, -⟩ := TokenKind.spelled_of_lexeme hw ht []
    exact ⟨w, t.kind, us.map Token.kind, hspell, fun hk => hmax (hrun.2 hk), hw, hcs, rfl,
      writes_of_scan hus⟩

/-! ## Cuts -/

/-- No lexeme reaches from the text in front into this one. -/
def Apart (ds : List Char) : Prop :=
  ∀ w l u v, Lexeme.Spells w l → w = u ++ v → v <+: ds → v = []

theorem apart_nil : Apart [] := fun _ _ _ _ _ _ hv => List.prefix_nil.1 hv

/-- A lexeme does not reach over the end of its line. -/
theorem apart_newline (ds : List Char) : Apart ('\n' :: ds) := by
  intro w l u v hw hcut hv
  by_contra hne
  obtain ⟨c, v, rfl⟩ := List.exists_cons_of_ne_nil hne
  obtain ⟨rfl, -⟩ := List.cons_prefix_cons.1 hv
  have hcount := hw.count_newline
  rw [hcut, List.count_append, List.count_cons_self] at hcount
  omega

theorem Lexeme.Spells.last {u : List Char} {c : Char} {l : Lexeme} (h : Spells (u ++ [c]) l) :
    isSeparator c = false := by
  have hrun : ∀ {w : List Char}, (∀ d ∈ w, isSeparator d = false) → w = u ++ [c] →
      isSeparator c = false := fun hw he => hw c (by simp [he])
  have hone : ∀ {d : Char}, isSeparator d = false → ∀ d' ∈ [d], isSeparator d' = false :=
    fun hd d' hd' => List.mem_singleton.1 hd' ▸ hd
  generalize hw : u ++ [c] = w at h
  cases h with
  | leftParen => exact hrun (hone (by decide)) hw.symm
  | rightParen => exact hrun (hone (by decide)) hw.symm
  | string ps s _ =>
    have hc : c = '"' := List.singleton_inj.1 (List.append_inj' hw rfl).2
    rw [hc]
    decide
  | word w h _ =>
    refine hrun (fun d hd => ?_) hw.symm
    have hdel := h.2 d hd
    simp only [isDelimiter, Bool.or_eq_false_iff] at hdel
    exact hdel.2

/-- A carriage return at the end of a line is not part of a lexeme. -/
theorem apart_return : Apart ['\r'] := by
  intro w l u v hw hcut hv
  by_contra hne
  obtain ⟨c, v, rfl⟩ := List.exists_cons_of_ne_nil hne
  obtain ⟨rfl, hnil⟩ := List.cons_prefix_cons.1 hv
  obtain rfl := List.prefix_nil.1 hnil
  rw [hcut] at hw
  exact absurd hw.last (by decide)

/-- **A text cut where no lexeme reaches over** has the tokens of both parts in a row. -/
theorem writes_split {cs ds : List Char} {ks : List TokenKind} (h : Writes (cs ++ ds) ks)
    (hds : Apart ds) : ∃ us vs, ks = us ++ vs ∧ Writes cs us ∧ Writes ds vs := by
  generalize htext : cs ++ ds = text at h
  induction text using Lexeme.cut_induction generalizing cs ks with
  | nil =>
    obtain ⟨rfl, rfl⟩ := List.append_eq_nil_iff.1 htext
    exact ⟨[], ks, rfl, .nil, h⟩
  | separator c text hc ih =>
    rcases List.append_eq_cons_iff.1 htext with ⟨rfl, rfl⟩ | ⟨cs, rfl, rfl⟩
    · exact ⟨[], ks, rfl, .nil, h⟩
    · obtain ⟨us, vs, rfl, hus, hvs⟩ := ih rfl ((writes_separator hc).1 h)
      exact ⟨us, vs, rfl, (writes_separator hc).2 hus, hvs⟩
  | lexeme c text l rest hc hnext ih =>
    by_cases hcs : cs = []
    · subst hcs
      obtain rfl := htext
      exact ⟨[], ks, rfl, .nil, h⟩
    · obtain ⟨w, k, ls, hspell, hmax, hw, hcut, rfl, hrest⟩ := writes_lexeme hc hnext h
      -- the lexeme ends before the cut
      obtain ⟨cs, rfl, rfl⟩ : ∃ cs', cs = w ++ cs' ∧ rest = cs' ++ ds := by
        rcases List.append_eq_append_iff.1 (htext.trans hcut) with ⟨v, rfl, rfl⟩ | ⟨v, rfl, rfl⟩
        · obtain rfl := hds _ l cs v hw rfl (List.prefix_append v rest)
          exact ⟨[], by simp, rfl⟩
        · exact ⟨v, rfl, rfl⟩
      obtain ⟨us, vs, rfl, hus, hvs⟩ := ih rfl hrest
      refine ⟨k :: us, vs, rfl, .cons hspell (fun hk => ?_) hus, hvs⟩
      intro d hd
      refine hmax hk d ?_
      cases cs with
      | nil => exact absurd hd (by simp)
      | cons d' cs => exact hd
  | fault c text e hc hnext =>
    obtain ⟨ts, hts, -⟩ := h 0
    rw [scan, Lexeme.cut_fault hc hnext] at hts
    exact absurd hts (by simp)

/-! ## Lines -/

namespace Repl

theorem linesFrom_append {line : List Char} (hline : '\n' ∉ line) (before cs : List Char) :
    linesFrom before (line ++ cs) = linesFrom (line.reverse ++ before) cs := by
  induction line generalizing before with
  | nil => rfl
  | cons c line ih =>
    rw [List.mem_cons, not_or] at hline
    rw [List.cons_append, linesFrom, if_neg (Ne.symm hline.1), ih hline.2, List.reverse_cons,
      List.append_assoc, List.singleton_append]

/-- The end of a line, with a carriage return before it. -/
theorem linesFrom_newline (line next : List Char) :
    ∃ l, (line = l ∨ line = l ++ ['\r']) ∧
      linesFrom line.reverse ('\n' :: next) = String.ofList l :: linesFrom [] next := by
  rw [linesFrom, if_pos rfl]
  by_cases hr : line.reverse.head? = some '\x0d'
  · obtain ⟨tl, htl⟩ := List.head?_eq_some_iff.1 hr
    refine ⟨tl.reverse, .inr ?_, ?_⟩
    · rw [← List.reverse_reverse line, htl, List.reverse_cons]
    · simp [htl]
  · exact ⟨line, .inl rfl, by simp only [if_neg hr, List.reverse_reverse]⟩

/-- The first line of an input, as it stands and as it is read, and what is behind it. -/
structure FirstLine (cs line l rest next : List Char) : Prop where
  text : cs = line ++ rest
  single : '\n' ∉ line
  ends : rest = [] ∧ next = [] ∨ rest = '\n' :: next
  read : line = l ∨ line = l ++ ['\r']
  lines : linesFrom [] cs = String.ofList l :: linesFrom [] next
  shorter : next.length < cs.length

/-- An input that is not empty has a first line. -/
theorem exists_line {cs : List Char} (hcs : cs ≠ []) :
    ∃ line l rest next, FirstLine cs line l rest next := by
  have hline : '\n' ∉ cs.takeWhile (· ≠ '\n') := by
    intro h
    exact absurd (List.mem_takeWhile_imp h) (by simp)
  have hsplit := List.takeWhile_append_dropWhile (p := (· ≠ '\n')) (l := cs)
  have hlines := linesFrom_append hline [] (cs.dropWhile (· ≠ '\n'))
  rw [hsplit, List.append_nil] at hlines
  cases hrest : cs.dropWhile (· ≠ '\n') with
  | nil =>
    rw [hrest, List.append_nil] at hsplit
    rw [hrest, hsplit] at hlines
    refine ⟨cs, cs, [], [], by simp, hsplit ▸ hline, .inl ⟨rfl, rfl⟩, .inl rfl, ?_, ?_⟩
    · simpa [linesFrom, hcs] using hlines
    · exact List.length_pos_of_ne_nil hcs
  | cons c next =>
    have hc : c = '\n' := by
      have hhead := List.head?_dropWhile_not (fun c => decide (c ≠ '\n')) cs
      rw [hrest] at hhead
      simpa using hhead
    subst hc
    rw [hrest] at hsplit hlines
    obtain ⟨l, hl, hread⟩ := linesFrom_newline (cs.takeWhile (· ≠ '\n')) next
    refine ⟨_, l, _, next, hsplit.symm, hline, .inr rfl, hl, hlines.trans hread, ?_⟩
    rw [← hsplit, List.length_append, List.length_cons]
    omega

/-- A line of a text, and what stands in front of it and behind it. -/
structure IsLine (before line after : List Char) : Prop where
  starts : before = [] ∨ ∃ text, before = text ++ ['\n']
  single : '\n' ∉ line
  ends : after = [] ∨ ∃ text, after = '\n' :: text
  nonempty : line ++ after ≠ []

/-- A text is cut at its first line end in one way. -/
theorem cut_newline_unique {u v next rest : List Char} (hu : '\n' ∉ u) (hv : '\n' ∉ v)
    (h : u ++ '\n' :: next = v ++ '\n' :: rest) : u = v := by
  rcases List.append_eq_append_iff.1 h with ⟨mid, rfl, hmid⟩ | ⟨mid, rfl, hmid⟩
  · rcases List.cons_eq_append_iff.1 hmid with ⟨rfl, -⟩ | ⟨mid, rfl, -⟩
    · exact (List.append_nil u).symm
    · exact absurd (by simp) hv
  · rcases List.cons_eq_append_iff.1 hmid with ⟨rfl, -⟩ | ⟨mid, rfl, -⟩
    · exact List.append_nil v
    · exact absurd (by simp) hu

/-- A line of a text is its first line, or one of the text behind it. -/
theorem IsLine.first_or_behind {first next before line after : List Char} (hfirst : '\n' ∉ first)
    (htext : first ++ '\n' :: next = before ++ line ++ after) (h : IsLine before line after) :
    before = [] ∧ line = first ∨
      ∃ text, before = first ++ '\n' :: text ∧ next = text ++ line ++ after ∧
        IsLine text line after := by
  rcases h.starts with rfl | ⟨text, rfl⟩
  · rcases h.ends with rfl | ⟨rest, rfl⟩
    · have hmem : '\n' ∈ [] ++ line ++ [] := htext ▸ by simp
      exact absurd (by simpa using hmem) h.single
    · exact .inl ⟨rfl, (cut_newline_unique hfirst h.single htext).symm⟩
  · have htext : first ++ '\n' :: next = text ++ '\n' :: (line ++ after) := by simpa using htext
    rcases List.append_eq_append_iff.1 htext with ⟨mid, rfl, hmid⟩ | ⟨mid, rfl, hmid⟩
    · rcases List.cons_eq_append_iff.1 hmid with ⟨rfl, hnext⟩ | ⟨mid, rfl, rfl⟩
      · obtain ⟨-, rfl⟩ := List.cons.inj hnext
        exact .inr ⟨[], by simp, by simp, { h with starts := .inl rfl }⟩
      · exact .inr ⟨mid ++ ['\n'], by simp, by simp, { h with starts := .inr ⟨mid, rfl⟩ }⟩
    · rcases List.cons_eq_append_iff.1 hmid with ⟨rfl, hnext⟩ | ⟨mid, rfl, -⟩
      · obtain ⟨-, rfl⟩ := List.cons.inj hnext
        exact .inr ⟨[], by simp, by simp, { h with starts := .inl rfl }⟩
      · exact absurd (by simp) hfirst

/-- A text without line ends is one line. -/
theorem IsLine.eq_text {cs before line after : List Char} (hcs : '\n' ∉ cs)
    (htext : cs = before ++ line ++ after) (h : IsLine before line after) :
    before = [] ∧ line = cs := by
  rcases h.starts with rfl | ⟨text, rfl⟩
  · rcases h.ends with rfl | ⟨text, rfl⟩
    · exact ⟨rfl, by simpa using htext.symm⟩
    · exact absurd (by simp [htext]) hcs
  · exact absurd (by simp [htext]) hcs

/-- Behind `depth` open parentheses, blank lines are gaps and no form is open at them. -/
def BlankApart (depth : Int) (cs : List Char) : Prop :=
  ∀ before line after, cs = before ++ line ++ after → IsLine before line after →
    isBlank (String.ofList line) = true →
      Gap line ∧ ∀ ks, Writes before ks → depth + depthOf ks = 0

section BlankApart

variable {depth : Int} {line next : List Char} {ks : List TokenKind}

theorem BlankApart.nil : BlankApart depth [] := by
  intro before line after h hline
  have h : before ++ (line ++ after) = [] := by simpa using h.symm
  exact absurd (List.append_eq_nil_iff.1 h).2 hline.nonempty

/-- At the first line no token stands in front. -/
theorem BlankApart.first {rest : List Char} (h : BlankApart depth (line ++ rest))
    (hline : IsLine [] line rest) (hblank : isBlank (String.ofList line) = true) :
    Gap line ∧ depth = 0 := by
  obtain ⟨hgap, hdepth⟩ := h [] line rest rfl hline hblank
  exact ⟨hgap, by simpa using hdepth [] .nil⟩

/-- Behind the first line its tokens count. -/
theorem BlankApart.behind (h : BlankApart depth (line ++ '\n' :: next)) (hks : Writes line ks) :
    BlankApart (depth + depthOf ks) next := by
  intro before line' after hnext hline hblank
  have htext : line ++ '\n' :: next = line ++ '\n' :: before ++ line' ++ after := by simp [hnext]
  have hstarts : ∃ text, line ++ '\n' :: before = text ++ ['\n'] := by
    rcases hline.starts with rfl | ⟨text, rfl⟩
    · exact ⟨line, rfl⟩
    · exact ⟨line ++ '\n' :: text, by simp⟩
  obtain ⟨hgap, hdepth⟩ := h _ line' after htext { hline with starts := .inr hstarts } hblank
  refine ⟨hgap, fun ls hls => ?_⟩
  have hboth : Writes (line ++ '\n' :: before) (ks ++ ls) :=
    hks.append ((writes_separator (by decide)).2 hls) (.cons (by decide) before)
  have hsum := hdepth _ hboth
  rw [depthOf_append] at hsum
  omega

end BlankApart

namespace FirstLine

variable {cs line l rest next : List Char}

theorem rest_cases (h : FirstLine cs line l rest next) : rest = [] ∨ ∃ text, rest = '\n' :: text := by
  rcases h.ends with ⟨hrest, -⟩ | hrest
  · exact .inl hrest
  · exact .inr ⟨next, hrest⟩

theorem isLine (h : FirstLine cs line l rest next) (hcs : cs ≠ []) : IsLine [] line rest :=
  ⟨.inl rfl, h.single, h.rest_cases, h.text ▸ hcs⟩

/-- A carriage return at its end does not make a line less blank. -/
theorem isBlank_eq (h : FirstLine cs line l rest next) :
    isBlank (String.ofList l) = isBlank (String.ofList line) := by
  rcases h.read with rfl | rfl
  · rfl
  · simp [isBlank, isBlankChar]

/-- The line has the first tokens of the input, and what is behind it the others. -/
theorem tokens {ks : List TokenKind} (h : FirstLine cs line l rest next) (hks : Writes cs ks) :
    ∃ kl kr, ks = kl ++ kr ∧ Writes line kl ∧ Writes l kl ∧ Writes next kr := by
  have hapart : Apart rest := by
    rcases h.rest_cases with rfl | ⟨text, rfl⟩
    · exact apart_nil
    · exact apart_newline text
  rw [h.text] at hks
  obtain ⟨kl, kr, rfl, hkl, hkr⟩ := writes_split hks hapart
  refine ⟨kl, kr, rfl, hkl, ?_, ?_⟩
  · rcases h.read with rfl | rfl
    · exact hkl
    · obtain ⟨us, vs, rfl, hus, hvs⟩ := writes_split hkl apart_return
      obtain rfl := hvs.unique ((writes_separator (by decide)).2 .nil)
      rwa [List.append_nil]
  · rcases h.ends with ⟨rfl, rfl⟩ | rfl
    · exact hkr
    · exact (writes_separator (by decide)).1 hkr

theorem blankApart {depth : Int} {kl : List TokenKind} (h : FirstLine cs line l rest next)
    (hblank : BlankApart depth cs) (hkl : Writes line kl) : BlankApart (depth + depthOf kl) next := by
  rw [h.text] at hblank
  rcases h.ends with ⟨-, rfl⟩ | rfl
  · exact .nil
  · exact hblank.behind hkl

end FirstLine

/-! ## Buffers -/

/-- The lines gathered so far and one more. -/
def gathered (pending line : String) : String :=
  if pending = "" then line else pending ++ "\n" ++ line

theorem writes_gathered {pending line : String} {kp kl : List TokenKind}
    (hp : Writes pending.toList kp) (hl : Writes line.toList kl) :
    Writes (gathered pending line).toList (kp ++ kl) := by
  unfold gathered
  split
  · next hnil =>
    subst hnil
    obtain rfl := hp.unique .nil
    exact hl
  · have htext : (pending ++ "\n" ++ line).toList = pending.toList ++ '\n' :: line.toList := by
      simp
    rw [htext]
    exact hp.append ((writes_separator (by decide)).2 hl) (.cons (by decide) _)

theorem buffersFrom_cons (pending line : String) (lines : List String) :
    buffersFrom pending (line :: lines) =
      if isBlank line then
        if pending = "" then buffersFrom "" lines else pending :: buffersFrom "" lines
      else if openDepth (gathered pending line) ≤ 0 then
        gathered pending line :: buffersFrom "" lines
      else buffersFrom (gathered pending line) lines := rfl

/-- The lines have the buffers `bs`, and what follows them is cut as if they were not there. -/
structure Cuts (pending : String) (lines : List String) (fs : List Form) (bs : List String) :
    Prop where
  buffers : ∀ more, buffersFrom pending (lines ++ more) = bs ++ buffersFrom "" more
  readable : ∀ b ∈ bs, Readable b
  forms : bs.flatMap formsOf = fs

namespace Cuts

variable {pending line : String} {lines bs : List String} {fs gs : List Form}

theorem nil : Cuts "" [] [] [] := ⟨fun _ => rfl, by simp, rfl⟩

/-- A blank line, where nothing is gathered. -/
theorem skip (h : Cuts "" lines fs bs) (hline : isBlank line = true) :
    Cuts "" (line :: lines) fs bs := by
  refine ⟨fun more => ?_, h.readable, h.forms⟩
  rw [List.cons_append, buffersFrom_cons, if_pos hline, if_pos rfl, h.buffers]

/-- A line behind which no form is open. -/
theorem complete (h : Cuts "" lines fs bs) (hline : ¬ isBlank line = true)
    (hdepth : openDepth (gathered pending line) ≤ 0)
    (hgs : readForms (gathered pending line) = .ok gs) :
    Cuts pending (line :: lines) (gs ++ fs) (gathered pending line :: bs) := by
  refine ⟨fun more => ?_, ?_, ?_⟩
  · rw [List.cons_append, buffersFrom_cons, if_neg hline, if_pos hdepth, h.buffers]
    rfl
  · intro b hb
    rcases List.mem_cons.1 hb with rfl | hb
    · exact ⟨gs, hgs⟩
    · exact h.readable b hb
  · rw [List.flatMap_cons, h.forms, formsOf, hgs]

/-- A line behind which a form is open. -/
theorem gather (h : Cuts (gathered pending line) lines fs bs) (hline : ¬ isBlank line = true)
    (hdepth : ¬ openDepth (gathered pending line) ≤ 0) : Cuts pending (line :: lines) fs bs := by
  refine ⟨fun more => ?_, h.readable, h.forms⟩
  rw [List.cons_append, buffersFrom_cons, if_neg hline, if_neg hdepth, h.buffers]

end Cuts

/-- **The buffers of a readable text.** Behind the tokens `kp` of the lines that are gathered, a
text with the tokens `ks` is cut into readable buffers with the forms of all these tokens, and
nothing is left gathered. -/
theorem exists_cuts {cs : List Char} {pending : String} {kp ks : List TokenKind} {fs : List Form}
    (hp : Writes pending.toList kp) (hs : Writes cs ks) (ht : Form.AllTextual fs)
    (hfs : Form.flatAll fs = kp ++ ks) (hopen : pending = "" ∨ 0 < depthOf kp) (hq : Unquoted (kp ++ ks))
    (hblank : BlankApart (depthOf kp) cs) : ∃ bs, Cuts pending (linesFrom [] cs) fs bs := by
  -- line by line, for all that may be gathered
  induction hlen : cs.length using Nat.strong_induction_on generalizing cs pending kp ks fs with
  | _ n ih =>
    subst hlen
    by_cases hcs : cs = []
    · -- nothing is open at the end, since all forms are complete
      subst hcs
      obtain rfl := hs.unique .nil
      have htotal := (Form.balanced_flatAll fs).total
      rw [hfs, List.append_nil] at htotal
      obtain rfl := hopen.resolve_right (by omega)
      obtain rfl := hp.unique .nil
      obtain rfl : fs = [] := Form.flatAll_inj ht trivial hfs
      exact ⟨[], .nil⟩
    obtain ⟨line, l, rest, next, hfirst⟩ := exists_line hcs
    obtain ⟨kl, kr, rfl, hkl, hread, hnext⟩ := hfirst.tokens hs
    have hblank' := hfirst.blankApart hblank hkl
    have hempty : Writes "".toList [] := by simpa using Writes.nil
    rw [hfirst.lines]
    by_cases hb : isBlank (String.ofList l) = true
    · -- a blank line has no tokens, and stands where nothing is gathered
      rw [hfirst.text] at hblank
      obtain ⟨hgap, hdepth⟩ := hblank.first (hfirst.isLine hcs) (hfirst.isBlank_eq ▸ hb)
      obtain rfl := hopen.resolve_right (by omega)
      obtain rfl := hp.unique .nil
      obtain rfl : kl = [] := hkl.unique (by simpa using Writes.gap hgap .nil)
      obtain ⟨bs, hbs⟩ := ih _ hfirst.shorter hempty hnext ht hfs (.inl rfl) hq (by simpa using hblank') rfl
      exact ⟨bs, hbs.skip hb⟩
    · have htext : Writes (gathered pending (String.ofList l)).toList (kp ++ kl) :=
        writes_gathered hp (by simpa using hread)
      rw [← List.append_assoc] at hfs hq
      have hcount : openDepth (gathered pending (String.ofList l)) = depthOf (kp ++ kl) :=
        openDepth_of_writes htext (hq.mono fun k hk => List.mem_append_left _ hk)
      rw [← depthOf_append] at hblank'
      by_cases hd : depthOf (kp ++ kl) ≤ 0
      · -- the lines so far have whole forms
        obtain ⟨gs, hs', rfl, hgs, hhs⟩ := split_flatAll hfs hd
        have hzero : depthOf (kp ++ kl) = depthOf [] := hgs ▸ (Form.balanced_flatAll gs).total
        obtain ⟨htg, hth⟩ := Form.allTextual_append.1 ht
        obtain ⟨bs, hbs⟩ := ih _ hfirst.shorter hempty hnext hth hhs.symm (.inl rfl)
          (hq.mono fun k hk => List.mem_append_right _ hk) (hzero ▸ hblank') rfl
        exact ⟨_, hbs.complete hb (hcount ▸ hd) (readForms_iff_writes.2 ⟨htg, hgs ▸ htext⟩)⟩
      · -- a form is still open
        obtain ⟨bs, hbs⟩ := ih _ hfirst.shorter htext hnext ht hfs (.inr (by omega)) hq hblank' rfl
        exact ⟨bs, hbs.gather hb (hcount ▸ hd)⟩

end Repl

end FlatLisp
