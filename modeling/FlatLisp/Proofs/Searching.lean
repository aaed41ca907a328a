import FlatLisp.Proofs.Chains
import Mathlib.Data.List.Infix

/-!
# Searching in text

Splitting, replacing and looking for a text are three walks over the characters. What they have in
common is the way a text is cut: at the first occurrence of the pattern, and then again behind it
(`Search.Cuts`). A text is cut in one way only, so everything else about the walks is said about
cuts and does not depend on how the walks count.

* `Search.cuts_iff`: **splitting gives the cut of the text.**
* `Search.replace_eq`: replacing joins what splitting gives.
* `Builtin.search_coherent`: **splitting, joining, replacing and looking for a text agree.**
-/

namespace FlatLisp

namespace Search

variable {pattern text piece rest : List Char} {pieces : List (List Char)}

/-! ## Cuts -/

/-- No occurrence of the pattern starts in a piece that the rest follows. -/
def Clear (pattern piece rest : List Char) : Prop :=
  ∀ i < piece.length, ¬pattern <+: (piece ++ rest).drop i

/-- The text is cut into pieces at the pattern: the pattern is not in the last piece, and the other
pieces stand in front of a first occurrence. -/
inductive Cuts (pattern : List Char) : List Char → List (List Char) → Prop
  | last {text : List Char} : ¬pattern <:+: text → Cuts pattern text [text]
  | found {piece rest : List Char} {pieces : List (List Char)} :
    Clear pattern piece (pattern ++ rest) → Cuts pattern rest pieces →
    Cuts pattern (piece ++ (pattern ++ rest)) (piece :: pieces)

theorem Clear.not_occurs (h : Clear pattern piece rest) (hp : pattern ≠ []) :
    ¬pattern <:+: piece := by
  rintro ⟨front, back, rfl⟩
  have hpos := List.length_pos_iff.2 hp
  refine h front.length (by simp; omega) ?_
  rw [List.append_assoc, List.append_assoc, List.drop_left]
  exact List.prefix_append _ _

/-- A character at which no occurrence starts goes to the piece. -/
theorem Clear.snoc {c : Char} (h : Clear pattern piece (c :: rest)) (hc : ¬pattern <+: c :: rest) :
    Clear pattern (piece ++ [c]) rest := by
  intro i hi
  rw [List.append_assoc, List.singleton_append]
  rcases Nat.lt_or_ge i piece.length with hlt | hge
  · exact h i hlt
  · have hlast : i = piece.length := by simp at hi; omega
    rwa [hlast, List.drop_left]

theorem Cuts.ne_nil (h : Cuts pattern text pieces) : pieces ≠ [] := by
  cases h <;> exact List.cons_ne_nil _ _

/-- **Nothing is lost** but the occurrences. -/
theorem Cuts.intercalate_eq (h : Cuts pattern text pieces) : pattern.intercalate pieces = text := by
  induction h with
  | last _ => exact List.intercalate_singleton
  | found _ hrest ih =>
    rw [List.intercalate_cons_of_ne_nil hrest.ne_nil, ih, List.append_assoc]

theorem Cuts.not_occurs (h : Cuts pattern text pieces) (hp : pattern ≠ []) :
    ∀ piece ∈ pieces, ¬pattern <:+: piece := by
  induction h with
  | last hfree => exact List.forall_mem_singleton.2 hfree
  | found hclear _ ih => exact List.forall_mem_cons.2 ⟨hclear.not_occurs hp, ih⟩

/-- There is more than one piece if there is an occurrence. -/
theorem Cuts.one_lt_length (h : Cuts pattern text pieces) :
    1 < pieces.length ↔ pattern <:+: text := by
  cases h with
  | last hfree => simpa using hfree
  | found _ hrest =>
    have hpos := List.length_pos_iff.2 hrest.ne_nil
    exact iff_of_true (by simpa using hpos) (List.infix_append' _ _ _)

/-- No occurrence starts earlier than the first one. -/
theorem Clear.length_le {first behind : List Char} (h : Clear pattern first (pattern ++ behind))
    (heq : first ++ (pattern ++ behind) = piece ++ (pattern ++ rest)) :
    first.length ≤ piece.length := by
  by_contra! hlt
  refine h piece.length hlt ?_
  rw [heq, List.drop_left]
  exact List.prefix_append _ _

theorem Clear.unique {piece' rest' : List Char} (h : Clear pattern piece (pattern ++ rest))
    (h' : Clear pattern piece' (pattern ++ rest'))
    (heq : piece ++ (pattern ++ rest) = piece' ++ (pattern ++ rest')) :
    piece = piece' ∧ rest = rest' := by
  have hlength := le_antisymm (h.length_le heq) (h'.length_le heq.symm)
  obtain ⟨rfl, hrest⟩ := List.append_inj heq hlength
  exact ⟨rfl, List.append_cancel_left hrest⟩

theorem Cuts.inversion (h : Cuts pattern text pieces) :
    (¬pattern <:+: text ∧ pieces = [text]) ∨
      ∃ piece rest tail, text = piece ++ (pattern ++ rest) ∧ pieces = piece :: tail ∧
        Clear pattern piece (pattern ++ rest) ∧ Cuts pattern rest tail := by
  cases h with
  | last hfree => exact .inl ⟨hfree, rfl⟩
  | found hclear hrest => exact .inr ⟨_, _, _, rfl, rfl, hclear, hrest⟩

/-- **A text is cut in one way.** -/
theorem Cuts.unique {pieces' : List (List Char)} (h : Cuts pattern text pieces)
    (h' : Cuts pattern text pieces') : pieces = pieces' := by
  induction h generalizing pieces' with
  | last hfree =>
    obtain ⟨-, rfl⟩ | ⟨piece, rest, tail, rfl, -⟩ := h'.inversion
    · rfl
    · exact absurd (List.infix_append' _ _ _) hfree
  | found hclear hrest ih =>
    obtain ⟨hfree, -⟩ | ⟨piece', rest', tail, heq, rfl, hclear', hrest'⟩ := h'.inversion
    · exact absurd (List.infix_append' _ _ _) hfree
    · obtain ⟨rfl, rfl⟩ := hclear.unique hclear' heq
      rw [ih hrest']

/-- No occurrence of the pattern starts in front of another one and ends inside of it. -/
def Apart (pattern : List Char) : Prop :=
  ∀ piece rest, piece ≠ [] → pattern <+: piece ++ (pattern ++ rest) → pattern <+: piece

theorem apart_singleton (c : Char) : Apart [c] := by
  intro piece rest hne h
  obtain ⟨d, ds, rfl⟩ := List.exists_cons_of_ne_nil hne
  rw [List.cons_append, List.cons_prefix_cons] at h
  rw [h.1]
  exact List.prefix_append [d] ds

/-- Pieces without the pattern are what their join is cut into at it, if occurrences stand apart. -/
theorem cuts_intercalate (hapart : Apart pattern) (hne : pieces ≠ [])
    (hfree : ∀ piece ∈ pieces, ¬pattern <:+: piece) :
    Cuts pattern (pattern.intercalate pieces) pieces := by
  induction pieces with
  | nil => exact absurd rfl hne
  | cons piece pieces ih =>
    obtain ⟨hpiece, hpieces⟩ := List.forall_mem_cons.1 hfree
    rcases eq_or_ne pieces [] with rfl | hcons
    · rw [List.intercalate_singleton]
      exact .last hpiece
    · rw [List.intercalate_cons_of_ne_nil hcons, List.append_assoc]
      refine .found (fun i hi hstart => hpiece ?_) (ih hcons hpieces)
      -- an occurrence that starts in the piece is in the piece
      rw [List.drop_append_of_le_length hi.le] at hstart
      have hrest : piece.drop i ≠ [] := List.ne_nil_of_length_pos (by rw [List.length_drop]; omega)
      exact (hapart _ _ hrest hstart).isInfix.trans (List.drop_suffix i piece).isInfix

/-! ## Walks -/

theorem occurs_iff : occurs pattern text = true ↔ pattern <:+: text := by
  induction text with
  | nil => rw [occurs, List.isEmpty_iff, List.infix_nil]
  | cons c cs ih =>
    rw [occurs, Bool.or_eq_true, List.isPrefixOf_iff_prefix, ih, List.infix_cons_iff]

/-- The remaining characters of an occurrence are passed over. -/
theorem splitFrom_drop (pattern piece : List Char) (skip : Nat) (text : List Char) :
    splitFrom pattern piece skip text = splitFrom pattern piece 0 (text.drop skip) := by
  induction text generalizing skip with
  | nil => cases skip <;> simp [splitFrom]
  | cons c cs ih =>
    cases skip with
    | zero => rfl
    | succ skip => rw [splitFrom, ih, List.drop_succ_cons]

theorem cuts_splitFrom (hp : pattern ≠ []) (piece text : List Char)
    (h : Clear pattern piece.reverse text) :
    Cuts pattern (piece.reverse ++ text) (splitFrom pattern piece 0 text) := by
  match text with
  | [] =>
    rw [List.append_nil, splitFrom]
    exact .last (h.not_occurs hp)
  | c :: cs =>
    rw [splitFrom]
    split_ifs with hstart
    · obtain ⟨rest, hrest⟩ := List.isPrefixOf_iff_prefix.1 hstart
      have hdrop : cs.drop (pattern.length - 1) = rest := by
        obtain ⟨d, ds, rfl⟩ := List.exists_cons_of_ne_nil hp
        rw [List.cons_append, List.cons.injEq] at hrest
        rw [← hrest.2, List.length_cons, Nat.add_sub_cancel, List.drop_left]
      have hlen : rest.length < (c :: cs).length := by
        have hpos := List.length_pos_iff.2 hp
        rw [← hrest, List.length_append]
        omega
      rw [splitFrom_drop, hdrop]
      rw [← hrest] at h ⊢
      exact .found h (cuts_splitFrom hp [] rest nofun)
    · have hc : ¬pattern <+: c :: cs := mt List.isPrefixOf_iff_prefix.2 hstart
      have hcut := cuts_splitFrom hp (c :: piece) cs (by rw [List.reverse_cons]; exact h.snoc hc)
      rwa [List.reverse_cons, List.append_assoc] at hcut
termination_by text.length

theorem cuts_split (hp : pattern ≠ []) (text : List Char) :
    Cuts pattern text (split pattern text) :=
  cuts_splitFrom hp [] text nofun

/-- **Splitting gives the cut of the text.** -/
theorem cuts_iff (hp : pattern ≠ []) : Cuts pattern text pieces ↔ split pattern text = pieces :=
  ⟨(cuts_split hp text).unique, fun h => h ▸ cuts_split hp text⟩

theorem splitFrom_ne_nil (pattern piece : List Char) (skip : Nat) (text : List Char) :
    splitFrom pattern piece skip text ≠ [] := by
  fun_induction splitFrom <;> simp_all

/-- Replacing does with the text between occurrences what splitting does. What is written has the
current piece at its end. -/
theorem replaceFrom_eq (pattern new piece done : List Char) (skip : Nat) (text : List Char) :
    replaceFrom pattern new (piece ++ done) skip text =
      done.reverse ++ new.intercalate (splitFrom pattern piece skip text) := by
  induction text generalizing piece done skip with
  | nil => simp [replaceFrom, splitFrom, List.intercalate_singleton]
  | cons c cs ih =>
    cases skip with
    | succ skip => rw [replaceFrom, splitFrom, ih]
    | zero =>
      rw [replaceFrom, splitFrom]
      split_ifs with hstart
      · have hnext := ih [] (new.reverse ++ (piece ++ done)) (pattern.length - 1)
        rw [List.nil_append] at hnext
        rw [hnext, List.intercalate_cons_of_ne_nil (splitFrom_ne_nil _ _ _ _)]
        simp
      · exact ih (c :: piece) done 0

/-- **Replacing joins what splitting gives.** -/
theorem replace_eq (pattern new text : List Char) :
    replace pattern new text = new.intercalate (split pattern text) :=
  replaceFrom_eq pattern new [] [] 0 text

end Search

namespace Builtin

/-- One text is a part of another. -/
def Occurs (part text : String) : Prop := ∃ front back, text = front ++ part ++ back

/-- Splitting the text returns a list of the pieces. -/
def Splits (text separator : String) (pieces : List String) : Prop :=
  ∀ s, ∃ w, (split.call [.string text, .string separator] s).1 = .ok w ∧
    Value.Chain .nil (pieces.map .string) w

/-- Joining a list of the pieces returns the text. -/
def Joins (pieces : List String) (separator text : String) : Prop :=
  ∀ v, Value.Chain .nil (pieces.map .string) v → ∀ s,
    join.call [v, .string separator] s = (.ok (.string text), s)

variable {text separator : String} {ps : List String}

/-! ## Texts -/

theorem occurs_iff_toList {part : String} : Occurs part text ↔ part.toList <:+: text.toList := by
  constructor
  · rintro ⟨front, back, rfl⟩
    rw [String.toList_append, String.toList_append]
    exact List.infix_append _ _ _
  · rintro ⟨front, back, h⟩
    refine ⟨.ofList front, .ofList back, String.toList_injective ?_⟩
    rw [String.toList_append, String.toList_append, String.toList_ofList, String.toList_ofList, h]

theorem toList_pieces (hsep : separator ≠ "") :
    (pieces text separator).map String.toList = Search.split separator.toList text.toList := by
  rw [pieces, if_neg hsep, List.map_map]
  exact List.map_id'' (fun _ => String.toList_ofList) _

/-- Nothing between its characters: a text. -/
theorem intercalate_characters (cs : List Char) :
    [].intercalate ((cs.map String.singleton).map String.toList) = cs := by
  induction cs with
  | nil => rfl
  | cons c cs ih =>
    rcases eq_or_ne cs [] with rfl | hne
    · simp
    · rw [List.map_cons, List.map_cons, List.intercalate_cons_of_ne_nil (by simpa using hne), ih,
        String.toList_singleton, List.append_nil, List.singleton_append]

/-- A text is the join of its pieces. -/
theorem intercalate_pieces (text separator : String) :
    separator.intercalate (pieces text separator) = text := by
  refine String.toList_injective ?_
  rw [String.toList_intercalate]
  rcases eq_or_ne separator "" with rfl | hsep
  · exact intercalate_characters text.toList
  · rw [toList_pieces hsep]
    exact (Search.cuts_split (mt String.toList_eq_nil_iff.1 hsep) text.toList).intercalate_eq

theorem cuts_pieces (hsep : separator ≠ "") :
    Search.Cuts separator.toList text.toList ((pieces text separator).map String.toList) := by
  rw [toList_pieces hsep]
  exact Search.cuts_split (mt String.toList_eq_nil_iff.1 hsep) _

theorem not_occurs_of_mem_pieces (hsep : separator ≠ "") :
    ∀ piece ∈ pieces text separator, ¬Occurs separator piece := by
  intro piece hpiece hoccurs
  have hp : separator.toList ≠ [] := mt String.toList_eq_nil_iff.1 hsep
  exact (cuts_pieces hsep).not_occurs hp _ (List.mem_map_of_mem hpiece) (occurs_iff_toList.1 hoccurs)

/-- There is more than one piece if the separator is in the text. -/
theorem one_lt_length_pieces (hsep : separator ≠ "") :
    1 < (pieces text separator).length ↔ Occurs separator text := by
  have hcuts : Search.Cuts separator.toList text.toList _ := cuts_pieces hsep
  have hlength := hcuts.one_lt_length
  rwa [List.length_map, ← occurs_iff_toList] at hlength

theorem replace_pieces (hsep : separator ≠ "") (text new : String) :
    String.ofList (Search.replace separator.toList new.toList text.toList) =
      new.intercalate (pieces text separator) := by
  refine String.toList_injective ?_
  rw [String.toList_ofList, Search.replace_eq, String.toList_intercalate, toList_pieces hsep]

/-- The pieces of a join are those that were joined. -/
theorem pieces_intercalate (hone : separator.length = 1) (hne : ps ≠ [])
    (hfree : ∀ p ∈ ps, ¬Occurs separator p) : pieces (separator.intercalate ps) separator = ps := by
  have hsep : separator ≠ "" := by
    rintro rfl
    exact absurd hone (by decide)
  obtain ⟨c, hc⟩ := List.length_eq_one_iff.1 (String.length_toList.trans hone)
  have hcuts : Search.Cuts separator.toList (separator.intercalate ps).toList
      (ps.map String.toList) := by
    rw [String.toList_intercalate, hc]
    refine Search.cuts_intercalate (Search.apart_singleton c) (mt List.map_eq_nil_iff.1 hne)
      fun piece hpiece => ?_
    obtain ⟨p, hp, rfl⟩ := List.mem_map.1 hpiece
    exact fun hin => hfree p hp (occurs_iff_toList.2 (hc ▸ hin))
  exact List.map_injective_iff.2 (fun _ _ => String.toList_injective)
    ((cuts_pieces hsep).unique hcuts)

/-! ## Calls -/

theorem splits_pieces (text separator : String) : Splits text separator (pieces text separator) :=
  fun s => ⟨_, congrArg Prod.fst (call_list rfl), Value.chain_ofList s.nextStamp _⟩

theorem joins_intercalate (ps : List String) (separator : String) :
    Joins ps separator (separator.intercalate ps) := fun _ h => join_call h separator

/-- **The builtin looks for the text.** -/
theorem contains_call (text part : String) : ∃ b : Bool, (b = true ↔ Occurs part text) ∧
    ∀ s, contains.call [.string text, .string part] s = (.ok (.bool b), s) :=
  ⟨_, Search.occurs_iff.trans occurs_iff_toList.symm, fun _ => call_value rfl⟩

theorem replace_call {old : String} (hold : old ≠ "") (text new : String) (s : Session) :
    replace.call [.string text, .string old, .string new] s =
      (.ok (.string (new.intercalate (pieces text old))), s) := by
  refine call_value ?_
  rw [← replace_pieces hold]
  exact if_neg hold

/-- **Splitting, joining, replacing and looking for a text agree.** A text is the join of what it
is split into. Unless the separator is empty, it is in none of the pieces, there is more than one
piece when the text contains it, and replacing it is joining the pieces with something else. And a
join with one character, which is in nothing that is joined, is split into what was joined. -/
theorem search_coherent (separator : String) :
    (∀ text, ∃ pieces, Splits text separator pieces ∧ Joins pieces separator text ∧
      (separator ≠ "" →
        (∀ piece ∈ pieces, ¬Occurs separator piece) ∧
        (∃ b : Bool, (b = true ↔ 1 < pieces.length) ∧ (b = true ↔ Occurs separator text) ∧
          ∀ s, contains.call [.string text, .string separator] s = (.ok (.bool b), s)) ∧
        ∀ new, ∃ result, Joins pieces new result ∧
          ∀ s, replace.call [.string text, .string separator, .string new] s =
            (.ok (.string result), s))) ∧
    (separator.length = 1 → ∀ pieces ≠ [], (∀ piece ∈ pieces, ¬Occurs separator piece) →
      ∃ text, Joins pieces separator text ∧ Splits text separator pieces) := by
  refine ⟨fun text => ⟨pieces text separator, splits_pieces text separator, ?_, fun hsep => ?_⟩,
    fun hone ps hne hfree => ⟨_, joins_intercalate ps separator, ?_⟩⟩
  · have hjoins := joins_intercalate (pieces text separator) separator
    rwa [intercalate_pieces] at hjoins
  · obtain ⟨b, hb, hcall⟩ := contains_call text separator
    exact ⟨not_occurs_of_mem_pieces hsep, ⟨b, hb.trans (one_lt_length_pieces hsep).symm, hb, hcall⟩,
      fun new => ⟨_, joins_intercalate _ new, replace_call hsep text new⟩⟩
  · have hsplits := splits_pieces (separator.intercalate ps) separator
    rwa [pieces_intercalate hone hne hfree] at hsplits

/-- Two separators that overlap, and pieces of which one is empty. -/
theorem search_coherent_overlapping :
    ("aa" ≠ "" ∧ ∃ pieces, Splits "aaa" "aa" pieces ∧ ∀ piece ∈ pieces, ¬Occurs "aa" piece) ∧
    ",".length = 1 ∧ ["x", ""] ≠ [] ∧ (∀ piece ∈ ["x", ""], ¬Occurs "," piece) ∧
    ∃ text, Joins ["x", ""] "," text ∧ Splits text "," ["x", ""] := by
  have hsep : "aa" ≠ "" := by decide
  have hfree : ∀ piece ∈ ["x", ""], ¬Occurs "," piece := by
    simp only [occurs_iff_toList]
    decide
  obtain ⟨pieces, hsplits, -, hpieces⟩ := (search_coherent "aa").1 "aaa"
  exact ⟨⟨hsep, pieces, hsplits, (hpieces hsep).1⟩, rfl, List.cons_ne_nil _ _, hfree,
    (search_coherent ",").2 rfl ["x", ""] (List.cons_ne_nil _ _) hfree⟩

end Builtin

end FlatLisp
