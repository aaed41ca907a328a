/-!
# Damaged UTF-8

`Utf8.lossy` reads bytes as UTF-8 and puts one replacement character in the place of every
maximal part of a sequence that breaks off: the longest start of some well-formed sequence,
or a single byte that starts none.
-/

namespace FlatLisp

namespace Utf8

/-- What a first byte promises: how many continuation bytes follow, and the range of the
next of them. -/
structure Lead where
  owed : Nat
  least : UInt8
  greatest : UInt8

/-- The first bytes of well-formed sequences. -/
def lead? (b : UInt8) : Option Lead :=
  if b ≤ 0x7F then some ⟨0, 0x80, 0xBF⟩
  else if b < 0xC2 then none
  else if b ≤ 0xDF then some ⟨1, 0x80, 0xBF⟩
  else if b = 0xE0 then some ⟨2, 0xA0, 0xBF⟩
  else if b = 0xED then some ⟨2, 0x80, 0x9F⟩
  else if b ≤ 0xEF then some ⟨2, 0x80, 0xBF⟩
  else if b = 0xF0 then some ⟨3, 0x90, 0xBF⟩
  else if b ≤ 0xF3 then some ⟨3, 0x80, 0xBF⟩
  else if b = 0xF4 then some ⟨3, 0x80, 0x8F⟩
  else none

/-- The continuation bytes at the front that keep a promise, up to the owed number. -/
def following : Nat → UInt8 → UInt8 → List UInt8 → List UInt8
  | owed + 1, least, greatest, b :: bs =>
    if least ≤ b ∧ b ≤ greatest then b :: following owed 0x80 0xBF bs else []
  | _, _, _, _ => []

/-- The scalar value of a first byte and its continuation bytes. -/
def scalar (b : UInt8) (owed : Nat) (rest : List UInt8) : Nat :=
  let top := match owed with
    | 0 => b.toNat
    | 1 => b.toNat % 32
    | 2 => b.toNat % 16
    | _ => b.toNat % 8
  rest.foldl (fun n c => 64 * n + c.toNat % 64) top

/-- The text of a byte sequence, broken parts replaced. -/
def lossy : List UInt8 → List Char
  | [] => []
  | b :: bs =>
    match lead? b with
    | none => '\uFFFD' :: lossy bs
    | some l =>
      let rest := following l.owed l.least l.greatest bs
      let c := if rest.length = l.owed then Char.ofNat (scalar b l.owed rest) else '\uFFFD'
      c :: lossy (bs.drop rest.length)
termination_by bs => bs.length
decreasing_by
  · simp
  · simp only [List.length_drop, List.length_cons]; omega

end Utf8

end FlatLisp
