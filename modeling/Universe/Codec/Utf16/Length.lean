import Universe.Codec.Utf16

/-!
# How many characters `length` counts

The loop stops before the last unit, so that a text is one character short
unless nothing is left to the loop.
-/

namespace Universe

namespace Utf16

section Units

variable (host endian : Endian)

theorem length_write (unit : Nat) : (endian.write unit).length = 2 := by
  cases endian <;> rfl

theorem length_written (units : List Nat) :
    (units.flatMap endian.write).length = 2 * units.length := by
  induction units with
  | nil => rfl
  | cons unit units induction =>
      rw [List.flatMap_cons, List.length_append, length_write, induction,
        List.length_cons]
      omega

theorem drop_written (units : List Nat) (index : Nat) :
    (units.flatMap endian.write).drop (2 * index) =
      (units.drop index).flatMap endian.write := by
  induction index generalizing units with
  | zero => rfl
  | succ index induction =>
      cases units with
      | nil => exact List.drop_nil
      | cons unit units =>
          rw [List.flatMap_cons, Nat.mul_succ, Nat.add_comm, ← List.drop_drop,
            List.drop_left' (length_write endian unit), induction,
            List.drop_succ_cons]

theorem twoBytes_drop (s : Bytes) (offset : Nat) :
    twoBytes host endian s offset = twoBytes host endian (s.drop offset) 0 := by
  have byteAt : ∀ index, s.getD (offset + index) 0 =
      (s.drop offset).getD index 0 := by
    intro index
    rw [List.getD_eq_getElem?_getD, List.getD_eq_getElem?_getD,
      List.getElem?_drop]
  have same : copied host s offset = copied host (s.drop offset) 0 := by
    unfold copied
    rw [byteAt 1, show s.getD offset 0 = (s.drop offset).getD 0 0 from byteAt 0]
  unfold twoBytes
  rw [same]

/-- A unit that was written, as the host sees it. -/
theorem copied_write {unit : Nat} (small : unit < 0x10000) (rest : Bytes) :
    copied host (endian.write unit ++ rest) 0 =
      if endian = host then unit else swapEndian unit := by
  have high : (UInt8.ofNat (unit / 256)).toNat = unit / 256 := by
    rw [UInt8.toNat_ofNat']
    exact Nat.mod_eq_of_lt (by omega)
  have low : (UInt8.ofNat (unit / 1)).toNat = unit % 256 := by
    rw [UInt8.toNat_ofNat', Nat.div_one]
  unfold swapEndian
  cases host <;> cases endian <;>
    simp only [copied, Endian.write, Unicode.bigEndian, Unicode.littleEndian,
      List.reverse_cons, List.reverse_nil, List.nil_append, List.cons_append,
      List.getD_cons_zero, List.getD_cons_succ, Nat.pow_zero, Nat.pow_one,
      high, low, reduceCtorEq, if_true, if_false] <;>
    omega

theorem swapEndian_swapEndian {unit : Nat} (small : unit < 0x10000) :
    swapEndian (swapEndian unit) = unit := by
  unfold swapEndian
  omega

/-- What was written as a unit is read as that unit, on either host. -/
theorem twoBytes_write {unit : Nat} (small : unit < 0x10000) (rest : Bytes) :
    twoBytes host endian (endian.write unit ++ rest) 0 = unit := by
  unfold twoBytes
  rw [copied_write host endian small]
  split
  · rfl
  · exact swapEndian_swapEndian small

/-- The mark is the same in both orders. -/
theorem isMark_copied {unit : Nat} (small : unit < 0x10000) (rest : Bytes) :
    IsMark (copied host (endian.write unit ++ rest) 0) ↔ IsMark unit := by
  rw [copied_write host endian small]
  split
  · exact Iff.rfl
  · unfold IsMark swapEndian
    omega

end Units

section Counting

/-- The count over units that are all taken. -/
def counted : Count → List Nat → Nat
  | count, [] => count.n
  | count, unit :: units =>
      match count.take unit with
      | none => count.n
      | some count => counted count units

theorem take_whole {unit : Nat} (n : Nat) (whole : IsWhole unit) :
    Count.take ⟨n, false⟩ unit = some ⟨n + 1, false⟩ :=
  if_pos whole

theorem take_high {unit : Nat} (n : Nat) (low : 0xD800 ≤ unit)
    (high : unit ≤ 0xDBFF) : Count.take ⟨n, false⟩ unit = some ⟨n, true⟩ := by
  have surrogate : ¬ IsWhole unit := by
    unfold IsWhole
    omega
  unfold Count.take
  rw [if_neg (by simp), if_neg surrogate, if_neg (by omega)]

theorem take_low {unit : Nat} (n : Nat) (low : 0xDC00 ≤ unit)
    (high : unit ≤ 0xDFFF) :
    Count.take ⟨n, true⟩ unit = some ⟨n + 1, false⟩ := by
  unfold Count.take
  rw [if_pos rfl, if_pos ⟨low, high⟩]

/-- A character counts as one, whatever its units are. -/
theorem counted_text (text : List Char) (n : Nat) (units : List Nat) :
    counted ⟨n, false⟩ (text.flatMap Unicode.units ++ units) =
      counted ⟨n + text.length, false⟩ units := by
  induction text generalizing n with
  | nil => rfl
  | cons scalar text induction =>
      have others := induction (n + 1)
      rw [List.flatMap_cons, List.append_assoc, List.length_cons]
      rcases Unicode.units_cases scalar with
        ⟨one, -, whole⟩ | ⟨high, low, two, -, leads, leads', follows, follows'⟩
      · rw [one, List.singleton_append, counted, take_whole n whole]
        simp only
        rw [others]
        congr 2
        omega
      · rw [two, List.cons_append, List.singleton_append, counted,
          take_high n leads leads']
        simp only
        rw [counted, take_low n follows follows']
        simp only
        rw [others]
        congr 2
        omega

/-- Without its last unit a text counts one character less. -/
theorem counted_dropLast (text : List Char) (n : Nat) :
    counted ⟨n, false⟩ (text.flatMap Unicode.units).dropLast =
      n + (text.length - 1) := by
  rcases List.eq_nil_or_concat text with rfl | ⟨init, last, rfl⟩
  · rfl
  · have some : Unicode.units last ≠ [] :=
      List.ne_nil_of_length_pos (Unicode.length_units_pos last)
    rw [List.concat_eq_append, List.flatMap_append, List.flatMap_singleton,
      List.dropLast_append_of_ne_nil some, counted_text, List.length_append]
    rcases Unicode.units_cases last with
      ⟨one, -⟩ | ⟨high, low, two, -, leads, leads', -⟩
    · rw [one]
      rfl
    · rw [two, List.dropLast_cons_cons, List.dropLast_singleton, counted,
        take_high _ leads leads']
      rfl

variable (host endian : Endian) {units : List Nat}

theorem twoBytes_of_drop (small : ∀ unit ∈ units, unit < 0x10000)
    {index unit : Nat} {rest : List Nat}
    (remains : units.drop index = unit :: rest) :
    twoBytes host endian (units.flatMap endian.write) (2 * index) = unit := by
  have member : unit ∈ units := List.mem_of_mem_drop
    (remains ▸ List.mem_cons_self)
  rw [twoBytes_drop, drop_written, remains, List.flatMap_cons]
  exact twoBytes_write host endian (small unit member) _

/-- The loop comes to every unit that is left, but not to the last one. -/
theorem lengthFrom_written (small : ∀ unit ∈ units, unit < 0x10000)
    (fuel : Nat) : ∀ index count, units.length ≤ index + fuel →
      lengthFrom host endian (units.flatMap endian.write) fuel (2 * index)
          count = counted count (units.drop index).dropLast := by
  induction fuel with
  | zero =>
      intro index count enough
      have behind : units.drop index = [] := List.drop_eq_nil_of_le enough
      rw [behind]
      rfl
  | succ fuel induction =>
      intro index count enough
      unfold lengthFrom
      rw [length_written]
      cases remains : units.drop index with
      | nil =>
          have behind := List.drop_eq_nil_iff.mp remains
          rw [if_neg (by omega)]
          rfl
      | cons unit rest =>
          have size := congrArg List.length remains
          rw [List.length_drop, List.length_cons] at size
          have next : units.drop (index + 1) = rest := by
            rw [← List.drop_drop, remains]
            rfl
          cases rest with
          | nil =>
              rw [List.length_nil] at size
              rw [if_neg (by omega)]
              rfl
          | cons second rest =>
              rw [List.length_cons] at size
              rw [if_pos (by omega), twoBytes_of_drop host endian small remains,
                List.dropLast_cons_cons, counted]
              cases count.take unit with
              | none => rfl
              | some taken =>
                  have others := induction (index + 1) taken (by omega)
                  rw [next] at others
                  exact others

end Counting

/-- The units of a text, behind those of a mark. -/
def unitsOf (mark : Bool) (text : List Char) : List Nat :=
  (if mark then [0xFEFF] else []) ++ text.flatMap Unicode.units

theorem encoded_eq (endian : Endian) (mark : Bool) (text : List Char) :
    encoded endian mark text =
      (unitsOf mark text).flatMap endian.write := by
  cases mark with
  | false => rfl
  | true =>
      unfold unitsOf
      rw [if_pos rfl, List.flatMap_append, List.flatMap_singleton]
      rfl

theorem units_small (scalar : Char) :
    ∀ unit ∈ Unicode.units scalar, unit < 0x10000 := by
  intro unit member
  rcases Unicode.units_cases scalar with
    ⟨one, small, -⟩ | ⟨high, low, two, -, -, highest, -, lowest⟩
  · rw [one] at member
    rw [List.mem_singleton.mp member]
    exact small
  · rw [two] at member
    rcases List.mem_cons.mp member with rfl | follows
    · omega
    · rw [List.mem_singleton.mp follows]
      omega

theorem unitsOf_small (mark : Bool) (text : List Char) :
    ∀ unit ∈ unitsOf mark text, unit < 0x10000 := by
  intro unit member
  rcases List.mem_append.mp member with isMark | isText
  · cases mark with
    | false => cases isMark
    | true =>
        rw [List.mem_singleton.mp isMark]
        decide
  · obtain ⟨scalar, -, inside⟩ := List.mem_flatMap.mp isText
    exact units_small scalar unit inside

/-- The first unit is taken apart from the others. -/
theorem length_written_cons (host endian : Endian) {unit : Nat}
    {units : List Nat} (small : ∀ other ∈ unit :: units, other < 0x10000) :
    length host endian ((unit :: units).flatMap endian.write) =
      if IsMark unit then counted ⟨0, false⟩ units.dropLast
      else counted ⟨0, false⟩ (unit :: units.dropLast) := by
  have first : unit < 0x10000 := small unit List.mem_cons_self
  have size := length_written endian (unit :: units)
  rw [List.length_cons] at size
  have others : ∀ count, lengthFrom host endian
      ((unit :: units).flatMap endian.write)
      ((unit :: units).flatMap endian.write).length 2 count =
        counted count units.dropLast := by
    intro count
    exact lengthFrom_written host endian small _ 1 count (by
      rw [size, List.length_cons]
      omega)
  unfold length
  rw [if_neg (by omega), others]
  rw [List.flatMap_cons, twoBytes_write host endian first]
  simp only [isMark_copied host endian first]
  split
  · rfl
  · rw [counted, ← List.flatMap_cons]
    cases Count.take ⟨0, false⟩ unit with
    | none => rfl
    | some count => exact others count

/-- Behind a mark the last character is not counted. -/
theorem length_marked (host endian : Endian) (text : List Char) :
    length host endian (encoded endian true text) = text.length - 1 := by
  have isMark : IsMark 0xFEFF := Or.inl rfl
  have small : ∀ unit ∈ 0xFEFF :: text.flatMap Unicode.units,
      unit < 0x10000 := unitsOf_small true text
  rw [encoded_eq]
  change length host endian
    ((0xFEFF :: text.flatMap Unicode.units).flatMap endian.write) = _
  rw [length_written_cons host endian small, if_pos isMark, counted_dropLast,
    Nat.zero_add]

/-- One unit alone is all that the loop can not miss. -/
theorem length_unit (host endian : Endian) {scalar : Char}
    (small : scalar.toNat < 0x10000) (text : List Char) :
    length host endian (encoded endian false (scalar :: text)) =
      (if IsMark scalar.toNat then 0 else 1) + (text.length - 1) := by
  rcases Unicode.units_cases scalar with
    ⟨one, -, whole⟩ | ⟨-, -, -, large, -⟩
  · have split : unitsOf false (scalar :: text) =
        scalar.toNat :: text.flatMap Unicode.units := by
      unfold unitsOf
      rw [List.flatMap_cons, one]
      rfl
    have fits := unitsOf_small false (scalar :: text)
    rw [split] at fits
    rw [encoded_eq, split, length_written_cons host endian fits]
    split
    · rw [counted_dropLast]
    · rw [counted, take_whole 0 whole]
      simp only
      rw [counted_dropLast]
  · omega

/-- Of a surrogate pair the loop counts the second unit. -/
theorem length_pair (host endian : Endian) {scalar : Char}
    (large : 0x10000 ≤ scalar.toNat) (text : List Char) :
    length host endian (encoded endian false (scalar :: text)) =
      text.length := by
  rcases Unicode.units_cases scalar with
    ⟨-, small, -⟩ | ⟨high, low, two, -, least, most, -⟩
  · omega
  · have split : unitsOf false (scalar :: text) =
        high :: low :: text.flatMap Unicode.units := by
      unfold unitsOf
      rw [List.flatMap_cons, two]
      rfl
    have fits := unitsOf_small false (scalar :: text)
    have surrogate : ¬ IsMark high := by
      unfold IsMark
      omega
    have others := counted_dropLast (scalar :: text) 0
    rw [List.flatMap_cons, two, List.cons_append, List.singleton_append,
      List.dropLast_cons_cons] at others
    rw [split] at fits
    rw [encoded_eq, split, length_written_cons host endian fits,
      if_neg surrogate, others, List.length_cons]
    omega

/-- The length is right where nothing is left for the loop to miss. -/
theorem length_eq_iff (host endian : Endian) (mark : Bool)
    (text : List Char) :
    length host endian (encoded endian mark text) = text.length ↔
      text = [] ∨ mark = false ∧ ∃ scalar, text = [scalar] ∧
        scalar.toNat < 0x10000 ∧ ¬ IsMark scalar.toNat := by
  cases text with
  | nil =>
      refine iff_of_true ?_ (Or.inl rfl)
      cases mark with
      | false => rfl
      | true => exact length_marked host endian []
  | cons scalar text =>
      rw [List.length_cons]
      constructor
      · intro same
        right
        cases mark with
        | true =>
            rw [length_marked, List.length_cons] at same
            omega
        | false =>
            refine ⟨rfl, scalar, ?_⟩
            by_cases small : scalar.toNat < 0x10000
            · rw [length_unit host endian small] at same
              by_cases isMark : IsMark scalar.toNat
              · rw [if_pos isMark] at same
                omega
              · rw [if_neg isMark] at same
                have alone : text.length = 0 := by omega
                rw [List.eq_nil_of_length_eq_zero alone]
                exact ⟨rfl, small, isMark⟩
            · rw [length_pair host endian (Nat.le_of_not_lt small)] at same
              omega
      · rintro (none | ⟨rfl, other, alone, small, noMark⟩)
        · cases none
        · cases alone
          rw [length_unit host endian small, if_neg noMark]
          rfl

/-- Two letters count as one. -/
theorem length_two_letters :
    length .Little .Little (encoded .Little false ['a', 'b']) = 1 ∧
      length .Little .Big (encoded .Big true ['a']) = 0 := by
  decide

end Utf16

end Universe
