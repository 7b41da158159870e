import Universe.Codec.Utf16.Length

/-!
# Which characters `decode_char` yields

Every call looks at the first unit of the text, wherever it is, and takes two
or four bytes as this unit has it.
-/

namespace Universe

namespace Utf16

/-- The offset that the last call which succeeded has left. -/
def stopOf (reads : List (Bytes × Nat)) : Nat :=
  (reads.getLast?.map Prod.snd).getD 0

/-- The calls yield the characters one by one, none of them reads behind the
end, and the next call returns false. -/
structure Iterates (host endian : Endian) (mark : Bool) (text : List Char) :
    Prop where
  yields : (characters host endian (encoded endian mark text)).map Prod.fst =
    text.map fun scalar => encoded endian false [scalar]
  inside : ∀ read ∈ characters host endian (encoded endian mark text),
    read.2 ≤ (encoded endian mark text).length
  ends : decodeChar host endian (encoded endian mark text)
    (stopOf (characters host endian (encoded endian mark text))) = none

theorem length_units_large {scalar : Char} (large : 0x10000 ≤ scalar.toNat) :
    (Unicode.units scalar).length = 2 := by
  rcases Unicode.units_cases scalar with ⟨-, low, -⟩ | ⟨_, _, two, -⟩
  · omega
  · rw [two]
    rfl

section Calls

variable (host endian : Endian) {unit : Nat} {units : List Nat}

/-- How many bytes every call takes. -/
def taken (unit : Nat) : Nat := if IsWhole unit then 2 else 4

theorem taken_cases (unit : Nat) :
    IsWhole unit ∧ taken unit = 2 ∨ ¬ IsWhole unit ∧ taken unit = 4 := by
  unfold taken
  by_cases whole : IsWhole unit
  · exact Or.inl ⟨whole, if_pos whole⟩
  · exact Or.inr ⟨whole, if_neg whole⟩

theorem decodeChar_of_length {s : Bytes} {offset charLength start : Nat}
    (found : decodeCharLength host endian s offset = (charLength, start))
    (more : 0 < charLength) (inside : start + charLength ≤ s.length) :
    decodeChar host endian s offset =
      some ((s.drop start).take charLength, start + charLength) := by
  have same : ((s ++ [0]).drop start).take charLength =
      (s.drop start).take charLength := by
    rw [List.drop_append_of_le_length (by omega), List.take_append_of_le_length]
    rw [List.length_drop]
    omega
  obtain ⟨charLength, rfl⟩ : ∃ others, charLength = others + 1 :=
    ⟨charLength - 1, by omega⟩
  unfold decodeChar
  rw [found, ← same]
  rfl

theorem decodeChar_of_zero {s : Bytes} {offset start : Nat}
    (failed : decodeCharLength host endian s offset = (0, start)) :
    decodeChar host endian s offset = none := by
  unfold decodeChar
  rw [failed]
  rfl

theorem decodeChar_written
    (small : ∀ other ∈ unit :: units, other < 0x10000) {index : Nat}
    (noMark : index = 0 → ¬ IsMark unit) :
    decodeChar host endian ((unit :: units).flatMap endian.write)
        (2 * index) =
      if index < units.length then
        some ((((unit :: units).drop index).flatMap endian.write).take
          (taken unit), 2 * index + taken unit)
      else none := by
  have first : twoBytes host endian ((unit :: units).flatMap endian.write) 0 =
      unit :=
    @twoBytes_of_drop host endian _ small 0 unit units rfl
  have size := length_written endian (unit :: units)
  have unmarked : ¬ (2 * index = 0 ∧ IsMark unit) := fun ⟨zero, isMark⟩ =>
    noMark (by omega) isMark
  rw [List.length_cons] at size
  by_cases more : index < units.length
  · rw [if_pos more, ← drop_written]
    apply decodeChar_of_length host endian
    · unfold decodeCharLength
      simp only [first, size]
      rw [if_pos (by omega), if_neg unmarked]
      rfl
    · rcases taken_cases unit with ⟨-, two⟩ | ⟨-, four⟩ <;> omega
    · rcases taken_cases unit with ⟨-, two⟩ | ⟨-, four⟩ <;> omega
  · rw [if_neg more]
    apply decodeChar_of_zero host endian
    unfold decodeCharLength
    simp only [size]
    rw [if_neg (by omega)]

/-- The mark and the first two units are taken in one call. -/
theorem decodeChar_marked
    (small : ∀ other ∈ unit :: units, other < 0x10000)
    (isMark : IsMark unit) :
    decodeChar host endian ((unit :: units).flatMap endian.write) 0 =
      if 1 < units.length then
        some ((units.flatMap endian.write).take 4, 6)
      else none := by
  have first : twoBytes host endian ((unit :: units).flatMap endian.write) 0 =
      unit :=
    @twoBytes_of_drop host endian _ small 0 unit units rfl
  have whole : IsWhole unit := by
    unfold IsWhole
    unfold IsMark at isMark
    omega
  have size := length_written endian (unit :: units)
  have behind := drop_written endian (unit :: units) 1
  rw [List.length_cons] at size
  rw [List.drop_succ_cons, List.drop_zero] at behind
  by_cases more : 1 < units.length
  · rw [if_pos more, ← behind]
    apply decodeChar_of_length host endian
    · unfold decodeCharLength
      simp only [first, size]
      rw [if_pos (by omega), if_pos ⟨trivial, isMark⟩, if_pos (by omega),
        if_pos whole]
    · decide
    · omega
  · rw [if_neg more]
    unfold decodeChar decodeCharLength
    simp only [first, size]
    by_cases alone : units.length = 0
    · rw [if_neg (by omega)]
      rfl
    · rw [if_pos (by omega), if_pos ⟨trivial, isMark⟩, if_neg (by omega)]
      rfl

/-- A call that succeeds goes on, and was not made at the end. -/
theorem decodeChar_later {s ch : Bytes} {offset after : Nat}
    (read : decodeChar host endian s offset = some (ch, after)) :
    offset < after ∧ offset < s.length := by
  have started : ∀ charLength start,
      decodeCharLength host endian s offset = (charLength, start) →
      offset ≤ start ∧ (0 < charLength → offset < s.length) := by
    intro charLength start found
    unfold decodeCharLength at found
    simp only at found
    split at found
    · split at found
      · next marked =>
          split at found
          · cases found
            exact ⟨by omega, fun _ => by omega⟩
          · cases found
            exact ⟨by omega, fun _ => by omega⟩
      · cases found
        exact ⟨Nat.le_refl _, fun _ => by omega⟩
    · cases found
      exact ⟨Nat.le_refl _, fun more => absurd more (by decide)⟩
  unfold decodeChar at read
  cases found : decodeCharLength host endian s offset with
  | mk charLength start =>
      obtain ⟨behind, inside⟩ := started charLength start found
      rw [found] at read
      cases charLength with
      | zero => cases read
      | succ others =>
          cases read
          exact ⟨by omega, inside (Nat.succ_pos _)⟩

/-- The calls are repeated until one of them returns false. -/
theorem decodeChars_ends {s : Bytes} (fuel : Nat) : ∀ offset,
    s.length - offset < fuel →
    decodeChar host endian s
      (((decodeChars host endian s fuel offset).getLast?.map
        Prod.snd).getD offset) = none := by
  induction fuel with
  | zero =>
      intro offset enough
      omega
  | succ fuel induction =>
      intro offset enough
      unfold decodeChars
      cases read : decodeChar host endian s offset with
      | none => exact read
      | some found =>
          obtain ⟨ch, after⟩ := found
          obtain ⟨later, inside⟩ := decodeChar_later host endian read
          have others := induction after (by omega)
          simp only
          rw [List.getLast?_cons]
          cases last :
              (decodeChars host endian s fuel after).getLast? with
          | none =>
              rw [last] at others
              exact others
          | some final =>
              rw [last] at others
              exact others

/-- The bytes of a read, and that they are there. -/
theorem taken_inside {index : Nat} (more : index < units.length) :
    ((((unit :: units).drop index).flatMap endian.write).take
        (taken unit)).length = taken unit ∧
      2 * index + taken unit ≤
        ((unit :: units).flatMap endian.write).length := by
  have size := length_written endian (unit :: units)
  have left := length_written endian ((unit :: units).drop index)
  rw [List.length_drop] at left
  rw [List.length_cons] at size left
  rw [List.length_take, left, size]
  rcases taken_cases unit with ⟨-, two⟩ | ⟨-, four⟩ <;> omega

/-- Every call takes as many bytes as the first one. -/
theorem decodeChars_inside
    (small : ∀ other ∈ unit :: units, other < 0x10000) (fuel : Nat) :
    ∀ index, (index = 0 → ¬ IsMark unit) →
      ∀ read ∈ decodeChars host endian
          ((unit :: units).flatMap endian.write) fuel (2 * index),
        read.1.length = taken unit ∧
          read.2 ≤ ((unit :: units).flatMap endian.write).length := by
  induction fuel with
  | zero =>
      intro index noMark read member
      cases member
  | succ fuel induction =>
      intro index noMark read member
      unfold decodeChars at member
      rw [decodeChar_written host endian small noMark] at member
      by_cases more : index < units.length
      · have bounds := @taken_inside endian unit units index more
        obtain ⟨half, next⟩ : ∃ half, 2 * index + taken unit = 2 * half := by
          rcases taken_cases unit with ⟨-, two⟩ | ⟨-, four⟩
          · exact ⟨index + 1, by omega⟩
          · exact ⟨index + 2, by omega⟩
        have later : half = 0 → ¬ IsMark unit := by
          intro zero
          rcases taken_cases unit with ⟨-, two⟩ | ⟨-, four⟩ <;> omega
        rw [if_pos more] at member
        rcases List.mem_cons.mp member with rfl | others
        · exact bounds
        · rw [next] at others
          exact induction half later read others
      · rw [if_neg more] at member
        cases member

/-- Where the first unit is a character, all units but the last are. -/
theorem length_decodeChars_whole
    (small : ∀ other ∈ unit :: units, other < 0x10000)
    (whole : IsWhole unit) (fuel : Nat) :
    ∀ index, (index = 0 → ¬ IsMark unit) → units.length - index < fuel →
      (decodeChars host endian ((unit :: units).flatMap endian.write) fuel
        (2 * index)).length = units.length - index := by
  induction fuel with
  | zero =>
      intro index noMark enough
      omega
  | succ fuel induction =>
      intro index noMark enough
      have two : taken unit = 2 := if_pos whole
      unfold decodeChars
      rw [decodeChar_written host endian small noMark, two]
      by_cases more : index < units.length
      · have others := induction (index + 1) (by omega) (by omega)
        rw [if_pos more]
        simp only
        rw [List.length_cons, ← Nat.mul_succ, others]
        omega
      · rw [if_neg more]
        exact (Nat.sub_eq_zero_of_le (Nat.le_of_not_lt more)).symm

theorem encoded_single (scalar : Char) :
    encoded endian false [scalar] =
      (Unicode.units scalar).flatMap endian.write := by
  rw [encoded_eq]
  unfold unitsOf
  rw [List.flatMap_singleton]
  rfl

theorem length_encoded_single (scalar : Char) :
    (encoded endian false [scalar]).length =
      2 * (Unicode.units scalar).length := by
  rw [encoded_single, length_written]

/-- Surrogate pairs are yielded one by one. -/
theorem decodeChars_pairs
    (small : ∀ other ∈ unit :: units, other < 0x10000)
    (surrogate : ¬ IsWhole unit) {rest : List Char}
    (pairs : ∀ scalar ∈ rest, 0x10000 ≤ scalar.toNat) :
    ∀ fuel index, rest.length < fuel →
      (unit :: units).drop index = rest.flatMap Unicode.units →
      (decodeChars host endian ((unit :: units).flatMap endian.write) fuel
          (2 * index)).map Prod.fst =
        rest.map fun scalar => encoded endian false [scalar] := by
  have four : taken unit = 4 := if_neg surrogate
  have noMark : ¬ IsMark unit := by
    unfold IsWhole at surrogate
    unfold IsMark
    omega
  induction rest with
  | nil =>
      intro fuel index enough remains
      obtain ⟨fuel, rfl⟩ : ∃ others, fuel = others + 1 :=
        ⟨fuel - 1, by rw [List.length_nil] at enough; omega⟩
      have behind : (unit :: units).length ≤ index :=
        List.drop_eq_nil_iff.mp remains
      rw [List.length_cons] at behind
      unfold decodeChars
      rw [decodeChar_written host endian small fun _ => noMark,
        if_neg (by omega)]
      rfl
  | cons scalar rest induction =>
      intro fuel index enough remains
      obtain ⟨fuel, rfl⟩ : ∃ others, fuel = others + 1 :=
        ⟨fuel - 1, by rw [List.length_cons] at enough; omega⟩
      have large := pairs scalar List.mem_cons_self
      rw [List.flatMap_cons] at remains
      have two := length_units_large large
      have size := congrArg List.length remains
      rw [List.length_drop, List.length_append, two, List.length_cons] at size
      have next : (unit :: units).drop (index + 2) =
          rest.flatMap Unicode.units := by
        rw [← List.drop_drop, remains, List.drop_left' two]
      have bytes : ((Unicode.units scalar ++
          rest.flatMap Unicode.units).flatMap endian.write).take 4 =
            encoded endian false [scalar] := by
        rw [encoded_single, List.flatMap_append]
        exact List.take_left' (by rw [length_written, two])
      have others := induction
        (fun other member => pairs other (List.mem_cons_of_mem _ member))
        fuel (index + 2) (Nat.lt_of_succ_lt_succ enough) next
      unfold decodeChars
      rw [decodeChar_written host endian small fun _ => noMark,
        if_pos (by omega), four, remains, bytes]
      simp only
      rw [List.map_cons, List.map_cons, ← others, Nat.mul_add]

end Calls

/-- Characters that all take so many bytes. -/
theorem length_flatten_of {chars : List Bytes} {size : Nat}
    (same : ∀ ch ∈ chars, ch.length = size) :
    chars.flatten.length = size * chars.length := by
  induction chars with
  | nil => rfl
  | cons ch chars induction =>
      rw [List.flatten_cons, List.length_append, same ch List.mem_cons_self,
        induction fun other member => same other (List.mem_cons_of_mem _ member),
        List.length_cons, Nat.mul_succ, Nat.add_comm]

theorem flatten_encoded (endian : Endian) (text : List Char) :
    (text.map fun scalar => encoded endian false [scalar]).flatten =
      (text.flatMap Unicode.units).flatMap endian.write := by
  induction text with
  | nil => rfl
  | cons scalar text induction =>
      rw [List.map_cons, List.flatten_cons, induction, encoded_single,
        List.flatMap_cons, List.flatMap_append]

theorem length_le_units (text : List Char) :
    text.length ≤ (text.flatMap Unicode.units).length := by
  induction text with
  | nil => exact Nat.le_refl 0
  | cons scalar text induction =>
      have some := Unicode.length_units_pos scalar
      rw [List.flatMap_cons, List.length_append, List.length_cons]
      omega

/-- A character of four bytes is not one of the first 65536. -/
theorem large_of_length {endian : Endian} {scalar : Char}
    (four : (encoded endian false [scalar]).length = 4) :
    0x10000 ≤ scalar.toNat := by
  rw [length_encoded_single] at four
  rcases Unicode.units_cases scalar with ⟨one, -⟩ | ⟨_, _, -, large, -⟩
  · rw [one, List.length_singleton] at four
    omega
  · exact large

section Texts

variable (host endian : Endian) {unit : Nat} {units : List Nat}
  {text : List Char}

theorem characters_ends (s : Bytes) :
    decodeChar host endian s (stopOf (characters host endian s)) = none :=
  decodeChars_ends host endian (s.length + 1) 0 (Nat.lt_succ_self _)

theorem characters_of_some {s ch : Bytes} {after : Nat}
    (read : decodeChar host endian s 0 = some (ch, after)) :
    characters host endian s =
      (ch, after) :: decodeChars host endian s s.length after := by
  rw [characters, decodeChars, read]

/-- A text that begins with a whole unit loses its last one. -/
theorem short_of_whole
    (small : ∀ other ∈ unit :: units, other < 0x10000)
    (whole : IsWhole unit) (noMark : ¬ IsMark unit)
    (isText : text.flatMap Unicode.units = unit :: units) :
    (characters host endian
        ((unit :: units).flatMap endian.write)).map Prod.fst ≠
      text.map fun scalar => encoded endian false [scalar] := by
  intro yields
  have size := length_written endian (unit :: units)
  have reads : (characters host endian
      ((unit :: units).flatMap endian.write)).length = units.length :=
    length_decodeChars_whole host endian small whole _ 0 (fun _ => noMark)
      (by rw [size, List.length_cons]; omega)
  have two : ∀ ch ∈ (characters host endian
      ((unit :: units).flatMap endian.write)).map Prod.fst, ch.length = 2 := by
    intro ch member
    obtain ⟨read, among, rfl⟩ := List.mem_map.mp member
    have bytes := (decodeChars_inside host endian small _ 0
      (fun _ => noMark) read among).1
    exact bytes.trans (if_pos whole)
  have total := length_flatten_of two
  rw [yields, flatten_encoded, isText, size, List.length_map,
    ← List.length_map (f := fun scalar => encoded endian false [scalar]),
    ← yields, List.length_map, reads, List.length_cons] at total
  omega

theorem iterates_unmarked {scalar : Char}
    (noMark : ¬ IsMark scalar.toNat) :
    Iterates host endian false (scalar :: text) ↔
      ∀ other ∈ scalar :: text, 0x10000 ≤ other.toNat := by
  have small := unitsOf_small false (scalar :: text)
  have isText : unitsOf false (scalar :: text) =
      (scalar :: text).flatMap Unicode.units := rfl
  have written := encoded_eq endian false (scalar :: text)
  rw [isText] at small written
  rcases Unicode.units_cases scalar with
    ⟨one, low, whole⟩ | ⟨high, low, two, -, least, most, -⟩
  · have begins : (scalar :: text).flatMap Unicode.units =
        scalar.toNat :: text.flatMap Unicode.units := by
      rw [List.flatMap_cons, one]
      rfl
    rw [begins] at small written
    constructor
    · intro iterates
      have yields := iterates.yields
      rw [written] at yields
      exact absurd yields
        (short_of_whole host endian small whole noMark begins)
    · intro pairs
      exact absurd (pairs scalar List.mem_cons_self) (Nat.not_le.mpr low)
  · have begins : (scalar :: text).flatMap Unicode.units =
        high :: low :: text.flatMap Unicode.units := by
      rw [List.flatMap_cons, two]
      rfl
    have surrogate : ¬ IsWhole high := by
      unfold IsWhole
      omega
    have isFirst : ¬ IsMark high := by
      unfold IsMark
      omega
    have four : taken high = 4 := if_neg surrogate
    rw [begins] at small written
    have reads := decodeChars_inside host endian small
      (((high :: low :: text.flatMap Unicode.units).flatMap
        endian.write).length + 1) 0 (fun _ => isFirst)
    constructor
    · intro iterates other member
      have yields := iterates.yields
      rw [written] at yields
      apply @large_of_length endian other
      have among : encoded endian false [other] ∈ (scalar :: text).map
          fun scalar => encoded endian false [scalar] :=
        List.mem_map_of_mem member
      rw [← yields] at among
      obtain ⟨read, isRead, same⟩ := List.mem_map.mp among
      rw [← same, ← four]
      exact (reads read isRead).1
    · intro pairs
      have size := length_written endian
        (high :: low :: text.flatMap Unicode.units)
      have enough : text.length ≤ (text.flatMap Unicode.units).length :=
        length_le_units text
      refine ⟨?_, ?_, characters_ends host endian _⟩
      · rw [written]
        apply decodeChars_pairs host endian small surrogate pairs _ 0 _
          begins.symm
        rw [size, List.length_cons, List.length_cons, List.length_cons]
        omega
      · rw [written]
        intro read member
        exact (reads read member).2

/-- Behind a mark the first read takes two units, the others one. -/
theorem characters_marked (text : List Char)
    (some : 1 < (text.flatMap Unicode.units).length) :
    ∃ reads, characters host endian (encoded endian true text) =
        (((text.flatMap Unicode.units).flatMap endian.write).take 4, 6) ::
          reads ∧
      reads.length = (text.flatMap Unicode.units).length - 3 ∧
      ∀ read ∈ reads, read.1.length = 2 := by
  have small : ∀ other ∈ 0xFEFF :: text.flatMap Unicode.units,
      other < 0x10000 := unitsOf_small true text
  have isMark : IsMark 0xFEFF := Or.inl rfl
  have whole : IsWhole 0xFEFF := Or.inr (by decide)
  have size := length_written endian (0xFEFF :: text.flatMap Unicode.units)
  have later : 3 = 0 → ¬ IsMark 0xFEFF := fun zero => absurd zero (by decide)
  have written : encoded endian true text =
      (0xFEFF :: text.flatMap Unicode.units).flatMap endian.write :=
    encoded_eq endian true text
  rw [written]
  refine ⟨decodeChars host endian
    ((0xFEFF :: text.flatMap Unicode.units).flatMap endian.write)
    ((0xFEFF :: text.flatMap Unicode.units).flatMap endian.write).length
    (2 * 3), ?_, ?_, ?_⟩
  · apply characters_of_some host endian
    rw [decodeChar_marked host endian small isMark, if_pos some]
  · apply length_decodeChars_whole host endian small whole _ 3 later
    rw [size, List.length_cons]
    omega
  · intro read member
    exact (decodeChars_inside host endian small _ 3 later read member).1

theorem characters_marked_short (text : List Char)
    (few : (text.flatMap Unicode.units).length ≤ 1) :
    characters host endian (encoded endian true text) = [] := by
  have small : ∀ other ∈ 0xFEFF :: text.flatMap Unicode.units,
      other < 0x10000 := unitsOf_small true text
  rw [encoded_eq]
  change characters host endian
    ((0xFEFF :: text.flatMap Unicode.units).flatMap endian.write) = _
  unfold characters decodeChars
  rw [decodeChar_marked host endian small (Or.inl rfl),
    if_neg (Nat.not_lt.mpr few)]

theorem iterates_marked :
    Iterates host endian true text ↔
      (∀ scalar ∈ text, 0x10000 ≤ scalar.toNat) ∧ text.length ≤ 1 := by
  constructor
  · intro iterates
    have yields := iterates.yields
    by_cases some : 1 < (text.flatMap Unicode.units).length
    · obtain ⟨reads, isReads, count, two⟩ :=
        characters_marked host endian text some
      have written := length_written endian (text.flatMap Unicode.units)
      have four : (((text.flatMap Unicode.units).flatMap
          endian.write).take 4).length = 4 := by
        rw [List.length_take, written]
        omega
      have total := congrArg (fun chars => chars.flatten.length) yields
      have others : (reads.map Prod.fst).flatten.length = 2 * reads.length := by
        have same := @length_flatten_of (reads.map Prod.fst) 2 (by
          intro ch member
          obtain ⟨read, among, rfl⟩ := List.mem_map.mp member
          exact two read among)
        rwa [List.length_map] at same
      rw [isReads, List.map_cons, List.flatten_cons, List.length_append, four,
        others, flatten_encoded, written] at total
      have single : text.length = 1 := by
        have lengths := congrArg List.length yields
        rw [isReads, List.length_map, List.length_map,
          List.length_cons] at lengths
        omega
      obtain ⟨scalar, rfl⟩ := List.length_eq_one_iff.mp single
      refine ⟨?_, Nat.le_refl 1⟩
      intro other member
      rw [List.mem_singleton.mp member]
      apply @large_of_length endian scalar
      rw [isReads, List.map_cons, List.map_cons] at yields
      rw [← (List.cons.inj yields).1]
      exact four
    · rw [characters_marked_short host endian text
        (Nat.le_of_not_lt some)] at yields
      have none : text = [] := List.map_eq_nil_iff.mp yields.symm
      rw [none]
      exact ⟨fun scalar member => absurd member List.not_mem_nil,
        Nat.zero_le 1⟩
  · intro ⟨pairs, few⟩
    rcases text with _ | ⟨scalar, rest⟩
    · have reads := characters_marked_short host endian [] (Nat.zero_le 1)
      refine ⟨?_, ?_, characters_ends host endian _⟩
      · rw [reads]
        rfl
      · rw [reads]
        intro read member
        cases member
    · have alone : rest = [] := by
        apply List.eq_nil_of_length_eq_zero
        rw [List.length_cons] at few
        omega
      have large := pairs scalar List.mem_cons_self
      have two : (Unicode.units scalar).length = 2 := length_units_large large
      rw [alone]
      have isUnits : [scalar].flatMap Unicode.units = Unicode.units scalar :=
        List.flatMap_singleton Unicode.units scalar
      obtain ⟨reads, isReads, count, -⟩ :=
        characters_marked host endian [scalar] (by rw [isUnits, two]; decide)
      rw [isUnits, two] at count
      rw [List.eq_nil_of_length_eq_zero count, isUnits] at isReads
      have bytes := length_encoded_single endian scalar
      rw [two] at bytes
      refine ⟨?_, ?_, characters_ends host endian _⟩
      · rw [isReads, ← encoded_single, List.take_of_length_le (by omega)]
        rfl
      · rw [isReads]
        intro read member
        have size := length_written endian (unitsOf true [scalar])
        rw [List.mem_singleton.mp member, encoded_eq, size]
        unfold unitsOf
        rw [isUnits, List.length_append, two]
        exact Nat.le_refl 6

end Texts

/-- The calls yield the characters where all are surrogate pairs, and behind a
mark no more than one. -/
theorem iterates_iff (host endian : Endian) (mark : Bool) {text : List Char}
    (noMark : ∀ scalar ∈ text, ¬ IsMark scalar.toNat) :
    Iterates host endian mark text ↔
      (∀ scalar ∈ text, 0x10000 ≤ scalar.toNat) ∧
        (mark = true → text.length ≤ 1) := by
  cases mark with
  | true =>
      rw [iterates_marked]
      exact and_congr_right fun _ => ⟨fun few _ => few, fun few => few rfl⟩
  | false =>
      cases text with
      | nil =>
          refine iff_of_true ⟨rfl, ?_, characters_ends host endian _⟩ ?_
          · intro read member
            cases member
          · exact ⟨fun scalar member => absurd member List.not_mem_nil,
              fun marked => absurd marked (by decide)⟩
      | cons scalar text =>
          have first := noMark scalar List.mem_cons_self
          rw [iterates_unmarked host endian first]
          exact ⟨fun pairs => ⟨pairs, fun marked => absurd marked (by decide)⟩,
            And.left⟩

theorem iterates_iff_pair : Iterates .Little .Big true ['😀'] := by
  have only : ∀ scalar ∈ ['😀'], scalar = '😀' :=
    fun scalar member => List.mem_singleton.mp member
  refine (iterates_iff .Little .Big true ?_).mpr ⟨?_, ?_⟩
  · intro scalar member
    rw [only scalar member]
    decide
  · intro scalar member
    rw [only scalar member]
    decide
  · intro marked
    exact Nat.le_refl 1

/-- The second of two letters is not yielded. -/
theorem characters_two_letters :
    characters .Little .Little (encoded .Little false ['a', 'b']) =
        [([97, 0], 2)] ∧
      ¬ Iterates .Little .Little false ['a', 'b'] := by
  have read : characters .Little .Little (encoded .Little false ['a', 'b']) =
      [([97, 0], 2)] := by
    decide
  refine ⟨read, ?_⟩
  intro iterates
  have yields := iterates.yields
  rw [read] at yields
  exact absurd yields (by decide)

end Utf16

end Universe
