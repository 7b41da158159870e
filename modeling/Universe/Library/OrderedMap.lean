import Mathlib.Data.List.Basic

/-!
# Maps in the order of their keys

A map is the list of its entries.  Assigning to a key keeps the order, and every
key has one entry.
-/

namespace OrderedMap

variable {κ ν : Type} [DecidableEq κ]

/-- `map.find(key)`. -/
def find (key : κ) (entries : List (κ × ν)) : Option ν := entries.lookup key

/-- The keys come in their order, each of them once. -/
def Ordered [LT κ] (entries : List (κ × ν)) : Prop :=
  entries.Pairwise fun first second => first.1 < second.1

variable {entries : List (κ × ν)} {key other : κ} {value : ν}

theorem find_cons (entry : κ × ν) (entries : List (κ × ν)) (key : κ) :
    find key (entry :: entries) =
      if entry.1 = key then some entry.2 else find key entries := by
  unfold find
  rw [List.lookup_cons]
  by_cases same : entry.1 = key
  · subst same
    rw [beq_self_eq_true, if_pos rfl]
  · rw [beq_eq_false_iff_ne.mpr (Ne.symm same), if_neg same]

theorem mem_of_find (found : find key entries = some value) :
    (key, value) ∈ entries := by
  induction entries with
  | nil => cases found
  | cons entry entries induction =>
      rw [find_cons] at found
      split at found
      · next same =>
          cases found
          rw [← same]
          exact List.mem_cons_self
      · exact List.mem_cons_of_mem _ (induction found)

theorem find_of_mem [LE κ] [LT κ] [Std.LawfulOrderLT κ]
    (ordered : Ordered entries) {entry : κ × ν} (member : entry ∈ entries) :
    find entry.1 entries = some entry.2 := by
  induction entries with
  | nil => cases member
  | cons first entries induction =>
      obtain ⟨less, later⟩ := List.pairwise_cons.mp ordered
      rw [find_cons]
      rcases List.mem_cons.mp member with rfl | member
      · rw [if_pos rfl]
      · have different : first.1 ≠ entry.1 := by
          intro same
          have smaller : first.1 < entry.1 := less entry member
          rw [same] at smaller
          exact Std.lt_irrefl smaller
        rw [if_neg different]
        exact induction later member

variable [LT κ] [DecidableLT κ]

/-- `map[key] = value`. -/
def assign (key : κ) (value : ν) : List (κ × ν) → List (κ × ν)
  | [] => [(key, value)]
  | (other, kept) :: rest =>
      if other = key then (key, value) :: rest
      else if key < other then (key, value) :: (other, kept) :: rest
      else (other, kept) :: assign key value rest

theorem find_assign :
    find other (assign key value entries) =
      if key = other then some value else find other entries := by
  induction entries with
  | nil => exact find_cons (key, value) [] other
  | cons entry entries induction =>
      obtain ⟨first, kept⟩ := entry
      unfold assign
      split
      · next same =>
          subst same
          rw [find_cons, find_cons]
          by_cases here : first = other
          · rw [if_pos here, if_pos here]
          · rw [if_neg here, if_neg here, if_neg here]
      · next different =>
          split
          · exact find_cons (key, value) ((first, kept) :: entries) other
          · rw [find_cons, find_cons, induction]
            by_cases here : first = other
            · subst here
              rw [if_pos rfl, if_neg (Ne.symm different), if_pos rfl]
            · rw [if_neg here, if_neg here]

theorem mem_assign {entry : κ × ν} (member : entry ∈ assign key value entries) :
    entry = (key, value) ∨ entry ∈ entries := by
  induction entries with
  | nil => exact .inl (List.mem_singleton.mp member)
  | cons first entries induction =>
      obtain ⟨other, kept⟩ := first
      unfold assign at member
      split at member
      · rcases List.mem_cons.mp member with same | member
        · exact .inl same
        · exact .inr (List.mem_cons_of_mem _ member)
      · split at member
        · exact List.mem_cons.mp member
        · rcases List.mem_cons.mp member with same | member
          · exact .inr (same ▸ List.mem_cons_self)
          · exact (induction member).imp_right (List.mem_cons_of_mem _)

theorem mem_keys_assign :
    other ∈ (assign key value entries).map Prod.fst ↔
      other = key ∨ other ∈ entries.map Prod.fst := by
  induction entries with
  | nil => simp [assign]
  | cons entry entries induction =>
      obtain ⟨first, kept⟩ := entry
      unfold assign
      split
      · next here =>
          subst here
          simp
      · split
        · simp
        · rw [List.map_cons, List.mem_cons, induction, List.map_cons,
            List.mem_cons]
          exact or_left_comm

section Orders

variable [LE κ] [Std.IsLinearOrder κ] [Std.LawfulOrderLT κ]

theorem ordered_assign (ordered : Ordered entries) :
    Ordered (assign key value entries) := by
  induction entries with
  | nil => exact List.pairwise_singleton _ _
  | cons entry entries induction =>
      obtain ⟨other, kept⟩ := entry
      obtain ⟨first, later⟩ := List.pairwise_cons.mp ordered
      unfold assign
      split
      · next same =>
          subst same
          exact List.pairwise_cons.mpr ⟨first, later⟩
      · next different =>
          split
          · next less =>
              refine List.pairwise_cons.mpr ⟨?_, ordered⟩
              intro entry member
              rcases List.mem_cons.mp member with rfl | member
              · exact less
              · exact Std.lt_trans less (first entry member)
          · next notLess =>
              refine List.pairwise_cons.mpr ⟨?_, induction later⟩
              intro entry member
              rcases mem_assign member with rfl | member
              · exact Std.lt_of_le_of_ne (Std.not_lt.mp notLess) different
              · exact first entry member

/-- A key behind all others goes to the end. -/
theorem assign_last (before : ∀ entry ∈ entries, entry.1 < key) :
    assign key value entries = entries ++ [(key, value)] := by
  induction entries with
  | nil => rfl
  | cons entry entries induction =>
      obtain ⟨other, kept⟩ := entry
      obtain ⟨first, later⟩ := List.forall_mem_cons.mp before
      have less : other < key := first
      have different : other ≠ key := by
        rintro rfl
        exact Std.lt_irrefl less
      unfold assign
      rw [if_neg different, if_neg (Std.not_lt.mpr (Std.le_of_lt less)),
        induction later]
      rfl

/-- A key that is there keeps its place. -/
theorem assign_present (ordered : Ordered entries)
    (present : ∃ entry ∈ entries, entry.1 = key) :
    assign key value entries =
      entries.map fun entry =>
        if entry.1 = key then (key, value) else entry := by
  induction entries with
  | nil => simp at present
  | cons entry entries induction =>
      obtain ⟨other, kept⟩ := entry
      obtain ⟨first, later⟩ := List.pairwise_cons.mp ordered
      unfold assign
      by_cases same : other = key
      · subst same
        have unchanged : entries.map (fun entry =>
            if entry.1 = other then (other, value) else entry) = entries := by
          refine (List.map_congr_left ?_).trans (List.map_id entries)
          intro entry member
          have less : other < entry.1 := first entry member
          rw [if_neg (by intro same; rw [same] at less; exact Std.lt_irrefl less)]
          rfl
        simp [unchanged]
      · obtain ⟨entry, member, isKey⟩ := present
        have member : entry ∈ entries := by
          rcases List.mem_cons.mp member with rfl | member
          · exact absurd isKey same
          · exact member
        have less : other < key := isKey ▸ first entry member
        rw [if_neg same, if_neg (Std.not_lt.mpr (Std.le_of_lt less)),
          induction later ⟨entry, member, isKey⟩]
        simp [same]

end Orders

end OrderedMap
