import Universe.Library.Matching
import Universe.Trie

/-!
# What a search finds

The value at the end of a path is the last keyword with these characters.  A
search follows the paths that begin at a character of the text.
-/

namespace Universe

namespace Trie

open Utf8

namespace Node

/-- The value at the end of a path. -/
def valueAt : List Bytes → Node → Option Bytes
  | [], node => node.getValue
  | ch :: path, node => (node.getNext ch).bind (valueAt path)

section Operations

variable {node child : Node} {ch other value : Bytes} {path : List Bytes}

@[simp] theorem getNext_setValue :
    (node.setValue value).getNext ch = node.getNext ch := by
  cases node
  rfl

@[simp] theorem getValue_setValue :
    (node.setValue value).getValue = some value := by
  cases node
  rfl

@[simp] theorem getValue_addNext :
    (node.addNext ch child).getValue = node.getValue := by
  cases node
  rfl

theorem getNext_addNext :
    (node.addNext ch child).getNext other =
      if other = ch then some child else node.getNext other := by
  cases node
  refine Eq.trans OrderedMap.find_assign ?_
  exact if_congr eq_comm rfl rfl

theorem valueAt_empty (path : List Bytes) : valueAt path empty = none := by
  cases path with
  | nil => rfl
  | cons ch path => rfl

theorem valueAt_setValue :
    valueAt path (node.setValue value) =
      if path = [] then some value else valueAt path node := by
  cases path with
  | nil => exact getValue_setValue
  | cons ch path => simp [valueAt]

theorem valueAt_addNext_same :
    valueAt (ch :: path) (node.addNext ch child) = valueAt path child := by
  simp [valueAt, getNext_addNext]

theorem valueAt_addNext_ne (different : other ≠ ch) :
    valueAt (other :: path) (node.addNext ch child) =
      valueAt (other :: path) node := by
  simp [valueAt, getNext_addNext, different]

end Operations

/-- A keyword is inserted at the end of its characters. -/
theorem valueAt_insert (keyword : Bytes) {fuel offset : Nat} {node : Node}
    (enough : keyword.length - offset < fuel) (path : List Bytes) :
    valueAt path (node.insert keyword fuel offset) =
      if path = charactersFrom keyword offset then some keyword
      else valueAt path node := by
  induction fuel generalizing offset node path with
  | zero => omega
  | succ fuel induction =>
      unfold insert
      cases decoded : decodeChar keyword offset with
      | none =>
          rw [charactersFrom_of_none decoded]
          exact valueAt_setValue
      | some read =>
          obtain ⟨ch, after⟩ := read
          obtain ⟨-, later, within, -⟩ := decodeChar_split decoded
          rw [charactersFrom_of_some decoded]
          dsimp only
          cases path with
          | nil => exact getValue_addNext
          | cons other rest =>
              by_cases same : other = ch
              · subst same
                have below : valueAt rest ((node.getNext other).getD empty) =
                    valueAt (other :: rest) node := by
                  rw [valueAt]
                  cases node.getNext other with
                  | none => exact valueAt_empty rest
                  | some child => rfl
                rw [valueAt_addNext_same, induction (by omega), below]
                simp only [List.cons.injEq, true_and]
              · rw [valueAt_addNext_ne same, if_neg]
                intro whole
                exact same (List.cons.inj whole).1

end Node

/-- The last keyword with these characters. -/
def lastWith (keywords : List Bytes) (path : List Bytes) : Option Bytes :=
  (keywords.filter fun keyword =>
    keyword.length ≠ 0 ∧ characters keyword = path).getLast?

theorem ofKeywords_append (keywords : List Bytes) (keyword : Bytes) :
    ofKeywords (keywords ++ [keyword]) =
      if keyword.length = 0 then ofKeywords keywords
      else (ofKeywords keywords).insert keyword (keyword.length + 1) 0 := by
  simp [ofKeywords]

theorem lastWith_append (keywords : List Bytes) (keyword : Bytes)
    (path : List Bytes) :
    lastWith (keywords ++ [keyword]) path =
      if keyword.length ≠ 0 ∧ characters keyword = path then some keyword
      else lastWith keywords path := by
  unfold lastWith
  rw [List.filter_append]
  by_cases here : keyword.length ≠ 0 ∧ characters keyword = path
  · rw [if_pos here, List.filter_cons_of_pos (by simpa using here),
      List.filter_nil, List.getLast?_concat]
  · rw [if_neg here, List.filter_cons_of_neg (by simpa using here),
      List.filter_nil, List.append_nil]

theorem valueAt_ofKeywords (keywords : List Bytes) (path : List Bytes) :
    (ofKeywords keywords).valueAt path = lastWith keywords path := by
  induction keywords using List.reverseRecOn with
  | nil => exact Node.valueAt_empty path
  | append_singleton keywords keyword induction =>
      rw [ofKeywords_append, lastWith_append]
      by_cases empty : keyword.length = 0
      · rw [if_pos empty, if_neg (fun both => both.1 empty), induction]
      · have inserted : (if path = characters keyword then some keyword
            else lastWith keywords path) =
            if keyword.length ≠ 0 ∧ characters keyword = path then some keyword
            else lastWith keywords path := by
          simp only [ne_eq, empty, not_false_eq_true, true_and, eq_comm]
        rw [if_neg empty, Node.valueAt_insert keyword (by omega), induction]
        exact inserted

theorem lastWith_eq_some {keywords : List Bytes} {path : List Bytes}
    {keyword : Bytes} (last : lastWith keywords path = some keyword) :
    keyword ∈ keywords ∧ keyword ≠ [] ∧ characters keyword = path := by
  have member := List.mem_of_getLast? last
  obtain ⟨member, both⟩ := List.mem_filter.mp member
  obtain ⟨nonempty, same⟩ := of_decide_eq_true both
  exact ⟨member, List.ne_nil_of_length_pos (Nat.pos_of_ne_zero nonempty), same⟩

theorem exists_lastWith {keywords : List Bytes} {keyword : Bytes}
    (member : keyword ∈ keywords) (nonempty : keyword ≠ []) :
    ∃ last, lastWith keywords (characters keyword) = some last := by
  apply Option.isSome_iff_exists.mp
  rw [lastWith, List.getLast?_isSome]
  apply List.ne_nil_of_mem
  exact List.mem_filter.mpr ⟨member, by simpa using nonempty⟩

/-- Keywords that `decode_char` walks through are known by their characters. -/
theorem lastWith_walked {keywords : List Bytes}
    (walked : ∀ keyword ∈ keywords, Walked keyword) {path : List Bytes}
    {keyword : Bytes} :
    lastWith keywords path = some keyword ↔
      keyword ∈ keywords ∧ keyword ≠ [] ∧ characters keyword = path := by
  constructor
  · exact lastWith_eq_some
  · intro ⟨member, nonempty, same⟩
    subst same
    obtain ⟨last, found⟩ := exists_lastWith member nonempty
    obtain ⟨present, -, same⟩ := lastWith_eq_some found
    have bytes : last = keyword := by
      calc last = (characters last).flatten := (walked last present).symm
        _ = (characters keyword).flatten := by rw [same]
        _ = keyword := walked keyword member
    rw [found, bytes]

section Following

variable {text : Bytes} {fuel : Nat} {node : Node} {ch : Bytes}
  {nextOffset : Nat} {found : Found}

/-- The keys of a map. -/
def keys (entries : List (Bytes × Bool)) : List Bytes := entries.map Prod.fst

/-- Without a child no path goes on. -/
theorem valueAt_of_getNext_none {path word : List Bytes}
    (childless : node.getNext ch = none) (nonempty : path ≠ [])
    (begins : path <+: ch :: word) : node.valueAt path = none := by
  cases path with
  | nil => exact absurd rfl nonempty
  | cons other rest =>
      obtain ⟨rfl, -⟩ := List.cons_prefix_cons.mp begins
      simp [Node.valueAt, childless]

theorem valueAt_of_getNext_some {child : Node} {path : List Bytes}
    (goesOn : node.getNext ch = some child) :
    node.valueAt (ch :: path) = child.valueAt path := by
  simp [Node.valueAt, goesOn]

theorem exists_path_iff {child : Node} {word : List Bytes} {value : Bytes}
    (goesOn : node.getNext ch = some child) :
    (∃ path, path ≠ [] ∧ path <+: ch :: word ∧
        node.valueAt path = some value) ↔
      child.getValue = some value ∨ ∃ path, path ≠ [] ∧ path <+: word ∧
        child.valueAt path = some value := by
  constructor
  · intro ⟨path, nonempty, begins, known⟩
    cases path with
    | nil => exact absurd rfl nonempty
    | cons other rest =>
        obtain ⟨rfl, later⟩ := List.cons_prefix_cons.mp begins
        rw [valueAt_of_getNext_some goesOn] at known
        cases rest with
        | nil => exact .inl known
        | cons next rest => exact .inr ⟨next :: rest, by simp, later, known⟩
  · intro either
    rcases either with here | ⟨path, -, begins, known⟩
    · refine ⟨[ch], by simp, ?_, ?_⟩
      · exact List.cons_prefix_cons.mpr ⟨rfl, List.nil_prefix⟩
      · rw [valueAt_of_getNext_some goesOn]
        exact here
    · refine ⟨ch :: path, by simp, ?_, ?_⟩
      · exact List.cons_prefix_cons.mpr ⟨rfl, begins⟩
      · rw [valueAt_of_getNext_some goesOn]
        exact known

/-- What is known after a node with this value. -/
def Found.noted (noOverlap : Bool) (value : Option Bytes) (nextOffset : Nat)
    (found : Found) : Found :=
  value.elim found fun value => found.note noOverlap value nextOffset

section Step

variable {noOverlap : Bool} {child : Node}

theorem follow_of_none (childless : node.getNext ch = none) :
    follow text noOverlap (fuel + 1) node ch nextOffset found = found := by
  rw [follow, childless]

theorem follow_of_last (goesOn : node.getNext ch = some child)
    (ends : decodeChar text nextOffset = none) :
    follow text noOverlap (fuel + 1) node ch nextOffset found =
      found.noted noOverlap child.getValue nextOffset := by
  rw [follow, goesOn]
  dsimp only
  rw [ends]
  cases child.getValue with
  | none => rfl
  | some value => rfl

theorem follow_of_next {next : Bytes} {after : Nat}
    (goesOn : node.getNext ch = some child)
    (decoded : decodeChar text nextOffset = some (next, after)) :
    follow text noOverlap (fuel + 1) node ch nextOffset found =
      follow text noOverlap fuel child next after
        (found.noted noOverlap child.getValue nextOffset) := by
  rw [follow, goesOn]
  dsimp only
  rw [decoded]
  cases child.getValue with
  | none => rfl
  | some value => rfl

end Step

theorem mem_noted {given : Option Bytes} {value : Bytes} :
    value ∈ keys (found.noted false given nextOffset).result ↔
      value ∈ keys found.result ∨ given = some value := by
  cases given with
  | none => simp [Found.noted]
  | some kept =>
      have assigned : value ∈ keys (OrderedMap.assign kept true found.result) ↔
          value = kept ∨ value ∈ keys found.result :=
        OrderedMap.mem_keys_assign
      refine assigned.trans ?_
      rw [or_comm, eq_comm, Option.some.injEq]

/-- With overlaps, the values of all paths are recorded that begin here. -/
theorem mem_follow (enough : text.length - nextOffset < fuel) {value : Bytes} :
    value ∈ keys (follow text false fuel node ch nextOffset found).result ↔
      value ∈ keys found.result ∨ ∃ path, path ≠ [] ∧
        path <+: ch :: charactersFrom text nextOffset ∧
        node.valueAt path = some value := by
  induction fuel generalizing node ch nextOffset found with
  | zero => omega
  | succ fuel induction =>
      cases below : node.getNext ch with
      | none =>
          rw [follow_of_none below]
          constructor
          · exact .inl
          · intro either
            rcases either with before | ⟨path, nonempty, begins, known⟩
            · exact before
            · rw [valueAt_of_getNext_none below nonempty begins] at known
              cases known
      | some child =>
          rw [exists_path_iff below, ← or_assoc, ← mem_noted]
          cases decoded : decodeChar text nextOffset with
          | none =>
              rw [follow_of_last below decoded, charactersFrom_of_none decoded]
              constructor
              · exact .inl
              · intro either
                rcases either with before | ⟨path, nonempty, begins, -⟩
                · exact before
                · exact absurd (List.prefix_nil.mp begins) nonempty
          | some read =>
              obtain ⟨next, after⟩ := read
              obtain ⟨-, later, within, -⟩ := decodeChar_split decoded
              rw [follow_of_next below decoded, charactersFrom_of_some decoded]
              exact induction (by omega)

theorem ordered_follow (noOverlap : Bool)
    (ordered : OrderedMap.Ordered found.result) :
    OrderedMap.Ordered
      (follow text noOverlap fuel node ch nextOffset found).result := by
  have noted : ∀ {found : Found} (given : Option Bytes) (nextOffset : Nat),
      OrderedMap.Ordered found.result →
      OrderedMap.Ordered (found.noted noOverlap given nextOffset).result := by
    intro found given nextOffset ordered
    cases given with
    | none => exact ordered
    | some value =>
        cases noOverlap with
        | true => exact ordered
        | false => exact OrderedMap.ordered_assign ordered
  induction fuel generalizing node ch nextOffset found with
  | zero => exact ordered
  | succ fuel induction =>
      cases below : node.getNext ch with
      | none =>
          rw [follow_of_none below]
          exact ordered
      | some child =>
          cases decoded : decodeChar text nextOffset with
          | none =>
              rw [follow_of_last below decoded]
              exact noted _ _ ordered
          | some read =>
              rw [follow_of_next below decoded]
              exact induction (noted _ _ ordered)

/-- With overlaps no longest value is kept. -/
theorem follow_longestValue :
    (follow text false fuel node ch nextOffset found).longestValue =
      found.longestValue := by
  have noted : ∀ (found : Found) (given : Option Bytes) (nextOffset : Nat),
      (found.noted false given nextOffset).longestValue =
        found.longestValue := by
    intro found given nextOffset
    cases given with
    | none => rfl
    | some value => rfl
  induction fuel generalizing node ch nextOffset found with
  | zero => rfl
  | succ fuel induction =>
      cases below : node.getNext ch with
      | none => rw [follow_of_none below]
      | some child =>
          cases decoded : decodeChar text nextOffset with
          | none => rw [follow_of_last below decoded, noted]
          | some read => rw [follow_of_next below decoded, induction, noted]

/-- The paths that end at a value. -/
def Known (node : Node) (path : List Bytes) : Prop :=
  (node.valueAt path).isSome

section Longest

variable {child : Node} {word path : List Bytes}

theorem barren_of_none (childless : node.getNext ch = none) :
    Matching.Barren (Known node) (ch :: word) := by
  intro path nonempty known begins
  rw [Known, valueAt_of_getNext_none childless nonempty begins] at known
  cases known

theorem barren_of_child (goesOn : node.getNext ch = some child)
    (valueless : child.getValue = none)
    (barren : Matching.Barren (Known child) word) :
    Matching.Barren (Known node) (ch :: word) := by
  intro path nonempty known begins
  obtain ⟨value, known⟩ := Option.isSome_iff_exists.mp known
  rcases (exists_path_iff goesOn).mp ⟨path, nonempty, begins, known⟩ with
    here | ⟨below, nonempty, begins, known⟩
  · rw [valueless] at here
    cases here
  · exact barren below nonempty (Option.isSome_iff_exists.mpr ⟨value, known⟩)
      begins

theorem longest_of_child {value : Bytes} (goesOn : node.getNext ch = some child)
    (here : child.getValue = some value)
    (barren : Matching.Barren (Known child) word) :
    Matching.Longest (Known node) (ch :: word) [ch] := by
  refine ⟨by simp, ?_, List.cons_prefix_cons.mpr ⟨rfl, List.nil_prefix⟩, ?_⟩
  · have known : node.valueAt [ch] = some value := by
      rw [valueAt_of_getNext_some goesOn]
      exact here
    exact Option.isSome_iff_exists.mpr ⟨value, known⟩
  · intro other known begins
    cases other with
    | nil => exact Nat.zero_le _
    | cons first rest =>
        obtain ⟨rfl, later⟩ := List.cons_prefix_cons.mp begins
        rw [Known, valueAt_of_getNext_some goesOn] at known
        cases rest with
        | nil => exact Nat.le_refl _
        | cons next rest => exact absurd later (barren _ (by simp) known)

theorem longest_below (goesOn : node.getNext ch = some child)
    (longest : Matching.Longest (Known child) word path) :
    Matching.Longest (Known node) (ch :: word) (ch :: path) := by
  refine ⟨by simp, ?_, List.cons_prefix_cons.mpr ⟨rfl, longest.begins⟩, ?_⟩
  · rw [Known, valueAt_of_getNext_some goesOn]
    exact longest.known
  · intro other known begins
    cases other with
    | nil => exact Nat.zero_le _
    | cons first rest =>
        obtain ⟨rfl, later⟩ := List.cons_prefix_cons.mp begins
        rw [Known, valueAt_of_getNext_some goesOn] at known
        exact Nat.succ_le_succ (longest.longest rest known later)

end Longest

/-- What is kept of the longest path from a character on. -/
structure Kept (text : Bytes) (node : Node) (word : List Bytes)
    (nextOffset : Nat) (after : Found) (path : List Bytes) : Prop where
  longest : Matching.Longest (Known node) word path
  value : node.valueAt path = some after.longestValue
  later : nextOffset ≤ after.longestOffset
  rest : word = path ++ charactersFrom text after.longestOffset

/-- Without overlaps, the longest path is kept, with the offset behind it. -/
theorem follow_longest (enough : text.length - nextOffset < fuel) :
    let after := follow text true fuel node ch nextOffset found
    let word := ch :: charactersFrom text nextOffset
    after.result = found.result ∧
      ((Matching.Barren (Known node) word ∧ after = found) ∨
        ∃ path, Kept text node word nextOffset after path) := by
  dsimp only
  induction fuel generalizing node ch nextOffset found with
  | zero => omega
  | succ fuel induction =>
      cases below : node.getNext ch with
      | none =>
          rw [follow_of_none below]
          exact ⟨rfl, .inl ⟨barren_of_none below, rfl⟩⟩
      | some child =>
          -- What is kept when no path goes on behind the child.
          have ends : Matching.Barren (Known child)
              (charactersFrom text nextOffset) →
              (found.noted true child.getValue nextOffset).result =
                found.result ∧
              ((Matching.Barren (Known node)
                  (ch :: charactersFrom text nextOffset) ∧
                found.noted true child.getValue nextOffset = found) ∨
              ∃ path, Kept text node (ch :: charactersFrom text nextOffset)
                nextOffset (found.noted true child.getValue nextOffset)
                path) := by
            intro barren
            cases here : child.getValue with
            | none => exact ⟨rfl, .inl ⟨barren_of_child below here barren, rfl⟩⟩
            | some value =>
                refine ⟨rfl, .inr ⟨[ch], longest_of_child below here barren,
                  ?_, Nat.le_refl _, rfl⟩⟩
                rw [valueAt_of_getNext_some below]
                exact here
          cases decoded : decodeChar text nextOffset with
          | none =>
              rw [follow_of_last below decoded]
              apply ends
              rw [charactersFrom_of_none decoded]
              intro path nonempty _ begins
              exact nonempty (List.prefix_nil.mp begins)
          | some read =>
              obtain ⟨next, after⟩ := read
              obtain ⟨-, later, within, -⟩ := decodeChar_split decoded
              rw [follow_of_next below decoded]
              have noted : (found.noted true child.getValue nextOffset).result =
                  found.result := by
                cases child.getValue with
                | none => rfl
                | some value => rfl
              obtain ⟨result, outcome⟩ := @induction child next after
                (found.noted true child.getValue nextOffset) (by omega)
              rw [← charactersFrom_of_some decoded] at outcome
              rcases outcome with ⟨barren, same⟩ | ⟨path, kept⟩
              · rw [same]
                exact ends barren
              · refine ⟨result.trans noted, .inr ⟨ch :: path, ?_⟩⟩
                refine ⟨longest_below below kept.longest, ?_, ?_, ?_⟩
                · rw [valueAt_of_getNext_some below]
                  exact kept.value
                · exact Nat.le_trans (Nat.le_of_lt later) kept.later
                · rw [List.cons_append, ← kept.rest]

end Following

section Searching

variable {root : Node} {text : Bytes} {fuel offset : Nat}
  {result : List (Bytes × Bool)}

theorem ordered_searchFrom (noOverlap : Bool)
    (ordered : OrderedMap.Ordered result) :
    OrderedMap.Ordered
      (searchFrom root text noOverlap fuel offset result) := by
  induction fuel generalizing offset result with
  | zero => exact ordered
  | succ fuel induction =>
      unfold searchFrom
      cases decodeChar text offset with
      | none => exact ordered
      | some read =>
          have followed := @ordered_follow text (text.length + 1) root read.1
            read.2 { result } noOverlap ordered
          dsimp only
          split
          · exact induction (OrderedMap.ordered_assign followed)
          · exact induction followed

/-- With overlaps, the values of all paths inside the text are recorded. -/
theorem mem_searchFrom (enough : text.length - offset < fuel) {value : Bytes} :
    value ∈ keys (searchFrom root text false fuel offset result) ↔
      value ∈ keys result ∨ ∃ path, path ≠ [] ∧
        path <:+: charactersFrom text offset ∧
        root.valueAt path = some value := by
  induction fuel generalizing offset result with
  | zero => omega
  | succ fuel induction =>
      unfold searchFrom
      cases decoded : decodeChar text offset with
      | none =>
          rw [charactersFrom_of_none decoded]
          constructor
          · exact .inl
          · intro either
            rcases either with before | ⟨path, nonempty, within, -⟩
            · exact before
            · exact absurd (List.infix_nil.mp within) nonempty
      | some read =>
          obtain ⟨ch, after⟩ := read
          obtain ⟨-, later, bounded, -⟩ := decodeChar_split decoded
          rw [charactersFrom_of_some decoded]
          dsimp only
          rw [follow_longestValue, if_neg (by simp), induction (by omega),
            mem_follow (by omega)]
          constructor
          · intro either
            rcases either with (before | ⟨path, nonempty, begins, known⟩) |
              ⟨path, nonempty, within, known⟩
            · exact .inl before
            · exact .inr ⟨path, nonempty, begins.isInfix, known⟩
            · exact .inr ⟨path, nonempty, List.infix_cons within, known⟩
          · intro either
            rcases either with before | ⟨path, nonempty, within, known⟩
            · exact .inl (.inl before)
            · rcases List.infix_cons_iff.mp within with begins | within
              · exact .inl (.inr ⟨path, nonempty, begins, known⟩)
              · exact .inr ⟨path, nonempty, within, known⟩

/-- Without overlaps, the values of the paths are recorded that a scan picks. -/
theorem searchFrom_scan (enough : text.length - offset < fuel)
    (valued : ∀ path value, root.valueAt path = some value → value ≠ []) :
    ∃ picks, Matching.Scan (Known root) (charactersFrom text offset) picks ∧
      ∀ value, value ∈ keys (searchFrom root text true fuel offset result) ↔
        value ∈ keys result ∨
          ∃ path ∈ picks, root.valueAt path = some value := by
  induction fuel generalizing offset result with
  | zero => omega
  | succ fuel induction =>
      unfold searchFrom
      cases decoded : decodeChar text offset with
      | none =>
          rw [charactersFrom_of_none decoded]
          refine ⟨[], .nil, ?_⟩
          intro value
          simp
      | some read =>
          obtain ⟨ch, after⟩ := read
          obtain ⟨-, later, bounded, -⟩ := decodeChar_split decoded
          rw [charactersFrom_of_some decoded]
          dsimp only
          obtain ⟨same, outcome⟩ := @follow_longest text (text.length + 1)
            root ch after { result } (by omega)
          rcases outcome with ⟨barren, unchanged⟩ | ⟨path, kept⟩
          · rw [unchanged, if_neg (by simp)]
            obtain ⟨picks, scan, members⟩ := @induction after result (by omega)
            exact ⟨picks, .skip barren scan, members⟩
          · have nonempty := valued path _ kept.value
            have behind := kept.later
            rw [if_pos (by simpa using nonempty), same]
            obtain ⟨picks, scan, members⟩ := @induction _
              (OrderedMap.assign _ true result)
              (by omega : text.length - (follow text true (text.length + 1) root
                ch after { result }).longestOffset < fuel)
            refine ⟨path :: picks, ?_, ?_⟩
            · have longest := kept.longest
              rw [kept.rest] at longest ⊢
              exact .take longest scan
            · intro value
              have assigned : value ∈ keys (OrderedMap.assign (follow text true
                  (text.length + 1) root ch after { result }).longestValue true
                    result) ↔
                  root.valueAt path = some value ∨ value ∈ keys result := by
                rw [kept.value, Option.some.injEq, eq_comm]
                exact OrderedMap.mem_keys_assign
              rw [members, assigned]
              simp only [List.mem_cons, exists_eq_or_imp]
              rw [or_left_comm, or_assoc]

end Searching

end Trie

end Universe
