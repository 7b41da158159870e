import Universe.Php.Connections

/-!
# Lookup by weight

Each target owns as many residues as its weight.  `hash` computes the checksum
of a variable that is not set, so that every lookup is for the residue 0.
-/

namespace Universe.Php

/-- The checksum of one more byte, in eight steps. -/
def crc32Byte (crc : UInt32) (byte : UInt8) : UInt32 :=
  Nat.repeat (fun crc =>
    if crc &&& 1 = 1 then (crc >>> 1) ^^^ 0xEDB88320 else crc >>> 1)
    8 (crc ^^^ byte.toUInt32)

/-- `crc32`. -/
def crc32 (text : Bytes) : UInt32 :=
  text.foldl crc32Byte 0xFFFFFFFF ^^^ 0xFFFFFFFF

example : crc32 (ascii "123456789") = 0xCBF43926 := by decide +kernel

namespace ConsistentHash

/-- `hash` of a text: what is hashed is `$string`, which is not set. -/
def hashText (_resource : Bytes) : Int :=
  let string := Value.null
  (crc32 string.toText).toNat

/-- `$dividend % $divisor`; a remainder by 0 is none, but a warning and
`false`. -/
def remainder (dividend divisor : Int) : Option Int :=
  if divisor = 0 then none else some (dividend.tmod divisor)

/-- `$position` of `lookupTarget`. -/
def position (hasher : ConsistentHash) (resource : Bytes) : Option Int :=
  remainder (hashText resource) hasher.totalWeight

/-- `lookupTarget` of a text. -/
def lookupText (hasher : ConsistentHash) (resource : Bytes) : Value :=
  search (hasher.position resource) 0 hasher.targetList

/-- A number is looked up as its digits. -/
theorem lookupTarget_eq (hasher : ConsistentHash) (resource : Int) :
    hasher.lookupTarget resource = hasher.lookupText (decimal resource) := rfl

/-- The calls of `addTarget`, with their weights. -/
abbrev Calls := List (Value × Nat)

def addTargets (calls : Calls) : Option ConsistentHash :=
  calls.foldlM (fun hasher call => hasher.addTarget call.1 (.int call.2)) {}

def total (calls : Calls) : Nat := (calls.map (·.2)).sum

/-- The interval of a target, behind those of the targets before it, contains a
residue. -/
def Owns (calls : Calls) (residue : Nat) (target : Value) : Prop :=
  ∃ before weight after, calls = before ++ (target, weight) :: after ∧
    total before ≤ residue ∧ residue < total before + weight

/-- What is expected of the lookups behind some calls. -/
structure Sound (calls : Calls) (hasher : ConsistentHash) : Prop where
  /-- No remainder by zero is taken. -/
  defined : ∀ resource, hasher.position resource ≠ none
  fallback : total calls = 0 →
    (∀ resource, hasher.lookupText resource = .null) ∧
      ∀ mstInfo rand,
        MasterSlaveManager.info ⟨hasher, mstInfo⟩ (.slave rand) = mstInfo
  owner : 0 < total calls → ∀ resource,
    Owns calls ((crc32 resource).toNat % total calls)
      (hasher.lookupText resource)
  reached : ∀ target weight, (target, weight) ∈ calls → 0 < weight →
    ∃ resource, hasher.lookupText resource = target

@[simp] theorem total_nil : total [] = 0 := rfl

@[simp] theorem total_cons (call : Value × Nat) (calls : Calls) :
    total (call :: calls) = call.2 + total calls := rfl

/-- The hasher behind some calls. -/
theorem foldlM_addTarget (calls : Calls) (hasher : ConsistentHash) :
    calls.foldlM (fun hasher call => hasher.addTarget call.1 (.int call.2))
        hasher =
      some {
        totalWeight := hasher.totalWeight + total calls
        targetList := hasher.targetList ++
          calls.map fun call => (call.1, (call.2 : Int)) } := by
  induction calls generalizing hasher with
  | nil => simp
  | cons call calls induction =>
      rw [List.foldlM_cons]
      refine (induction _).trans ?_
      rw [total_cons]
      simp only [Value.toInt, List.map_cons, List.append_assoc,
        List.cons_append, List.nil_append]
      congr 2
      push_cast
      omega

theorem addTargets_eq (calls : Calls) :
    addTargets calls = some {
      totalWeight := total calls
      targetList := calls.map fun call => (call.1, (call.2 : Int)) } := by
  unfold addTargets
  rw [foldlM_addTarget]
  simp

theorem owns_cons {calls : Calls} {call : Value × Nat} {residue : Nat}
    {target : Value} :
    Owns (call :: calls) residue target ↔
      (residue < call.2 ∧ target = call.1) ∨
        (call.2 ≤ residue ∧ Owns calls (residue - call.2) target) := by
  constructor
  · rintro ⟨before, weight, after, whole, least, most⟩
    cases before with
    | nil =>
        cases whole
        rw [total_nil, Nat.zero_add] at most
        exact .inl ⟨most, rfl⟩
    | cons first before =>
        cases whole
        rw [total_cons] at least most
        exact .inr ⟨by omega, before, weight, after, rfl, by omega, by omega⟩
  · rintro (⟨less, rfl⟩ | ⟨least, before, weight, after, rfl, more, most⟩)
    · exact ⟨[], call.2, calls, rfl, Nat.zero_le _, by simpa using less⟩
    · refine ⟨call :: before, weight, after, rfl, ?_, ?_⟩
      · rw [total_cons]
        omega
      · rw [total_cons]
        omega

/-- Every residue has an owner. -/
theorem exists_owner {calls : Calls} {residue : Nat}
    (less : residue < total calls) : ∃ target, Owns calls residue target := by
  induction calls generalizing residue with
  | nil => exact absurd less (Nat.not_lt_zero residue)
  | cons call calls induction =>
      rw [total_cons] at less
      by_cases first : residue < call.2
      · exact ⟨call.1, owns_cons.mpr (.inl ⟨first, rfl⟩)⟩
      · have rest : residue - call.2 < total calls := by omega
        obtain ⟨target, owns⟩ := induction rest
        exact ⟨target, owns_cons.mpr (.inr ⟨by omega, owns⟩)⟩

/-- No residue has two owners. -/
theorem Owns.unique {calls : Calls} {residue : Nat} {first second : Value}
    (ownsFirst : Owns calls residue first)
    (ownsSecond : Owns calls residue second) : first = second := by
  induction calls generalizing residue with
  | nil =>
      obtain ⟨before, weight, after, whole, -⟩ := ownsFirst
      exact absurd whole (by simp)
  | cons call calls induction =>
      rcases owns_cons.mp ownsFirst with ⟨less, rfl⟩ | ⟨least, laterFirst⟩
      · rcases owns_cons.mp ownsSecond with ⟨-, same⟩ | ⟨least, -⟩
        · exact same.symm
        · omega
      · rcases owns_cons.mp ownsSecond with ⟨less, -⟩ | ⟨-, laterSecond⟩
        · omega
        · exact induction laterFirst laterSecond

/-- Every target of positive weight owns a residue. -/
theorem exists_residue {calls : Calls} {target : Value} {weight : Nat}
    (member : (target, weight) ∈ calls) (positive : 0 < weight) :
    ∃ residue < total calls, Owns calls residue target := by
  obtain ⟨before, after, rfl⟩ := List.append_of_mem member
  refine ⟨total before, ?_, before, weight, after, rfl, Nat.le_refl _, ?_⟩
  · simp only [total, List.map_append, List.sum_append, List.map_cons,
      List.sum_cons]
    omega
  · omega

/-- Only targets of positive weight own residues. -/
theorem Owns.mem {calls : Calls} {residue : Nat} {target : Value}
    (owns : Owns calls residue target) :
    ∃ weight, (target, weight) ∈ calls ∧ 0 < weight := by
  obtain ⟨before, weight, after, rfl, least, most⟩ := owns
  exact ⟨weight, by simp, by omega⟩

/-- The search for the residue 0, or for `false`, ends at the first target of
positive weight. -/
theorem search_eq (calls : Calls) {position : Option Int}
    (start : position = none ∨ position = some 0) :
    search position 0 (calls.map fun call => (call.1, (call.2 : Int))) =
      ((calls.find? fun call => 0 < call.2).map (·.1)).getD .null := by
  have found (weight : Nat) : below position weight = decide (0 < weight) := by
    rcases start with rfl | rfl
    · rw [Bool.eq_iff_iff]
      simp [below, Nat.pos_iff_ne_zero]
    · simp [below]
  induction calls with
  | nil => rfl
  | cons call calls induction =>
      rw [List.map_cons, search, Int.zero_add, found, List.find?_cons]
      by_cases positive : 0 < call.2
      · simp [positive]
      · obtain zero : call.2 = 0 := by omega
        simp [zero, induction]

/-- What every lookup returns. -/
def firstTarget (calls : Calls) : Value :=
  ((calls.find? fun call => 0 < call.2).map (·.1)).getD .null

theorem position_eq (hasher : ConsistentHash) (resource : Bytes) :
    hasher.position resource =
      if hasher.totalWeight = 0 then none else some 0 := by
  have zero : hashText resource = 0 := rfl
  rw [position, zero, remainder, Int.zero_tmod]

theorem lookupText_eq {calls : Calls} {hasher : ConsistentHash}
    (added : addTargets calls = some hasher) (resource : Bytes) :
    hasher.lookupText resource = firstTarget calls := by
  rw [addTargets_eq] at added
  cases added
  refine search_eq calls ?_
  rw [position_eq]
  split
  · exact .inl rfl
  · exact .inr rfl

theorem firstTarget_of_total {calls : Calls} (none : total calls = 0) :
    firstTarget calls = .null := by
  unfold firstTarget
  rw [List.find?_eq_none.mpr]
  · rfl
  · intro call member positive
    obtain ⟨residue, less, -⟩ :=
      exists_residue member (of_decide_eq_true positive)
    omega

theorem firstTarget_mem {calls : Calls} (some : 0 < total calls) :
    ∃ weight, (firstTarget calls, weight) ∈ calls ∧ 0 < weight := by
  obtain ⟨target, owns⟩ := exists_owner some
  obtain ⟨weight, member, positive⟩ := owns.mem
  unfold firstTarget
  cases found : calls.find? fun call => 0 < call.2 with
  | none =>
      exact absurd (decide_eq_true positive)
        (List.find?_eq_none.mp found _ member)
  | some call =>
      have weighted := List.find?_some found
      exact ⟨call.2, List.mem_of_find?_eq_some found,
        of_decide_eq_true weighted⟩

/-- Without any weight there is no target, and the master is used. -/
theorem fallback_of_total {calls : Calls} {hasher : ConsistentHash}
    (added : addTargets calls = some hasher) (zero : total calls = 0) :
    (∀ resource, hasher.lookupText resource = .null) ∧
      ∀ mstInfo rand,
        MasterSlaveManager.info ⟨hasher, mstInfo⟩ (.slave rand) = mstInfo := by
  have nothing (resource : Bytes) : hasher.lookupText resource = .null := by
    rw [lookupText_eq added, firstTarget_of_total zero]
  refine ⟨nothing, ?_⟩
  intro mstInfo rand
  rw [MasterSlaveManager.info, lookupTarget_eq, nothing]
  rfl

/-- The lookups are right exactly if all positive weight is that of one
target. -/
theorem sound_iff_single (calls : Calls)
    (residues : ∀ residue < total calls, ∃ resource,
      (crc32 resource).toNat % total calls = residue) :
    ∃ hasher, addTargets calls = some hasher ∧
      (Sound calls hasher ↔ ∃ target,
        (∃ weight, (target, weight) ∈ calls ∧ 0 < weight) ∧
          ∀ other ∈ calls, 0 < other.2 → other.1 = target) := by
  obtain ⟨hasher, added⟩ : ∃ hasher, addTargets calls = some hasher :=
    ⟨_, addTargets_eq calls⟩
  have weights : hasher.totalWeight = total calls := by
    rw [addTargets_eq] at added
    cases added
    rfl
  have lookup := lookupText_eq added
  refine ⟨hasher, added, ?_, ?_⟩
  · intro sound
    have positive : 0 < total calls := by
      have divisor := sound.defined []
      rw [position_eq, weights] at divisor
      by_contra zero
      exact divisor (if_pos (by omega))
    refine ⟨firstTarget calls, firstTarget_mem positive, ?_⟩
    intro other member weighted
    obtain ⟨residue, less, owns⟩ := exists_residue member weighted
    obtain ⟨resource, rfl⟩ := residues residue less
    have returned := sound.owner positive resource
    rw [lookup] at returned
    exact owns.unique returned
  · rintro ⟨target, ⟨weight, member, weighted⟩, single⟩
    obtain ⟨_, less, -⟩ := exists_residue member weighted
    have positive : 0 < total calls := by omega
    have first : firstTarget calls = target := by
      obtain ⟨_, found, foundWeighted⟩ := firstTarget_mem positive
      exact single (firstTarget calls, _) found foundWeighted
    constructor
    · intro resource
      rw [position_eq, weights, if_neg (by omega)]
      exact Option.some_ne_none 0
    · exact fallback_of_total added
    · intro total resource
      obtain ⟨owner, owns⟩ := exists_owner (Nat.mod_lt _ total)
      obtain ⟨_, there, thereWeighted⟩ := owns.mem
      have same : owner = target := single _ there thereWeighted
      rw [lookup, first, ← same]
      exact owns
    · intro other otherWeight there thereWeighted
      exact ⟨[], (lookup []).trans (first.trans
        (single _ there thereWeighted).symm)⟩

/-- Two calls for one node, among others without weight. -/
def oneNode : Calls :=
  [(.string (ascii "first"), 0), (.string (ascii "node"), 2),
    (.string (ascii "second"), 0), (.string (ascii "node"), 1)]

theorem single_node_sound :
    ∃ hasher, addTargets oneNode = some hasher ∧ Sound oneNode hasher := by
  have residues : ∀ residue < total oneNode, ∃ resource,
      (crc32 resource).toNat % total oneNode = residue := by
    intro residue less
    have three : residue = 0 ∨ residue = 1 ∨ residue = 2 := by
      have : total oneNode = 3 := rfl
      omega
    rcases three with rfl | rfl | rfl
    · exact ⟨ascii "a", by decide +kernel⟩
    · exact ⟨ascii "g", by decide +kernel⟩
    · exact ⟨ascii "b", by decide +kernel⟩
  obtain ⟨hasher, added, sound⟩ := sound_iff_single oneNode residues
  refine ⟨hasher, added, sound.mpr ⟨.string (ascii "node"), ⟨2, ?_, ?_⟩, ?_⟩⟩
  · simp [oneNode]
  · decide
  · intro other member weighted
    simp only [oneNode, List.mem_cons, List.not_mem_nil, or_false] at member
    rcases member with rfl | rfl | rfl | rfl
    · exact absurd weighted (Nat.lt_irrefl 0)
    · rfl
    · exact absurd weighted (Nat.lt_irrefl 0)
    · rfl

/-- Two nodes of the same weight. -/
def twoNodes : Calls :=
  [(.string (ascii "first"), 1), (.string (ascii "second"), 1)]

theorem second_node_never_used :
    ¬ ∀ (calls : Calls) (hasher : ConsistentHash),
      (∀ residue < total calls, ∃ resource,
        (crc32 resource).toNat % total calls = residue) →
      addTargets calls = some hasher → Sound calls hasher := by
  intro sound
  have residues : ∀ residue < total twoNodes, ∃ resource,
      (crc32 resource).toNat % total twoNodes = residue := by
    intro residue less
    have two : residue = 0 ∨ residue = 1 := by
      have : total twoNodes = 2 := rfl
      omega
    rcases two with rfl | rfl
    · exact ⟨[], by decide⟩
    · exact ⟨ascii "a", by decide +kernel⟩
  have added := addTargets_eq twoNodes
  obtain ⟨resource, returned⟩ := (sound twoNodes _ residues added).reached
    (.string (ascii "second")) 1 (by simp [twoNodes]) (by decide)
  rw [lookupText_eq added] at returned
  have first : firstTarget twoNodes = .string (ascii "first") := rfl
  rw [first] at returned
  injection returned with same
  revert same
  decide

end ConsistentHash

end Universe.Php
