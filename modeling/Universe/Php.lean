import Universe.Http

/-!
# Values of PHP

Arrays are lists of their entries in order, keys are numbers or texts.  What
the language does with a value of another type than expected is a warning, and
the value below.
-/

namespace Universe.Php

inductive Key where
  | int (number : Int)
  | text (text : Bytes)
  deriving DecidableEq

inductive Value where
  | null
  | bool (value : Bool)
  | int (number : Int)
  | string (text : Bytes)
  | array (entries : List (Key × Value))

namespace Value

/-- `$array[$key]` of the entries. -/
def lookup (entries : List (Key × Value)) (key : Key) : Value :=
  match entries.find? fun entry => entry.1 = key with
  | some entry => entry.2
  | none => .null

/-- `$value[$key]`; a text as the offset into a string counts as 0. -/
def index : Value → Key → Value
  | .array entries, key => lookup entries key
  | .string text, .int number =>
      if 0 ≤ number then .string ((text.drop number.toNat).take 1)
      else .string []
  | .string text, .text _ => .string (text.take 1)
  | _, _ => .null

/-- `isset($value[$key])`. -/
def isset : Value → Key → Bool
  | .array entries, key =>
      match lookup entries key with
      | .null => false
      | _ => true
  | .string text, .int number => 0 ≤ number && number < text.length
  | _, _ => false

/-- The conversion to `bool`. -/
def truthy : Value → Bool
  | .null => false
  | .bool value => value
  | .int number => number != 0
  | .string text => !(text.isEmpty || text == ascii "0")
  | .array entries => !entries.isEmpty

/-- The conversion to `string`. -/
def toText : Value → Bytes
  | .null => []
  | .bool value => if value then ascii "1" else []
  | .int number => decimal number
  | .string text => text
  | .array _ => ascii "Array"

/-- The conversion to `int`. -/
def toInt : Value → Int
  | .null => 0
  | .bool value => if value then 1 else 0
  | .int number => number
  | .string text => atol text
  | .array entries => if entries.isEmpty then 0 else 1

/-- A summand; an array is none, and ends the process. -/
def toNumber : Value → Option Int
  | .array _ => none
  | value => some value.toInt

/-- `count`. -/
def count : Value → Nat
  | .null => 0
  | .array entries => entries.length
  | _ => 1

/-- What `foreach` goes through. -/
def elements : Value → List Value
  | .array entries => entries.map (·.2)
  | _ => []

end Value

section Arrays

variable {α : Type}

/-- `$array[$key] = $value`. -/
def assign (key : Key) (value : α) : List (Key × α) → List (Key × α)
  | [] => [(key, value)]
  | entry :: rest =>
      if entry.1 = key then (key, value) :: rest
      else entry :: assign key value rest

theorem find?_assign (key other : Key) (value : α)
    (entries : List (Key × α)) :
    (assign key value entries).find? (fun entry => entry.1 = other) =
      if key = other then some (key, value)
      else entries.find? fun entry => entry.1 = other := by
  induction entries with
  | nil => simp [assign]
  | cons entry entries induction =>
      rw [assign]
      by_cases here : entry.1 = key
      · rw [if_pos here, List.find?_cons, List.find?_cons, here]
        by_cases same : key = other
        · simp [same]
        · simp [same]
      · rw [if_neg here, List.find?_cons, List.find?_cons, induction]
        by_cases first : entry.1 = other
        · have different : key ≠ other := fun same => here (first.trans same.symm)
          simp [first, different]
        · simp [first]

end Arrays

end Universe.Php
