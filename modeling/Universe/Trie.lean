import Universe.Codec.Utf8
import Universe.Library.OrderedMap

/-!
# The trie of keywords

Keywords are inserted character by character, and a text is searched from each
of its characters on.
-/

namespace Universe

namespace Trie

inductive Node where
  | mk (value : Option Bytes) (next : List (Bytes × Node))

namespace Node

/-- `Node()`. -/
def empty : Node := mk none []

/-- `get_value`. -/
def getValue : Node → Option Bytes
  | mk value _ => value

/-- `set_value`. -/
def setValue (value : Bytes) : Node → Node
  | mk _ next => mk (some value) next

/-- `get_next`. -/
def getNext (ch : Bytes) : Node → Option Node
  | mk _ next => OrderedMap.find ch next

/-- `add_next`. -/
def addNext (ch : Bytes) : Node → (node : Node) → Node
  | mk value next, node => mk value (OrderedMap.assign ch node next)

/-- The loop over the characters of a keyword, which ends with `set_value`. -/
def insert (keyword : Bytes) : (fuel offset : Nat) → Node → Node
  | 0, _, node => node
  | fuel + 1, offset, node =>
      match Utf8.decodeChar keyword offset with
      | none => node.setValue keyword
      | some (ch, offset) =>
          node.addNext ch
            (insert keyword fuel offset ((node.getNext ch).getD empty))

end Node

/-- `Trie(keywords)`. -/
def ofKeywords (keywords : List Bytes) : Node :=
  keywords.foldl (fun root keyword =>
    if keyword.length = 0 then root
    else root.insert keyword (keyword.length + 1) 0) .empty

/-- `result`, `longest_value` and `longest_offset`. -/
structure Found where
  result : List (Bytes × Bool)
  longestValue : Bytes := []
  longestOffset : Nat := 2 ^ 64 - 1

/-- What is found where a node has a value. -/
def Found.note (noOverlap : Bool) (value : Bytes) (nextOffset : Nat)
    (found : Found) : Found :=
  if noOverlap then
    { found with longestValue := value, longestOffset := nextOffset }
  else { found with result := OrderedMap.assign value true found.result }

/-- The inner loop of `search`: `ch` is the character before `next_offset`. -/
def follow (text : Bytes) (noOverlap : Bool) :
    (fuel : Nat) → Node → (ch : Bytes) → (nextOffset : Nat) → Found → Found
  | 0, _, _, _, found => found
  | fuel + 1, node, ch, nextOffset, found =>
      match node.getNext ch with
      | none => found
      | some node =>
          let found :=
            match node.getValue with
            | none => found
            | some value => found.note noOverlap value nextOffset
          match Utf8.decodeChar text nextOffset with
          | none => found
          | some (ch, nextOffset) =>
              follow text noOverlap fuel node ch nextOffset found

/-- The outer loop of `search`. -/
def searchFrom (root : Node) (text : Bytes) (noOverlap : Bool) :
    (fuel : Nat) → (offset : Nat) → List (Bytes × Bool) → List (Bytes × Bool)
  | 0, _, result => result
  | fuel + 1, offset, result =>
      match Utf8.decodeChar text offset with
      | none => result
      | some (ch, offset) =>
          let found :=
            follow text noOverlap (text.length + 1) root ch offset { result }
          if found.longestValue.length ≠ 0 then
            searchFrom root text noOverlap fuel found.longestOffset
              (OrderedMap.assign found.longestValue true found.result)
          else searchFrom root text noOverlap fuel offset found.result

/-- `search`. -/
def search (root : Node) (text : Bytes) (noOverlap : Bool := true) :
    List Bytes :=
  (searchFrom root text noOverlap (text.length + 1) 0 []).map Prod.fst

example : search (ofKeywords (["ab", "bc", "cd", "abc"].map ascii))
    (ascii "xabcd") = [ascii "abc"] := by
  decide +kernel

example : search (ofKeywords (["ab", "bc", "cd", "abc"].map ascii))
    (ascii "xabcd") false = ["ab", "abc", "bc", "cd"].map ascii := by
  decide +kernel

end Trie

end Universe
