import Universe.Http.Framing
import Universe.Redis.Grammar

/-!
# Replies that are read again

What the protocol says of a reply is read as this reply, however it is nested
and whatever follows.  Less than all of it is not taken for a reply.  Commands
are arrays of the same protocol.
-/

namespace Universe

namespace Redis

open Incremental

/-- A reply of the protocol. -/
inductive Resp where
  | simple (text : Bytes)
  | error (text : Bytes)
  | integer (text : Bytes)
  | bulk (text : Bytes)
  | null
  | array (elements : List Resp)

namespace Resp

mutual

/-- The reply on the wire. -/
def encode : Resp → Bytes
  | .simple text => ascii "+" ++ text ++ ascii "\r\n"
  | .error text => ascii "-" ++ text ++ ascii "\r\n"
  | .integer text => ascii ":" ++ text ++ ascii "\r\n"
  | .bulk text =>
      ascii "$" ++ decimal text.length ++ ascii "\r\n" ++ text ++ ascii "\r\n"
  | .null => ascii "$-1\r\n"
  | .array elements =>
      ascii "*" ++ decimal elements.length ++ ascii "\r\n" ++ encodeAll elements

def encodeAll : List Resp → Bytes
  | [] => []
  | first :: rest => encode first ++ encodeAll rest

end

mutual

/-- The reply as a tree of `RedisReply`.  The type of null is a blank. -/
def toReply : Resp → RedisReply
  | .simple text => ⟨43, text, []⟩
  | .error text => ⟨45, text, []⟩
  | .integer text => ⟨58, text, []⟩
  | .bulk text => ⟨36, text, []⟩
  | .null => ⟨32, [], []⟩
  | .array elements => ⟨42, [], toReplies elements⟩

def toReplies : List Resp → List RedisReply
  | [] => []
  | first :: rest => toReply first :: toReplies rest

end

mutual

/-- A line has no carriage return, a string is one that can be made, and a
`long` is long enough for every length. -/
def Valid (maxSize : Nat) : Resp → Prop
  | .simple text => 13 ∉ text
  | .error text => 13 ∉ text
  | .integer text => 13 ∉ text
  | .bulk text => text.length ≤ maxSize ∧ text.length < 2 ^ 63
  | .null => True
  | .array elements => elements.length < 2 ^ 63 ∧ AllValid maxSize elements

def AllValid (maxSize : Nat) : List Resp → Prop
  | [] => True
  | first :: rest => Valid maxSize first ∧ AllValid maxSize rest

end

theorem length_toReplies (elements : List Resp) :
    (toReplies elements).length = elements.length := by
  induction elements with
  | nil => rfl
  | cons first rest induction =>
      rw [toReplies, List.length_cons, List.length_cons, induction]

end Resp

/-- What the protocol allows for a length. -/
inductive IsLength : Bytes → Int → Prop where
  | null : IsLength (ascii "-1") (-1)
  | number {text : Bytes} {number : Nat} (numeral : Numeral text number)
      (long : number < 2 ^ 63) : IsLength text number

/-- The grammar of the protocol. -/
def strict : Reading where
  length := IsLength
  bare _ := False

theorem IsLength.atol_eq {text : Bytes} {number : Int}
    (isLength : IsLength text number) : atol text = number := by
  cases isLength with
  | null => decide
  | number numeral long =>
      rw [atol_numeral numeral]
      omega

theorem IsLength.plain {text : Bytes} {number : Int}
    (isLength : IsLength text number) : 13 ∉ text := by
  cases isLength with
  | null => decide
  | number numeral long => exact numeral.notMem (by decide)

theorem isLength_decimal {number : Nat} (long : number < 2 ^ 63) :
    IsLength (decimal number) number :=
  .number (numeral_decimal number) long

mutual

/-- `parse_response` reads everything the protocol allows. -/
theorem Reads.lenient_of_strict {maxSize : Nat} {bytes : Bytes}
    {reply : RedisReply} (reads : Reads strict maxSize bytes reply) :
    Reads lenient maxSize bytes reply := by
  cases reads with
  | line isLine plain => exact .line isLine plain
  | bulk plain isLength fits => exact .bulk plain isLength.atol_eq fits
  | null plain isLength negative => exact .null plain isLength.atol_eq negative
  | array plain isLength all count =>
      exact .array plain isLength.atol_eq all.lenient_of_strict count
  | bare isBare => exact isBare.elim

theorem ReadsAll.lenient_of_strict {maxSize : Nat} {bytes : Bytes}
    {replies : List RedisReply} (reads : ReadsAll strict maxSize bytes replies) :
    ReadsAll lenient maxSize bytes replies := by
  cases reads with
  | nil => exact .nil
  | cons head tail => exact .cons head.lenient_of_strict tail.lenient_of_strict

end

namespace Resp

variable {maxSize : Nat}

mutual

/-- The encoding of a reply has the form of this reply. -/
theorem reads_encode (r : Resp) (valid : r.Valid maxSize) :
    Reads strict maxSize r.encode r.toReply := by
  cases r with
  | simple text => exact .line (.inl rfl) valid
  | error text => exact .line (.inr (.inl rfl)) valid
  | integer text => exact .line (.inr (.inr rfl)) valid
  | bulk text =>
      have shape : (bulk text).encode = 36 :: (decimal text.length ++
          13 :: 10 :: (text ++ [13, 10])) := by
        simp [encode, ascii]
      rw [shape]
      have isLength := isLength_decimal valid.2
      exact .bulk isLength.plain isLength valid.1
  | null => exact .null IsLength.null.plain .null (by decide)
  | array elements =>
      have shape : (array elements).encode = 42 :: (decimal elements.length ++
          13 :: 10 :: encodeAll elements) := by
        simp [encode, ascii]
      rw [shape]
      have isLength := isLength_decimal valid.1
      exact .array isLength.plain isLength (readsAll_encode elements valid.2)
        (length_toReplies elements)

theorem readsAll_encode (elements : List Resp)
    (valid : AllValid maxSize elements) :
    ReadsAll strict maxSize (encodeAll elements) (toReplies elements) := by
  cases elements with
  | nil => exact .nil
  | cons first rest =>
      exact .cons (reads_encode first valid.1) (readsAll_encode rest valid.2)

end

end Resp

/-- An argument of a command, as the server reads it. -/
def Argument.resp : Argument → Resp
  | .text bulkString => .bulk bulkString
  | .null => .null
  | .number n => .integer (decimal n.toNat)

theorem createCmd_eq_encode (arg : Argument) (args : List Argument) :
    createCmd arg args =
      (Resp.array ((arg :: args).map Argument.resp)).encode := by
  have one : ∀ argument, respEncode argument = argument.resp.encode := by
    intro argument
    cases argument <;> rfl
  have all : ∀ others : List Argument,
      respEncodeElements others =
        Resp.encodeAll (others.map Argument.resp) := by
    intro others
    induction others with
    | nil => rfl
    | cons first rest induction =>
        rw [respEncodeElements, one, induction]
        rfl
  have count : ((1 + args.length : Nat) : Int) =
      ((arg :: args).map Argument.resp).length := by
    rw [List.length_map, List.length_cons, Nat.add_comm]
  unfold createCmd
  rw [all, ← Int.natCast_one, ← Int.natCast_add, count]
  rfl

/-- A command whose strings can be made is one of the protocol. -/
theorem valid_arguments {maxSize : Nat} {args : List Argument}
    (fit : ∀ text, Argument.text text ∈ args →
      text.length ≤ maxSize ∧ text.length < 2 ^ 63) :
    Resp.AllValid maxSize (args.map Argument.resp) := by
  induction args with
  | nil => trivial
  | cons first rest induction =>
      refine ⟨?_, induction fun text member => fit text (.tail _ member)⟩
      cases first with
      | text bulkString => exact fit bulkString (.head _)
      | null => trivial
      | number n => exact (numeral_decimal n.toNat).notMem (by decide)

/-- A reply of the protocol is read, whatever follows, and nothing is read of
less. -/
theorem parseResponse_encode {maxSize : Nat} {r : Resp}
    (valid : r.Valid maxSize) :
    (∀ rest, parseResponse maxSize (r.encode ++ rest) =
      .ok (some r.toReply, rest)) ∧
    ∀ part, part <+: r.encode → part ≠ r.encode →
      parseResponse maxSize part = .error .ag := by
  have reads := (r.reads_encode valid).lenient_of_strict
  refine ⟨parseResponse_of_reads reads, ?_⟩
  intro part begins proper
  have whole := parseResponse_of_reads reads []
  rw [List.append_nil] at whole
  exact (stable_parseResponse maxSize).of_proper whole begins proper

theorem toReplies_arguments (args : List Argument) :
    Resp.toReplies (args.map Argument.resp) =
      args.map (·.resp.toReply) := by
  induction args with
  | nil => rfl
  | cons first rest induction =>
      rw [List.map_cons, List.map_cons, Resp.toReplies, induction]

/-- Every reply of the protocol is read, and so is every command. -/
theorem resp_decoded (maxSize : Nat) :
    (∀ r : Resp, r.Valid maxSize →
      (∀ rest, parseResponse maxSize (r.encode ++ rest) =
        .ok (some r.toReply, rest)) ∧
      ∀ part, part <+: r.encode → part ≠ r.encode →
        parseResponse maxSize part = .error .ag) ∧
    ∀ arg args, args.length + 1 < 2 ^ 63 →
      (∀ text, Argument.text text ∈ arg :: args →
        text.length ≤ maxSize ∧ text.length < 2 ^ 63) →
      (∀ rest, parseResponse maxSize (createCmd arg args ++ rest) =
        .ok (some ⟨42, [], (arg :: args).map (·.resp.toReply)⟩, rest)) ∧
      ∀ part, part <+: createCmd arg args → part ≠ createCmd arg args →
        parseResponse maxSize part = .error .ag := by
  constructor
  · intro r valid
    exact parseResponse_encode valid
  · intro arg args few fit
    have valid : (Resp.array ((arg :: args).map Argument.resp)).Valid maxSize :=
      ⟨by simpa using few, valid_arguments fit⟩
    rw [createCmd_eq_encode, ← toReplies_arguments]
    exact parseResponse_encode valid

/-- An array within an array, with a line break in a string, and a command with
every kind of argument. -/
theorem nested_reply_decoded :
    parseResponse 100 (ascii "*3\r\n:7\r\n*2\r\n$-1\r\n$3\r\na\r\n\r\n*0\r\n+OK\r\n") =
      .ok (some ⟨42, [], [⟨58, ascii "7", []⟩,
        ⟨42, [], [⟨32, [], []⟩, ⟨36, ascii "a\r\n", []⟩]⟩, ⟨42, [], []⟩]⟩,
        ascii "+OK\r\n") ∧
    parseResponse 100 (createCmd (.text (ascii "GET")) [.null, .number 3] ++
        ascii "-") =
      .ok (some ⟨42, [], [⟨36, ascii "GET", []⟩, ⟨32, [], []⟩,
        ⟨58, ascii "3", []⟩]⟩, ascii "-") := by
  let nested : Resp := .array [.integer (ascii "7"),
    .array [.null, .bulk (ascii "a\r\n")], .array []]
  have valid : nested.Valid 100 := by
    simp [nested, Resp.Valid, Resp.AllValid, ascii]
  have read := ((resp_decoded 100).1 nested valid).1 (ascii "+OK\r\n")
  have command := ((resp_decoded 100).2 (.text (ascii "GET"))
    [.null, .number 3] (by decide) (by simp [ascii])).1 (ascii "-")
  exact ⟨read, command⟩

theorem length_decimal (number : Int32) :
    (decimal number.toInt).length ≤ 11 := by
  have low := number.le_toInt
  have high := number.toInt_lt
  have digits : ∀ magnitude : Nat, magnitude ≤ 2 ^ 31 →
      magnitude.repr.length ≤ 10 := by
    intro magnitude small
    rw [Nat.length_repr_le_iff (by decide)]
    omega
  unfold decimal ascii
  rw [List.length_map, String.length_toList]
  generalize number.toInt = value at low high ⊢
  cases value with
  | ofNat magnitude =>
      rw [Int.ofNat_eq_natCast] at high
      have short := digits magnitude (by omega)
      change magnitude.repr.length ≤ 11
      omega
  | negSucc magnitude =>
      have short := digits (magnitude + 1) (by omega)
      change ("-" ++ (magnitude + 1).repr).length ≤ 11
      rw [String.length_append]
      have sign : "-".length = 1 := by decide
      omega

/-- The packet is an array of these arguments. -/
def Carries (packet : Bytes) (args : List Bytes) : Prop :=
  Reads strict (2 ^ 63 - 1) packet
    ⟨42, [], args.map fun arg => ⟨36, arg, []⟩⟩

theorem carries_createCmd {arg : Bytes} {args : List Bytes}
    (few : args.length + 1 < 2 ^ 63)
    (fit : ∀ text ∈ arg :: args, text.length < 2 ^ 63) :
    Carries (createCmd (.text arg) (args.map .text)) (arg :: args) := by
  have valid : (Resp.array ((Argument.text arg :: args.map .text).map
      Argument.resp)).Valid (2 ^ 63 - 1) := by
    refine ⟨by simpa using few, valid_arguments ?_⟩
    intro text member
    have less := fit text (by simpa using member)
    exact ⟨by omega, less⟩
  have reads := Resp.reads_encode _ valid
  rw [← createCmd_eq_encode] at reads
  have same : (Resp.array ((Argument.text arg :: args.map .text).map
      Argument.resp)).toReply =
        ⟨42, [], (arg :: args).map fun arg => ⟨36, arg, []⟩⟩ := by
    rw [Resp.toReply, toReplies_arguments, List.map_cons, List.map_map,
      List.map_cons]
    rfl
  rw [same] at reads
  exact reads

/-- A packet has one list of arguments. -/
theorem Carries.unique {packet : Bytes} {first second : List Bytes}
    (one : Carries packet first) (other : Carries packet second) :
    first = second := by
  have read := parseResponse_of_reads one.lenient_of_strict []
  rw [parseResponse_of_reads other.lenient_of_strict []] at read
  have same : (second.map fun arg => RedisReply.mk 36 arg []) =
      first.map fun arg => ⟨36, arg, []⟩ := by simpa using read
  have injective : Function.Injective fun arg => RedisReply.mk 36 arg [] := by
    intro left right equal
    cases equal
    rfl
  exact (List.map_injective_iff.mpr injective same).symm

/-- The arguments `SET` has in the protocol: `PX` and `EX` have their number
after them. -/
def setArguments (key value : Bytes) (ex px : Option Int32)
    (nxxx : Option NXXX) : List Bytes :=
  let expire :=
    match px with
    | some px => [ascii "PX", decimal px.toInt]
    | none =>
        match ex with
        | some ex => [ascii "EX", decimal ex.toInt]
        | none => []
  [ascii "SET", key, value] ++ expire ++ (nxxx.map NXXX.enumString).toList

/-- The arguments that are sent: a time to live is one of them, with a blank
in it. -/
def sentArguments (key value : Bytes) (ex px : Option Int32)
    (nxxx : Option NXXX) : List Bytes :=
  let expire :=
    match px with
    | some px => [ascii "PX " ++ decimal px.toInt]
    | none =>
        match ex with
        | some ex => [ascii "EX " ++ decimal ex.toInt]
        | none => []
  [ascii "SET", key, value] ++ expire ++ (nxxx.map NXXX.enumString).toList

theorem packetSet_eq_createCmd (key value : Bytes) (ex px : Option Int32)
    (nxxx : Option NXXX) :
    packetSet key value (ex.map Int32.toInt) (px.map Int32.toInt) nxxx =
      createCmd (.text (ascii "SET"))
        ((sentArguments key value ex px nxxx).tail.map .text) := by
  rcases px with - | px <;> rcases ex with - | ex <;>
    rcases nxxx with - | nxxx <;>
    (try cases nxxx) <;> rfl

theorem carries_packetSet {key value : Bytes} (keyFits : key.length < 2 ^ 63)
    (valueFits : value.length < 2 ^ 63) (ex px : Option Int32)
    (nxxx : Option NXXX) :
    Carries (packetSet key value (ex.map Int32.toInt) (px.map Int32.toInt) nxxx)
      (sentArguments key value ex px nxxx) := by
  have expire : ∀ (option : Bytes) (number : Int32), option.length = 3 →
      (option ++ decimal number.toInt).length < 2 ^ 63 := by
    intro option number three
    have short := length_decimal number
    rw [List.length_append]
    omega
  have named : ∀ nxxx : NXXX, nxxx.enumString.length < 2 ^ 63 := by
    intro nxxx
    cases nxxx <;> decide
  have fit : ∀ text ∈ sentArguments key value ex px nxxx,
      text.length < 2 ^ 63 := by
    intro text member
    simp only [sentArguments, List.mem_append, List.mem_cons, List.not_mem_nil,
      or_false, Option.mem_toList,
      Option.map_eq_some_iff] at member
    rcases member with ((rfl | rfl | rfl) | time) | ⟨nxxx, -, rfl⟩
    · decide
    · exact keyFits
    · exact valueFits
    · cases px with
      | some px =>
          rw [List.mem_singleton.mp time]
          exact expire _ px (by decide)
      | none =>
          cases ex with
          | some ex =>
              rw [List.mem_singleton.mp time]
              exact expire _ ex (by decide)
          | none => cases time
    · exact named nxxx
  have few : (sentArguments key value ex px nxxx).length < 2 ^ 63 := by
    rcases px with - | px <;> rcases ex with - | ex <;>
      rcases nxxx with - | nxxx <;> simp [sentArguments]
  rw [packetSet_eq_createCmd]
  exact carries_createCmd (by simpa [sentArguments] using few) fit

/-- The packet is always an array of as many strings as it says, and these are
the arguments of `SET` exactly when no time to live is given. -/
theorem set_packet_arguments {key value : Bytes} (keyFits : key.length < 2 ^ 63)
    (valueFits : value.length < 2 ^ 63) (ex px : Option Int32)
    (nxxx : Option NXXX) :
    (∃ args, Carries
      (packetSet key value (ex.map Int32.toInt) (px.map Int32.toInt) nxxx) args) ∧
    (Carries
      (packetSet key value (ex.map Int32.toInt) (px.map Int32.toInt) nxxx)
      (setArguments key value ex px nxxx) ↔ ex = none ∧ px = none) := by
  have sent := carries_packetSet keyFits valueFits ex px nxxx
  refine ⟨⟨_, sent⟩, ?_⟩
  constructor
  · intro claimed
    have same := congrArg List.length (claimed.unique sent)
    rcases px with - | px <;> rcases ex with - | ex
    · exact ⟨rfl, rfl⟩
    · simp [setArguments, sentArguments] at same
    · simp [setArguments, sentArguments] at same
    · simp [setArguments, sentArguments] at same
  · rintro ⟨rfl, rfl⟩
    exact sent

/-- A packet without a time to live. -/
theorem set_packet_if_absent :
    Carries (packetSet (ascii "k") (ascii "v") none none (some .nx))
      [ascii "SET", ascii "k", ascii "v", ascii "NX"] :=
  (set_packet_arguments (by decide) (by decide) none none (some .nx)).2.mpr
    ⟨rfl, rfl⟩

/-- A time to live of ten milliseconds is sent as one argument, `PX 10`. -/
theorem set_packet_with_px :
    packetSet (ascii "k") (ascii "v") none (some 10) none =
      ascii "*4\r\n$3\r\nSET\r\n$1\r\nk\r\n$1\r\nv\r\n$5\r\nPX 10\r\n" ∧
    ¬ Carries (packetSet (ascii "k") (ascii "v") none (some 10) none)
      [ascii "SET", ascii "k", ascii "v", ascii "PX", ascii "10"] := by
  refine ⟨by decide +kernel, ?_⟩
  intro claimed
  have sent : Carries (packetSet (ascii "k") (ascii "v") none (some 10) none)
      [ascii "SET", ascii "k", ascii "v", ascii "PX 10"] :=
    carries_packetSet (by decide) (by decide) none (some 10) none
  exact absurd (claimed.unique sent) (by decide)

end Redis

end Universe
