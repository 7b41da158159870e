import Mathlib.Data.List.TakeWhile
import Universe.Http.Grammar

/-!
# The length of a body

The body of a request is as long as `atoi` reads its `Content-Length`, and
`atoi` cuts a `long` down to an `int`.  Below `2 ^ 31` this is the number in
the header; from there on it is another one.
-/

namespace Universe

open Incremental

/-- `text` is a decimal numeral for `number`. -/
structure Numeral (text : Bytes) (number : Nat) : Prop where
  some : text ≠ []
  digits : ∀ byte ∈ text, isDigit byte
  value : text.foldl (fun value digit => 10 * value + (digit.toNat - 48)) 0 =
    number

/-- What `atoi` makes of a number: `strtol` stops at the largest `long`, and
the lower 32 bits are an `int`. -/
def truncated (number : Nat) : Int :=
  (min (2 ^ 63 - 1) (number : Int)).bmod (2 ^ 32)

theorem isDigit_bounds {byte : UInt8} (digit : isDigit byte) :
    48 ≤ byte.toNat ∧ byte.toNat ≤ 57 := by
  simpa [isDigit, UInt8.le_iff_toNat_le] using digit

theorem foldl_digits {text : Bytes} (digits : ∀ byte ∈ text, isDigit byte)
    (start : Nat) :
    text.foldl (fun value digit => 10 * value + ((digit.toNat : Int) - 48))
        (start : Int) =
      (text.foldl (fun value digit => 10 * value + (digit.toNat - 48)) start :
        Nat) := by
  induction text generalizing start with
  | nil => rfl
  | cons byte text induction =>
      obtain ⟨first, later⟩ := List.forall_mem_cons.mp digits
      obtain ⟨low, -⟩ := isDigit_bounds first
      rw [List.foldl_cons, List.foldl_cons, ← induction later]
      congr 1
      omega

theorem atol_numeral {text : Bytes} {number : Nat}
    (numeral : Numeral text number) :
    atol text = min (2 ^ 63 - 1) (number : Int) := by
  obtain ⟨first, rest, rfl⟩ := List.exists_cons_of_ne_nil numeral.some
  obtain ⟨low, high⟩ :=
    isDigit_bounds (numeral.digits first List.mem_cons_self)
  have notSpace : isSpace first = false := by
    simp [isSpace, UInt8.le_iff_toNat_le, ← UInt8.toNat_inj]
    omega
  have notMinus : first ≠ 45 := by
    rintro rfl
    simp at low
  have notPlus : first ≠ 43 := by
    rintro rfl
    simp at low
  have all : (first :: rest).takeWhile isDigit = first :: rest :=
    List.takeWhile_eq_self_iff.mpr numeral.digits
  have unspaced : (first :: rest).dropWhile isSpace = first :: rest := by
    simp [notSpace]
  have value := foldl_digits numeral.digits 0
  rw [numeral.value] at value
  have minus : ((first :: rest).head? == some 45) = false := by
    simp [notMinus]
  have plus : ((first :: rest).head? == some 43) = false := by
    simp [notPlus]
  unfold atol
  simp only [unspaced, minus, plus, Bool.or_false, Bool.false_eq_true, if_false,
    all]
  have value : (first :: rest).foldl
      (fun value digit => 10 * value + ((digit.toNat : Int) - 48)) 0 = number :=
    value
  rw [value]
  omega

theorem decimal_natCast (number : Nat) :
    decimal number =
      (Nat.toDigits 10 number).map fun digit => digit.toNat.toUInt8 := by
  rw [← Nat.toList_repr]
  rfl

theorem toNat_digit {digit : Char} (isDigit : digit.isDigit) :
    digit.toNat.toUInt8.toNat = digit.toNat ∧ 48 ≤ digit.toNat ∧
      digit.toNat ≤ 57 := by
  obtain ⟨low, high⟩ : 48 ≤ digit.toNat ∧ digit.toNat ≤ 57 :=
    Char.isDigit_iff_toNat.mp isDigit
  refine ⟨?_, low, high⟩
  rw [Nat.toUInt8_eq, UInt8.toNat_ofNat']
  omega

theorem numeral_decimal (number : Nat) : Numeral (decimal number) number := by
  have digits : ∀ digit ∈ Nat.toDigits 10 number, digit.isDigit :=
    fun digit member => Nat.isDigit_of_mem_toDigits (by decide) (by decide) member
  have value : ∀ (text : List Char) (start : Nat),
      (∀ digit ∈ text, digit.isDigit) →
      (text.map fun digit => digit.toNat.toUInt8).foldl
          (fun value digit => 10 * value + (digit.toNat - 48)) start =
        Nat.ofDigitChars 10 text start := by
    intro text
    induction text with
    | nil => exact fun start _ => rfl
    | cons digit text induction =>
        intro start all
        obtain ⟨first, later⟩ := List.forall_mem_cons.mp all
        rw [List.map_cons, List.foldl_cons, induction _ later,
          Nat.ofDigitChars_cons, (toNat_digit first).1]
        rfl
  rw [decimal_natCast]
  constructor
  · simp
  · intro byte member
    obtain ⟨digit, present, rfl⟩ := List.mem_map.mp member
    obtain ⟨same, low, high⟩ := toNat_digit (digits digit present)
    simp only [isDigit, UInt8.le_iff_toNat_le, same, Bool.and_eq_true,
      decide_eq_true_eq]
    exact ⟨low, high⟩
  · rw [value _ _ digits, Nat.ofDigitChars_ten_toDigits]

theorem Numeral.notMem {text : Bytes} {number : Nat}
    (numeral : Numeral text number) {byte : UInt8}
    (other : isDigit byte = false) : byte ∉ text := by
  intro member
  have digit := numeral.digits byte member
  rw [other] at digit
  cases digit

theorem atoi_numeral {text : Bytes} {number : Nat}
    (numeral : Numeral text number) : atoi text = truncated number := by
  have cut : atoi text = (atol text).bmod (2 ^ 32) := rfl
  rw [cut, atol_numeral numeral]
  rfl

theorem truncated_eq_self {number : Nat} (small : number < 2 ^ 31) :
    truncated number = number := by
  unfold truncated
  rw [Int.bmod_def]
  split <;> omega

theorem toNat_truncated {number : Nat} :
    (truncated number).toNat = number ↔ number < 2 ^ 31 := by
  constructor
  · intro same
    unfold truncated at same
    rw [Int.bmod_def] at same
    split at same <;> omega
  · intro small
    rw [truncated_eq_self small]
    rfl

namespace Http

/-- A head that announces `number` bytes is followed by `after`: a request
has exactly these bytes as its body, and until they are there the parser
waits.  It may also refuse the request. -/
def FramedBy (client : Fd) (head : Bytes) (number : Nat) (after : Bytes) :
    Prop :=
  match parseRequest client (head ++ after) with
  | .ok (r, rest) => after = r.body ++ rest ∧ r.body.length = number
  | .error .ag => after.length < number
  | .error .ng => True

theorem announced_numeral {headers : Headers} {value : Bytes} {number : Nat}
    (found : headers.find HttpToken.contentLength = some value)
    (numeral : Numeral value number) :
    announced headers = truncated number := by
  unfold announced
  rw [found]
  exact atoi_numeral numeral

/-- The text of a request is a head, then its body. -/
theorem RequestText.Valid.replace {text : RequestText} (valid : text.Valid)
    {body : Bytes}
    (size : body.length = (announced (collect text.lines)).toNat) :
    ({ text with body := body } : RequestText).Valid :=
  ⟨valid.method, valid.beforeUri, valid.uri, valid.beforeVersion,
    valid.httpVersion, valid.lines, size⟩

/-- After a valid head the parser takes as many bytes as announced. -/
theorem parseRequest_body {text : RequestText} (valid : text.Valid)
    (client : Fd) {body : Bytes} (size : body.length = text.body.length)
    (rest : Bytes) :
    parseRequest client (text.head ++ (body ++ rest)) =
      .ok ({ text.request client with body := body }, rest) := by
  refine parseRequest_eq_ok.mpr ⟨{ text with body := body },
    valid.replace (size.trans valid.body), ?_, rfl⟩
  exact (List.append_assoc text.head body rest).symm

theorem parseRequest_short {text : RequestText} (valid : text.Valid)
    (client : Fd) {after : Bytes} (short : after.length < text.body.length) :
    parseRequest client (text.head ++ after) = .error .ag := by
  -- With the missing bytes the request would be complete.
  let missing := List.replicate (text.body.length - after.length) (0 : UInt8)
  have size : (after ++ missing).length = text.body.length := by
    simp only [List.length_append, List.length_replicate, missing]
    omega
  have complete := parseRequest_body valid client size []
  rw [List.append_nil, ← List.append_assoc] at complete
  have stable := stable_parseRequest client
  cases outcome : parseRequest client (text.head ++ after) with
  | error stop =>
      cases stop with
      | ag => rfl
      | ng =>
          rw [stable.error outcome (by decide) missing] at complete
          cases complete
  | ok read =>
      obtain ⟨r, rest⟩ := read
      rw [stable.ok outcome missing] at complete
      have nothing : rest ++ missing = [] :=
        congrArg Prod.snd (Except.ok.inj complete)
      have none : missing = [] := (List.append_eq_nil_iff.mp nothing).2
      have zero : text.body.length - after.length = 0 := by
        simpa [missing] using none
      omega

theorem framedBy_iff {text : RequestText} (valid : text.Valid) (client : Fd)
    (number : Nat) :
    (∀ after, FramedBy client text.head number after) ↔
      text.body.length = number := by
  constructor
  · intro framed
    have own := framed text.body
    unfold FramedBy at own
    have parsed := parseRequest_body valid client rfl []
    rw [List.append_nil] at parsed
    rw [parsed] at own
    exact own.2
  · rintro rfl after
    unfold FramedBy
    by_cases short : after.length < text.body.length
    · rw [parseRequest_short valid client short]
      exact short
    · have size : (after.take text.body.length).length = text.body.length := by
        rw [List.length_take]
        omega
      have parsed := parseRequest_body valid client size
        (after.drop text.body.length)
      rw [List.take_append_drop] at parsed
      rw [parsed]
      exact ⟨(List.take_append_drop _ _).symm, size⟩

end Http

open Http

/-- A request with a numeral for its `Content-Length` has exactly so many
bytes as its body, and its head waits for exactly so many, when the number is
below `2 ^ 31`, and only then. -/
theorem content_length_framing {client : Fd} {input rest : Bytes}
    {r : HttpRequest} {value : Bytes} {number : Nat}
    (parsed : parseRequest client input = .ok (r, rest))
    (found : r.headers.find HttpToken.contentLength = some value)
    (numeral : Numeral value number) :
    (r.body.length = number ↔ number < 2 ^ 31) ∧
      ∀ head, input = head ++ (r.body ++ rest) →
        ((∀ after, FramedBy client head number after) ↔ number < 2 ^ 31) := by
  obtain ⟨text, valid, rfl, rfl⟩ := parseRequest_eq_ok.mp parsed
  have size : text.body.length = (truncated number).toNat := by
    have known : announced (collect text.lines) = truncated number :=
      announced_numeral found numeral
    rw [valid.body, known]
  have exactly : text.body.length = number ↔ number < 2 ^ 31 := by
    rw [size]
    exact toNat_truncated
  refine ⟨exactly, ?_⟩
  intro head whole
  have same : text.head = head := by
    rw [RequestText.bytes, List.append_assoc] at whole
    exact List.append_cancel_right whole
  rw [← same, framedBy_iff valid]
  exact exactly

theorem content_length_five :
    ∃ r rest, parseRequest 5
        (ascii "POST / HTTP/1.1\r\nContent-Length: 5\r\n\r\nhello!") =
          .ok (r, rest) ∧
      r.body.length = 5 := by
  have parsed : parseRequest 5
      (ascii "POST / HTTP/1.1\r\nContent-Length: 5\r\n\r\nhello!") =
        .ok (⟨5, ascii "POST", ascii "/", ascii "HTTP/1.1",
          [(ascii "Content-Length", ascii "5")], ascii "hello"⟩, ascii "!") := by
    decide +kernel
  have numeral : Numeral (ascii "5") 5 := by
    constructor <;> decide +kernel
  exact ⟨_, _, parsed,
    (content_length_framing parsed (by decide +kernel) numeral).1.mpr
      (by decide)⟩

/-- A length of `2 ^ 32 + 1` is taken for one byte, and the next request
begins inside the body. -/
theorem smuggled_body :
    ∃ r rest, parseRequest 5
        (ascii "POST / HTTP/1.1\r\nContent-Length: 4294967297\r\n\r\nab") =
          .ok (r, rest) ∧
      r.headers.find HttpToken.contentLength = some (ascii "4294967297") ∧
      Numeral (ascii "4294967297") 4294967297 ∧
      r.body.length ≠ 4294967297 := by
  refine ⟨⟨5, ascii "POST", ascii "/", ascii "HTTP/1.1",
    [(ascii "Content-Length", ascii "4294967297")], ascii "a"⟩, ascii "b",
    ?_, ?_, ⟨?_, ?_, ?_⟩, ?_⟩ <;> decide +kernel

end Universe
