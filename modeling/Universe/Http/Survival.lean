import Universe.Http.Segmentation

/-!
# Which input ends the process

`on_message` catches the exceptions of the reader only.  The one other
exception on its way is that of `substr` in `close_if_necessary`, so the
process survives exactly the input in which no such request is reached.
-/

namespace Universe

open Incremental Session

namespace Http

/-- Without `Connection` header, the version is looked at from its sixth byte
on. -/
def Versionless (r : HttpRequest) : Prop :=
  r.headers.find HttpToken.connection = none ∧ r.httpVersion.length < 5

instance (r : HttpRequest) : Decidable (Versionless r) :=
  inferInstanceAs (Decidable (_ ∧ _))

/-- Reading one request after the other from `input`, up to one after which
the client is closed, comes to a request whose version is too short. -/
inductive Fatal (handler : RequestHandler) (client : Fd) :
    List HttpRequest → Bytes → Prop where
  | here {seen input r rest}
      (parsed : parseRequest client input = .ok (r, rest))
      (short : Versionless (handler.answer (seen ++ [r])).1) :
      Fatal handler client seen input
  | later {seen input r rest}
      (parsed : parseRequest client input = .ok (r, rest))
      (stays : verdict (handler.answer (seen ++ [r])).1 = .opened)
      (fatal : Fatal handler client (seen ++ [r]) rest) :
      Fatal handler client seen input

theorem verdict_eq_crashed {r : HttpRequest} :
    verdict r = .crashed ↔ Versionless r := by
  unfold verdict Versionless
  cases r.headers.find HttpToken.connection with
  | some value => by_cases close : value = ascii "close" <;> simp [close]
  | none =>
      by_cases short : r.httpVersion.length < 5
      · simp [short]
      · by_cases old : r.httpVersion.drop 5 = ascii "1.0" <;> simp [short, old]

variable {handler : RequestHandler} {client : Fd}

/-- The position after everything has been read. -/
def ended : Position Exchange UInt8 → Status
  | .waiting e _ => e.status
  | .halted e => e.status

theorem ended_drain (e : Exchange) (isOpen : e.status = .opened)
    (input : Bytes) :
    ended ((consumer handler client).drain e input) = .crashed ↔
      Fatal handler client e.requests input := by
  induction size : input.length using Nat.strongRecOn generalizing e input with
  | ind size induction =>
      have step : (consumer handler client).step e input =
          exchange handler client e input := rfl
      unfold exchange at step
      cases parsed : parseRequest client input with
      | error stop =>
          rw [parsed] at step
          have harmless : ¬ Fatal handler client e.requests input := by
            intro fatal
            cases fatal with
            | here read => rw [parsed] at read; cases read
            | later read => rw [parsed] at read; cases read
          cases stop with
          | ag =>
              rw [Consumer.drain_of_again step]
              simp [ended, isOpen, harmless]
          | ng =>
              rw [Consumer.drain_of_halt step]
              simp [ended, harmless]
      | ok read =>
          obtain ⟨r, rest⟩ := read
          rw [parsed] at step
          dsimp only at step
          have status : (exchanged handler e r).status =
              verdict (handler.answer (e.requests ++ [r])).1 := rfl
          have fatal : Fatal handler client e.requests input ↔
              Versionless (handler.answer (e.requests ++ [r])).1 ∨
                verdict (handler.answer (e.requests ++ [r])).1 = .opened ∧
                  Fatal handler client (e.requests ++ [r]) rest := by
            constructor
            · intro fatal
              cases fatal with
              | here read short =>
                  rw [parsed] at read
                  cases read
                  exact .inl short
              | later read stays fatal =>
                  rw [parsed] at read
                  cases read
                  exact .inr ⟨stays, fatal⟩
            · rintro (short | ⟨stays, fatal⟩)
              · exact .here parsed short
              · exact .later parsed stays fatal
          rw [fatal]
          by_cases stays : (exchanged handler e r).status = .opened
          · rw [if_pos stays] at step
            have less := takes_parseRequest client _ _ _ parsed
            rw [Consumer.drain_of_next step,
              induction rest.length (by omega) _ stays rest rfl]
            have notShort :
                ¬ Versionless (handler.answer (e.requests ++ [r])).1 := by
              rw [← verdict_eq_crashed, ← status, stays]
              simp
            rw [status] at stays
            constructor
            · exact fun fatal => .inr ⟨stays, fatal⟩
            · rintro (short | ⟨-, fatal⟩)
              · exact absurd short notShort
              · exact fatal
          · rw [if_neg stays] at step
            rw [Consumer.drain_of_halt step]
            rw [← verdict_eq_crashed, ← status]
            simp [ended, stays]

end Http

theorem Shows.status {client : Fd} {s : Session}
    {position : Position Exchange UInt8} (shown : Shows client s position) :
    s.status = Http.ended position := by
  cases shown with
  | waiting => rfl
  | halted => rfl

/-- However the input is cut, `on_message` returns from every delivery
exactly when no request with a short version is reached. -/
theorem survives_iff_not_fatal (handler : RequestHandler) (client : Fd)
    (pieces : List Bytes) :
    (pieces.foldl (deliver handler client) start).status ≠ .crashed ↔
      ¬ Http.Fatal handler client [] pieces.flatten := by
  have begun : Shows client start (.waiting start.toExchange []) :=
    shows_nothing rfl
  have idle : (Http.consumer handler client).Idle
      (.waiting start.toExchange []) := (Http.consumer handler client).empty _
  have shown : Shows client (pieces.foldl (deliver handler client) start) _ :=
    pieces_shows begun pieces
  rw [Consumer.feed_pieces idle] at shown
  rw [shown.status, Ne, not_iff_not]
  exact Http.ended_drain start.toExchange rfl _

/-- No callback is attached to `ON_REQUEST`. -/
def RequestHandler.silent : RequestHandler where
  answer seen :=
    match seen.getLast? with
    | some r => (r, .ofRequest r)
    | none => (⟨-1, [], [], [], [], []⟩, ⟨200, [], [], [], []⟩)
  client seen request := by simp

/-- The version may be anything. -/
theorem shortVersion_crashes :
    ([ascii "GET / X\r\n\r\n"].foldl (deliver .silent 5) start).status =
      .crashed := by
  decide +kernel

end Universe
