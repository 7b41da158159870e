import Universe.Http.Forwarding
import Universe.Utils.Addresses

/-!
# Request targets

A request names a path, not an address.  `parse_url` looks for a schema in all
of it, so that an address in the query of a target is taken for the target's
own.
-/

namespace Universe

open Utils

namespace HttpRequest

/-- `get_path`, which finds a path in whatever was parsed. -/
def getPath (r : HttpRequest) : Option Bytes := some (parseUrl r.uri).path

/-- The packet with the client's query merged into that of the provider. -/
def packetWith (r : HttpRequest) (address : HttpProviderAddress)
    (clientQuery : Option Bytes) : Option Bytes :=
  (match clientQuery with
    | some query => mergeUrlQuery query address.query
    | none => some address.query).map fun merged =>
      (forwardText r address merged).bytes

theorem forwardPacket_eq (r : HttpRequest) (address : HttpProviderAddress) :
    r.forwardPacket address = r.packetWith address (parseUrl r.uri).query := by
  change ((r.mergedQuery address).bind fun merged => _) =
    (r.mergedQuery address).map _
  cases r.mergedQuery address <;> rfl

end HttpRequest

/-- The target is taken apart as a path, and the request keeps its parts. -/
structure TakenApart (target : Target) : Prop where
  parts : parseUrl target.text = target.parts none none none
  path : ∀ r : HttpRequest, r.uri = target.text →
    r.getPath = some target.path
  packet : ∀ (r : HttpRequest) address, r.uri = target.text →
    r.forwardPacket address = r.packetWith address target.query

theorem parsePath_schema (schema host port : Option Bytes) (rest : Bytes) :
    (parsePath schema host port rest).schema = schema := by
  unfold parsePath
  simp only
  split
  · rfl
  · split
    · split <;> rfl
    · rfl

/-- What stands before the first mark of a schema is the schema. -/
theorem parseUrl_schema (url : Bytes) :
    (parseUrl url).schema = (splitAt (ascii "://") url).map Prod.fst := by
  unfold parseUrl
  cases splitAt (ascii "://") url with
  | none =>
      simp only
      split
      · exact parsePath_schema _ _ _ _
      · split <;> exact parsePath_schema _ _ _ _
  | some cut =>
      obtain ⟨schema, rest⟩ := cut
      simp only
      split
      · exact parsePath_schema _ _ _ _
      · split <;> exact parsePath_schema _ _ _ _

theorem parseUrl_rooted (target : Target)
    (absent : splitAt (ascii "://") target.text = none) :
    parseUrl target.text = target.parts none none none := by
  obtain ⟨others, rooted⟩ := text_rooted target
  have noHost : target.text.takeWhile (· != 47) = [] := by
    rw [rooted]
    exact List.takeWhile_cons_of_neg (by decide)
  unfold parseUrl
  simp only [absent, noHost]
  exact parsePath_text target none none none

/-- A target is taken apart as one unless there is an address in it. -/
theorem takenApart_iff (target : Target) :
    TakenApart target ↔ ¬ ascii "://" <:+: target.text := by
  rw [← splitAt_eq_none_iff (by decide)]
  constructor
  · intro taken
    have schema := parseUrl_schema target.text
    rw [taken.parts] at schema
    exact Option.map_eq_none_iff.mp schema.symm
  · intro absent
    have parts := parseUrl_rooted target absent
    refine ⟨parts, ?_, ?_⟩
    · intro r isTarget
      unfold HttpRequest.getPath
      rw [isTarget, parts]
      rfl
    · intro r address isTarget
      rw [HttpRequest.forwardPacket_eq, isTarget, parts]
      rfl

/-- A path with an address in its query. -/
def addressInQuery : Target where
  path := ascii "/a"
  query := some (ascii "u=http://x/y")
  fragment := none
  rooted := by decide
  pathFree := by decide
  queryFree := by
    intro text isText
    cases isText
    decide
  fragmentSome := by
    intro text isText
    cases isText

/-- The address in the query is taken for that of the target: the path is
another one, and the provider gets no query. -/
theorem addressInQuery_taken :
    addressInQuery.text = ascii "/a?u=http://x/y" ∧
      parseUrl addressInQuery.text =
        ⟨some (ascii "/a?u=http"), some (ascii "x"), none, ascii "/y", none,
          none⟩ ∧
      ¬ TakenApart addressInQuery ∧
      HttpRequest.getPath
          ⟨5, ascii "GET", addressInQuery.text, ascii "HTTP/1.1", [], []⟩ =
        some (ascii "/y") ∧
      HttpRequest.forwardPacket
          ⟨5, ascii "GET", addressInQuery.text, ascii "HTTP/1.1", [], []⟩
          ⟨ascii "h", 80, ascii "/b", [], false⟩ =
        some (ascii "GET /b HTTP/1.1\r\nHost: h\r\n\r\n") := by
  have parsed : parseUrl addressInQuery.text =
      ⟨some (ascii "/a?u=http"), some (ascii "x"), none, ascii "/y", none,
        none⟩ := by
    decide +kernel
  refine ⟨by decide +kernel, parsed, ?_, by decide +kernel,
    by decide +kernel⟩
  intro taken
  have parts := taken.parts
  rw [parsed] at parts
  exact absurd (congrArg Url.schema parts) (by decide)

end Universe
