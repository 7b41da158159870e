import Universe.Utils

/-!
# Addresses that are taken apart

`parse_url` looks for one mark after the other.  It finds them all where none
of them stands in a part before it.
-/

namespace Universe

/-- What an address consists of behind the host. -/
structure Target where
  path : Bytes
  query : Option Bytes
  fragment : Option Bytes
  rooted : path.head? = some 47
  pathFree : 63 ∉ path ∧ 35 ∉ path
  queryFree : ∀ text, query = some text → 35 ∉ text
  fragmentSome : ∀ text, fragment = some text → text ≠ []

/-- An address with a schema and a host. -/
structure AbsoluteUrl extends Target where
  schema : Bytes
  host : Bytes
  port : Option Bytes
  schemaSome : schema ≠ []
  schemaFree : 58 ∉ schema
  hostSome : host ≠ []
  hostFree : 47 ∉ host ∧ 58 ∉ host ∧ 63 ∉ host ∧ 35 ∉ host
  portFree : ∀ text, port = some text → 47 ∉ text ∧ 63 ∉ text ∧ 35 ∉ text

/-- A part with the mark before it, where there is one. -/
def marked (mark : UInt8) : Option Bytes → Bytes
  | some text => mark :: text
  | none => []

namespace Target

variable (target : Target)

/-- `path[?query][#fragment]`. -/
def text : Bytes :=
  target.path ++ marked 63 target.query ++ marked 35 target.fragment

/-- The parts behind those that are given. -/
def parts (schema host port : Option Bytes) : Url :=
  ⟨schema, host, port, target.path, target.query, target.fragment⟩

end Target

namespace AbsoluteUrl

variable (url : AbsoluteUrl)

/-- `schema://host[:port]path[?query][#fragment]`. -/
def text : Bytes :=
  url.schema ++ ascii "://" ++ url.host ++ marked 58 url.port ++
    url.toTarget.text

/-- The parts that are present. -/
def parts : Url := url.toTarget.parts (some url.schema) (some url.host) url.port

end AbsoluteUrl

namespace Utils

section Marks

variable {mark : UInt8} {separator before after text : Bytes}

theorem splitAt_found (absent : mark ∉ before) :
    splitAt (mark :: separator) (before ++ (mark :: separator) ++ after) =
      some (before, after) := by
  induction before with
  | nil =>
      have isPrefix :
          (mark :: separator).isPrefixOf (mark :: (separator ++ after)) =
            true :=
        List.isPrefixOf_iff_prefix.mpr (List.prefix_append _ after)
      rw [List.nil_append, List.cons_append, splitAt, if_pos isPrefix]
      rw [← List.cons_append, List.drop_left]
  | cons byte before induction =>
      rw [List.mem_cons, not_or] at absent
      obtain ⟨different, absent⟩ := absent
      rw [List.cons_append, List.cons_append, splitAt, induction absent,
        if_neg]
      · rfl
      · intro isPrefix
        obtain ⟨same, -⟩ := List.cons_prefix_cons.mp
          (List.isPrefixOf_iff_prefix.mp isPrefix)
        exact different same

/-- The separator is not found where it does not stand. -/
theorem splitAt_eq_none_iff (some : separator ≠ []) :
    splitAt separator text = none ↔ ¬ separator <:+: text := by
  induction text with
  | nil =>
      refine iff_of_true rfl fun inside => some ?_
      exact List.eq_nil_of_infix_nil inside
  | cons byte text induction =>
      rw [List.infix_cons_iff, not_or, ← induction, splitAt]
      by_cases isPrefix : separator.isPrefixOf (byte :: text)
      · rw [if_pos isPrefix]
        exact iff_of_false nofun fun ⟨absent, _⟩ =>
          absent (List.isPrefixOf_iff_prefix.mp isPrefix)
      · rw [if_neg isPrefix, Option.map_eq_none_iff]
        exact ⟨fun none => ⟨fun starts => isPrefix
          (List.isPrefixOf_iff_prefix.mpr starts), none⟩, And.right⟩

theorem splitAt_absent (absent : mark ∉ text) :
    splitAt (mark :: separator) text = none := by
  apply (splitAt_eq_none_iff (List.cons_ne_nil _ _)).mpr
  intro inside
  exact absent (inside.subset List.mem_cons_self)

end Marks

section Parsing

theorem path_takeWhile (target : Target) {rest : Bytes}
    (stops : rest = [] ∨ ∃ mark others, rest = mark :: others ∧
      (mark = 63 ∨ mark = 35)) :
    (target.path ++ rest).takeWhile (fun byte => byte != 63 && byte != 35) =
      target.path := by
  have free : ∀ byte ∈ target.path, (byte != 63 && byte != 35) = true := by
    intro byte member
    have noQuery : byte ≠ 63 := fun same => target.pathFree.1 (same ▸ member)
    have noFragment : byte ≠ 35 := fun same =>
      target.pathFree.2 (same ▸ member)
    simp [noQuery, noFragment]
  rw [List.takeWhile_append_of_pos free]
  rcases stops with rfl | ⟨mark, others, rfl, isMark⟩
  · exact List.append_nil _
  · rw [List.takeWhile_cons_of_neg, List.append_nil]
    rcases isMark with rfl | rfl <;> decide

theorem nonempty_of_ne {text : Bytes} (some : text ≠ []) :
    nonempty text = .some text := by
  unfold nonempty
  rw [if_neg]
  intro empty
  exact some (List.isEmpty_iff.mp empty)

theorem parsePath_path (target : Target) (schema host port : Option Bytes) :
    parsePath schema host port target.path =
      ⟨schema, host, port, target.path, none, none⟩ := by
  have path := path_takeWhile target (Or.inl rfl)
  rw [List.append_nil] at path
  unfold parsePath
  simp only [path, List.drop_length]

theorem parsePath_fragment (target : Target)
    (schema host port : Option Bytes) (others : Bytes) :
    parsePath schema host port (target.path ++ 35 :: others) =
      ⟨schema, host, port, target.path, none, nonempty others⟩ := by
  have path := path_takeWhile target (Or.inr ⟨35, others, rfl, Or.inr rfl⟩)
  unfold parsePath
  simp only [path, List.drop_left]
  rw [if_neg (by decide)]

theorem parsePath_query (target : Target) (schema host port : Option Bytes)
    {others : Bytes} (cut : splitAt (ascii "#") others = none) :
    parsePath schema host port (target.path ++ 63 :: others) =
      ⟨schema, host, port, target.path, some others, none⟩ := by
  have path := path_takeWhile target (Or.inr ⟨63, others, rfl, Or.inl rfl⟩)
  unfold parsePath
  simp only [path, List.drop_left, cut]
  exact if_pos trivial

theorem parsePath_both (target : Target) (schema host port : Option Bytes)
    {others query fragment : Bytes}
    (cut : splitAt (ascii "#") others = some (query, fragment)) :
    parsePath schema host port (target.path ++ 63 :: others) =
      ⟨schema, host, port, target.path, some query, nonempty fragment⟩ := by
  have path := path_takeWhile target (Or.inr ⟨63, others, rfl, Or.inl rfl⟩)
  unfold parsePath
  simp only [path, List.drop_left, cut]
  exact if_pos trivial

/-- The path, the query and the fragment are found where they stand. -/
theorem parsePath_text (target : Target) (schema host port : Option Bytes) :
    parsePath schema host port target.text =
      target.parts schema host port := by
  unfold Target.text Target.parts
  cases isQuery : target.query with
  | none =>
      cases isFragment : target.fragment with
      | none =>
          unfold marked
          rw [List.append_nil, List.append_nil]
          exact parsePath_path target schema host port
      | some fragment =>
          have some := target.fragmentSome fragment isFragment
          unfold marked
          rw [List.append_nil, parsePath_fragment target, nonempty_of_ne some]
  | some query =>
      have free := target.queryFree query isQuery
      have joined : ∀ others, target.path ++ marked 63 (some query) ++ others =
          target.path ++ 63 :: (query ++ others) := by
        intro others
        rw [List.append_assoc]
        rfl
      rw [joined]
      cases isFragment : target.fragment with
      | none =>
          have absent : splitAt (ascii "#") query = none := splitAt_absent free
          have nothing : query ++ marked 35 none = query :=
            List.append_nil query
          rw [nothing, parsePath_query target _ _ _ absent]
      | some fragment =>
          have some := target.fragmentSome fragment isFragment
          have found : splitAt (ascii "#") (query ++ marked 35 fragment) =
              .some (query, fragment) := by
            have found := @splitAt_found 35 [] query fragment free
            rwa [List.append_assoc] at found
          rw [parsePath_both target _ _ _ found, nonempty_of_ne some]

/-- What stands before the first slash. -/
theorem host_takeWhile {hostPort : Bytes} (free : 47 ∉ hostPort)
    (others : Bytes) :
    (hostPort ++ 47 :: others).takeWhile (· != 47) = hostPort := by
  have before : ∀ byte ∈ hostPort, (byte != 47) = true := by
    intro byte member
    have different : byte ≠ 47 := fun same => free (same ▸ member)
    simp [different]
  rw [List.takeWhile_append_of_pos before,
    List.takeWhile_cons_of_neg (by decide), List.append_nil]

theorem text_rooted (target : Target) :
    ∃ others, target.text = 47 :: others := by
  obtain ⟨others, isPath⟩ := List.head?_eq_some_iff.mp target.rooted
  refine ⟨others ++ marked 63 target.query ++ marked 35 target.fragment, ?_⟩
  unfold Target.text
  rw [isPath]
  rfl

/-- The host and the port are found behind the schema. -/
theorem hostPort_found (url : AbsoluteUrl) :
    splitAt (ascii "://") url.text =
        some (url.schema,
          (url.host ++ marked 58 url.port) ++ url.toTarget.text) ∧
      47 ∉ url.host ++ marked 58 url.port ∧
      url.host ++ marked 58 url.port ≠ [] := by
  refine ⟨?_, ?_, ?_⟩
  · have found := @splitAt_found 58 [47, 47] url.schema
      ((url.host ++ marked 58 url.port) ++ url.toTarget.text) url.schemaFree
    unfold AbsoluteUrl.text
    rw [List.append_assoc _ _ url.toTarget.text, List.append_assoc _ url.host,
      ← List.append_assoc url.host]
    exact found
  · intro member
    rcases List.mem_append.mp member with inHost | inPort
    · exact url.hostFree.1 inHost
    · cases isPort : url.port with
      | none =>
          rw [isPort] at inPort
          cases inPort
      | some port =>
          rw [isPort] at inPort
          rcases List.mem_cons.mp inPort with same | inPort
          · exact absurd same (by decide)
          · exact (url.portFree port isPort).1 inPort
  · intro empty
    exact url.hostSome (List.append_eq_nil_iff.mp empty).1

/-- What is parsed behind the schema, where there is a host. -/
theorem parseUrl_found {url schema hostPort others : Bytes}
    (found : splitAt (ascii "://") url = some (schema, hostPort ++ 47 :: others))
    (free : 47 ∉ hostPort) (some : hostPort ≠ []) :
    (∀ host port, splitAt (ascii ":") hostPort = .some (host, port) →
      parseUrl url =
        parsePath (.some schema) (.some host) (.some port) (47 :: others)) ∧
    (splitAt (ascii ":") hostPort = none →
      parseUrl url =
        parsePath (.some schema) (.some hostPort) none (47 :: others)) := by
  have notAll : hostPort.length ≠ (hostPort ++ 47 :: others).length := by
    simp only [List.length_append, List.length_cons]
    omega
  have filled : (hostPort.isEmpty ||
      hostPort.length = (hostPort ++ 47 :: others).length) = false := by
    rw [List.isEmpty_eq_false_iff.mpr some, Bool.false_or]
    exact decide_eq_false notAll
  constructor
  · intro host port cut
    unfold parseUrl
    simp only [found, host_takeWhile free, List.drop_left, cut]
    rw [filled, if_neg (by decide)]
  · intro cut
    unfold parseUrl
    simp only [found, host_takeWhile free, List.drop_left, cut]
    rw [filled, if_neg (by decide)]

/-- An absolute address is taken apart as it was put together. -/
theorem parseUrl_absolute (url : AbsoluteUrl) :
    parseUrl url.text = url.parts := by
  obtain ⟨others, rooted⟩ := text_rooted url.toTarget
  obtain ⟨found, free, some⟩ := hostPort_found url
  rw [rooted] at found
  obtain ⟨withPort, withoutPort⟩ := parseUrl_found found free some
  rw [← rooted] at withPort withoutPort
  unfold AbsoluteUrl.parts
  cases isPort : url.port with
  | none =>
      have alone : url.host ++ marked 58 none = url.host :=
        List.append_nil url.host
      rw [isPort, alone] at withoutPort
      rw [withoutPort (splitAt_absent url.hostFree.2.1)]
      exact parsePath_text url.toTarget _ _ _
  | some port =>
      have cut : splitAt (ascii ":") (url.host ++ marked 58 url.port) =
          .some (url.host, port) := by
        have cut := @splitAt_found 58 [] url.host port url.hostFree.2.1
        rw [isPort]
        rwa [List.append_assoc] at cut
      rw [withPort url.host port cut]
      exact parsePath_text url.toTarget _ _ _

theorem parseUrl_absolute_port :
    parseUrl (ascii "http://h:80/a?u=x://y/z#f") =
      ⟨some (ascii "http"), some (ascii "h"), some (ascii "80"), ascii "/a",
        some (ascii "u=x://y/z"), some (ascii "f")⟩ :=
  parseUrl_absolute
    { path := ascii "/a"
      query := some (ascii "u=x://y/z")
      fragment := some (ascii "f")
      schema := ascii "http"
      host := ascii "h"
      port := some (ascii "80")
      rooted := by decide
      pathFree := by decide
      queryFree := by
        intro text isText
        cases isText
        decide
      fragmentSome := by
        intro text isText
        cases isText
        decide
      schemaSome := by decide
      schemaFree := by decide
      hostSome := by decide
      hostFree := by decide
      portFree := by
        intro text isText
        cases isText
        decide }

end Parsing

end Utils

end Universe
