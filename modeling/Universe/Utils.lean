import Universe.Http

/-!
# Addresses of the gateway's targets

`parse_url` and `merge_url_query` of `Utils`, as `forward_packet` uses them.
-/

namespace Universe

/-- The parts of `parse_url`, each present or not. -/
structure Url where
  schema : Option Bytes
  host : Option Bytes
  port : Option Bytes
  path : Bytes
  query : Option Bytes
  fragment : Option Bytes
  deriving DecidableEq, Repr

namespace Utils

/-- What stands before and after the first occurrence of `separator`. -/
def splitAt (separator : Bytes) : Bytes → Option (Bytes × Bytes)
  | [] => none
  | byte :: rest =>
      if separator.isPrefixOf (byte :: rest) then
        some ([], (byte :: rest).drop separator.length)
      else
        (splitAt separator rest).map fun (before, after) =>
          (byte :: before, after)

def nonempty (bytes : Bytes) : Option Bytes :=
  if bytes.isEmpty then none else some bytes

/-- The end of `parse_url`, from the path on. -/
def parsePath (schema host port : Option Bytes) (rest : Bytes) : Url :=
  let path := rest.takeWhile fun byte => byte != 63 && byte != 35
  match rest.drop path.length with
  | [] => ⟨schema, host, port, rest, none, none⟩
  | mark :: rest =>
      if mark = 63 then
        match splitAt (ascii "#") rest with
        | some (query, fragment) =>
            ⟨schema, host, port, path, some query, nonempty fragment⟩
        | none => ⟨schema, host, port, path, some rest, none⟩
      else ⟨schema, host, port, path, none, nonempty rest⟩

/-- `parse_url`. -/
def parseUrl (url : Bytes) : Url :=
  let (schema, rest) :=
    match splitAt (ascii "://") url with
    | some (schema, rest) => (some schema, rest)
    | none => (none, url)
  let hostPort := rest.takeWhile (· != 47)
  if hostPort.isEmpty || hostPort.length = rest.length then
    parsePath schema none none rest
  else
    let rest := rest.drop hostPort.length
    match splitAt (ascii ":") hostPort with
    | some (host, port) => parsePath schema (some host) (some port) rest
    | none => parsePath schema (some hostPort) none rest

/-- The pieces between the delimiters. -/
def pieces (delim : UInt8) : Bytes → List Bytes
  | [] => [[]]
  | byte :: rest =>
      if byte = delim then [] :: pieces delim rest
      else
        match pieces delim rest with
        | [] => [[byte]]
        | piece :: later => (byte :: piece) :: later

/-- `split`, which drops empty pieces. -/
def split (delim : UInt8) (str : Bytes) : List Bytes :=
  (pieces delim str).filter (!·.isEmpty)

/-- `join`. -/
def join (glue : Bytes) : List Bytes → Bytes
  | [] => []
  | [piece] => piece
  | piece :: rest => piece ++ glue ++ join glue rest

/-- The keys and values of a query.  A token without anything but `=` has no
key to look at, which is undefined. -/
def queryMap (query : Bytes) : Option Headers :=
  (split 38 query).foldlM
    (fun known token =>
      match split 61 token with
      | [] => none
      | [key] => some (known.set key [])
      | key :: value :: _ => some (known.set key value))
    []

/-- `merge_url_query`. -/
def mergeUrlQuery (query1 query2 : Bytes) : Option Bytes :=
  if query2.isEmpty then some query1
  else do
    let map1 ← queryMap query1
    let map2 ← queryMap query2
    let merged : Headers := map2.foldl
      (fun known item => Headers.set item.1 item.2 known) map1
    return join (ascii "&")
      (merged.map fun item => item.1 ++ ascii "=" ++ item.2)

section Bytes

variable {allowed : UInt8 → Prop}

/-- All bytes of a text. -/
def Only (allowed : UInt8 → Prop) (text : Bytes) : Prop :=
  ∀ byte ∈ text, allowed byte

theorem Only.of_subset {text part : Bytes} (only : Only allowed text)
    (within : ∀ byte ∈ part, byte ∈ text) : Only allowed part :=
  fun byte member => only byte (within byte member)

theorem Only.append {first second : Bytes} (firstOnly : Only allowed first)
    (secondOnly : Only allowed second) : Only allowed (first ++ second) := by
  intro byte member
  rcases List.mem_append.mp member with member | member
  · exact firstOnly byte member
  · exact secondOnly byte member

theorem splitAt_only {separator text before after : Bytes}
    (found : splitAt separator text = some (before, after))
    (only : Only allowed text) : Only allowed before ∧ Only allowed after := by
  induction text generalizing before after with
  | nil => cases found
  | cons byte rest induction =>
      unfold splitAt at found
      split at found
      · cases found
        exact ⟨by simp [Only], only.of_subset fun _ => List.mem_of_mem_drop⟩
      · obtain ⟨⟨restBefore, restAfter⟩, inRest, same⟩ :=
          Option.map_eq_some_iff.mp found
        cases same
        obtain ⟨first, later⟩ := List.forall_mem_cons.mp only
        obtain ⟨beforeOnly, afterOnly⟩ := induction inRest later
        exact ⟨List.forall_mem_cons.mpr ⟨first, beforeOnly⟩, afterOnly⟩

theorem parsePath_only {schema host port : Option Bytes} {rest query : Bytes}
    (found : (parsePath schema host port rest).query = some query)
    (only : Only allowed rest) : Only allowed query := by
  unfold parsePath at found
  dsimp only at found
  split at found
  · cases found
  · next mark tail dropped =>
      have tailOnly : Only allowed tail := by
        refine only.of_subset fun byte member => ?_
        refine List.mem_of_mem_drop (dropped ▸ List.mem_cons_of_mem mark member)
      split at found
      · split at found
        · next query fragment cut =>
            cases found
            exact (splitAt_only cut tailOnly).1
        · cases found
          exact tailOnly
      · cases found

theorem parseUrl_only {url query : Bytes}
    (found : (parseUrl url).query = some query) (only : Only allowed url) :
    Only allowed query := by
  unfold parseUrl at found
  have restOnly : ∀ schema rest,
      (match splitAt (ascii "://") url with
        | some (schema, rest) => (some schema, rest)
        | none => (none, url)) = (schema, rest) → Only allowed rest := by
    intro schema rest cut
    split at cut
    · next before after found =>
        cases cut
        exact (splitAt_only found only).2
    · cases cut
      exact only
  split at found
  next schema rest cut =>
    have restOnly := restOnly schema rest cut
    dsimp only at found
    split at found
    · exact parsePath_only found restOnly
    · have later : Only allowed
          (rest.drop (rest.takeWhile (· != 47)).length) :=
        restOnly.of_subset fun _ => List.mem_of_mem_drop
      split at found
      · exact parsePath_only found later
      · exact parsePath_only found later

theorem pieces_only {delim : UInt8} {text piece : Bytes}
    (member : piece ∈ pieces delim text) (only : Only allowed text) :
    Only allowed piece := by
  induction text generalizing piece with
  | nil =>
      have empty : piece = [] := by simpa [pieces] using member
      simp [empty, Only]
  | cons byte rest induction =>
      obtain ⟨first, later⟩ := List.forall_mem_cons.mp only
      unfold pieces at member
      split at member
      · rcases List.mem_cons.mp member with rfl | member
        · simp [Only]
        · exact induction member later
      · split at member
        · have single : piece = [byte] := by simpa using member
          rw [single]
          exact List.forall_mem_cons.mpr ⟨first, by simp⟩
        · next known others cut =>
            rcases List.mem_cons.mp member with rfl | member
            · refine List.forall_mem_cons.mpr ⟨first, ?_⟩
              exact induction (cut ▸ List.mem_cons_self) later
            · exact induction (cut ▸ List.mem_cons_of_mem _ member) later

theorem split_only {delim : UInt8} {text piece : Bytes}
    (member : piece ∈ split delim text) (only : Only allowed text) :
    Only allowed piece :=
  pieces_only (List.mem_of_mem_filter member) only

theorem join_only {glue : Bytes} (glueOnly : Only allowed glue)
    {list : List Bytes} (only : ∀ piece ∈ list, Only allowed piece) :
    Only allowed (join glue list) := by
  induction list with
  | nil => simp [join, Only]
  | cons piece rest induction =>
      obtain ⟨first, later⟩ := List.forall_mem_cons.mp only
      cases rest with
      | nil => exact first
      | cons next rest => exact (first.append glueOnly).append (induction later)

end Bytes

variable {allowed : UInt8 → Prop}

/-- All bytes of a map. -/
def Within (allowed : UInt8 → Prop) (map : Headers) : Prop :=
  ∀ item ∈ map, Only allowed item.1 ∧ Only allowed item.2

theorem Within.set {map : Headers} (within : Within allowed map)
    {name value : Bytes} (nameOnly : Only allowed name)
    (valueOnly : Only allowed value) : Within allowed (map.set name value) := by
  intro item member
  rcases OrderedMap.mem_assign member with rfl | member
  · exact ⟨nameOnly, valueOnly⟩
  · exact within item member

theorem queryMap_within {query : Bytes} {map : Headers}
    (read : queryMap query = some map) (only : Only allowed query) :
    Within allowed map := by
  have general : ∀ (tokens : List Bytes) (known : Headers),
      (∀ token ∈ tokens, Only allowed token) → Within allowed known →
      tokens.foldlM
        (fun known token =>
          match split 61 token with
          | [] => none
          | [key] => some (Headers.set key [] known)
          | key :: value :: _ => some (Headers.set key value known))
        known = some map →
      Within allowed map := by
    intro tokens
    induction tokens with
    | nil =>
        intro known _ within read
        cases read
        exact within
    | cons token tokens induction =>
        intro known all within read
        obtain ⟨first, later⟩ := List.forall_mem_cons.mp all
        rw [List.foldlM_cons] at read
        cases parts : split 61 token with
        | nil =>
            rw [parts] at read
            cases read
        | cons key rest =>
            have parted : ∀ part ∈ key :: rest, Only allowed part :=
              fun part member => split_only (parts ▸ member) first
            rw [parts] at read
            cases rest with
            | nil =>
                exact induction _ later (within.set
                  (parted key List.mem_cons_self) (by simp [Only])) read
            | cons value rest =>
                exact induction _ later (within.set
                  (parted key List.mem_cons_self)
                  (parted value (by simp))) read
  exact general _ [] (fun token member => split_only member only)
    (by simp [Within]) read

/-- The merged query has no bytes of its own but `=` and `&`. -/
theorem mergeUrlQuery_only {query1 query2 merged : Bytes}
    (returned : mergeUrlQuery query1 query2 = some merged)
    (only1 : Only allowed query1) (only2 : Only allowed query2)
    (equals : allowed 61) (ampersand : allowed 38) : Only allowed merged := by
  unfold mergeUrlQuery at returned
  split at returned
  · cases returned
    exact only1
  · obtain ⟨map1, read1, returned⟩ := Option.bind_eq_some_iff.mp returned
    obtain ⟨map2, read2, returned⟩ := Option.bind_eq_some_iff.mp returned
    cases returned
    have folded : ∀ (items known : Headers), Within allowed items →
        Within allowed known → Within allowed
          (items.foldl (fun known item => Headers.set item.1 item.2 known)
            known) := by
      intro items
      induction items with
      | nil => exact fun known _ within => within
      | cons item items induction =>
          intro known all within
          obtain ⟨first, later⟩ := List.forall_mem_cons.mp all
          exact induction _ later (within.set first.1 first.2)
    have within := folded map2 map1 (queryMap_within read2 only2)
      (queryMap_within read1 only1)
    refine join_only (fun byte member => ?_) ?_
    · rwa [List.mem_singleton.mp member]
    · intro piece member
      obtain ⟨item, present, rfl⟩ := List.mem_map.mp member
      refine Only.append (Only.append (within item present).1 ?_)
        (within item present).2
      intro byte isEquals
      rwa [List.mem_singleton.mp isEquals]

end Utils

end Universe
