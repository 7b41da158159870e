import Mathlib.Data.List.TakeWhile
import Mathlib.Logic.Function.Basic
import Universe.Http.Forwarding
import Universe.Library.Separation
import Universe.Utils.Addresses

/-!
# Queries that are merged

A query stands for a map from keys to values.  `split` drops what is empty, so
that an equals sign at the beginning of a token, or a second one in it, is
lost.
-/

namespace Universe

namespace Utils

open Separation

/-- What stands before the first equals sign, and behind it. -/
def entry (token : Bytes) : Bytes × Bytes :=
  match splitAt (ascii "=") token with
  | some parts => parts
  | none => (token, [])

/-- The map of some entries, where later ones win. -/
def entered (known : Bytes → Option Bytes) (items : List (Bytes × Bytes)) :
    Bytes → Option Bytes :=
  items.foldl (fun known item => Function.update known item.1 (some item.2))
    known

/-- The map that a query stands for. -/
def reading (query : Bytes) : Bytes → Option Bytes :=
  entered (fun _ => none) ((split 38 query).map entry)

/-- One map overridden by another one. -/
def overridden (former latter : Bytes → Option Bytes) : Bytes → Option Bytes :=
  fun key => (latter key).or (former key)

/-- The merged query is defined, and stands for the first one overridden by
the second one. -/
def Merges (query1 query2 : Bytes) : Prop :=
  ∃ merged, mergeUrlQuery query1 query2 = some merged ∧
    reading merged = overridden (reading query1) (reading query2)

section Pieces

variable {delim : UInt8} {text : Bytes}

/-- The first piece reaches to the first delimiter. -/
theorem pieces_first (delim : UInt8) (text : Bytes) :
    ∃ later, pieces delim text = text.takeWhile (· != delim) :: later := by
  induction text with
  | nil => exact ⟨[], rfl⟩
  | cons byte text induction =>
      obtain ⟨later, first⟩ := induction
      unfold pieces
      by_cases same : byte = delim
      · rw [if_pos same, List.takeWhile_cons_of_neg (by simp [same])]
        exact ⟨_, rfl⟩
      · rw [if_neg same, first, List.takeWhile_cons_of_pos (by simp [same])]
        exact ⟨_, rfl⟩

theorem pieces_eq_splitOn (delim : UInt8) (text : Bytes) :
    pieces delim text = text.splitOn delim := by
  induction text with
  | nil => rfl
  | cons byte text induction =>
      rw [pieces, induction, List.splitOn_cons_eq_if_modifyHead]
      by_cases same : byte = delim
      · rw [if_pos same, if_pos (beq_iff_eq.mpr same)]
      · rw [if_neg same, if_neg fun equal => same (beq_iff_eq.mp equal)]
        cases found : text.splitOn delim with
        | nil => exact absurd found (List.splitOn_ne_nil delim text)
        | cons piece later => rfl

theorem pieces_append {before : Bytes} (absent : delim ∉ before)
    (after : Bytes) :
    pieces delim (before ++ delim :: after) = before :: pieces delim after := by
  rw [pieces_eq_splitOn, pieces_eq_splitOn]
  exact List.splitOn_append_cons_self_of_not_mem absent after

theorem pieces_absent (absent : delim ∉ text) :
    pieces delim text = [text] := by
  rw [pieces_eq_splitOn]
  exact List.splitOn_eq_singleton absent

theorem cuts_pieces (delim : UInt8) (text : Bytes) :
    Cuts [delim] text (pieces delim text) := by
  rw [pieces_eq_splitOn]
  exact cuts_splitOn delim text

/-- No piece contains the delimiter. -/
theorem pieces_free {piece : Bytes} (member : piece ∈ pieces delim text) :
    delim ∉ piece := by
  intro inside
  apply (cuts_pieces delim text).absent (List.cons_ne_nil _ _) piece member
  exact (List.singleton_infix_iff delim piece).mpr inside

/-- A delimiter separates what is split. -/
theorem split_append (delim : UInt8) (first second : Bytes) :
    split delim (first ++ delim :: second) =
      split delim first ++ split delim second := by
  unfold split
  rw [pieces_eq_splitOn, pieces_eq_splitOn, pieces_eq_splitOn,
    List.splitOn_append_cons_self, List.filter_append]

theorem mem_split {piece : Bytes} (member : piece ∈ split delim text) :
    piece ≠ [] ∧ delim ∉ piece := by
  obtain ⟨isPiece, some⟩ := List.mem_filter.mp member
  refine ⟨?_, pieces_free isPiece⟩
  rintro rfl
  cases some

/-- A first piece that is not empty is kept. -/
theorem split_of_pieces {first : Bytes} {later : List Bytes}
    (isPieces : pieces delim text = first :: later) (some : first ≠ []) :
    split delim text = first :: later.filter (!·.isEmpty) := by
  unfold split
  rw [isPieces]
  apply List.filter_cons_of_pos
  rw [List.isEmpty_eq_false_iff.mpr some]
  rfl

/-- Pieces that are joined by a delimiter are told apart by it. -/
theorem split_join {list : List Bytes}
    (parts : ∀ piece ∈ list, piece ≠ [] ∧ delim ∉ piece) :
    split delim (join [delim] list) = list := by
  induction list with
  | nil => rfl
  | cons piece list induction =>
      have first := parts piece List.mem_cons_self
      cases list with
      | nil => exact split_of_pieces (pieces_absent first.2) first.1
      | cons next list =>
          have others := induction fun other member =>
            parts other (List.mem_cons_of_mem _ member)
          have joined : join [delim] (piece :: next :: list) =
              piece ++ delim :: join [delim] (next :: list) := by
            rw [join, List.append_assoc]
            · rfl
            · exact List.cons_ne_nil _ _
          rw [joined, split_append, others,
            split_of_pieces (pieces_absent first.2) first.1]
          rfl

end Pieces

section Entries

/-- What the source takes for a value: it stops at a second equals sign, and
skips those at the beginning. -/
def stripped (value : Bytes) : Bytes :=
  (value.dropWhile (· == 61)).takeWhile (· != 61)

theorem stripped_free (value : Bytes) : 61 ∉ stripped value := by
  intro member
  have kept := List.mem_takeWhile_imp member
  exact absurd kept (by decide)

theorem stripped_eq_iff {value : Bytes} :
    stripped value = value ↔ 61 ∉ value := by
  constructor
  · intro same
    rw [← same]
    exact stripped_free value
  · intro free
    have others : ∀ byte ∈ value, (byte != 61) = true := by
      intro byte member
      have different : byte ≠ 61 := fun same => free (same ▸ member)
      simp [different]
    have whole : value.takeWhile (· != 61) = value :=
      List.takeWhile_eq_self_iff.mpr others
    unfold stripped
    cases value with
    | nil => rfl
    | cons byte value =>
        have first := others byte List.mem_cons_self
        rw [List.dropWhile_cons_of_neg (by simpa using first)]
        exact whole

/-- The first piece that `split` keeps. -/
theorem split_first (value : Bytes) :
    (split 61 value).head?.getD [] = stripped value := by
  induction value with
  | nil => rfl
  | cons byte value induction =>
      unfold split stripped at induction ⊢
      by_cases equals : byte = 61
      · rw [List.dropWhile_cons_of_pos (by simp [equals]), ← induction, pieces,
          if_pos equals, List.filter_cons_of_neg (by decide)]
      · obtain ⟨later, first⟩ := pieces_first 61 (byte :: value)
        rw [List.dropWhile_cons_of_neg (by simp [equals]), first]
        rw [List.takeWhile_cons_of_pos (by simp [equals])]
        rfl

/-- What `merge_url_query` enters for a token. -/
def entryOf (token : Bytes) : Option (Bytes × Bytes) :=
  match split 61 token with
  | [] => none
  | [key] => some (key, [])
  | key :: value :: _ => some (key, value)

theorem entryOf_eq (token : Bytes) :
    entryOf token = (split 61 token).head?.map fun key =>
      (key, (split 61 token).tail.head?.getD []) := by
  unfold entryOf
  match split 61 token with
  | [] => rfl
  | [key] => rfl
  | key :: value :: _ => rfl

/-- A token that has a key is entered under it. -/
theorem entryOf_keyed {token : Bytes} (some : token ≠ [])
    (keyed : token.head? ≠ .some 61) :
    entryOf token = .some ((entry token).1, stripped (entry token).2) ∧
      (entry token).1 ≠ [] := by
  unfold entry
  by_cases equals : 61 ∈ token
  · obtain ⟨key, value, rfl, free⟩ := List.eq_append_cons_of_mem equals
    have found : splitAt (ascii "=") (key ++ 61 :: value) =
        .some (key, value) := by
      have found := @splitAt_found 61 [] key value free
      rwa [List.append_assoc] at found
    have named : key ≠ [] := by
      rintro rfl
      exact keyed rfl
    have parts : split 61 (key ++ 61 :: value) = key :: split 61 value :=
      split_of_pieces (pieces_append free value) named
    rw [found, entryOf_eq, parts, ← split_first value]
    exact ⟨rfl, named⟩
  · have absent : splitAt (ascii "=") token = none := splitAt_absent equals
    have parts : split 61 token = [token] :=
      split_of_pieces (pieces_absent equals) some
    rw [absent, entryOf_eq, parts]
    exact ⟨rfl, some⟩

theorem entry_of_equals {token : Bytes} (equals : token.head? = some 61) :
    (entry token).1 = [] := by
  obtain ⟨value, rfl⟩ := List.head?_eq_some_iff.mp equals
  have found : splitAt (ascii "=") (61 :: value) = some ([], value) :=
    @splitAt_found 61 [] [] value List.not_mem_nil
  unfold entry
  rw [found]

end Entries

section Maps

variable {known : Bytes → Option Bytes} {items : List (Bytes × Bytes)}
  {key : Bytes}

theorem entered_cons (item : Bytes × Bytes) :
    entered known (item :: items) =
      entered (Function.update known item.1 (some item.2)) items :=
  rfl

theorem find_set_eq (headers : Headers) (name value : Bytes) :
    (headers.set name value).find =
      Function.update headers.find name (some value) := by
  funext other
  rw [Headers.find_set, Function.update_apply]
  by_cases same : name = other
  · rw [if_pos same, if_pos same.symm]
  · rw [if_neg same, if_neg (Ne.symm same)]

/-- Entering into a map of the source enters into what it stands for. -/
theorem find_foldl_set (items : List (Bytes × Bytes)) (headers : Headers) :
    (items.foldl (fun known item => Headers.set item.1 item.2 known)
        headers).find = entered headers.find items := by
  induction items generalizing headers with
  | nil => rfl
  | cons item items induction =>
      rw [List.foldl_cons, induction, find_set_eq, entered_cons]

/-- Under different keys nothing is overridden but what was known. -/
theorem entered_ordered {headers : Headers} (ordered : headers.Ordered)
    (known : Bytes → Option Bytes) :
    entered known headers = overridden known headers.find := by
  induction headers generalizing known with
  | nil => rfl
  | cons header headers induction =>
      obtain ⟨first, later⟩ := List.pairwise_cons.mp ordered
      rw [entered_cons, induction later]
      funext key
      unfold overridden
      rw [Headers.find_cons, Function.update_apply]
      by_cases same : header.1 = key
      · have absent : Headers.find headers key = none := by
          apply Option.eq_none_iff_forall_ne_some.mpr
          intro value found
          have less := first _ (OrderedMap.mem_of_find found)
          rw [same] at less
          exact absurd less (List.lt_irrefl key)
        rw [if_pos same, if_pos same.symm, absent]
        rfl
      · rw [if_neg same, if_neg (Ne.symm same)]

/-- What was entered is known, whether or not it was overridden later. -/
theorem entered_isSome
    (member : (∃ item ∈ items, item.1 = key) ∨ (known key).isSome) :
    (entered known items key).isSome := by
  induction items generalizing known with
  | nil =>
      rcases member with ⟨item, none, -⟩ | before
      · cases none
      · exact before
  | cons item items induction =>
      rw [entered_cons]
      apply induction
      rw [Function.update_apply]
      by_cases same : key = item.1
      · rw [if_pos same]
        exact .inr rfl
      · rw [if_neg same]
        refine member.imp_left fun ⟨other, isItem, isKey⟩ => ?_
        rcases List.mem_cons.mp isItem with rfl | later
        · exact absurd isKey.symm same
        · exact ⟨other, later, isKey⟩

/-- Values may be changed before they are entered or afterwards. -/
theorem entered_map (change : Bytes → Bytes) :
    entered (fun key => (known key).map change)
        (items.map fun item => (item.1, change item.2)) =
      fun key => (entered known items key).map change := by
  induction items generalizing known with
  | nil => rfl
  | cons item items induction =>
      rw [List.map_cons, entered_cons, entered_cons, ← induction]
      congr 1
      funext key
      rw [Function.update_apply, Function.update_apply]
      split <;> rfl

end Maps

section Merging

/-- What can be printed as a token and read again. -/
def Plain (item : Bytes × Bytes) : Prop :=
  item.1 ≠ [] ∧ (61 ∉ item.1 ∧ 38 ∉ item.1) ∧ 61 ∉ item.2 ∧ 38 ∉ item.2

/-- A map whose entries are all plain. -/
structure Clean (map : Headers) : Prop where
  ordered : map.Ordered
  plain : ∀ item ∈ map, Plain item

theorem Clean.set {map : Headers} (clean : Clean map) {item : Bytes × Bytes}
    (plain : Plain item) : Clean (map.set item.1 item.2) := by
  refine ⟨OrderedMap.ordered_assign clean.ordered, ?_⟩
  intro other member
  rcases OrderedMap.mem_assign member with rfl | before
  · exact plain
  · exact clean.plain other before

theorem Clean.foldl {items known : Headers}
    (plain : ∀ item ∈ items, Plain item) (clean : Clean known) :
    Clean (items.foldl (fun known item => Headers.set item.1 item.2 known)
      known) := by
  induction items generalizing known with
  | nil => exact clean
  | cons item items induction =>
      obtain ⟨first, later⟩ := List.forall_mem_cons.mp plain
      exact induction later (clean.set first)

theorem queryMap_eq (query : Bytes) :
    queryMap query = (split 38 query).foldlM
      (fun known token => (entryOf token).map fun item =>
        Headers.set item.1 item.2 known) [] := by
  unfold queryMap
  congr 1
  funext known token
  unfold entryOf
  match split 61 token with
  | [] => rfl
  | [key] => rfl
  | key :: value :: _ => rfl

theorem entryOf_plain {token : Bytes} {item : Bytes × Bytes}
    (entered : entryOf token = some item) (free : 38 ∉ token) :
    Plain item := by
  have parts : ∀ piece ∈ split 61 token,
      piece ≠ [] ∧ 61 ∉ piece ∧ 38 ∉ piece := by
    intro piece member
    obtain ⟨some, noEquals⟩ := mem_split member
    have noAmpersand := split_only member (fun byte inside same =>
      free (same ▸ inside) : Only (· ≠ 38) token)
    exact ⟨some, noEquals, fun inside => noAmpersand 38 inside rfl⟩
  unfold entryOf at entered
  match found : split 61 token with
  | [] =>
      rw [found] at entered
      cases entered
  | [key] =>
      rw [found] at entered parts
      cases entered
      obtain ⟨some, free⟩ := parts key List.mem_cons_self
      exact ⟨some, free, List.not_mem_nil, List.not_mem_nil⟩
  | key :: value :: _ =>
      rw [found] at entered parts
      cases entered
      obtain ⟨some, free⟩ := parts key List.mem_cons_self
      exact ⟨some, free, (parts value (by simp)).2⟩

/-- Whatever is entered can be printed. -/
theorem queryMap_clean {query : Bytes} {map : Headers}
    (read : queryMap query = some map) : Clean map := by
  have general : ∀ (list : List Bytes) (known : Headers),
      (∀ token ∈ list, 38 ∉ token) → Clean known →
      list.foldlM (fun known token => (entryOf token).map fun item =>
        Headers.set item.1 item.2 known) known = some map → Clean map := by
    intro list
    induction list with
    | nil =>
        intro known free clean read
        cases read
        exact clean
    | cons token list induction =>
        intro known free clean read
        obtain ⟨first, later⟩ := List.forall_mem_cons.mp free
        rw [List.foldlM_cons] at read
        obtain ⟨next, isNext, read⟩ := Option.bind_eq_some_iff.mp read
        obtain ⟨item, entered, rfl⟩ := Option.map_eq_some_iff.mp isNext
        exact induction _ later (clean.set (entryOf_plain entered first)) read
  rw [queryMap_eq] at read
  exact general _ [] (fun token member => (mem_split member).2)
    ⟨List.Pairwise.nil, fun item none => absurd none List.not_mem_nil⟩ read

/-- Where every token has a key, nothing is lost but what stands behind a
second equals sign. -/
theorem queryMap_keyed {query : Bytes}
    (keyed : ∀ token ∈ split 38 query, token.head? ≠ some 61) :
    ∃ map, queryMap query = some map ∧
      Headers.find map = fun key => (reading query key).map stripped := by
  have general : ∀ (list : List Bytes) (known : Headers),
      (∀ token ∈ list, token ≠ [] ∧ token.head? ≠ some 61) →
      list.foldlM (fun known token => (entryOf token).map fun item =>
        Headers.set item.1 item.2 known) known =
          some (((list.map entry).map fun item =>
            (item.1, stripped item.2)).foldl
              (fun known item => Headers.set item.1 item.2 known) known) := by
    intro list
    induction list with
    | nil =>
        intro known keyed
        rfl
    | cons token list induction =>
        intro known keyed
        obtain ⟨first, later⟩ := List.forall_mem_cons.mp keyed
        rw [List.foldlM_cons, (entryOf_keyed first.1 first.2).1]
        exact induction _ later
  refine ⟨_, (queryMap_eq query).trans (general _ [] ?_), ?_⟩
  · intro token member
    exact ⟨(mem_split member).1, keyed token member⟩
  · rw [find_foldl_set]
    exact @entered_map (fun _ => none) ((split 38 query).map entry) stripped

/-- A plain map is read back from what is printed. -/
theorem reading_join {map : Headers} (clean : Clean map) :
    reading (join (ascii "&")
      (map.map fun item => item.1 ++ ascii "=" ++ item.2)) =
        Headers.find map := by
  have parts : ∀ piece ∈ map.map fun item => item.1 ++ ascii "=" ++ item.2,
      piece ≠ [] ∧ 38 ∉ piece := by
    intro piece member
    obtain ⟨item, inside, rfl⟩ := List.mem_map.mp member
    obtain ⟨some, ⟨-, noKey⟩, -, noValue⟩ := clean.plain item inside
    have noEquals : 38 ∉ ascii "=" := by decide
    refine ⟨?_, ?_⟩
    · intro empty
      exact some (List.append_eq_nil_iff.mp
        (List.append_eq_nil_iff.mp empty).1).1
    · rw [List.mem_append, List.mem_append, not_or, not_or]
      exact ⟨⟨noKey, noEquals⟩, noValue⟩
  have isTokens : split 38 (join (ascii "&")
      (map.map fun item => item.1 ++ ascii "=" ++ item.2)) =
        map.map fun item => item.1 ++ ascii "=" ++ item.2 :=
    split_join parts
  have isEntries : (map.map fun item => item.1 ++ ascii "=" ++ item.2).map
      entry = map := by
    have same : ∀ item ∈ map, (entry ∘ fun item : Bytes × Bytes =>
        item.1 ++ ascii "=" ++ item.2) item = id item := by
      intro item inside
      have found : splitAt (ascii "=") (item.1 ++ ascii "=" ++ item.2) =
          some item :=
        splitAt_found (clean.plain item inside).2.1.1
      change entry (item.1 ++ ascii "=" ++ item.2) = item
      unfold entry
      rw [found]
    rw [List.map_map, List.map_congr_left same, List.map_id]
  unfold reading
  rw [isTokens, isEntries, entered_ordered clean.ordered]
  funext key
  exact Option.or_none

theorem reading_empty : reading [] = fun _ => none := rfl

/-- A token is known to the map under its key. -/
theorem reading_isSome {query token : Bytes} (member : token ∈ split 38 query) :
    (reading query (entry token).1).isSome :=
  entered_isSome (.inl ⟨entry token, List.mem_map_of_mem member, rfl⟩)

/-- The merged map of the source, as it is printed and read. -/
theorem mergeUrlQuery_reading {query1 query2 merged : Bytes}
    (more : query2 ≠ [])
    (returned : mergeUrlQuery query1 query2 = some merged) :
    ∃ map1 map2, queryMap query1 = some map1 ∧ queryMap query2 = some map2 ∧
      reading merged = overridden (Headers.find map1) (Headers.find map2) ∧
      reading merged [] = none := by
  unfold mergeUrlQuery at returned
  rw [if_neg fun empty => more (List.isEmpty_iff.mp empty)] at returned
  obtain ⟨map1, read1, returned⟩ := Option.bind_eq_some_iff.mp returned
  obtain ⟨map2, read2, returned⟩ := Option.bind_eq_some_iff.mp returned
  have clean2 := queryMap_clean read2
  have clean := Clean.foldl clean2.plain (queryMap_clean read1)
  have printed := reading_join clean
  cases returned
  refine ⟨map1, map2, read1, read2, ?_, ?_⟩
  · rw [printed, find_foldl_set, entered_ordered clean2.ordered]
  · rw [printed]
    apply Option.eq_none_iff_forall_ne_some.mpr
    intro value found
    exact (clean.plain _ (OrderedMap.mem_of_find found)).1 rfl

theorem mergeUrlQuery_of_maps {query1 query2 : Bytes} {map1 map2 : Headers}
    (read1 : queryMap query1 = some map1)
    (read2 : queryMap query2 = some map2) :
    ∃ merged, mergeUrlQuery query1 query2 = some merged := by
  unfold mergeUrlQuery
  by_cases empty : query2.isEmpty
  · exact ⟨query1, if_pos empty⟩
  · rw [if_neg empty, read1, read2]
    exact ⟨_, rfl⟩

theorem overridden_map (former latter : Bytes → Option Bytes)
    (change : Bytes → Bytes) :
    overridden (fun key => (former key).map change)
        (fun key => (latter key).map change) =
      fun key => (overridden former latter key).map change := by
  funext key
  unfold overridden
  simp only
  cases latter key <;> rfl

/-- Two queries are merged as maps if no key is empty and no value that counts
has an equals sign in it. -/
theorem merges_iff (query1 query2 : Bytes) :
    Merges query1 query2 ↔
      query2 = [] ∨
        (∀ token ∈ split 38 query1 ++ split 38 query2, token.head? ≠ some 61) ∧
          ∀ key value, overridden (reading query1) (reading query2) key =
            some value → 61 ∉ value := by
  by_cases empty : query2 = []
  · refine iff_of_true ⟨query1, if_pos (List.isEmpty_iff.mpr empty), ?_⟩
      (.inl empty)
    rw [empty, reading_empty]
    rfl
  · constructor
    · intro ⟨merged, returned, same⟩
      obtain ⟨map1, map2, read1, read2, isMerged, noEmpty⟩ :=
        mergeUrlQuery_reading empty returned
      have keyed : ∀ token ∈ split 38 query1 ++ split 38 query2,
          token.head? ≠ some 61 := by
        intro token member equals
        have unnamed := entry_of_equals equals
        rw [same] at noEmpty
        unfold overridden at noEmpty
        obtain ⟨none2, none1⟩ := Option.or_eq_none_iff.mp noEmpty
        rcases List.mem_append.mp member with first | second
        · have known := reading_isSome first
          rw [unnamed, none1] at known
          cases known
        · have known := reading_isSome second
          rw [unnamed, none2] at known
          cases known
      refine .inr ⟨keyed, ?_⟩
      obtain ⟨keyed1, keyed2⟩ := List.forall_mem_append.mp keyed
      obtain ⟨other1, isOther1, find1⟩ := queryMap_keyed keyed1
      obtain ⟨other2, isOther2, find2⟩ := queryMap_keyed keyed2
      cases read1.symm.trans isOther1
      cases read2.symm.trans isOther2
      rw [find1, find2, overridden_map, same] at isMerged
      intro key value found
      have changed := congrFun isMerged key
      rw [found] at changed
      exact stripped_eq_iff.mp (Option.some.inj changed).symm
    · rintro (none | ⟨keyed, free⟩)
      · exact absurd none empty
      · obtain ⟨keyed1, keyed2⟩ := List.forall_mem_append.mp keyed
        obtain ⟨map1, read1, find1⟩ := queryMap_keyed keyed1
        obtain ⟨map2, read2, find2⟩ := queryMap_keyed keyed2
        obtain ⟨merged, returned⟩ := mergeUrlQuery_of_maps read1 read2
        obtain ⟨other1, other2, isOther1, isOther2, isMerged, -⟩ :=
          mergeUrlQuery_reading empty returned
        cases read1.symm.trans isOther1
        cases read2.symm.trans isOther2
        refine ⟨merged, returned, ?_⟩
        rw [isMerged, find1, find2, overridden_map]
        funext key
        cases found : overridden (reading query1) (reading query2) key with
        | none => rfl
        | some value =>
            exact congrArg some (stripped_eq_iff.mpr (free key value found))

/-- Of a value only what stands before its first equals sign is kept, and a
token without a key has none to look at. -/
theorem merges_not_equals :
    mergeUrlQuery (ascii "k=a=b") (ascii "x=1") = some (ascii "k=a&x=1") ∧
      mergeUrlQuery (ascii "=") (ascii "x=1") = none ∧
      ¬ Merges (ascii "k=a=b") (ascii "x=1") ∧
      ¬ Merges (ascii "=") (ascii "x=1") := by
  have cut : mergeUrlQuery (ascii "k=a=b") (ascii "x=1") =
      some (ascii "k=a&x=1") := by
    decide +kernel
  have undefined : mergeUrlQuery (ascii "=") (ascii "x=1") = none := by
    decide +kernel
  refine ⟨cut, undefined, ?_, ?_⟩
  · intro ⟨merged, returned, same⟩
    cases cut.symm.trans returned
    exact absurd (congrFun same (ascii "k")) (by decide +kernel)
  · intro ⟨merged, returned, same⟩
    cases undefined.symm.trans returned

end Merging

end Utils

end Universe
