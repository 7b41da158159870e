import Universe.Trie.Search

/-!
# What occurs in the text

With overlaps a search returns every keyword that occurs, and without them the
keywords that a scan for the longest ones picks.  A keyword that the decoder
does not walk through is returned for the part that it does.
-/

namespace Universe

namespace Trie

open Utf8

/-- The character sequences of the keywords. -/
def IsWord (keywords : List Bytes) (path : List Bytes) : Prop :=
  ∃ keyword ∈ keywords, keyword ≠ [] ∧ characters keyword = path

theorem known_iff {keywords : List Bytes} {path : List Bytes} :
    Known (ofKeywords keywords) path ↔ IsWord keywords path := by
  unfold Known
  rw [valueAt_ofKeywords, Option.isSome_iff_exists]
  constructor
  · intro ⟨last, found⟩
    obtain ⟨member, nonempty, same⟩ := lastWith_eq_some found
    exact ⟨last, member, nonempty, same⟩
  · intro ⟨keyword, member, nonempty, same⟩
    rw [← same]
    exact exists_lastWith member nonempty

/-- The character sequences of which a search records the keyword. -/
def Matched (keywords : List Bytes) (text : Bytes) (noOverlap : Bool)
    (path : List Bytes) : Prop :=
  if noOverlap then
    ∃ picks, Matching.Scan (IsWord keywords) (characters text) picks ∧
      path ∈ picks
  else path ≠ [] ∧ path <:+: characters text

/-- What is matched is a part of the text. -/
theorem Matched.flatten_infix {keywords : List Bytes} {text : Bytes}
    {noOverlap : Bool} {path : List Bytes}
    (matched : Matched keywords text noOverlap path) :
    path.flatten <:+: text := by
  have within : path <:+: characters text := by
    cases noOverlap with
    | false => exact matched.2
    | true =>
        obtain ⟨picks, scan, picked⟩ := matched
        exact scan.infix_of_mem picked
  obtain ⟨before, after, whole⟩ := within
  have bytes := congrArg List.flatten whole
  rw [List.flatten_append, List.flatten_append] at bytes
  have block : path.flatten <:+: (characters text).flatten :=
    ⟨before.flatten, after.flatten, bytes⟩
  exact block.trans (flatten_characters text).isInfix

section Results

variable {keywords : List Bytes} {text : Bytes}

theorem sorted_search (root : Node) (text : Bytes) (noOverlap : Bool) :
    (search root text noOverlap).Pairwise (· < ·) := by
  have ordered : OrderedMap.Ordered
      (searchFrom root text noOverlap (text.length + 1) 0 []) :=
    ordered_searchFrom noOverlap List.Pairwise.nil
  exact List.pairwise_map.mpr ordered

theorem mem_search_overlaps {value : Bytes} :
    value ∈ search (ofKeywords keywords) text false ↔
      ∃ path, path ≠ [] ∧ path <:+: characters text ∧
        lastWith keywords path = some value := by
  refine (mem_searchFrom (by omega)).trans ?_
  simp [keys, characters, valueAt_ofKeywords]

/-- What is recorded without overlaps are the picks of the scan. -/
theorem exists_scan (keywords : List Bytes) (text : Bytes) :
    ∃ picks, Matching.Scan (IsWord keywords) (characters text) picks ∧
      ∀ value, value ∈ search (ofKeywords keywords) text true ↔
        ∃ path ∈ picks, lastWith keywords path = some value := by
  have valued : ∀ path value,
      (ofKeywords keywords).valueAt path = some value → value ≠ [] := by
    intro path value known
    rw [valueAt_ofKeywords] at known
    exact (lastWith_eq_some known).2.1
  obtain ⟨picks, scan, members⟩ := @searchFrom_scan (ofKeywords keywords) text
    (text.length + 1) 0 [] (by omega) valued
  refine ⟨picks, scan.congr fun path => known_iff, ?_⟩
  intro value
  refine (members value).trans ?_
  simp [keys, valueAt_ofKeywords]

/-- A search returns the last keyword of every sequence that it matches. -/
theorem mem_search (noOverlap : Bool) {value : Bytes} :
    value ∈ search (ofKeywords keywords) text noOverlap ↔
      ∃ path, Matched keywords text noOverlap path ∧
        lastWith keywords path = some value := by
  cases noOverlap with
  | false =>
      rw [mem_search_overlaps]
      constructor
      · intro ⟨path, nonempty, within, last⟩
        exact ⟨path, ⟨nonempty, within⟩, last⟩
      · intro ⟨path, ⟨nonempty, within⟩, last⟩
        exact ⟨path, nonempty, within, last⟩
  | true =>
      obtain ⟨picks, scan, members⟩ := exists_scan keywords text
      rw [members]
      constructor
      · intro ⟨path, picked, last⟩
        exact ⟨path, ⟨picks, scan, picked⟩, last⟩
      · intro ⟨path, ⟨others, also, picked⟩, last⟩
        rw [also.unique scan] at picked
        exact ⟨path, picked, last⟩

/-- Only the set of the keywords matters when `decode_char` walks through. -/
theorem search_eq_of_mem_iff {others : List Bytes} {noOverlap : Bool}
    (same : ∀ value, value ∈ search (ofKeywords others) text noOverlap ↔
      value ∈ search (ofKeywords keywords) text noOverlap) :
    search (ofKeywords others) text noOverlap =
      search (ofKeywords keywords) text noOverlap := by
  have distinct : ∀ keywords,
      (search (ofKeywords keywords) text noOverlap).Nodup := by
    intro keywords
    refine (sorted_search _ text noOverlap).imp ?_
    intro first second less equal
    exact List.lt_irrefl second (equal ▸ less)
  have permuted := (List.perm_ext_iff_of_nodup (distinct others)
    (distinct keywords)).mpr same
  exact permuted.eq_of_pairwise (fun first second _ _ less greater =>
    absurd greater (List.lt_asymm less)) (sorted_search _ text noOverlap)
    (sorted_search _ text noOverlap)

theorem characters_ne_nil {keyword : Bytes} (walked : Walked keyword)
    (nonempty : keyword ≠ []) : characters keyword ≠ [] := by
  intro none
  apply nonempty
  rw [← walked, none]
  rfl

/-- A search with overlaps returns the keywords that occur in the text, in
order and each of them once. -/
theorem search_overlaps (nonempty : ∀ keyword ∈ keywords, keyword ≠ [])
    (walked : ∀ keyword ∈ keywords, Walked keyword) (text : Bytes) :
    (search (ofKeywords keywords) text false).Pairwise (· < ·) ∧
    (∀ keyword, keyword ∈ search (ofKeywords keywords) text false ↔
      keyword ∈ keywords ∧ characters keyword <:+: characters text) ∧
    ∀ others, (∀ keyword, keyword ∈ others ↔ keyword ∈ keywords) →
      search (ofKeywords others) text false =
        search (ofKeywords keywords) text false := by
  have general : ∀ {keywords : List Bytes},
      (∀ keyword ∈ keywords, keyword ≠ []) →
      (∀ keyword ∈ keywords, Walked keyword) → ∀ keyword,
      keyword ∈ search (ofKeywords keywords) text false ↔
        keyword ∈ keywords ∧ characters keyword <:+: characters text := by
    intro keywords nonempty walked keyword
    rw [mem_search_overlaps]
    constructor
    · intro ⟨path, _, within, last⟩
      obtain ⟨member, -, rfl⟩ := (lastWith_walked walked).mp last
      exact ⟨member, within⟩
    · intro ⟨member, within⟩
      exact ⟨characters keyword,
        characters_ne_nil (walked keyword member) (nonempty keyword member),
        within,
        (lastWith_walked walked).mpr ⟨member, nonempty keyword member, rfl⟩⟩
  refine ⟨sorted_search _ text false, general nonempty walked, ?_⟩
  intro others same
  apply search_eq_of_mem_iff
  intro value
  rw [general nonempty walked, general
    (fun keyword member => nonempty keyword ((same keyword).mp member))
    (fun keyword member => walked keyword ((same keyword).mp member)), same]

/-- A search without overlaps returns what a scan picks that takes the longest
keyword wherever one begins.  It picks what an alternation of the keywords
matches, the longest of them first. -/
theorem search_leftmost_longest
    (nonempty : ∀ keyword ∈ keywords, keyword ≠ [])
    (walked : ∀ keyword ∈ keywords, Walked keyword) (text : Bytes) :
    (search (ofKeywords keywords) text true).Pairwise (· < ·) ∧
    ∃ picks, Matching.Scan (· ∈ keywords.map characters) (characters text)
        picks ∧
      (∀ keyword, keyword ∈ search (ofKeywords keywords) text true ↔
        keyword ∈ keywords ∧ characters keyword ∈ picks) ∧
      ∀ patterns, List.Perm patterns (keywords.map characters) →
        (patterns.Pairwise fun first second =>
          second.length ≤ first.length) →
        Matching.matchAll patterns (characters text) = picks := by
  have words : ∀ path, IsWord keywords path ↔
      path ∈ keywords.map characters := by
    intro path
    rw [List.mem_map]
    constructor
    · intro ⟨keyword, member, _, same⟩
      exact ⟨keyword, member, same⟩
    · intro ⟨keyword, member, same⟩
      exact ⟨keyword, member, nonempty keyword member, same⟩
  obtain ⟨picks, scan, members⟩ := exists_scan keywords text
  have listed := scan.congr words
  refine ⟨sorted_search _ text true, picks, listed, ?_, ?_⟩
  · intro keyword
    rw [members]
    constructor
    · intro ⟨path, picked, last⟩
      obtain ⟨member, -, rfl⟩ := (lastWith_walked walked).mp last
      exact ⟨member, picked⟩
    · intro ⟨member, picked⟩
      exact ⟨characters keyword, picked,
        (lastWith_walked walked).mpr ⟨member, nonempty keyword member, rfl⟩⟩
  · intro patterns permuted ordered
    have filled : ∀ pattern ∈ patterns, pattern ≠ [] := by
      intro pattern member
      obtain ⟨keyword, present, rfl⟩ :=
        List.mem_map.mp (permuted.mem_iff.mp member)
      exact characters_ne_nil (walked keyword present)
        (nonempty keyword present)
    have matched := Matching.scan_matchAll ordered filled (characters text)
    exact (matched.congr fun path => permuted.mem_iff).unique listed

/-- Every keyword that is returned occurs in the text exactly when the last
keyword of each sequence that is matched does, where it is not walked
through. -/
theorem search_sound_iff (keywords : List Bytes) (text : Bytes)
    (noOverlap : Bool) :
    (∀ keyword ∈ search (ofKeywords keywords) text noOverlap,
      keyword ∈ keywords ∧ keyword <:+: text) ↔
    ∀ path, Matched keywords text noOverlap path → ∀ keyword,
      lastWith keywords path = some keyword →
        Walked keyword ∨ keyword <:+: text := by
  constructor
  · intro sound path matched keyword last
    exact .inr (sound keyword
      ((mem_search noOverlap).mpr ⟨path, matched, last⟩)).2
  · intro condition keyword returned
    obtain ⟨path, matched, last⟩ := (mem_search noOverlap).mp returned
    obtain ⟨member, -, same⟩ := lastWith_eq_some last
    refine ⟨member, ?_⟩
    rcases condition path matched keyword last with walked | occurs
    · have bytes : keyword = path.flatten := by
        rw [← same]
        exact walked.symm
      rw [bytes]
      exact matched.flatten_infix
    · exact occurs

end Results

/-- Three keywords, one of which contains the others. -/
def sampleKeywords : List Bytes := ["ab", "bc", "abc"].map ascii

theorem search_overlaps_sample :
    (search (ofKeywords sampleKeywords) (ascii "xabcd") false).Pairwise
        (· < ·) ∧
      ∀ keyword, keyword ∈ search (ofKeywords sampleKeywords) (ascii "xabcd")
          false ↔
        keyword ∈ sampleKeywords ∧
          characters keyword <:+: characters (ascii "xabcd") := by
  obtain ⟨sorted, occurs, -⟩ := @search_overlaps sampleKeywords
    (by decide +kernel) (by decide +kernel) (ascii "xabcd")
  exact ⟨sorted, occurs⟩

theorem search_leftmost_longest_sample :
    ∃ picks, Matching.Scan (· ∈ sampleKeywords.map characters)
        (characters (ascii "xabcbc")) picks ∧
      (∀ keyword, keyword ∈ search (ofKeywords sampleKeywords)
          (ascii "xabcbc") true ↔
        keyword ∈ sampleKeywords ∧ characters keyword ∈ picks) ∧
      ∀ patterns, List.Perm patterns (sampleKeywords.map characters) →
        (patterns.Pairwise fun first second =>
          second.length ≤ first.length) →
        Matching.matchAll patterns (characters (ascii "xabcbc")) = picks :=
  (search_leftmost_longest (by decide +kernel) (by decide +kernel)
    (ascii "xabcbc")).2

/-- A keyword with an invalid byte at its end is found where it is not. -/
theorem cut_keyword_found :
    ¬ ∀ keyword ∈ search (ofKeywords [ascii "ab" ++ [255]]) (ascii "ab") true,
      keyword <:+: ascii "ab" := by
  decide +kernel

end Trie

end Universe
