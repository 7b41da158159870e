import Mathlib.Data.List.Basic
import Mathlib.Order.Defs.Unbundled
import Universe.Library.Lines

/-!
# Lines that a character ends

`separate` cuts a text behind every occurrence of one character.  A machine
that collects characters until a line has ended, and then deals with the line,
comes to the same in whatever pieces the text arrives.
-/

namespace Terminated

variable {α σ : Type} [DecidableEq α] (stop : α)

/-- The lines, each with the character that ends it, and what follows them. -/
def separate : List α → List (List α)
  | [] => []
  | char :: rest =>
      if char = stop then [char] :: separate rest
      else Lines.extend char (separate rest)

variable {stop}

/-- A text is a part of a line, or begins with a line. -/
@[elab_as_elim]
theorem lines_induction (stop : α) {motive : List α → Prop}
    (part : ∀ part, stop ∉ part → motive part)
    (line : ∀ body rest, stop ∉ body → motive rest →
      motive (body ++ stop :: rest)) (text : List α) : motive text := by
  induction size : text.length using Nat.strongRecOn
    generalizing text with
  | ind size induction =>
      by_cases inside : stop ∈ text
      · obtain ⟨body, rest, rfl, absent⟩ := List.eq_append_cons_of_mem inside
        apply line body rest absent
        apply induction rest.length _ rest rfl
        rw [← size, List.length_append, List.length_cons]
        omega
      · exact part text inside

theorem separate_line {body : List α} (absent : stop ∉ body) (rest : List α) :
    separate stop (body ++ stop :: rest) =
      (body ++ [stop]) :: separate stop rest := by
  induction body with
  | nil => simp [separate]
  | cons char body induction =>
      obtain ⟨different, absent⟩ := List.ne_and_not_mem_of_not_mem_cons absent
      rw [List.cons_append, separate, if_neg (Ne.symm different),
        induction absent]
      rfl

theorem separate_part {part : List α} (absent : stop ∉ part) :
    separate stop part = if part = [] then [] else [part] := by
  induction part with
  | nil => rfl
  | cons char part induction =>
      obtain ⟨different, absent⟩ := List.ne_and_not_mem_of_not_mem_cons absent
      rw [separate, if_neg (Ne.symm different), induction absent]
      cases part with
      | nil => rfl
      | cons next part => rfl

theorem flatten_separate (stop : α) (text : List α) :
    (separate stop text).flatten = text := by
  induction text using lines_induction stop with
  | part part absent =>
      rw [separate_part absent]
      split
      · next empty => exact empty.symm
      · simp
  | line body rest absent induction =>
      rw [separate_line absent, List.flatten_cons, induction]
      simp

/-- The character stands nowhere but at the end of a line. -/
theorem of_mem_separate {text line : List α} (member : line ∈ separate stop text) :
    ∃ body, stop ∉ body ∧ (line = body ++ [stop] ∨ line = body) := by
  induction text using lines_induction stop with
  | part part absent =>
      rw [separate_part absent] at member
      split at member
      · cases member
      · exact ⟨part, absent, .inr (List.mem_singleton.mp member)⟩
  | line body rest absent induction =>
      rw [separate_line absent] at member
      rcases List.mem_cons.mp member with first | later
      · exact ⟨body, absent, .inl first⟩
      · exact induction later

section Machine

variable (stop) (live : σ → Prop) [DecidablePred live]
  (perform : σ → List α → σ)

/-- One more character, for what has come of the lines so far and of the part
of a line behind them. -/
def feed (now : σ × List α) (char : α) : σ × List α :=
  if live now.1 then
    if char = stop then (perform now.1 (now.2 ++ [char]), [])
    else (now.1, now.2 ++ [char])
  else now

variable {stop} {live} {perform} {state : σ}

theorem feed_stopped (stopped : ¬live state) (part text : List α) :
    text.foldl (feed stop live perform) (state, part) = (state, part) := by
  induction text with
  | nil => rfl
  | cons char text induction =>
      rw [List.foldl_cons, feed, if_neg stopped]
      exact induction

theorem feed_part (isLive : live state) (part : List α) {text : List α}
    (absent : stop ∉ text) :
    text.foldl (feed stop live perform) (state, part) = (state, part ++ text) := by
  induction text generalizing part with
  | nil => rw [List.append_nil, List.foldl_nil]
  | cons char text induction =>
      obtain ⟨different, absent⟩ := List.ne_and_not_mem_of_not_mem_cons absent
      rw [List.foldl_cons, feed, if_pos isLive, if_neg (Ne.symm different),
        induction _ absent, List.append_assoc, List.singleton_append]

theorem feed_line (isLive : live state) (part : List α) {body : List α}
    (absent : stop ∉ body) (rest : List α) :
    (body ++ stop :: rest).foldl (feed stop live perform) (state, part) =
      rest.foldl (feed stop live perform)
        (perform state (part ++ body ++ [stop]), []) := by
  rw [List.foldl_append, feed_part isLive part absent, List.foldl_cons, feed,
    if_pos isLive, if_pos rfl]

/-- The part of a line has no end. -/
theorem notMem_feed {now : σ × List α} (absent : stop ∉ now.2) (text : List α) :
    stop ∉ (text.foldl (feed stop live perform) now).2 := by
  induction text generalizing now with
  | nil => exact absent
  | cons char text induction =>
      apply induction
      unfold feed
      split
      · split
        · exact List.not_mem_nil
        · next different =>
            intro member
            rcases List.mem_append.mp member with earlier | last
            · exact absent earlier
            · exact different (List.mem_singleton.mp last).symm
      · exact absent

/-- What every line leads to, a text leads to. -/
theorem feed_leads {relation : σ → σ → Prop} [IsPreorder σ relation]
    (leads : ∀ state line, relation state (perform state line))
    (now : σ × List α) (text : List α) :
    relation now.1 (text.foldl (feed stop live perform) now).1 := by
  induction text generalizing now with
  | nil => exact refl_of relation now.1
  | cons char text induction =>
      apply trans_of relation _ (induction (feed stop live perform now char))
      unfold feed
      split
      · split
        · exact leads now.1 _
        · exact refl_of relation now.1
      · exact refl_of relation now.1

end Machine

end Terminated
