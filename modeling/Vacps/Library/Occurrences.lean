import Mathlib.Algebra.Ring.Nat
import Mathlib.Data.List.Infix
import Vacps.Library.Code

/- Where a text stands in another, its first place there, and the pieces it cuts the other into from the left.
   The words of a code stand where their letters do. -/
set_option autoImplicit false

namespace Library

variable {α : Type}

def StandsAt (needle text front : List α) : Prop := front ++ needle <+: text

-- Places that overlap count, too.
def StandsOnce (needle text front : List α) : Prop :=
  StandsAt needle text front ∧ ∀ other, StandsAt needle text other → other = front

def FirstAt (needle text front : List α) : Prop :=
  StandsAt needle text front ∧ ∀ other, StandsAt needle text other → front <+: other

inductive Pieces (needle : List α) : List α → List (List α) → Prop where
  | last (text : List α) (absent : ∀ front, ¬StandsAt needle text front) : Pieces needle text [text]
  | next (text front back : List α) (pieces : List (List α)) (cut : text = front ++ needle ++ back)
      (first : FirstAt needle text front) (rest : Pieces needle back pieces) : Pieces needle text (front :: pieces)

section places

theorem stands_front (needle text front : List α) (stands : StandsAt needle text front) : front <+: text :=
  (List.prefix_append front needle).trans stands

theorem stands_cut (needle text front : List α) (stands : StandsAt needle text front) :
    ∃ back, text = front ++ needle ++ back := by
  obtain ⟨back, whole⟩ := stands
  exact ⟨back, whole.symm⟩

theorem once_first (needle text front : List α) (once : StandsOnce needle text front) : FirstAt needle text front :=
  ⟨once.1, fun other stands => once.2 other stands ▸ List.prefix_rfl⟩

instance [DecidableEq α] (needle text front : List α) : Decidable (StandsAt needle text front) :=
  inferInstanceAs (Decidable (_ <+: _))

-- A place is one of the fronts of the text.
theorem once_among (needle text front : List α) (stands : StandsAt needle text front)
    (only : ∀ other ∈ text.inits, StandsAt needle text other → other = front) : StandsOnce needle text front :=
  ⟨stands, fun other also => only other ((List.mem_inits other text).mpr (stands_front needle text other also)) also⟩

theorem first_unique (needle text front other : List α) (first : FirstAt needle text front)
    (also : FirstAt needle text other) : front = other :=
  (first.2 other also.1).eq_of_length_le (also.2 front first.1).length_le

theorem first_exists (needle text front : List α) (stands : StandsAt needle text front) :
    ∃ first, FirstAt needle text first := by
  generalize size : front.length = n
  induction n using Nat.strongRecOn generalizing front with
  | ind n ih =>
      by_cases least : ∀ other, StandsAt needle text other → front <+: other
      · exact ⟨front, stands, least⟩
      · obtain ⟨other, found⟩ := Classical.not_forall.mp least
        obtain ⟨also, beyond⟩ := Classical.not_imp.mp found
        rcases List.prefix_or_prefix_of_prefix (stands_front needle text front stands)
          (stands_front needle text other also) with before | shorter
        · exact absurd before beyond
        · have less : other.length < front.length := by
            refine Nat.lt_of_le_of_ne shorter.length_le fun same => beyond ?_
            exact shorter.eq_of_length same ▸ List.prefix_rfl
          exact ih other.length (size ▸ less) other also rfl

-- Behind an element that does not start it, the needle stands where it stood.
theorem first_tail (needle text front : List α) (unit : α) (first : FirstAt needle (unit :: text) (unit :: front)) :
    FirstAt needle text front := by
  refine ⟨(List.cons_prefix_cons.mp first.1).2, fun other stands => ?_⟩
  have later : StandsAt needle (unit :: text) (unit :: other) := List.cons_prefix_cons.mpr ⟨rfl, stands⟩
  exact (List.cons_prefix_cons.mp (first.2 (unit :: other) later)).2

theorem first_starts (needle text front : List α) (unit : α) (first : FirstAt needle text (unit :: front)) :
    ¬needle <+: text := by
  intro starts
  have least := first.2 [] starts
  rw [List.prefix_nil] at least
  cases least

end places

section search

variable [DecidableEq α] (needle : List α)

-- How many elements stand in front of the first place.
def indexOf : List α → Option Nat
  | [] => if needle.isEmpty then some 0 else none
  | unit :: rest => if needle.isPrefixOf (unit :: rest) then some 0 else (indexOf rest).map (· + 1)

theorem index_first (text : List α) :
    match indexOf needle text with
    | some index => ∃ front, front.length = index ∧ FirstAt needle text front
    | none => ∀ front, ¬StandsAt needle text front := by
  have starts : ∀ text : List α, needle <+: text → FirstAt needle text [] := fun text here => ⟨here, fun other _ => List.nil_prefix⟩
  induction text with
  | nil =>
      rw [indexOf]
      cases needle with
      | nil => exact ⟨[], rfl, starts [] List.nil_prefix⟩
      | cons unit rest =>
          intro front stands
          have nothing := List.prefix_nil.mp stands
          simp at nothing
  | cons unit rest ih =>
      rw [indexOf]
      by_cases here : needle <+: unit :: rest
      · rw [if_pos (List.isPrefixOf_iff_prefix.mpr here)]
        exact ⟨[], rfl, starts _ here⟩
      · rw [if_neg (fun found => here (List.isPrefixOf_iff_prefix.mp found))]
        -- A place in the text lies behind its first unit.
        have behind : ∀ front, StandsAt needle (unit :: rest) front → ∃ later, front = unit :: later ∧ StandsAt needle rest later := by
          intro front stands
          cases front with
          | nil => exact absurd stands here
          | cons head later =>
              obtain ⟨rfl, tail⟩ := List.cons_prefix_cons.mp stands
              exact ⟨later, rfl, tail⟩
        cases found : indexOf needle rest with
        | some index =>
            rw [found] at ih
            obtain ⟨front, length, first⟩ := ih
            refine ⟨unit :: front, by rw [List.length_cons, length], List.cons_prefix_cons.mpr ⟨rfl, first.1⟩, fun other stands => ?_⟩
            obtain ⟨later, rfl, tail⟩ := behind other stands
            exact List.cons_prefix_cons.mpr ⟨rfl, first.2 later tail⟩
        | none =>
            rw [found] at ih
            intro front stands
            obtain ⟨later, _, tail⟩ := behind front stands
            exact ih later tail

theorem first_index (text front : List α) (first : FirstAt needle text front) : indexOf needle text = some front.length := by
  have place := index_first needle text
  cases found : indexOf needle text with
  | none =>
      rw [found] at place
      exact absurd first.1 (place front)
  | some index =>
      rw [found] at place
      obtain ⟨other, rfl, least⟩ := place
      rw [first_unique needle text front other first least]

end search

section window

variable (needle : List α)

-- No place that has begun in the text starts in front of what is kept of it.
def Within (text : List α) (kept : Nat) : Prop := ∀ begun, begun <+: needle → begun <:+ text → begun.length ≤ kept

theorem within_grows (text more : List α) (kept : Nat) (within : Within needle text kept) :
    Within needle (text ++ more) (kept + more.length) := by
  intro begun start last
  rcases List.suffix_or_suffix_of_suffix last (List.suffix_append text more) with short | ⟨front, same⟩
  · have length := short.length_le
    omega
  · subst same
    have length := within front ((List.prefix_append front more).trans start) (List.suffix_append_self_iff.mp last)
    rw [List.length_append]
    omega

-- What has been kept of a text finds the places that the whole text has.
theorem places_kept (gone kept more : List α) (absent : ∀ front, ¬StandsAt needle (gone ++ kept) front)
    (within : Within needle (gone ++ kept) kept.length) (front : List α) :
    StandsAt needle (gone ++ kept ++ more) front ↔ ∃ later, front = gone ++ later ∧ StandsAt needle (kept ++ more) later := by
  have moved : ∀ later, StandsAt needle (gone ++ kept ++ more) (gone ++ later) ↔ StandsAt needle (kept ++ more) later := by
    intro later
    rw [StandsAt, StandsAt, List.append_assoc, List.append_assoc, List.prefix_append_right_inj]
  refine ⟨fun stands => ?_, ?_⟩
  · have inside := stands_front needle _ front stands
    rw [List.append_assoc] at inside
    rcases List.prefix_or_prefix_of_prefix (List.prefix_append gone (kept ++ more)) inside with ⟨later, rfl⟩ | early
    · exact ⟨later, rfl, (moved later).mp stands⟩
    · rcases List.prefix_or_prefix_of_prefix stands (List.prefix_append (gone ++ kept) more) with before | through
      · exact absurd before (absent front)
      · obtain ⟨rest, rfl⟩ := early
        rw [List.append_assoc, List.prefix_append_right_inj] at through
        have short := within (rest ++ kept) through (by rw [List.append_assoc]; exact List.suffix_append _ _)
        rw [List.length_append] at short
        have nothing : rest = [] := List.eq_nil_of_length_eq_zero (by omega)
        subst nothing
        refine ⟨[], by simp, (moved []).mp ?_⟩
        simpa using stands
  · rintro ⟨later, rfl, stands⟩
    exact (moved later).mpr stands

theorem first_kept (gone kept more : List α) (absent : ∀ front, ¬StandsAt needle (gone ++ kept) front)
    (within : Within needle (gone ++ kept) kept.length) (later : List α) (first : FirstAt needle (kept ++ more) later) :
    FirstAt needle (gone ++ kept ++ more) (gone ++ later) := by
  have places := places_kept needle gone kept more absent within
  refine ⟨(places (gone ++ later)).mpr ⟨later, rfl, first.1⟩, fun other stands => ?_⟩
  obtain ⟨place, rfl, here⟩ := (places other).mp stands
  exact (List.prefix_append_right_inj gone).mpr (first.2 place here)

end window

section pieces

variable (needle : List α)

theorem pieces_some (text : List α) (pieces : List (List α)) (cut : Pieces needle text pieces) : pieces ≠ [] := by
  cases cut <;> simp

theorem pieces_join (text : List α) (pieces : List (List α)) (cut : Pieces needle text pieces) :
    needle.intercalate pieces = text := by
  induction cut with
  | last text absent => simp
  | next text front back pieces cut first rest ih =>
      rw [List.intercalate_cons_of_ne_nil (pieces_some needle back pieces rest), ih, cut, List.append_assoc]

theorem pieces_total (some_ : needle ≠ []) (text : List α) : ∃ pieces, Pieces needle text pieces := by
  generalize size : text.length = n
  induction n using Nat.strongRecOn generalizing text with
  | ind n ih =>
      by_cases absent : ∀ front, ¬StandsAt needle text front
      · exact ⟨[text], .last text absent⟩
      · obtain ⟨place, stands⟩ := Classical.not_forall.mp absent
        obtain ⟨front, first⟩ := first_exists needle text place (Classical.not_not.mp stands)
        obtain ⟨back, cut⟩ := stands_cut needle text front first.1
        have positive := List.length_pos_of_ne_nil some_
        have shorter : back.length < n := by
          rw [← size, cut, List.length_append, List.length_append]
          omega
        obtain ⟨pieces, rest⟩ := ih back.length shorter back rfl
        exact ⟨front :: pieces, .next text front back pieces cut first rest⟩

-- What the pieces are joined by counts once less than they do.
theorem intercalate_length (pieces : List (List α)) (some_ : pieces ≠ []) (between : List α) :
    (between.intercalate pieces).length + between.length = (pieces.map List.length).sum + pieces.length * between.length := by
  induction pieces with
  | nil => exact absurd rfl some_
  | cons piece rest ih =>
      cases rest with
      | nil => simp
      | cons next later =>
          have tail := ih (by simp)
          rw [List.intercalate_cons_cons, List.length_append, List.length_append, List.map_cons, List.sum_cons,
            List.length_cons, Nat.succ_mul]
          omega

end pieces

namespace Code

variable {Letter Unit_ : Type} (code : Code Letter Unit_)

theorem words_intercalate (between : List Letter) (pieces : List (List Letter)) :
    code.words (between.intercalate pieces) = (code.words between).intercalate (pieces.map code.words) := by
  induction pieces with
  | nil => rfl
  | cons piece rest ih =>
      cases rest with
      | nil => simp
      | cons next later =>
          rw [List.map_cons, List.map_cons, List.intercalate_cons_cons, List.intercalate_cons_cons, words_append,
            words_append, ih]
          rfl

-- A word starts with a unit that is inside none, so the cut in front of it is between letters.
theorem words_place (needle text : List Letter) (front back : List Unit_) (some_ : needle ≠ [])
    (cut : code.words text = front ++ code.words needle ++ back) :
    ∃ before behind, text = before ++ needle ++ behind ∧ front = code.words before ∧ back = code.words behind := by
  obtain ⟨unit, rest, starts, outer⟩ : ∃ unit rest, code.words needle = unit :: rest ∧ code.inner unit = false := by
    cases needle with
    | nil => exact absurd rfl some_
    | cons letter letters =>
        obtain ⟨head, inside, same, outer, _⟩ := code.shape letter
        exact ⟨head, inside ++ code.words letters, by rw [words_cons, same]; rfl, outer⟩
  have apart := code.scan_cut front (code.words needle ++ back)
    (by rw [starts]; exact code.cut_starts front unit _ outer)
  rw [← List.append_assoc, ← cut, words_scan, scan_words] at apart
  have clean : none ∉ text.map some := by simp
  obtain ⟨before, rfl⟩ := (code.scan_whole front).mp fun broken => clean (by rw [apart]; simp [broken])
  obtain ⟨behind, rfl⟩ := (code.scan_whole back).mp fun broken => clean (by rw [apart]; simp [broken])
  refine ⟨before, behind, code.words_injective _ _ ?_, rfl, rfl⟩
  rw [cut, words_append, words_append]

theorem stands_words (needle text : List Letter) (front : List Unit_) (some_ : needle ≠ []) :
    StandsAt (code.words needle) (code.words text) front ↔
      ∃ before, front = code.words before ∧ StandsAt needle text before := by
  refine ⟨?_, ?_⟩
  · rintro ⟨back, whole⟩
    obtain ⟨before, behind, cut, same, _⟩ := code.words_place needle text front back some_ whole.symm
    exact ⟨before, same, behind, cut.symm⟩
  · rintro ⟨before, rfl, behind, rfl⟩
    exact ⟨code.words behind, by rw [words_append, words_append]⟩

theorem once_words (needle text before : List Letter) (some_ : needle ≠ []) :
    StandsOnce (code.words needle) (code.words text) (code.words before) ↔ StandsOnce needle text before := by
  refine ⟨?_, ?_⟩
  · rintro ⟨stands, only⟩
    obtain ⟨place, same, here⟩ := (code.stands_words needle text _ some_).mp stands
    refine ⟨code.words_injective _ _ same ▸ here, fun other also => code.words_injective _ _ ?_⟩
    exact only _ ((code.stands_words needle text _ some_).mpr ⟨other, rfl, also⟩)
  · rintro ⟨stands, only⟩
    refine ⟨(code.stands_words needle text _ some_).mpr ⟨before, rfl, stands⟩, fun other also => ?_⟩
    obtain ⟨place, rfl, here⟩ := (code.stands_words needle text other some_).mp also
    rw [only place here]

theorem first_words (needle text before : List Letter) (some_ : needle ≠ []) (first : FirstAt needle text before) :
    FirstAt (code.words needle) (code.words text) (code.words before) := by
  refine ⟨(code.stands_words needle text _ some_).mpr ⟨before, rfl, first.1⟩, fun other also => ?_⟩
  obtain ⟨place, rfl, here⟩ := (code.stands_words needle text other some_).mp also
  obtain ⟨rest, rfl⟩ := first.2 place here
  exact ⟨code.words rest, (code.words_append before rest).symm⟩

theorem pieces_words (needle text : List Letter) (pieces : List (List Letter)) (some_ : needle ≠ [])
    (cut : Pieces needle text pieces) : Pieces (code.words needle) (code.words text) (pieces.map code.words) := by
  induction cut with
  | last text absent =>
      refine .last _ fun front stands => ?_
      obtain ⟨place, _, here⟩ := (code.stands_words needle text front some_).mp stands
      exact absent place here
  | next text front back pieces cut first rest ih =>
      refine .next _ _ (code.words back) _ ?_ (code.first_words needle text front some_ first) ih
      rw [cut, words_append, words_append]

end Code

end Library
