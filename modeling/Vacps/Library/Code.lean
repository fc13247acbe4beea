import Mathlib.Data.List.Basic

/- Codes that can be read from any point on: each letter has a word, no word goes on as another, and only the
   first unit of a word starts one. What is no word is passed over one unit at a time. -/
set_option autoImplicit false

namespace Library

structure Code (Letter Unit_ : Type) where
  word : Letter → List Unit_
  first : List Unit_ → Option Letter
  first_iff : ∀ text letter, first text = some letter ↔ word letter <+: text
  -- A unit inside a word, after its first.
  inner : Unit_ → Bool
  shape : ∀ letter, ∃ head rest, word letter = head :: rest ∧ inner head = false ∧ ∀ unit ∈ rest, inner unit = true

namespace Code

variable {Letter Unit_ : Type} (code : Code Letter Unit_)

def words (letters : List Letter) : List Unit_ := letters.flatMap code.word

-- The letters of a text, with none for each unit passed over; the counter has the units a word still takes.
def scanFrom : Nat → List Unit_ → List (Option Letter)
  | _, [] => []
  | pending + 1, _ :: rest => scanFrom pending rest
  | 0, unit :: rest =>
      match code.first (unit :: rest) with
      | some letter => some letter :: scanFrom ((code.word letter).length - 1) rest
      | none => none :: scanFrom 0 rest

def scan (text : List Unit_) : List (Option Letter) := code.scanFrom 0 text

@[simp] theorem scan_nil : code.scan [] = [] := rfl

@[simp] theorem words_nil : code.words [] = [] := rfl

@[simp] theorem words_cons (letter : Letter) (letters : List Letter) :
    code.words (letter :: letters) = code.word letter ++ code.words letters := rfl

@[simp] theorem words_append (front back : List Letter) : code.words (front ++ back) = code.words front ++ code.words back :=
  List.flatMap_append

theorem scan_drop (pending : Nat) (text : List Unit_) : code.scanFrom pending text = code.scan (text.drop pending) := by
  induction text generalizing pending with
  | nil => cases pending <;> simp [scan, scanFrom]
  | cons unit rest ih =>
      cases pending with
      | zero => rfl
      | succ pending =>
          rw [scanFrom, List.drop_succ_cons]
          exact ih pending

theorem word_some (letter : Letter) : code.word letter ≠ [] := by
  obtain ⟨head, rest, same, _, _⟩ := code.shape letter
  rw [same]
  simp

theorem first_word (letter : Letter) (rest : List Unit_) : code.first (code.word letter ++ rest) = some letter :=
  (code.first_iff _ _).mpr (List.prefix_append _ _)

theorem scan_word (letter : Letter) (rest : List Unit_) :
    code.scan (code.word letter ++ rest) = some letter :: code.scan rest := by
  obtain ⟨head, tail, same, _, _⟩ := code.shape letter
  have here := code.first_word letter rest
  rw [same, List.cons_append] at here ⊢
  rw [scan, scanFrom, here]
  dsimp only
  rw [scan_drop, same, List.length_cons, Nat.add_sub_cancel, List.drop_left]

theorem scan_stuck (unit : Unit_) (rest : List Unit_) (stuck : code.first (unit :: rest) = none) :
    code.scan (unit :: rest) = none :: code.scan rest := by
  rw [scan, scanFrom, stuck]
  rfl

theorem scan_words (letters : List Letter) (rest : List Unit_) :
    code.scan (code.words letters ++ rest) = letters.map some ++ code.scan rest := by
  induction letters with
  | nil => rfl
  | cons letter letters ih => rw [words_cons, List.append_assoc, scan_word, ih]; rfl

theorem first_nil : code.first [] = none := by
  cases found : code.first [] with
  | none => rfl
  | some letter =>
      have start := (code.first_iff _ _).mp found
      exact absurd (List.prefix_nil.mp start) (code.word_some letter)

theorem words_scan (letters : List Letter) : code.scan (code.words letters) = letters.map some := by
  have scanned := code.scan_words letters []
  rwa [List.append_nil, scan_nil, List.append_nil] at scanned

theorem words_injective (letters others : List Letter) (same : code.words letters = code.words others) :
    letters = others := by
  have scanned := congrArg code.scan same
  rw [words_scan, words_scan] at scanned
  exact List.map_injective_iff.mpr (fun _ _ => Option.some.inj) scanned

-- A text is a run of words, or goes on with something that is none.
theorem split_words (text : List Unit_) :
    ∃ letters rest, text = code.words letters ++ rest ∧ code.first rest = none := by
  generalize size : text.length = n
  induction n using Nat.strongRecOn generalizing text with
  | ind n ih =>
      cases found : code.first text with
      | none => exact ⟨[], text, rfl, found⟩
      | some letter =>
          obtain ⟨rest, rfl⟩ := (code.first_iff _ _).mp found
          have positive := List.length_pos_of_ne_nil (code.word_some letter)
          rw [List.length_append] at size
          obtain ⟨letters, last, rfl, stuck⟩ := ih rest.length (by omega) rest rfl
          exact ⟨letter :: letters, last, by simp, stuck⟩

theorem scan_whole (text : List Unit_) : none ∉ code.scan text ↔ ∃ letters, text = code.words letters := by
  obtain ⟨letters, rest, rfl, stuck⟩ := code.split_words text
  rw [scan_words]
  cases rest with
  | nil => simp
  | cons unit rest =>
      rw [scan_stuck code unit rest stuck]
      refine ⟨fun absent => absurd (by simp) absent, ?_⟩
      rintro ⟨others, same⟩
      have scanned := code.scan_words letters (unit :: rest)
      have whole := code.scan_words others []
      rw [List.append_nil, ← same, scanned, scan_stuck code unit rest stuck, scan_nil, List.append_nil] at whole
      have inside : none ∈ others.map some := whole ▸ by simp
      simp at inside

-- No word starts before the cut and ends behind it.
def Cut (front back : List Unit_) : Prop :=
  ∀ tail letter, tail ≠ [] → tail <:+ front → code.word letter <+: tail ++ back → code.word letter <+: tail

theorem scan_cut (front back : List Unit_) (cut : code.Cut front back) :
    code.scan (front ++ back) = code.scan front ++ code.scan back := by
  generalize size : front.length = n
  induction n using Nat.strongRecOn generalizing front with
  | ind n ih =>
      cases front with
      | nil => rfl
      | cons unit rest =>
          rw [List.length_cons] at size
          have later : ∀ shorter, shorter <:+ unit :: rest → code.Cut shorter back :=
            fun shorter inside tail letter some_ within => cut tail letter some_ (within.trans inside)
          cases found : code.first (unit :: rest ++ back) with
          | some letter =>
              have start := cut (unit :: rest) letter (by simp) List.suffix_rfl ((code.first_iff _ _).mp found)
              obtain ⟨others, same⟩ := start
              have positive := List.length_pos_of_ne_nil (code.word_some letter)
              have length := congrArg List.length same
              rw [List.length_append, List.length_cons] at length
              rw [← same, List.append_assoc, scan_word, scan_word,
                ih others.length (by omega) others (later others ⟨_, same⟩) rfl]
              rfl
          | none =>
              have none_ : code.first (unit :: rest) = none := by
                cases here : code.first (unit :: rest) with
                | none => rfl
                | some letter =>
                    have start := ((code.first_iff _ _).mp here).trans (List.prefix_append _ back)
                    rw [(code.first_iff _ _).mpr start] at found
                    cases found
              rw [List.cons_append] at found ⊢
              rw [scan_stuck code unit _ found, scan_stuck code unit rest none_,
                ih rest.length (by omega) rest (later rest (List.suffix_cons unit rest)) rfl]
              rfl

theorem cut_front (front back more : List Unit_) (cut : code.Cut front (back ++ more)) : code.Cut front back :=
  fun tail letter some_ inside start => cut tail letter some_ inside (start.trans (by rw [← List.append_assoc]; exact List.prefix_append _ _))

theorem cut_suffix (front shorter back : List Unit_) (inside : shorter <:+ front) (cut : code.Cut front back) : code.Cut shorter back :=
  fun tail letter some_ within start => cut tail letter some_ (within.trans inside) start

theorem cut_append (first second back : List Unit_) (before : code.Cut first (second ++ back)) (behind : code.Cut second back) :
    code.Cut (first ++ second) back := by
  intro tail letter some_ inside start
  rcases List.suffix_or_suffix_of_suffix inside (List.suffix_append first second) with within | ⟨rest, same⟩
  · exact behind tail letter some_ within start
  · subst same
    have within : rest <:+ first := List.suffix_append_self_iff.mp inside
    rw [List.append_assoc] at start
    by_cases empty : rest = []
    · subst empty
      exact behind second letter some_ List.suffix_rfl start
    · exact (before rest letter empty within start).trans (List.prefix_append _ _)

-- What follows can start a word, so none goes on into it.
theorem cut_starts (front : List Unit_) (unit : Unit_) (rest : List Unit_) (starts : code.inner unit = false) :
    code.Cut front (unit :: rest) := by
  intro tail letter some_ _ start
  by_cases long : (code.word letter).length ≤ tail.length
  · exact List.prefix_of_prefix_length_le start (List.prefix_append _ _) long
  · have through : tail ++ [unit] <+: code.word letter := by
      refine List.prefix_of_prefix_length_le ?_ start (by simp; omega)
      exact (List.prefix_append_right_inj tail).mpr (List.cons_prefix_cons.mpr ⟨rfl, List.nil_prefix⟩)
    obtain ⟨head, inside, same, _, inner⟩ := code.shape letter
    cases tail with
    | nil => exact absurd rfl some_
    | cons first others =>
        rw [same, List.cons_append, List.cons_prefix_cons] at through
        have member : unit ∈ inside := through.2.subset (by simp)
        rw [inner unit member] at starts
        cases starts

-- The text ends in the middle of a word.
def Truncated (tail : List Unit_) : Prop := tail ≠ [] ∧ ∃ letter, tail <+: code.word letter ∧ tail ≠ code.word letter

theorem truncated_starts (tail : List Unit_) (truncated : code.Truncated tail) :
    ∃ unit rest, tail = unit :: rest ∧ code.inner unit = false := by
  obtain ⟨some_, letter, start, _⟩ := truncated
  obtain ⟨head, rest, same, outer, _⟩ := code.shape letter
  cases tail with
  | nil => exact absurd rfl some_
  | cons unit others =>
      rw [same, List.cons_prefix_cons] at start
      exact ⟨unit, others, rfl, start.1 ▸ outer⟩

theorem truncated_stuck (tail : List Unit_) (truncated : code.Truncated tail) : code.first tail = none := by
  obtain ⟨_, letter, start, different⟩ := truncated
  cases found : code.first tail with
  | none => rfl
  | some other =>
      have within := (code.first_iff _ _).mp found
      have same : code.first (code.word letter) = some other := (code.first_iff _ _).mpr (within.trans start)
      have own := code.first_word letter []
      rw [List.append_nil, same, Option.some_inj] at own
      subst own
      exact absurd (start.eq_of_length_le within.length_le) different

theorem truncated_short (tail : List Unit_) (truncated : code.Truncated tail) :
    ∃ letter, tail.length < (code.word letter).length := by
  obtain ⟨_, letter, start, different⟩ := truncated
  refine ⟨letter, Nat.lt_of_le_of_ne start.length_le fun same => different (start.eq_of_length same)⟩

theorem cut_whole (front back : List Unit_) (whole : ∀ tail, tail <:+ front → ¬code.Truncated tail) : code.Cut front back := by
  intro tail letter some_ inside start
  rcases List.prefix_or_prefix_of_prefix start (List.prefix_append tail back) with here | longer
  · exact here
  · by_cases same : tail = code.word letter
    · exact same ▸ List.prefix_rfl
    · exact absurd ⟨some_, letter, longer, same⟩ (whole tail inside)

end Code

end Library
