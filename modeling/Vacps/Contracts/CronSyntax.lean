import Mathlib.Data.List.TakeWhile
import Vacps.Contracts.CronTermination

/- Five-field cron expressions: how they are written, what they mean, and what parseCron takes them for. -/
set_option autoImplicit false

namespace Vacps

open Library

section syntax_

structure Numeral where
  digits : List Char
  written : digits ≠ [] ∧ ∀ char ∈ digits, isDigit char = true

def Numeral.value (numeral : Numeral) : Nat := numeral.digits.foldl (fun value char => value * 10 + (char.toNat - 48)) 0

inductive CronItem where
  | any
  | value (n : Numeral)
  | range (a b : Numeral)
  | anyStep (s : Numeral)
  | rangeStep (a b s : Numeral)
  | valueStep (n s : Numeral)

def CronItem.text : CronItem → List Char
  | .any => ['*']
  | .value n => n.digits
  | .range a b => a.digits ++ '-' :: b.digits
  | .anyStep s => ['*'] ++ '/' :: s.digits
  | .rangeStep a b s => (a.digits ++ '-' :: b.digits) ++ '/' :: s.digits
  | .valueStep n s => n.digits ++ '/' :: s.digits

-- n/s means n, n+s, ... up to the field's maximum.
def CronItem.means (min max : Nat) (v : Nat) : CronItem → Prop
  | .any => True
  | .value n => v = n.value
  | .range a b => a.value ≤ v ∧ v ≤ b.value
  | .anyStep s => v ≤ max ∧ ∃ k, v = min + k * s.value
  | .rangeStep a b s => v ≤ b.value ∧ ∃ k, v = a.value + k * s.value
  | .valueStep n s => v ≤ max ∧ ∃ k, v = n.value + k * s.value

-- Numbers of the field's range, and steps above zero.
def CronItem.WellFormed (min max : Nat) : CronItem → Prop
  | .any => True
  | .value n => min ≤ n.value ∧ n.value ≤ max
  | .range a b => (min ≤ a.value ∧ a.value ≤ max) ∧ min ≤ b.value ∧ b.value ≤ max
  | .anyStep s => 0 < s.value
  | .rangeStep a b s => ((min ≤ a.value ∧ a.value ≤ max) ∧ min ≤ b.value ∧ b.value ≤ max) ∧ 0 < s.value
  | .valueStep n s => (min ≤ n.value ∧ n.value ≤ max) ∧ 0 < s.value

abbrev CronField : Type := List CronItem

def CronField.text (field : CronField) : List Char := [','].intercalate (field.map CronItem.text)

def CronField.WellFormed (min max : Nat) (field : CronField) : Prop := field ≠ [] ∧ ∀ item ∈ field, item.WellFormed min max

def CronField.Means (min max : Nat) (field : CronField) (v : Nat) : Prop := ∃ item ∈ field, item.means min max v

-- Sunday is 0 and 7.
def CronField.MeansDay (field : CronField) (v : Nat) : Prop :=
  (v ≤ 6 ∧ field.Means 0 7 v) ∨ (v = 0 ∧ field.Means 0 7 7)

structure CronExpression where
  minute : CronField
  hour : CronField
  dom : CronField
  month : CronField
  dow : CronField

def CronExpression.fields (expression : CronExpression) : List CronField :=
  [expression.minute, expression.hour, expression.dom, expression.month, expression.dow]

structure CronExpression.WellFormed (expression : CronExpression) : Prop where
  minute : expression.minute.WellFormed 0 59
  hour : expression.hour.WellFormed 0 23
  dom : expression.dom.WellFormed 1 31
  month : expression.month.WellFormed 1 12
  dow : expression.dow.WellFormed 0 7

def Blank (text : List Char) : Prop := ∀ char ∈ text, isTrimmed char = true

-- The fields with white space between them, and perhaps around them.
def CronExpression.Spells (expression : CronExpression) (text : String) : Prop :=
  ∃ lead first second third fourth trail, (Blank lead ∧ Blank trail) ∧
    ((Blank first ∧ first ≠ []) ∧ (Blank second ∧ second ≠ []) ∧ (Blank third ∧ third ≠ []) ∧ (Blank fourth ∧ fourth ≠ [])) ∧
    text.toList = lead ++ (expression.minute.text ++ (first ++ (expression.hour.text ++ (second ++ (expression.dom.text ++
      (third ++ (expression.month.text ++ (fourth ++ (expression.dow.text ++ trail)))))))))

end syntax_

section words

theorem split_words (char : Char) (blank : isTrimmed char = true) (front back : List Char) :
    ((front ++ char :: back).splitOnP isTrimmed).filter (· ≠ []) =
      (front.splitOnP isTrimmed).filter (· ≠ []) ++ (back.splitOnP isTrimmed).filter (· ≠ []) := by
  rw [List.splitOnP_append_cons front back blank, List.filter_append]

theorem split_blank (blank back : List Char) (all : Blank blank) :
    ((blank ++ back).splitOnP isTrimmed).filter (· ≠ []) = (back.splitOnP isTrimmed).filter (· ≠ []) := by
  induction blank with
  | nil => rfl
  | cons char rest ih =>
      have first := split_words char (all char List.mem_cons_self) [] (rest ++ back)
      rw [List.nil_append] at first
      rw [List.cons_append, first, ih fun other member => all other (List.mem_cons_of_mem _ member), List.splitOnP_nil]
      rfl

-- A word and the white space behind it.
theorem split_word (word blank back : List Char) (some_ : word ≠ []) (plain : ∀ char ∈ word, isTrimmed char = false)
    (all : Blank blank) (apart : blank ≠ []) :
    ((word ++ (blank ++ back)).splitOnP isTrimmed).filter (· ≠ []) = word :: (back.splitOnP isTrimmed).filter (· ≠ []) := by
  cases blank with
  | nil => exact absurd rfl apart
  | cons char rest =>
      rw [List.cons_append, split_words char (all char List.mem_cons_self),
        split_blank rest back fun other member => all other (List.mem_cons_of_mem _ member), List.splitOnP_eq_singleton plain]
      simp [some_]

theorem split_ending (word : List Char) (some_ : word ≠ []) (plain : ∀ char ∈ word, isTrimmed char = false) :
    (word.splitOnP isTrimmed).filter (· ≠ []) = [word] := by
  rw [List.splitOnP_eq_singleton plain]
  simp [some_]

theorem drop_blank (blank body : List Char) (all : Blank blank) (first : Char) (starts : body.head? = some first)
    (plain : isTrimmed first = false) : (blank ++ body).dropWhile isTrimmed = body := by
  rw [List.dropWhile_append_of_pos all]
  cases body with
  | nil => cases starts
  | cons head rest =>
      cases starts
      rw [List.dropWhile_cons_of_neg (by rw [plain]; simp)]

theorem trim_blank (lead body trail : List Char) (leading : Blank lead) (trailing : Blank trail) (first last : Char)
    (starts : body.head? = some first) (ends : body.getLast? = some last) (plain : isTrimmed first = false ∧ isTrimmed last = false)
    (text : String) (written : text.toList = lead ++ (body ++ trail)) : (trim text).toList = body := by
  have behind : Blank trail.reverse := fun char member => trailing char (List.mem_reverse.mp member)
  have starts_ : (body ++ trail).head? = some first := by rw [List.head?_append, starts]; rfl
  have ends_ : body.reverse.head? = some last := by rw [List.head?_reverse, ends]
  rw [trim, written, drop_blank lead _ leading first starts_ plain.1, List.reverse_append,
    drop_blank trail.reverse body.reverse behind last ends_ plain.2, List.reverse_reverse, String.toList_ofList]

end words

section numerals

variable (numeral : Numeral)

theorem digit_cases (char : Char) (digit : isDigit char = true) : ∃ n : Fin 10, char = Char.ofNat (48 + n) := by
  rw [isDigit, Bool.and_eq_true, decide_eq_true_eq, decide_eq_true_eq] at digit
  have low : 48 ≤ char.toNat := digit.1
  have high : char.toNat ≤ 57 := digit.2
  refine ⟨⟨char.toNat - 48, by omega⟩, ?_⟩
  have whole : 48 + (char.toNat - 48) = char.toNat := by omega
  rw [whole, Char.ofNat_toNat]

-- A digit is none of the characters with a meaning of their own.
theorem digit_plain (char : Char) (digit : isDigit char = true) :
    isTrimmed char = false ∧ char ∉ [',', '-', '/', '*', '+', '.', 'I', 'x', 'X', 'o', 'O', 'b', 'B'] := by
  obtain ⟨n, rfl⟩ := digit_cases char digit
  revert n
  decide

theorem digit_value (char : Char) (digit : isDigit char = true) : digitOf char = some (char.toNat - 48) ∧ char.toNat - 48 < 10 := by
  refine ⟨if_pos digit, ?_⟩
  obtain ⟨n, rfl⟩ := digit_cases char digit
  revert n
  decide

theorem radix_read (digits : List Char) (all : ∀ char ∈ digits, isDigit char = true) (some_ : digits ≠ []) :
    inRadix 10 digits = some (digits.foldl (fun value char => value * 10 + (char.toNat - 48)) 0) := by
  have folds : ∀ (rest : List Char) (start : Nat), (∀ char ∈ rest, isDigit char = true) →
      rest.foldl (fun (value : Option Nat) char => do
        let digit ← digitOf char
        if digit < 10 then pure ((← value) * 10 + digit) else none) (some start) =
          some (rest.foldl (fun value char => value * 10 + (char.toNat - 48)) start) := by
    intro rest
    induction rest with
    | nil => exact fun _ _ => rfl
    | cons char later ih =>
        intro start digits
        obtain ⟨read, small⟩ := digit_value char (digits char List.mem_cons_self)
        rw [List.foldl_cons, List.foldl_cons, read]
        simp only [Option.bind_eq_bind, Option.bind_some, if_pos small]
        exact ih _ fun other member => digits other (List.mem_cons_of_mem _ member)
  rw [inRadix, if_neg some_]
  exact folds digits 0 all

theorem decimal_read : unsignedDecimal numeral.digits = some (numeral.value : Rat) := by
  obtain ⟨digits, some_, all⟩ := numeral
  have whole : digits.takeWhile isDigit = digits := List.takeWhile_eq_self_iff.mpr all
  have rest : digits.dropWhile isDigit = [] := List.dropWhile_eq_nil_iff.mpr all
  unfold unsignedDecimal
  dsimp only
  rw [whole, rest]
  simp [radix_read digits all some_, exponentPart, powerOfTen, Numeral.value]

theorem literal_read : stringNumericLiteral numeral.digits = some (numeral.value : Rat) := by
  have decimal := decimal_read numeral
  obtain ⟨digits, some_, all⟩ := numeral
  dsimp only at decimal ⊢
  have unsigned : (signed digits) = (1, digits) := by
    cases digits with
    | nil => exact absurd rfl some_
    | cons char rest =>
        have plain := (digit_plain char (all char List.mem_cons_self)).2
        unfold signed
        split
        · rename_i same
          cases same
          exact absurd (by simp) plain
        · rename_i same
          cases same
          exact absurd (by simp) plain
        · rfl
  unfold stringNumericLiteral
  split
  · exact absurd rfl some_
  · rename_i mark rest
    have plain := (digit_plain mark (all mark (by simp))).2
    rw [if_neg, if_neg, if_neg]
    · exact decimal
    all_goals
      rintro (rfl | rfl)
      all_goals exact plain (by simp)
  · rw [unsigned, decimal]
    simp

theorem numeral_read : numberOf numeral.digits = doubleOf numeral.value := by
  have read := literal_read numeral
  obtain ⟨digits, some_, all⟩ := numeral
  dsimp only at read ⊢
  have plain : ∀ char ∈ digits, isTrimmed char = false := fun char member => (digit_plain char (all char member)).1
  have trimmed : (trim (String.ofList digits)).toList = digits := by
    obtain ⟨first, starts⟩ : ∃ first, digits.head? = some first := by
      cases digits with
      | nil => exact absurd rfl some_
      | cons head rest => exact ⟨head, rfl⟩
    obtain ⟨last, ends⟩ : ∃ last, digits.getLast? = some last := ⟨_, List.getLast?_eq_some_getLast some_⟩
    refine trim_blank [] digits [] (fun _ member => by cases member) (fun _ member => by cases member) first last starts ends
      ⟨plain first (List.mem_of_mem_head? starts), plain last (List.mem_of_getLast? ends)⟩ (String.ofList digits) ?_
    simp
  -- No digit is the I of Infinity.
  have named : ∀ name : String, 'I' ∈ name.toList → trim (String.ofList digits) ≠ name := by
    rintro name inside same
    rw [← same, trimmed] at inside
    exact (digit_plain 'I' (all 'I' inside)).2 (by simp)
  have finite : trim (String.ofList digits) ∉ ["Infinity", "+Infinity"] := by
    rw [List.mem_cons, List.mem_singleton, not_or]
    exact ⟨named "Infinity" (by decide), named "+Infinity" (by decide)⟩
  rw [numberOf, toNumber, if_neg finite, if_neg (named "-Infinity" (by decide)), trimmed, read]

end numerals

section stepping

theorem double_natural (n : Nat) (small : n < 2 ^ 53) : doubleOf n = .finite n := by
  have exact_ := natural_exact n small
  have bound : (n : Rat) < powerOfTwo 53 := by
    rw [power_zpow]
    exact_mod_cast small
  rw [Double.of_nonneg _ (Nat.cast_nonneg n), exact_, if_pos (bound.trans ((power_lt 53 1024).mpr (by norm_num)))]

-- The values of a loop over small numbers.
theorem count_naturals (a b step : Nat) (small : b < 2 ^ 53 - 1) (positive : 0 < step) :
    ∃ fuel values, countUp (.finite b) (.finite step) fuel (.finite a) = some values ∧
      ∀ x, x ∈ values ↔ ∃ v : Nat, x = .finite v ∧ v ≤ b ∧ ∃ k, v = a + k * step := by
  generalize left : b + 1 - a = turns
  induction turns using Nat.strong_induction_on generalizing a with
  | _ turns ih =>
      by_cases started : a ≤ b
      · have inside : (Double.finite a).le (.finite b) = true := decide_eq_true (by exact_mod_cast started)
        have sum : (Double.finite a).add (.finite step) = doubleOf ((a + step : Nat) : Rat) := by
          rw [Double.add]
          push_cast
          rfl
        by_cases more : a + step ≤ b
        · obtain ⟨fuel, values, ended, members⟩ := ih (b + 1 - (a + step)) (by omega) (a + step) rfl
          refine ⟨fuel + 1, .finite a :: values, ?_, ?_⟩
          · rw [countUp, if_pos inside, sum, double_natural _ (by omega), ended]
            rfl
          · intro x
            rw [List.mem_cons, members]
            refine ⟨?_, ?_⟩
            · rintro (rfl | ⟨v, rfl, below, k, rfl⟩)
              · exact ⟨a, rfl, started, 0, by simp⟩
              · exact ⟨_, rfl, below, k + 1, by ring⟩
            · rintro ⟨v, rfl, below, k, rfl⟩
              cases k with
              | zero => exact Or.inl (by simp)
              | succ k => exact Or.inr ⟨_, rfl, below, k, by ring⟩
        · refine ⟨2, [.finite a], ?_, ?_⟩
          · have past : ¬(doubleOf ((a + step : Nat) : Rat)).le (.finite b) = true := by
              intro back
              have next := Double.of_mono ((b + 1 : Nat) : Rat) ((a + step : Nat) : Rat) (Nat.cast_nonneg _)
                (by exact_mod_cast (by omega : b + 1 ≤ a + step))
              rw [double_natural (b + 1) (by omega)] at next
              have order := of_decide_eq_true (Double.le_trans _ _ _ next back)
              have order_ : b + 1 ≤ b := by exact_mod_cast order
              omega
            rw [countUp, if_pos inside, sum, countUp, if_neg past]
            rfl
          · intro x
            rw [List.mem_singleton]
            refine ⟨?_, ?_⟩
            · rintro rfl
              exact ⟨a, rfl, started, 0, by simp⟩
            · rintro ⟨v, rfl, below, k, rfl⟩
              cases k with
              | zero => simp
              | succ k =>
                  rw [Nat.succ_mul] at below
                  omega
      · refine ⟨1, [], ?_, ?_⟩
        · have past : ¬(Double.finite a).le (.finite b) = true := by
            intro back
            have order := of_decide_eq_true back
            exact started (by exact_mod_cast order)
          rw [countUp, if_neg past]
        · intro x
          refine ⟨(fun member => by cases member), ?_⟩
          rintro ⟨v, _, below, k, rfl⟩
          omega

-- The step numeral is beyond the largest double.
def Numeral.Overflows (numeral : Numeral) : Prop := nearestDouble numeral.value = none

theorem double_overflows (s : Numeral) (overflows : s.Overflows) : doubleOf s.value = .infinite false := by
  have nonneg : (0 : Rat) ≤ s.value := Nat.cast_nonneg _
  rw [doubleOf, overflows]
  dsimp only
  rw [decide_eq_false (not_lt.mpr nonneg)]

theorem stride_large (a b step v : Nat) (below : v ≤ b) (large : b < step) : (∃ k, v = a + k * step) ↔ v = a := by
  refine ⟨?_, ?_⟩
  · rintro ⟨k, rfl⟩
    cases k with
    | zero => simp
    | succ k =>
        rw [Nat.succ_mul] at below
        omega
  · rintro rfl
    exact ⟨0, by simp⟩

-- A step that is a number is a whole one, and takes the same values as what is written.
theorem step_whole (s : Numeral) (positive : 0 < s.value) (finite : ¬s.Overflows) :
    ∃ m : Nat, 0 < m ∧ doubleOf s.value = .finite m ∧
      ∀ a b v, b < 2 ^ 53 - 1 → v ≤ b → ((∃ k, v = a + k * m) ↔ ∃ k, v = a + k * s.value) := by
  by_cases small : s.value < 2 ^ 53
  · exact ⟨s.value, positive, double_natural _ small, fun a b v _ _ => Iff.rfl⟩
  · obtain ⟨m, whole⟩ := natural_whole s.value
    have read : doubleOf s.value = .finite m := by
      rw [Numeral.Overflows, nearest_rounded] at finite
      rw [doubleOf, nearest_rounded]
      split at finite
      · rename_i fits
        rw [if_pos fits, whole]
      · exact absurd rfl finite
    have large : 2 ^ 53 - 1 ≤ m := by
      have bound := rounded_mono ((2 ^ 53 - 1 : Nat) : Rat) s.value (Nat.cast_nonneg _)
        (by exact_mod_cast (by omega : 2 ^ 53 - 1 ≤ s.value))
      rw [natural_exact _ (by norm_num), whole] at bound
      exact_mod_cast bound
    refine ⟨m, by omega, read, fun a b v bounded below => ?_⟩
    rw [stride_large a b m v below (by omega), stride_large a b s.value v below (by omega)]

theorem step_admitted (m : Nat) (positive : 0 < m) : stepAdmitted (.finite m) = true := by
  have above : ¬((m : Rat) ≤ 0) := not_le.mpr (by exact_mod_cast positive)
  simp [stepAdmitted, Double.isInteger, Double.le, above]

end stepping

section reading

theorem numeral_plain (numeral : Numeral) (char : Char)
    (special : char ∈ [',', '-', '/', '*', '+', '.', 'I', 'x', 'X', 'o', 'O', 'b', 'B']) : char ∉ numeral.digits :=
  fun inside => (digit_plain char (numeral.written.2 char inside)).2 special

theorem piece_pair (separator : Char) (front back : List Char) (plainFront : separator ∉ front) (plainBack : separator ∉ back) :
    piece separator (front ++ separator :: back) 0 = front ∧ piece separator (front ++ separator :: back) 1 = back := by
  have parts : (front ++ separator :: back).splitOn separator = [front, back] := by
    rw [List.splitOn_append_cons_self, List.splitOn_eq_singleton plainFront, List.splitOn_eq_singleton plainBack]
    rfl
  rw [piece, piece, parts]
  exact ⟨rfl, rfl⟩

def CronItem.stepped : CronItem → Bool
  | .anyStep _ => true
  | .rangeStep _ _ _ => true
  | .valueStep _ _ => true
  | _ => false

def stepLoop (a b : Double) (s : Numeral) : Option CronLoop :=
  if stepAdmitted (doubleOf s.value) then some ⟨a, b, doubleOf s.value⟩ else none

def CronItem.loop (min max : Nat) : CronItem → Option CronLoop
  | .range a b => some ⟨doubleOf a.value, doubleOf b.value, .finite 1⟩
  | .anyStep s => stepLoop (.finite min) (.finite max) s
  | .rangeStep a b s => stepLoop (doubleOf a.value) (doubleOf b.value) s
  | .valueStep n s => stepLoop (doubleOf n.value) (.finite max) s
  | _ => none

-- What expandDow takes n/s for: n alone.
def CronItem.daily : CronItem → CronItem
  | .valueStep n s => .rangeStep n n s
  | item => item

theorem stepped_text (item : CronItem) : item.text.contains '/' = item.stepped := by
  have slash : ∀ numeral : Numeral, '/' ∉ numeral.digits := fun numeral => numeral_plain numeral '/' (by simp)
  cases item <;> simp [CronItem.text, CronItem.stepped, slash]

theorem range_loop_read (a b : Numeral) (step : Double) :
    rangeLoop (a.digits ++ '-' :: b.digits) step = ⟨doubleOf a.value, doubleOf b.value, step⟩ := by
  obtain ⟨first, second⟩ := piece_pair '-' a.digits b.digits (numeral_plain a '-' (by simp)) (numeral_plain b '-' (by simp))
  rw [rangeLoop, first, second, numeral_read, numeral_read]

-- The three forms with a step, from what stands before the slash.
theorem value_range (n : Numeral) : n.digits ≠ [] ∧ n.digits ≠ ['*'] ∧ '-' ∉ n.digits := by
  refine ⟨n.written.1, ?_, numeral_plain n '-' (by simp)⟩
  intro same
  exact numeral_plain n '*' (by simp) (by rw [same]; exact List.mem_cons_self)

theorem pair_range (a b : Numeral) : a.digits ++ '-' :: b.digits ≠ [] ∧ a.digits ++ '-' :: b.digits ≠ ['*'] ∧
    '-' ∈ a.digits ++ '-' :: b.digits := by
  refine ⟨by simp, ?_, by simp⟩
  intro same
  have inside : '-' ∈ ['*'] := by
    rw [← same]
    simp
  simp at inside

theorem field_loop_text (min max : Nat) (item : CronItem) : fieldLoop min max item.text = item.loop min max := by
  have slash : ∀ numeral : Numeral, '/' ∉ numeral.digits := fun numeral => numeral_plain numeral '/' (by simp)
  have dash : ∀ numeral : Numeral, '-' ∉ numeral.digits := fun numeral => numeral_plain numeral '-' (by simp)
  unfold fieldLoop
  dsimp only
  rw [stepped_text]
  cases item with
  | any => simp [CronItem.stepped, CronItem.text, CronItem.loop]
  | value n => simp [CronItem.stepped, CronItem.text, CronItem.loop, dash]
  | range a b => simp [CronItem.stepped, CronItem.text, CronItem.loop, range_loop_read]
  | anyStep s =>
      obtain ⟨front, back⟩ := piece_pair '/' ['*'] s.digits (by simp) (slash s)
      rw [CronItem.text, front, back, numeral_read]
      cases admitted : stepAdmitted (doubleOf s.value) <;> simp [CronItem.stepped, CronItem.loop, stepLoop, admitted]
  | rangeStep a b s =>
      obtain ⟨front, back⟩ := piece_pair '/' (a.digits ++ '-' :: b.digits) s.digits (by simp [slash]) (slash s)
      obtain ⟨some_, named, range⟩ := pair_range a b
      have ends := range_loop_read a b (doubleOf s.value)
      rw [CronItem.text, front, back, numeral_read]
      generalize a.digits ++ '-' :: b.digits = written at some_ named range ends
      cases admitted : stepAdmitted (doubleOf s.value) <;>
        simp [CronItem.stepped, CronItem.loop, stepLoop, admitted, some_, named, range, ends]
  | valueStep n s =>
      obtain ⟨front, back⟩ := piece_pair '/' n.digits s.digits (slash n) (slash s)
      obtain ⟨some_, named, plain⟩ := value_range n
      rw [CronItem.text, front, back, numeral_read, numeral_read]
      cases admitted : stepAdmitted (doubleOf s.value) <;>
        simp [CronItem.stepped, CronItem.loop, stepLoop, admitted, some_, named, plain]

theorem dow_loop_text (item : CronItem) : dowLoop item.text = item.daily.loop 0 6 := by
  have slash : ∀ numeral : Numeral, '/' ∉ numeral.digits := fun numeral => numeral_plain numeral '/' (by simp)
  have dash : ∀ numeral : Numeral, '-' ∉ numeral.digits := fun numeral => numeral_plain numeral '-' (by simp)
  unfold dowLoop
  dsimp only
  rw [stepped_text]
  cases item with
  | any => simp [CronItem.stepped, CronItem.text, CronItem.daily, CronItem.loop]
  | value n => simp [CronItem.stepped, CronItem.text, CronItem.daily, CronItem.loop, dash]
  | range a b => simp [CronItem.stepped, CronItem.text, CronItem.daily, CronItem.loop, range_loop_read]
  | anyStep s =>
      obtain ⟨front, back⟩ := piece_pair '/' ['*'] s.digits (by simp) (slash s)
      rw [CronItem.text, front, back, numeral_read]
      cases admitted : stepAdmitted (doubleOf s.value) <;>
        simp [CronItem.stepped, CronItem.daily, CronItem.loop, stepLoop, admitted]
  | rangeStep a b s =>
      obtain ⟨front, back⟩ := piece_pair '/' (a.digits ++ '-' :: b.digits) s.digits (by simp [slash]) (slash s)
      obtain ⟨some_, named, range⟩ := pair_range a b
      have ends := range_loop_read a b (doubleOf s.value)
      rw [CronItem.text, front, back, numeral_read]
      generalize a.digits ++ '-' :: b.digits = written at some_ named range ends
      cases admitted : stepAdmitted (doubleOf s.value) <;>
        simp [CronItem.stepped, CronItem.daily, CronItem.loop, stepLoop, admitted, some_, named, range, ends]
  | valueStep n s =>
      obtain ⟨front, back⟩ := piece_pair '/' n.digits s.digits (slash n) (slash s)
      obtain ⟨some_, named, plain⟩ := value_range n
      rw [CronItem.text, front, back, numeral_read, numeral_read]
      cases admitted : stepAdmitted (doubleOf s.value) <;>
        simp [CronItem.stepped, CronItem.daily, CronItem.loop, stepLoop, admitted, some_, named, plain]

end reading

section taken

-- A step that is beyond the doubles makes the code pass over the item.
def CronItem.Counts : CronItem → Prop
  | .anyStep s => ¬s.Overflows
  | .rangeStep _ _ s => ¬s.Overflows
  | .valueStep _ s => ¬s.Overflows
  | _ => True

-- The values of an item that is no wildcard, before they are added.
def CronItem.visited (min max fuel : Nat) (item : CronItem) : Option (List Double) :=
  match item.loop min max with
  | some loop => loop.run fuel
  | none => some (if item.stepped then [] else single (numberOf item.text))

-- A loop with a step, between two small numbers.
theorem step_loop_read (a b : Nat) (s : Numeral) (small : b < 2 ^ 53 - 1) (positive : 0 < s.value) (finite : ¬s.Overflows) :
    ∃ fuel loop values, stepLoop (.finite a) (.finite b) s = some loop ∧ loop.run fuel = some values ∧
      ∀ x, x ∈ values ↔ ∃ v : Nat, x = .finite v ∧ v ≤ b ∧ ∃ k, v = a + k * s.value := by
  obtain ⟨m, some_, read, same⟩ := step_whole s positive finite
  obtain ⟨fuel, values, ended, members⟩ := count_naturals a b m small some_
  refine ⟨fuel, ⟨.finite a, .finite b, .finite m⟩, values, ?_, ended, ?_⟩
  · rw [stepLoop, read, if_pos (step_admitted m some_)]
  · intro x
    rw [members]
    refine exists_congr fun v => and_congr_right fun _ => and_congr_right fun below => ?_
    exact same a b v small below

theorem step_loop_overflows (a b : Double) (s : Numeral) (overflows : s.Overflows) : stepLoop a b s = none := by
  rw [stepLoop, double_overflows s overflows]
  rfl

-- A form with a step, by what stands before the slash.
theorem visited_stepped (min max a b : Nat) (s : Numeral) (item : CronItem) (small : b < 2 ^ 53 - 1) (positive : 0 < s.value)
    (stepped : item.stepped = true) (loop : item.loop min max = stepLoop (.finite a) (.finite b) s)
    (counts : item.Counts ↔ ¬s.Overflows)
    (means : ∀ v, item.means min max v ↔ v ≤ b ∧ ∃ k, v = a + k * s.value) :
    ∃ fuel values, item.visited min max fuel = some values ∧
      ∀ x, x ∈ values ↔ ∃ v : Nat, x = .finite v ∧ item.Counts ∧ item.means min max v := by
  by_cases overflows : s.Overflows
  · refine ⟨0, [], ?_, ?_⟩
    · rw [CronItem.visited, loop, step_loop_overflows _ _ s overflows, stepped]
      rfl
    · intro x
      refine ⟨(fun member => by cases member), ?_⟩
      rintro ⟨v, _, passes, _⟩
      exact absurd overflows (counts.mp passes)
  · obtain ⟨fuel, found, values, same, ended, members⟩ := step_loop_read a b s small positive overflows
    refine ⟨fuel, values, ?_, ?_⟩
    · rw [CronItem.visited, loop, same]
      exact ended
    · intro x
      rw [members]
      refine exists_congr fun v => and_congr_right fun _ => ?_
      rw [means]
      exact (and_iff_right (counts.mpr overflows)).symm

theorem visited_item (min max least most : Nat) (high : max ≤ 60) (bounded : most ≤ 60) (item : CronItem)
    (formed : item.WellFormed least most) (named : item ≠ .any) :
    ∃ fuel values, item.visited min max fuel = some values ∧
      ∀ x, x ∈ values ↔ ∃ v : Nat, x = .finite v ∧ item.Counts ∧ item.means min max v := by
  cases item with
  | any => exact absurd rfl named
  | value n =>
      have read : numberOf n.digits = .finite n.value := by
        rw [numeral_read]
        exact double_natural _ (by have bound := formed.2; omega)
      refine ⟨0, [.finite n.value], ?_, ?_⟩
      · simp [CronItem.visited, CronItem.loop, CronItem.stepped, CronItem.text, read, single, Double.isInteger]
      · intro x
        simp [CronItem.Counts, CronItem.means]
  | range a b =>
      have start := double_natural a.value (by have bound := formed.1.2; omega)
      have ends := double_natural b.value (by have bound := formed.2.2; omega)
      obtain ⟨fuel, values, ended, members⟩ := count_naturals a.value b.value 1 (by have bound := formed.2.2; omega) one_pos
      refine ⟨fuel, values, ?_, ?_⟩
      · rw [Nat.cast_one] at ended
        rw [CronItem.visited, CronItem.loop, start, ends]
        exact ended
      · intro x
        rw [members]
        refine exists_congr fun v => and_congr_right fun _ => ?_
        simp only [CronItem.Counts, CronItem.means, true_and, mul_one]
        refine ⟨?_, fun inside => ⟨inside.2, v - a.value, by omega⟩⟩
        rintro ⟨below, k, rfl⟩
        exact ⟨Nat.le_add_right _ _, below⟩
  | anyStep s =>
      exact visited_stepped min max min max s _ (by omega) formed rfl rfl Iff.rfl fun v => Iff.rfl
  | rangeStep a b s =>
      have start := double_natural a.value (by have bound := formed.1.1.2; omega)
      have ends := double_natural b.value (by have bound := formed.1.2.2; omega)
      exact visited_stepped min max a.value b.value s _ (by have bound := formed.1.2.2; omega) formed.2 rfl
        (by rw [CronItem.loop, start, ends]) Iff.rfl fun v => Iff.rfl
  | valueStep n s =>
      have start := double_natural n.value (by have bound := formed.1.2; omega)
      exact visited_stepped min max n.value max s _ (by omega) formed.2 rfl (by rw [CronItem.loop, start]) Iff.rfl fun v => Iff.rfl

theorem means_range (min max : Nat) (item : CronItem) (formed : item.WellFormed min max) (named : item ≠ .any) (v : Nat)
    (means : item.means min max v) : min ≤ v ∧ v ≤ max := by
  cases item with
  | any => exact absurd rfl named
  | value n =>
      cases means
      exact formed
  | range a b => exact ⟨formed.1.1.trans means.1, means.2.trans formed.2.2⟩
  | anyStep s =>
      obtain ⟨below, k, rfl⟩ := means
      exact ⟨Nat.le_add_right _ _, below⟩
  | rangeStep a b s =>
      obtain ⟨below, k, rfl⟩ := means
      exact ⟨formed.1.1.1.trans (Nat.le_add_right _ _), below.trans formed.1.2.2⟩
  | valueStep n s =>
      obtain ⟨below, k, rfl⟩ := means
      exact ⟨formed.1.1.trans (Nat.le_add_right _ _), below⟩

-- An item of the first four fields is taken for what it means, if it counts.
def CronItem.Taken (min max v : Nat) (item : CronItem) : Prop := item.Counts ∧ item.means min max v

theorem field_part_text (min max fuel : Nat) (item : CronItem) :
    fieldPart min max fuel item.text = (item.visited min max fuel).map fun values => values.filterMap (admitted min max) := by
  unfold fieldPart CronItem.visited
  rw [field_loop_text]
  cases item.loop min max with
  | some loop => rfl
  | none =>
      dsimp only
      rw [stepped_text]
      cases item.stepped <;> rfl

theorem admitted_natural (min max u v : Nat) :
    admitted min max (.finite u) = some (v : Rat) ↔ u = v ∧ min ≤ v ∧ v ≤ max := by
  rw [admitted]
  have bounds : ((min : Rat) ≤ u ∧ (u : Rat) ≤ max) ↔ min ≤ u ∧ u ≤ max := by
    rw [Nat.cast_le, Nat.cast_le]
  by_cases inside : min ≤ u ∧ u ≤ max
  · rw [if_pos (bounds.mpr inside), Option.some_inj, Nat.cast_inj]
    refine ⟨?_, fun same => same.1⟩
    rintro rfl
    exact ⟨rfl, inside⟩
  · rw [if_neg fun both => inside (bounds.mp both)]
    refine ⟨(fun none_ => by cases none_), ?_⟩
    rintro ⟨rfl, both⟩
    exact absurd both inside

theorem field_item (min max : Nat) (high : max ≤ 60) (item : CronItem) (formed : item.WellFormed min max) (named : item ≠ .any) :
    ∃ fuel values, fieldPart min max fuel item.text = some values ∧ ∀ v : Nat, (v : Rat) ∈ values ↔ item.Taken min max v := by
  obtain ⟨fuel, values, ended, members⟩ := visited_item min max min max high high item formed named
  refine ⟨fuel, values.filterMap (admitted min max), ?_, ?_⟩
  · rw [field_part_text, ended]
    rfl
  · intro v
    rw [List.mem_filterMap]
    refine ⟨?_, ?_⟩
    · rintro ⟨x, member, added⟩
      obtain ⟨u, rfl, taken⟩ := (members x).mp member
      obtain ⟨rfl, _⟩ := (admitted_natural min max u v).mp added
      exact taken
    · intro taken
      exact ⟨_, (members _).mpr ⟨v, rfl, taken⟩,
        (admitted_natural min max v v).mpr ⟨rfl, means_range min max item formed named v taken.2⟩⟩

section days

-- In the day of the week 7 is added as 0.
def CronItem.TakenDay (v : Nat) (item : CronItem) : Prop :=
  item.Counts ∧ ((v ≤ 6 ∧ item.daily.means 0 7 v) ∨ (v = 0 ∧ item.daily.means 0 7 7))

theorem dow_part_text (fuel : Nat) (item : CronItem) :
    dowPart fuel item.text = (item.daily.visited 0 6 fuel).map fun values => values.filterMap (dayOfWeek item.stepped) := by
  have stepped : item.daily.stepped = item.stepped := by cases item <;> rfl
  have text : item.stepped = false → item.daily.text = item.text := by
    intro plain
    cases item <;> first | rfl | cases plain
  unfold dowPart CronItem.visited
  rw [dow_loop_text, stepped_text, stepped]
  cases item.daily.loop 0 6 with
  | some loop => rfl
  | none =>
      cases here : item.stepped with
      | true => rfl
      | false =>
          rw [text here]
          rfl

theorem day_natural (stepped : Bool) (u : Nat) (low : u ≤ 7) :
    dayOfWeek stepped (.finite u) = some (((if u = 7 then 0 else u : Nat)) : Rat) := by
  have all : ∀ (stepped : Bool) (u : Fin 8), dayOfWeek stepped (.finite (u : Nat)) =
      some (((if (u : Nat) = 7 then 0 else (u : Nat) : Nat)) : Rat) := by decide +kernel
  exact all stepped ⟨u, by omega⟩

theorem daily_formed (item : CronItem) (formed : item.WellFormed 0 7) : item.daily.WellFormed 0 7 := by
  cases item with
  | valueStep n s => exact ⟨⟨formed.1, formed.1⟩, formed.2⟩
  | _ => exact formed

theorem daily_counts (item : CronItem) : item.daily.Counts ↔ item.Counts := by cases item <;> exact Iff.rfl

theorem daily_named (item : CronItem) (named : item ≠ .any) : item.daily ≠ .any := by
  cases item <;> simp_all [CronItem.daily]

-- A wildcard's steps run to 6 in the code; only Sunday could come after it, and is there already.
theorem week_means (item : CronItem) (v : Nat) :
    ((v ≤ 6 ∧ item.daily.means 0 7 v) ∨ (v = 0 ∧ item.daily.means 0 7 7)) ↔
      ∃ u, u ≤ 7 ∧ item.daily.means 0 6 u ∧ v = if u = 7 then 0 else u := by
  have plain : ∀ means : Nat → Prop, ((v ≤ 6 ∧ means v) ∨ (v = 0 ∧ means 7)) ↔ ∃ u, u ≤ 7 ∧ means u ∧ v = if u = 7 then 0 else u := by
    intro means
    refine ⟨?_, ?_⟩
    · rintro (⟨low, here⟩ | ⟨rfl, sunday⟩)
      · exact ⟨v, by omega, here, by rw [if_neg (by omega)]⟩
      · exact ⟨7, le_refl 7, sunday, rfl⟩
    · rintro ⟨u, low, here, same⟩
      by_cases sunday : u = 7
      · rw [if_pos sunday] at same
        exact Or.inr ⟨same, sunday ▸ here⟩
      · rw [if_neg sunday] at same
        exact Or.inl ⟨by omega, same ▸ here⟩
  cases item with
  | any => exact plain fun _ => True
  | value n => exact plain fun u => u = n.value
  | range a b => exact plain fun u => a.value ≤ u ∧ u ≤ b.value
  | rangeStep a b s => exact plain fun u => u ≤ b.value ∧ ∃ k, u = a.value + k * s.value
  | valueStep n s => exact plain fun u => u ≤ n.value ∧ ∃ k, u = n.value + k * s.value
  | anyStep s =>
      refine ⟨?_, ?_⟩
      · rintro (⟨low, _, steps⟩ | ⟨rfl, _⟩)
        · exact ⟨v, by omega, ⟨low, steps⟩, by rw [if_neg (by omega)]⟩
        · exact ⟨0, by omega, ⟨by omega, 0, by simp⟩, rfl⟩
      · rintro ⟨u, _, ⟨low, steps⟩, same⟩
        rw [if_neg (by omega)] at same
        subst same
        exact Or.inl ⟨low, by omega, steps⟩

theorem dow_item (item : CronItem) (formed : item.WellFormed 0 7) (named : item ≠ .any) :
    ∃ fuel values, dowPart fuel item.text = some values ∧ ∀ v : Nat, (v : Rat) ∈ values ↔ item.TakenDay v := by
  have daily := daily_formed item formed
  obtain ⟨fuel, values, ended, members⟩ := visited_item 0 6 0 7 (by omega) (by omega) item.daily daily (daily_named item named)
  have small : ∀ u, item.daily.means 0 6 u → u ≤ 7 := by
    intro u means
    have wide : item.daily.means 0 7 u := by
      cases item with
      | anyStep s => exact ⟨means.1.trans (by omega), means.2⟩
      | _ => exact means
    exact (means_range 0 7 item.daily daily (daily_named item named) u wide).2
  refine ⟨fuel, values.filterMap (dayOfWeek item.stepped), ?_, ?_⟩
  · rw [dow_part_text, ended]
    rfl
  · intro v
    rw [List.mem_filterMap, CronItem.TakenDay, week_means]
    refine ⟨?_, ?_⟩
    · rintro ⟨x, member, added⟩
      obtain ⟨u, rfl, counts, means⟩ := (members x).mp member
      rw [day_natural item.stepped u (small u means), Option.some_inj, Nat.cast_inj] at added
      exact ⟨(daily_counts item).mp counts, u, small u means, means, added.symm⟩
    · rintro ⟨counts, u, low, means, rfl⟩
      exact ⟨_, (members _).mpr ⟨u, rfl, (daily_counts item).mpr counts, means⟩, day_natural item.stepped u low⟩

end days

section fields

theorem item_text_wildcard (item : CronItem) : item.text = ['*'] ↔ item = .any := by
  have digits : ∀ n : Numeral, n.digits ≠ ['*'] := fun n => (value_range n).2.1
  have longer : ∀ (front back : List Char) (mark : Char), front ≠ [] → front ++ mark :: back ≠ ['*'] := by
    intro front back mark some_ same
    have size := congrArg List.length same
    cases front with
    | nil => exact some_ rfl
    | cons head rest => simp at size
  cases item with
  | any => simp [CronItem.text]
  | value n => simp [CronItem.text, digits]
  | range a b => simp [CronItem.text, longer a.digits b.digits '-' a.written.1]
  | anyStep s => simp [CronItem.text]
  | rangeStep a b s =>
      have apart := longer (a.digits ++ '-' :: b.digits) s.digits '/' (by simp)
      simp only [CronItem.text, apart, false_iff]
      exact CronItem.noConfusion
  | valueStep n s => simp [CronItem.text, longer n.digits s.digits '/' n.written.1]

-- The set of a field: no set for a wildcard, else what its items are taken for.
def Reads (taken : Nat → CronItem → Prop) (field : CronField) (set : Option (List Rat)) : Prop :=
  (set = none ↔ .any ∈ field) ∧ ∀ values, set = some values → ∀ v : Nat, (v : Rat) ∈ values ↔ ∃ item ∈ field, taken v item

theorem parts_read (expand : Nat → List Char → Option (List Rat)) (steady : ∀ part, Steady fun fuel => expand fuel part)
    (taken : Nat → CronItem → Prop) (field : CronField)
    (each : ∀ item ∈ field, item ≠ .any → ∃ fuel values, expand fuel item.text = some values ∧
      ∀ v : Nat, (v : Rat) ∈ values ↔ taken v item) :
    ∃ fuel set, expandParts (expand fuel) (field.map CronItem.text) = some set ∧ Reads taken field set := by
  induction field with
  | nil => exact ⟨0, some [], rfl, by simp [Reads]⟩
  | cons item rest ih =>
      by_cases wildcard : item = .any
      · refine ⟨0, none, ?_, ?_⟩
        · rw [List.map_cons, expandParts, if_pos ((item_text_wildcard item).mpr wildcard)]
        · refine ⟨iff_of_true rfl ?_, fun _ none_ => by cases none_⟩
          rw [wildcard]
          exact List.mem_cons_self
      · have named : item.text ≠ ['*'] := fun same => wildcard ((item_text_wildcard item).mp same)
        obtain ⟨first, values, ended, members⟩ := each item List.mem_cons_self wildcard
        obtain ⟨second, set, ended_, reads⟩ := ih fun other member => each other (List.mem_cons_of_mem _ member)
        refine ⟨max first second, set.map (values ++ ·), ?_, ?_⟩
        · have here : expand (max first second) item.text = some values := steady _ _ _ _ (Nat.le_max_left _ _) ended
          have behind : expandParts (expand (max first second)) (rest.map CronItem.text) = some set :=
            parts_steady expand steady _ _ _ _ (Nat.le_max_right _ _) ended_
          rw [List.map_cons, expand_cons expand _ _ _ named, here, behind]
          rfl
        · refine ⟨?_, ?_⟩
          · rw [Option.map_eq_none_iff, reads.1, List.mem_cons]
            exact ⟨Or.inr, fun either => either.resolve_left fun same => wildcard same.symm⟩
          · intro all found v
            obtain ⟨later, inner, rfl⟩ := Option.map_eq_some_iff.mp found
            rw [List.mem_append, members, reads.2 later inner v]
            simp only [List.mem_cons, exists_eq_or_imp]

theorem items_split (field : CronField) (some_ : field ≠ []) : (CronField.text field).splitOn ',' = field.map CronItem.text := by
  refine List.splitOn_intercalate ',' ?_ ?_
  · intro text member
    obtain ⟨item, _, rfl⟩ := List.mem_map.mp member
    have comma : ∀ numeral : Numeral, ',' ∉ numeral.digits := fun numeral => numeral_plain numeral ',' (by simp)
    cases item <;> simp [CronItem.text, comma]
  · simpa using some_

-- The shortcut for a field that is the wildcard alone reads the same.
theorem wildcard_alone (expand : List Char → Option (List Rat)) (field : List Char) :
    (if field = ['*'] then some none else expandParts expand (field.splitOn ',')) = expandParts expand (field.splitOn ',') := by
  split
  · rename_i same
    rw [same, List.splitOn_eq_singleton (by decide), expandParts, if_pos rfl]
  · rfl

theorem field_reads (min max : Nat) (high : max ≤ 60) (field : CronField) (formed : field.WellFormed min max) :
    ∃ fuel set, expandField fuel (CronField.text field) min max = some set ∧ Reads (CronItem.Taken min max) field set := by
  have read := parts_read (fieldPart min max) (field_part_steady min max) (CronItem.Taken min max) field
    fun item member named => field_item min max high item (formed.2 item member) named
  rw [← items_split field formed.1] at read
  simp only [expandField, wildcard_alone]
  exact read

theorem dow_reads (field : CronField) (formed : field.WellFormed 0 7) :
    ∃ fuel set, expandDow fuel (CronField.text field) = some set ∧ Reads CronItem.TakenDay field set := by
  have read := parts_read dowPart dow_part_steady CronItem.TakenDay field
    fun item member named => dow_item item (formed.2 item member) named
  rw [← items_split field formed.1] at read
  simp only [expandDow, wildcard_alone]
  exact read

end fields

end taken

section spelling

theorem item_plain (item : CronItem) : item.text ≠ [] ∧ ∀ char ∈ item.text, isTrimmed char = false := by
  have digits : ∀ numeral : Numeral, ∀ char ∈ numeral.digits, isTrimmed char = false :=
    fun numeral char member => (digit_plain char (numeral.written.2 char member)).1
  have marks : isTrimmed '*' = false ∧ isTrimmed '-' = false ∧ isTrimmed '/' = false := by decide
  cases item with
  | any => simp [CronItem.text, marks]
  | value n => exact ⟨n.written.1, digits n⟩
  | range a b => simpa [CronItem.text, marks, or_imp, forall_and] using ⟨digits a, digits b⟩
  | anyStep s => simpa [CronItem.text, marks] using digits s
  | rangeStep a b s => simpa [CronItem.text, marks, or_imp, forall_and] using ⟨digits a, digits b, digits s⟩
  | valueStep n s => simpa [CronItem.text, marks, or_imp, forall_and] using ⟨digits n, digits s⟩

theorem field_plain (field : CronField) (some_ : field ≠ []) :
    CronField.text field ≠ [] ∧ ∀ char ∈ CronField.text field, isTrimmed char = false := by
  induction field with
  | nil => exact absurd rfl some_
  | cons item rest ih =>
      cases rest with
      | nil =>
          have alone : CronField.text [item] = item.text := by simp [CronField.text, List.intercalate]
          rw [alone]
          exact item_plain item
      | cons next later =>
          have longer : CronField.text (item :: next :: later) = item.text ++ ',' :: CronField.text (next :: later) := by
            simp [CronField.text, List.intercalate]
          obtain ⟨_, behind⟩ := ih (by simp)
          rw [longer]
          refine ⟨by simp, fun char member => ?_⟩
          rcases List.mem_append.mp member with front | back
          · exact (item_plain item).2 char front
          · rcases List.mem_cons.mp back with rfl | inner
            · decide
            · exact behind char inner

theorem split_spelled (e : CronExpression) (formed : e.WellFormed) (text : String) (spelled : e.Spells text) :
    splitSpaces (trim text).toList = [e.minute.text, e.hour.text, e.dom.text, e.month.text, e.dow.text] := by
  obtain ⟨lead, first, second, third, fourth, trail, ⟨leading, trailing⟩, ⟨one, two, three, four⟩, written⟩ := spelled
  obtain ⟨someMinute, plainMinute⟩ := field_plain e.minute formed.minute.1
  obtain ⟨someHour, plainHour⟩ := field_plain e.hour formed.hour.1
  obtain ⟨someDom, plainDom⟩ := field_plain e.dom formed.dom.1
  obtain ⟨someMonth, plainMonth⟩ := field_plain e.month formed.month.1
  obtain ⟨someDow, plainDow⟩ := field_plain e.dow formed.dow.1
  obtain ⟨front, starts⟩ : ∃ char, (CronField.text e.minute).head? = some char := by
    cases found : CronField.text e.minute with
    | nil => exact absurd found someMinute
    | cons char rest => exact ⟨char, rfl⟩
  have ends := List.getLast?_eq_some_getLast someDow
  have body := trim_blank lead (e.minute.text ++ (first ++ (e.hour.text ++ (second ++ (e.dom.text ++ (third ++ (e.month.text ++
    (fourth ++ e.dow.text)))))))) trail leading trailing front _ (by rw [List.head?_append, starts]; rfl)
    (by simp only [List.getLast?_append, ends, Option.some_or])
    ⟨plainMinute front (List.mem_of_mem_head? starts), plainDow _ (List.getLast_mem someDow)⟩ text
    (by rw [written]; simp only [List.append_assoc])
  have some_ : e.minute.text ++ (first ++ (e.hour.text ++ (second ++ (e.dom.text ++ (third ++ (e.month.text ++
    (fourth ++ e.dow.text))))))) ≠ [] := by simp [someMinute]
  rw [body, splitSpaces, if_neg some_, split_word _ first _ someMinute plainMinute one.1 one.2,
    split_word _ second _ someHour plainHour two.1 two.2, split_word _ third _ someDom plainDom three.1 three.2,
    split_word _ fourth _ someMonth plainMonth four.1 four.2, split_ending _ someDow plainDow]

-- What parseCron takes an expression for.
structure CronFields.Of (e : CronExpression) (fields : CronFields) : Prop where
  minutes : Reads (CronItem.Taken 0 59) e.minute fields.minutes
  hours : Reads (CronItem.Taken 0 23) e.hour fields.hours
  doms : Reads (CronItem.Taken 1 31) e.dom fields.doms
  months : Reads (CronItem.Taken 1 12) e.month fields.months
  dows : Reads CronItem.TakenDay e.dow fields.dows

theorem parse_spelled (e : CronExpression) (formed : e.WellFormed) (text : String) (spelled : e.Spells text) :
    ∃ fuel fields, parseCron fuel text = some (some fields) ∧ CronFields.Of e fields := by
  obtain ⟨f1, minutes, endMinutes, readMinutes⟩ := field_reads 0 59 (by omega) e.minute formed.minute
  obtain ⟨f2, hours, endHours, readHours⟩ := field_reads 0 23 (by omega) e.hour formed.hour
  obtain ⟨f3, doms, endDoms, readDoms⟩ := field_reads 1 31 (by omega) e.dom formed.dom
  obtain ⟨f4, months, endMonths, readMonths⟩ := field_reads 1 12 (by omega) e.month formed.month
  obtain ⟨f5, dows, endDows, readDows⟩ := dow_reads e.dow formed.dow
  let fuel := max f1 (max f2 (max f3 (max f4 f5)))
  refine ⟨fuel, ⟨minutes, hours, doms, months, dows⟩, ?_, ⟨readMinutes, readHours, readDoms, readMonths, readDows⟩⟩
  have first : expandField fuel e.minute.text 0 59 = some minutes := field_steady 0 59 _ f1 fuel _ (by omega) endMinutes
  have second : expandField fuel e.hour.text 0 23 = some hours := field_steady 0 23 _ f2 fuel _ (by omega) endHours
  have third : expandField fuel e.dom.text 1 31 = some doms := field_steady 1 31 _ f3 fuel _ (by omega) endDoms
  have fourth : expandField fuel e.month.text 1 12 = some months := field_steady 1 12 _ f4 fuel _ (by omega) endMonths
  have fifth : expandDow fuel e.dow.text = some dows := dow_steady _ f5 fuel _ (by omega) endDows
  rw [parseCron, split_spelled e formed text spelled]
  simp only [first, second, third, fourth, fifth, Option.bind_eq_bind, Option.bind_some]
  rfl

end spelling

end Vacps
