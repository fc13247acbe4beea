import Mathlib.Algebra.Order.Archimedean.Basic
import Mathlib.Algebra.Order.Field.Power
import Mathlib.Tactic.FieldSimp
import Mathlib.Tactic.Linarith
import Mathlib.Tactic.Positivity
import Vacps.Contracts.Numbers

/- Rounding to doubles: it keeps the order, leaves doubles as they are, and every double lies on one grid. -/
set_option autoImplicit false

namespace Vacps

section grid

theorem power_zpow (exponent : Int) : powerOfTwo exponent = (2 : Rat) ^ exponent := by
  unfold powerOfTwo
  split
  · rename_i positive
    obtain ⟨n, rfl⟩ := Int.eq_ofNat_of_zero_le positive
    simp
  · rename_i negative
    obtain ⟨n, same⟩ := Int.eq_ofNat_of_zero_le (a := -exponent) (by omega)
    rw [same, show exponent = -(n : Int) by omega, zpow_neg, zpow_natCast, one_div, Int.toNat_natCast]

theorem power_pos (exponent : Int) : 0 < powerOfTwo exponent := by
  rw [power_zpow]
  positivity

theorem power_le (first second : Int) : powerOfTwo first ≤ powerOfTwo second ↔ first ≤ second := by
  rw [power_zpow, power_zpow]
  exact zpow_le_zpow_iff_right₀ (by norm_num)

theorem power_lt (first second : Int) : powerOfTwo first < powerOfTwo second ↔ first < second := by
  rw [power_zpow, power_zpow]
  exact zpow_lt_zpow_iff_right₀ (by norm_num)

theorem power_add (first second : Int) : powerOfTwo (first + second) = powerOfTwo first * powerOfTwo second := by
  rw [power_zpow, power_zpow, power_zpow, zpow_add₀ (by norm_num)]

-- A whole number of times a power of two.
def OnGrid (exponent : Int) (x : Rat) : Prop := ∃ n : Int, x = n * powerOfTwo exponent

theorem power_on_grid (exponent k : Int) (fine : exponent ≤ k) : OnGrid exponent (powerOfTwo k) := by
  obtain ⟨n, same⟩ := Int.eq_ofNat_of_zero_le (a := k - exponent) (by omega)
  refine ⟨2 ^ n, ?_⟩
  rw [show k = (n : Int) + exponent by omega, power_add, power_zpow n, zpow_natCast]
  push_cast
  rfl

theorem grid_finer (fine coarse : Int) (finer : fine ≤ coarse) (x : Rat) (grid : OnGrid coarse x) : OnGrid fine x := by
  obtain ⟨n, rfl⟩ := grid
  obtain ⟨m, same⟩ := power_on_grid fine coarse finer
  refine ⟨n * m, ?_⟩
  rw [same]
  push_cast
  ring

end grid

section leading

theorem log_bounds (n : Nat) (positive : n ≠ 0) :
    powerOfTwo (Nat.log2 n : Int) ≤ n ∧ (n : Rat) < powerOfTwo ((Nat.log2 n : Int) + 1) := by
  rw [power_zpow, power_zpow]
  have low : 2 ^ Nat.log2 n ≤ n := Nat.log2_self_le positive
  have high : n < 2 ^ (Nat.log2 n + 1) := Nat.lt_log2_self
  refine ⟨?_, ?_⟩
  · rw [zpow_natCast]
    exact_mod_cast low
  · have cast : ((Nat.log2 n : Int) + 1) = ((Nat.log2 n + 1 : Nat) : Int) := by push_cast; rfl
    rw [cast, zpow_natCast]
    exact_mod_cast high

theorem leading_spec (x : Rat) (positive : 0 < x) :
    powerOfTwo (leadingBit x) ≤ x ∧ x < powerOfTwo (leadingBit x + 1) := by
  have den : (0 : Rat) < x.den := by exact_mod_cast x.den_pos
  have num : (x.num.natAbs : Rat) = x * x.den := by
    have whole : (x.num.natAbs : Int) = x.num := Int.natAbs_of_nonneg (Rat.num_nonneg.mpr positive.le)
    have cast : (x.num.natAbs : Rat) = (x.num : Rat) := by rw [← Int.cast_natCast, whole]
    rw [cast]
    exact (Rat.mul_den_eq_num x).symm
  have nonzero : x.num.natAbs ≠ 0 := by
    rw [Int.natAbs_ne_zero]
    exact Rat.num_ne_zero.mpr positive.ne'
  obtain ⟨numLow, numHigh⟩ := log_bounds x.num.natAbs nonzero
  obtain ⟨denLow, denHigh⟩ := log_bounds x.den x.den_ne_zero
  rw [num] at numLow numHigh
  -- Between the powers around the guess.
  have high : x < powerOfTwo (((Nat.log2 x.num.natAbs : Int) - Nat.log2 x.den) + 1) := by
    refine lt_of_mul_lt_mul_right ?_ (power_pos (Nat.log2 x.den)).le
    calc x * powerOfTwo (Nat.log2 x.den) ≤ x * x.den := mul_le_mul_of_nonneg_left denLow positive.le
      _ < powerOfTwo ((Nat.log2 x.num.natAbs : Int) + 1) := numHigh
      _ = powerOfTwo (((Nat.log2 x.num.natAbs : Int) - Nat.log2 x.den) + 1) * powerOfTwo (Nat.log2 x.den) := by
          rw [← power_add]
          congr 1
          ring
  have low : powerOfTwo (((Nat.log2 x.num.natAbs : Int) - Nat.log2 x.den) - 1) ≤ x := by
    refine le_of_mul_le_mul_right ?_ (power_pos ((Nat.log2 x.den : Int) + 1))
    calc powerOfTwo (((Nat.log2 x.num.natAbs : Int) - Nat.log2 x.den) - 1) * powerOfTwo ((Nat.log2 x.den : Int) + 1) =
          powerOfTwo (Nat.log2 x.num.natAbs) := by
          rw [← power_add]
          congr 1
          ring
      _ ≤ x * x.den := numLow
      _ ≤ x * powerOfTwo ((Nat.log2 x.den : Int) + 1) := mul_le_mul_of_nonneg_left denHigh.le positive.le
  unfold leadingBit
  dsimp only
  split
  · rename_i guessed
    exact ⟨guessed, high⟩
  · rename_i smaller
    refine ⟨low, ?_⟩
    rw [Int.sub_add_cancel]
    exact not_le.mp smaller

theorem leading_mono (x y : Rat) (positive : 0 < x) (le : x ≤ y) : leadingBit x ≤ leadingBit y := by
  have low := (leading_spec x positive).1
  have high := (leading_spec y (positive.trans_le le)).2
  have between := (power_lt _ _).mp ((low.trans le).trans_lt high)
  omega

end leading

section rounding

theorem round_bounds (x : Rat) : x.floor ≤ roundHalfEven x ∧ roundHalfEven x ≤ x.floor + 1 := by
  unfold roundHalfEven
  dsimp only
  split
  · omega
  · split <;> omega

theorem round_int (n : Int) : roundHalfEven n = n := by
  unfold roundHalfEven
  simp

theorem round_mono (x y : Rat) (le : x ≤ y) : roundHalfEven x ≤ roundHalfEven y := by
  have floors : x.floor ≤ y.floor := Rat.floor_monotone le
  rcases floors.lt_or_eq with less | same
  · have first := (round_bounds x).2
    have second := (round_bounds y).1
    omega
  · unfold roundHalfEven
    dsimp only
    rw [same]
    by_cases below : x - y.floor < 1 / 2
    · rw [if_pos below]
      exact (round_bounds y).1
    · by_cases even : x - y.floor = 1 / 2 ∧ y.floor % 2 = 0
      · rw [if_neg below, if_pos even]
        exact (round_bounds y).1
      · -- Then the other one is rounded up too.
        have above : ¬y - y.floor < 1 / 2 := fun less => below (by linarith)
        have odd : ¬(y - y.floor = 1 / 2 ∧ y.floor % 2 = 0) := by
          rintro ⟨half, parity⟩
          refine even ⟨?_, parity⟩
          linarith [not_lt.mp below]
        rw [if_neg below, if_neg even, if_neg above, if_neg odd]

def exponentOf (x : Rat) : Int := max (leadingBit |x| - 52) (-1074)

def rounded (x : Rat) : Rat := roundHalfEven (x / powerOfTwo (exponentOf x)) * powerOfTwo (exponentOf x)

theorem rounded_zero : rounded 0 = 0 := by
  rw [rounded, zero_div, show (0 : Rat) = ((0 : Int) : Rat) from rfl, round_int]
  simp

theorem nearest_rounded (x : Rat) :
    nearestDouble x = if |rounded x| < powerOfTwo 1024 then some (rounded x) else none := by
  unfold nearestDouble
  by_cases zero : x = 0
  · rw [if_pos zero, zero, rounded_zero, abs_zero, if_pos (power_pos 1024)]
  · rw [if_neg zero]
    rfl

theorem rounded_on_grid (x : Rat) : OnGrid (exponentOf x) (rounded x) := ⟨_, rfl⟩

theorem rounded_of_grid (x : Rat) (grid : OnGrid (exponentOf x) x) : rounded x = x := by
  obtain ⟨n, same⟩ := grid
  have whole : x / powerOfTwo (exponentOf x) = (n : Rat) := by
    rw [div_eq_iff (power_pos _).ne']
    exact same
  rw [rounded, whole, round_int]
  exact same.symm

theorem rounded_grid (x : Rat) : OnGrid (-1074) (rounded x) :=
  grid_finer _ _ (le_max_right _ _) _ (rounded_on_grid x)

-- A power of two on the grid of a number bounds what it rounds to.
theorem rounded_le_power (x : Rat) (k : Int) (fine : exponentOf x ≤ k) (le : x ≤ powerOfTwo k) : rounded x ≤ powerOfTwo k := by
  obtain ⟨n, same⟩ := power_on_grid _ k fine
  have unit := power_pos (exponentOf x)
  have scaled : x / powerOfTwo (exponentOf x) ≤ (n : Rat) := by
    rw [div_le_iff₀ unit, ← same]
    exact le
  have round := round_mono _ _ scaled
  rw [round_int] at round
  rw [rounded, same]
  exact mul_le_mul_of_nonneg_right (by exact_mod_cast round) unit.le

theorem power_le_rounded (x : Rat) (k : Int) (fine : exponentOf x ≤ k) (le : powerOfTwo k ≤ x) : powerOfTwo k ≤ rounded x := by
  obtain ⟨n, same⟩ := power_on_grid _ k fine
  have unit := power_pos (exponentOf x)
  have scaled : (n : Rat) ≤ x / powerOfTwo (exponentOf x) := by
    rw [le_div_iff₀ unit, ← same]
    exact le
  have round := round_mono _ _ scaled
  rw [round_int] at round
  rw [rounded, same]
  exact mul_le_mul_of_nonneg_right (by exact_mod_cast round) unit.le

theorem rounded_nonneg (x : Rat) (nonneg : 0 ≤ x) : 0 ≤ rounded x := by
  have scaled : ((0 : Int) : Rat) ≤ x / powerOfTwo (exponentOf x) := by
    rw [Int.cast_zero]
    exact div_nonneg nonneg (power_pos _).le
  have round := round_mono _ _ scaled
  rw [round_int] at round
  rw [rounded]
  exact mul_nonneg (by exact_mod_cast round) (power_pos _).le

theorem rounded_mono (x y : Rat) (nonneg : 0 ≤ x) (le : x ≤ y) : rounded x ≤ rounded y := by
  rcases nonneg.eq_or_lt with rfl | positive
  · rw [rounded_zero]
    exact rounded_nonneg y le
  · have further := positive.trans_le le
    have leading := leading_mono x y positive le
    have exponents : exponentOf x ≤ exponentOf y := by
      rw [exponentOf, exponentOf, abs_of_pos positive, abs_of_pos further]
      omega
    rcases exponents.eq_or_lt with same | coarser
    · rw [rounded, rounded, same]
      have scaled : x / powerOfTwo (exponentOf y) ≤ y / powerOfTwo (exponentOf y) :=
        div_le_div_of_nonneg_right le (power_pos _).le
      exact mul_le_mul_of_nonneg_right (by exact_mod_cast round_mono _ _ scaled) (power_pos _).le
    · -- The leading bit of the larger one is a bound between the two.
      have gap : leadingBit x + 1 ≤ leadingBit y ∧ exponentOf y = leadingBit y - 52 := by
        rw [exponentOf, exponentOf, abs_of_pos positive, abs_of_pos further] at coarser
        rw [exponentOf, abs_of_pos further]
        omega
      have middle : x ≤ powerOfTwo (leadingBit y) := by
        have high := (leading_spec x positive).2
        exact high.le.trans ((power_le _ _).mpr gap.1)
      exact (rounded_le_power x (leadingBit y) (by omega) middle).trans
        (power_le_rounded y (leadingBit y) (by omega) (leading_spec y further).1)

-- What has been rounded stays.
theorem rounded_rounded (x : Rat) (nonneg : 0 ≤ x) : rounded (rounded x) = rounded x := by
  rcases nonneg.eq_or_lt with rfl | positive
  · rw [rounded_zero, rounded_zero]
  · rcases (rounded_nonneg x nonneg).eq_or_lt with zero | some_
    · rw [← zero, rounded_zero]
    · by_cases finer : exponentOf (rounded x) ≤ exponentOf x
      · exact rounded_of_grid _ (grid_finer _ _ finer _ (rounded_on_grid x))
      · -- It was rounded up to the next power of two.
        have bound := (leading_spec x positive).2
        have low := (leading_spec (rounded x) some_).1
        have high : rounded x ≤ powerOfTwo (max (leadingBit x + 1) (exponentOf x)) :=
          rounded_le_power x _ (le_max_right _ _) (bound.le.trans ((power_le _ _).mpr (le_max_left _ _)))
        have order := (power_le _ _).mp (low.trans high)
        have exponents : exponentOf (rounded x) = leadingBit (rounded x) - 52 ∧
            leadingBit (rounded x) = max (leadingBit x + 1) (exponentOf x) := by
          rw [exponentOf, exponentOf, abs_of_pos positive, abs_of_pos some_] at finer
          rw [exponentOf, abs_of_pos some_]
          rw [exponentOf, abs_of_pos positive] at order ⊢
          omega
        have same : rounded x = powerOfTwo (leadingBit (rounded x)) :=
          le_antisymm (by rw [exponents.2]; exact high) low
        refine rounded_of_grid _ ?_
        have grid := power_on_grid (exponentOf (rounded x)) (leadingBit (rounded x)) (by omega)
        rwa [← same] at grid

theorem natural_exact (n : Nat) (small : n < 2 ^ 53) : rounded n = n := by
  by_cases zero : n = 0
  · rw [zero, Nat.cast_zero, rounded_zero]
  · have positive : (0 : Rat) < n := by exact_mod_cast Nat.pos_of_ne_zero zero
    have low := (leading_spec n positive).1
    have bound : (n : Rat) < powerOfTwo 53 := by
      rw [power_zpow]
      exact_mod_cast small
    have bits := (power_lt _ _).mp (low.trans_lt bound)
    refine rounded_of_grid _ (grid_finer _ 0 ?_ _ ⟨n, by simp [power_zpow]⟩)
    rw [exponentOf, abs_of_pos positive]
    omega

theorem natural_whole (n : Nat) : ∃ m : Nat, rounded n = m := by
  have whole : OnGrid 0 (rounded n) := by
    by_cases fine : exponentOf n ≤ 0
    · have grid : OnGrid 0 (n : Rat) := ⟨n, by simp [power_zpow]⟩
      rwa [rounded_of_grid _ (grid_finer _ 0 fine _ grid)]
    · exact grid_finer 0 _ (by omega) _ (rounded_on_grid n)
  obtain ⟨m, same⟩ := whole
  have nonneg := rounded_nonneg n (Nat.cast_nonneg n)
  rw [power_zpow, zpow_zero, mul_one] at same
  rw [same] at nonneg ⊢
  obtain ⟨k, rfl⟩ := Int.eq_ofNat_of_zero_le (by exact_mod_cast nonneg)
  exact ⟨k, by simp⟩

end rounding

section doubles

inductive Double where
  | nan
  | infinite (negative : Bool)
  | finite (value : Rat)
deriving DecidableEq, Repr

def doubleOf (x : Rat) : Double :=
  match nearestDouble x with
  | some value => .finite value
  | none => .infinite (decide (x < 0))

-- Number(text)
def toNumber (text : String) : Double :=
  if trim text ∈ ["Infinity", "+Infinity"] then .infinite false
  else if trim text = "-Infinity" then .infinite true
  else
    match stringNumericLiteral (trim text).toList with
    | some value => doubleOf value
    | none => .nan

namespace Double

def le : Double → Double → Bool
  | .nan, _ => false
  | _, .nan => false
  | .infinite true, _ => true
  | _, .infinite false => true
  | .finite x, .finite y => decide (x ≤ y)
  | _, _ => false

def add : Double → Double → Double
  | .finite x, .finite y => doubleOf (x + y)
  | .infinite first, .infinite second => if first = second then .infinite first else .nan
  | .infinite negative, .finite _ => .infinite negative
  | .finite _, .infinite negative => .infinite negative
  | _, _ => .nan

def isInteger : Double → Bool
  | .finite x => x.den == 1
  | _ => false

-- The doubles from zero on, and NaN.
def Unsigned : Double → Prop
  | .nan => True
  | .infinite negative => negative = false
  | .finite x => 0 ≤ x ∧ rounded x = x

theorem of_nonneg (x : Rat) (nonneg : 0 ≤ x) :
    doubleOf x = if rounded x < powerOfTwo 1024 then .finite (rounded x) else .infinite false := by
  rw [doubleOf, nearest_rounded, abs_of_nonneg (rounded_nonneg x nonneg)]
  by_cases fits : rounded x < powerOfTwo 1024
  · rw [if_pos fits, if_pos fits]
  · rw [if_neg fits, if_neg fits]
    dsimp only
    rw [decide_eq_false (not_lt.mpr nonneg)]

theorem of_unsigned (x : Rat) (nonneg : 0 ≤ x) : (doubleOf x).Unsigned := by
  rw [of_nonneg x nonneg]
  split
  · exact ⟨rounded_nonneg x nonneg, rounded_rounded x nonneg⟩
  · exact rfl

theorem add_unsigned (v : Double) (unsigned : v.Unsigned) (step : Rat) (positive : 0 < step) :
    (v.add (.finite step)).Unsigned := by
  cases v with
  | nan => exact trivial
  | infinite negative => exact unsigned
  | finite x => exact of_unsigned (x + step) (by linarith [unsigned.1])

theorem of_mono (x y : Rat) (nonneg : 0 ≤ x) (le : x ≤ y) : (doubleOf x).le (doubleOf y) = true := by
  rw [of_nonneg x nonneg, of_nonneg y (nonneg.trans le)]
  have round := rounded_mono x y nonneg le
  by_cases fits : rounded y < powerOfTwo 1024
  · rw [if_pos fits, if_pos (round.trans_lt fits)]
    exact decide_eq_true round
  · rw [if_neg fits]
    split <;> rfl

theorem le_trans (u v w : Double) (first : u.le v = true) (second : v.le w = true) : u.le w = true := by
  rcases u with _ | (_ | _) | x <;> rcases v with _ | (_ | _) | y <;> rcases w with _ | (_ | _) | z <;>
    first | cases first; done | cases second; done | rfl | skip
  exact decide_eq_true ((of_decide_eq_true first).trans (of_decide_eq_true second))

theorem add_mono (v w : Double) (unsigned : v.Unsigned) (le : v.le w = true) (step : Rat) (positive : 0 < step) :
    (v.add (.finite step)).le (w.add (.finite step)) = true := by
  cases v with
  | nan => cases le
  | infinite negative =>
      cases unsigned
      cases w with
      | nan => cases le
      | infinite other => exact le
      | finite y => cases le
  | finite x =>
      cases w with
      | nan => cases le
      | infinite other =>
          cases other
          · rw [add, of_nonneg _ (by linarith [unsigned.1])]
            split <;> rfl
          · cases le
      | finite y => exact of_mono _ _ (by linarith [unsigned.1]) (by linarith [of_decide_eq_true le])

theorem add_grows (v : Double) (unsigned : v.Unsigned) (number : v ≠ .nan) (step : Rat) (positive : 0 < step) :
    v.le (v.add (.finite step)) = true := by
  cases v with
  | nan => exact absurd rfl number
  | infinite negative =>
      cases unsigned
      rfl
  | finite x =>
      have further : x ≤ x + step := by linarith
      have round := rounded_mono x (x + step) unsigned.1 further
      rw [unsigned.2] at round
      rw [add, of_nonneg _ (unsigned.1.trans further)]
      split
      · exact decide_eq_true round
      · rfl

end Double

end doubles

section counting

-- The values v takes in `for (let v = a; v <= b; v += step)`; the fuel bounds the turns.
def countUp (b step : Double) : Nat → Double → Option (List Double)
  | 0, _ => none
  | fuel + 1, v => if v.le b then (countUp b step fuel (v.add step)).map (v :: ·) else some []

-- From a double that the step does not move the loop cannot get away, nor over it.
theorem count_stuck (b : Double) (step : Rat) (positive : 0 < step) (stuck : Double) (inside : stuck.le b = true)
    (still : stuck.add (.finite step) = stuck) (fuel : Nat) (v : Double) (unsigned : v.Unsigned) (before : v.le stuck = true) :
    countUp b (.finite step) fuel v = none := by
  induction fuel generalizing v with
  | zero => rfl
  | succ fuel ih =>
      have moved := Double.add_mono v stuck unsigned before step positive
      rw [still] at moved
      rw [countUp, if_pos (Double.le_trans v stuck b before inside),
        ih (v.add (.finite step)) (Double.add_unsigned v unsigned step positive) moved]
      rfl

theorem grid_apart (x y : Rat) (first : OnGrid (-1074) x) (second : OnGrid (-1074) y) (less : x < y) :
    x + powerOfTwo (-1074) ≤ y := by
  obtain ⟨m, rfl⟩ := first
  obtain ⟨n, rfl⟩ := second
  have unit := power_pos (-1074)
  have order : m < n := by exact_mod_cast lt_of_mul_lt_mul_right less unit.le
  have next : ((m : Rat) + 1) ≤ n := by exact_mod_cast order
  calc (m : Rat) * powerOfTwo (-1074) + powerOfTwo (-1074) = ((m : Rat) + 1) * powerOfTwo (-1074) := by ring
    _ ≤ n * powerOfTwo (-1074) := mul_le_mul_of_nonneg_right next unit.le

-- Where every step moves, the loop comes past a finite bound: the doubles are on a grid.
theorem count_ends_below (bound step : Rat) (positive : 0 < step) (turns : Nat) (x : Rat) (unsigned : (Double.finite x).Unsigned)
    (near : bound < x + turns * powerOfTwo (-1074))
    (moves : ∀ v : Double, v.Unsigned → (Double.finite x).le v = true → v.le (.finite bound) = true → v.add (.finite step) ≠ v) :
    (countUp (.finite bound) (.finite step) (turns + 1) (.finite x)).isSome = true := by
  induction turns generalizing x with
  | zero =>
      have past : ¬(Double.finite x).le (.finite bound) = true := by
        intro inside
        have order := of_decide_eq_true inside
        rw [Nat.cast_zero, zero_mul, add_zero] at near
        linarith
      rw [countUp, if_neg past]
      rfl
  | succ turns ih =>
      rw [countUp]
      split
      · rename_i inside
        rw [Option.isSome_map]
        have grows := Double.add_grows (.finite x) unsigned (by simp) step positive
        have unsigned_ := Double.add_unsigned (.finite x) unsigned step positive
        have moved := moves (.finite x) unsigned (decide_eq_true (le_refl x)) inside
        cases next : (Double.finite x).add (.finite step) with
        | nan =>
            rw [next] at grows
            cases grows
        | infinite negative =>
            rw [next] at unsigned_
            cases unsigned_
            rfl
        | finite y =>
            rw [next] at grows unsigned_ moved
            have order := of_decide_eq_true grows
            have less : x < y := lt_of_le_of_ne order fun same => moved (by rw [same])
            have apart := grid_apart x y (unsigned.2 ▸ rounded_grid x) (unsigned_.2 ▸ rounded_grid y) less
            refine ih y unsigned_ ?_ ?_
            · push_cast at near
              linarith
            · intro v plain after inside_
              exact moves v plain (Double.le_trans _ _ _ grows after) inside_
      · rfl

-- The loop ends exactly when the step moves every double between the bounds.
theorem count_ends_iff (a b : Double) (step : Rat) (positive : 0 < step) (unsigned : a.Unsigned) :
    (∃ fuel, (countUp b (.finite step) fuel a).isSome = true) ↔
      ∀ v : Double, v.Unsigned → a.le v = true → v.le b = true → v.add (.finite step) ≠ v := by
  refine ⟨?_, ?_⟩
  · rintro ⟨fuel, ended⟩ v _ after inside still
    rw [count_stuck b step positive v inside still fuel a unsigned after] at ended
    cases ended
  · intro moves
    by_cases started : a.le b = true
    · cases b with
      | nan => cases a <;> cases started
      | infinite negative =>
          cases negative
          · exact absurd rfl (moves (.infinite false) rfl started rfl)
          · cases a with
            | nan => cases started
            | infinite other =>
                cases unsigned
                cases started
            | finite x => cases started
      | finite bound =>
          cases a with
          | nan => cases started
          | infinite negative =>
              cases unsigned
              cases started
          | finite x =>
              obtain ⟨turns, far⟩ := exists_nat_gt ((bound - x) / powerOfTwo (-1074))
              rw [div_lt_iff₀ (power_pos (-1074))] at far
              exact ⟨turns + 1, count_ends_below bound step positive turns x unsigned (by linarith) moves⟩
    · refine ⟨1, ?_⟩
      rw [countUp, if_neg started]
      rfl

end counting

end Vacps
