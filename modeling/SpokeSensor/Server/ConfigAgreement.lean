import SpokeSensor.Server.GenerateCode

/-!
# The gate of the local server and the C validator

`generateCode` checks the values of a body before it writes the header
(`local_server.py:137–152`), and `ir_spoke_config_validate` checks the configuration
that comes out of it (`ir_spoke_config.c:22–45`). The two do not agree: pins, duty
cycles and the ratio of the demodulator pass the one unseen, and are bounded by the
other.

- `dutyInRange_nineDigits_iff`, `ratioInRange_nineDigits_iff`: a decimal goes through
  nine digits (160) and through the compiler before it is compared. Each check of the
  validator on a `float` has one lemma, from what a compiler reads of the field to a
  condition on the value that the field was written from.
- `rounded_bounds`: the gate looks at `int(x)`, and what is written is
  `int(round(float(x)))` (157), which may lie one above it.
- `Written`, `Reads`: the two steps from the values to the configuration, field by
  field.
- `Fits`: which values that pass the gate also pass the validator.
- `generated_config_valid_iff`: a header that the server answers with is accepted
  exactly if the values fit. `generated_config_invalid` is a body that sets the
  transmit pin to 100.
-/

namespace SpokeSensor.LocalServer

open Ieee Rounding PyNumber RuntimeConfig

/-! ## Values

A value of the body reaches the header by `float(x)`, and then by `round` or by nine
digits (`local_server.py:156–160`). All conditions below are about the number that
`float(x)` returns.
-/

/-- The number that `float(x)` returns, unless it raises or returns `inf` or `nan`. -/
def value (v : PyNumber) : Option ℚ :=
  match v.toFloat with
  | .ok (.finite x) => some x
  | _ => none

/-- `int(round(float(x)))`, where it does not raise. -/
def rounded (v : PyNumber) : ℤ := (value v).elim 0 nearestEven

/-- The number is there exactly if `float(x)` returns it and it is finite. -/
theorem value_eq_some {v : PyNumber} {x : ℚ} : value v = some x ↔ v.toFloat = .ok (.finite x) := by
  rw [value]
  split
  · next y hy => rw [hy, Option.some.injEq, Except.ok.injEq, Number.finite.injEq]
  · next hno => exact iff_of_false nofun fun h => hno x h

theorem toFloat_int_of_ofRat {n : ℤ} {x : ℚ}
    (h : Number.ofRat binary64 (n : ℚ) = .finite x) :
    (PyNumber.int n).toFloat = .ok (.finite x) := by
  rw [toFloat, h, checkOverflow]

/-- A whole number of at most 53 bits is converted as it is. -/
theorem toFloat_natCast {n : ℕ} (h : n < 2 ^ 53) : (PyNumber.int n).toFloat = .ok (.finite n) :=
  toFloat_int_of_ofRat (by exact_mod_cast Double.ofRat_natCast h)

/-- What is written of a whole number is the nearest one, a tie going to the even one. -/
theorem iv_eq_ok {v : PyNumber} {n : ℤ} (h : iv v = .ok n) :
    ∃ x, value v = some x ∧ rounded v = n ∧ nearestEven x = n := by
  obtain ⟨y, hy, hround⟩ := bind_eq_ok.mp h
  cases y with
  | finite x =>
    have hvalue := value_eq_some.mpr hy
    have hn : nearestEven x = n := Except.ok.inj hround
    exact ⟨x, hvalue, by rw [rounded, hvalue, Option.elim_some, hn], hn⟩
  | inf s => cases hround
  | nan => cases hround

/-- What is written of a decimal are nine digits of it, or a word such as `inf`. -/
theorem fv_eq_ok {v : PyNumber} {token : FloatToken} (h : fv v = .ok token) :
    token = (value v).elim .word fun x => .decimal (nineDigits.round x) := by
  obtain ⟨y, hy, htoken⟩ := bind_eq_ok.mp h
  cases y with
  | finite x =>
    rw [value_eq_some.mpr hy]
    exact (Except.ok.inj htoken).symm
  | inf s =>
    rw [value, hy]
    exact (Except.ok.inj htoken).symm
  | nan =>
    rw [value, hy]
    exact (Except.ok.inj htoken).symm

/-! ## Literals

What a compiler reads of the tokens. A whole number is taken modulo the width of its
field; one that no type of C holds is no constant, and the header does not compile.
-/

/-- A constant of at most 64 bits, kept to its last 32. -/
theorem unsignedLiteral_eq_some {n : ℤ} {w : UInt32} :
    unsignedLiteral n = some w ↔ |n| < 2 ^ 64 ∧ (w.toNat : ℤ) = n % 2 ^ 32 := by
  have hlt := Int.emod_lt_of_pos n (by norm_num : (0 : ℤ) < 2 ^ 32)
  have hnonneg := Int.emod_nonneg n (by norm_num : (2 ^ 32 : ℤ) ≠ 0)
  rw [unsignedLiteral]
  split_ifs with h
  · rw [Option.some.injEq, and_iff_right h, ← UInt32.toNat_inj, Nat.toUInt32_eq,
      UInt32.toNat_ofNat_of_lt' (by rw [UInt32.size]; omega)]
    omega
  · exact iff_of_false nofun fun hno => h hno.1

/-- The same with a sign. -/
theorem intLiteral_eq_some {n : ℤ} {w : Int32} :
    intLiteral n = some w ↔ |n| < 2 ^ 63 ∧ w.toInt = n.bmod (2 ^ 32) := by
  rw [intLiteral]
  split_ifs with h
  · rw [Option.some.injEq, and_iff_right h, ← Int32.toInt_inj, Int32.toInt_ofInt]
    exact eq_comm
  · exact iff_of_false nofun fun hno => h hno.1

/-- A decimal between two whole numbers keeps its point. -/
theorem floatLiteral_of_unit {q : ℚ} (h0 : 0 < q) (h1 : q < 1) :
    floatLiteral (.decimal q) = some (ofRat q) := by
  refine if_neg fun ⟨hden, _⟩ => ?_
  have hnum : (q.num : ℚ) = q := Rat.coe_int_num_of_den_eq_one hden
  rw [← hnum] at h0 h1
  have hpos : 0 < q.num := by exact_mod_cast h0
  have hlt : q.num < 1 := by exact_mod_cast h1
  omega

/-- Only a decimal with a point or an exponent takes the suffix `f`. -/
theorem floatLiteral_eq_some {token : FloatToken} {y : Binary32} (h : floatLiteral token = some y) :
    ∃ q, token = .decimal q ∧ y = ofRat q := by
  cases token with
  | decimal q =>
    rw [floatLiteral] at h
    split_ifs at h
    exact ⟨q, rfl, (Option.some.inj h).symm⟩
  | word => cases h

/-! ## Decimals

A decimal is rounded twice, to nine digits in the header and to a `float` by the
compiler. The bounds are the midpoints between nine-digit decimals, where the one on
the inner side is the first that the compiler takes to a `float` in range.
-/

/-- What a duty cycle must satisfy (`ir_spoke_config.c:29, 37`), as a bound on the
value before it is written with nine digits. -/
def DutyFits (x : ℚ) : Prop :=
  1999999955 / 10 ^ 10 ≤ x ∧ x < 8000000415 / 10 ^ 10

/-- What the ratio of the demodulator frequency must satisfy (`ir_spoke_config.c:36`),
in the same way; the upper bound excludes one. -/
def RatioFits (x : ℚ) : Prop :=
  4999999855 / 10 ^ 10 ≤ x ∧ x ≤ 9999999705 / 10 ^ 10

theorem nineDigits_base : (nineDigits.base : ℚ) = 10 := by
  norm_num [nineDigits, Grid.digits]

theorem nineDigits_exponent : nineDigits.exponent (-1) = -9 := by decide

section

variable {t x : ℚ} {k : ℤ}

theorem tenth_le_pred (hlo : 100000001 ≤ k) :
    (10 : ℚ) ^ (-1 : ℤ) ≤ ((k - 1 : ℤ) : ℚ) * 10 ^ (-9 : ℤ) := by
  have h : (100000000 : ℚ) ≤ ((k - 1 : ℤ) : ℚ) := by exact_mod_cast Int.le_sub_one_of_lt hlo
  norm_num at h ⊢
  linarith

theorem mul_le_ten_zpow (hhi : k ≤ 1000000000) : (k : ℚ) * 10 ^ (-9 : ℤ) ≤ 10 ^ (-1 + 1 : ℤ) := by
  have h : (k : ℚ) ≤ 1000000000 := by exact_mod_cast hhi
  norm_num
  linarith

variable (hlo : 100000001 ≤ k) (hhi : k ≤ 1000000000)

include hlo hhi

/-- Between a tenth and one, nine digits exceed a threshold iff they reach the first
multiple of `10^-9` above it. On that decade the nine digits are the multiples of
`10^-9`, and rounding to them is monotone. -/
theorem lt_nineDigits_iff (hbelow : ((k - 1 : ℤ) : ℚ) * 10 ^ (-9 : ℤ) ≤ t)
    (habove : t < k * 10 ^ (-9 : ℤ)) :
    t < nineDigits.round x ↔ k ≤ nearestEven (x / 10 ^ (-9 : ℤ)) := by
  have hgap := Grid.lt_round_iff_of_gap (g := nineDigits) (l := -1) (k := k) (t := t) (x := x)
    (by decide)
  rw [nineDigits_base, nineDigits_exponent] at hgap
  exact hgap (tenth_le_pred hlo) (mul_le_ten_zpow hhi) hbelow habove

/-- The same for a threshold that counts itself. -/
theorem le_nineDigits_iff (hbelow : ((k - 1 : ℤ) : ℚ) * 10 ^ (-9 : ℤ) < t)
    (habove : t ≤ k * 10 ^ (-9 : ℤ)) :
    t ≤ nineDigits.round x ↔ k ≤ nearestEven (x / 10 ^ (-9 : ℤ)) := by
  have hgap := Grid.le_round_iff_of_gap (g := nineDigits) (l := -1) (k := k) (t := t) (x := x)
    (by decide)
  rw [nineDigits_base, nineDigits_exponent] at hgap
  exact hgap (tenth_le_pred hlo) (mul_le_ten_zpow hhi) hbelow habove

end

/-- The duty cycle that the compiler reads is in range iff the value fits. -/
theorem dutyInRange_nineDigits_iff (x : ℚ) :
    DutyInRange (ofRat (nineDigits.round x)) ↔ DutyFits x := by
  have hlo : 26843545 / 2 ^ 27 < nineDigits.round x ↔ 1999999955 / 10 ^ 10 ≤ x := by
    rw [lt_nineDigits_iff (k := 199999996) (by norm_num) (by norm_num) (by norm_num) (by norm_num),
      le_nearestEven_iff, and_iff_left (by decide), ← le_iff_lt_or_eq']
    norm_num
    constructor <;> intro h <;> linarith
  have hhi : nineDigits.round x < 26843547 / 2 ^ 25 ↔ x < 8000000415 / 10 ^ 10 := by
    rw [← not_le,
      le_nineDigits_iff (k := 800000042) (by norm_num) (by norm_num) (by norm_num) (by norm_num),
      le_nearestEven_iff, and_iff_left (by decide), ← le_iff_lt_or_eq', not_le]
    norm_num
    constructor <;> intro h <;> linarith
  rw [dutyInRange_iff, hlo, hhi, DutyFits]

theorem ratioInRange_nineDigits_iff (x : ℚ) :
    ¬ ((ofRat (nineDigits.round x) : Binary32) < ofRat (5 / 10) ∨
        ofRat 1 ≤ (ofRat (nineDigits.round x) : Binary32)) ↔ RatioFits x := by
  have hlo : 33554431 / 2 ^ 26 ≤ nineDigits.round x ↔ 4999999855 / 10 ^ 10 ≤ x := by
    rw [le_nineDigits_iff (k := 499999986) (by norm_num) (by norm_num) (by norm_num) (by norm_num),
      le_nearestEven_iff, and_iff_left (by decide), ← le_iff_lt_or_eq']
    norm_num
    constructor <;> intro h <;> linarith
  -- the first decimal past the range is odd, so its midpoint goes to the one before it
  have hhi : nineDigits.round x < 33554431 / 2 ^ 25 ↔ x ≤ 9999999705 / 10 ^ 10 := by
    rw [← not_le,
      le_nineDigits_iff (k := 999999971) (by norm_num) (by norm_num) (by norm_num) (by norm_num),
      le_nearestEven_iff, or_iff_left (fun h => absurd h.2 (by decide)), not_lt]
    norm_num
    constructor <;> intro h <;> linarith
  rw [ratioInRange_iff, hlo, hhi, RatioFits]

/-! ## What the gate lets through

The gate bounds the carrier (in `simulate`, `ir_spoke_sim.py:123–124`), the memory
block and the queue depth, and relates the resolution, the filter and the times to
each other (`local_server.py:137–152`). Of the pins it asks that they differ, and of
duty cycles and ratio nothing. It bounds `int(x)`; what is written may lie one above
(`rounded_bounds`).
-/

/-- A positive whole part is the floor, so the number lies in the unit above it. -/
theorem toInt_bounds {v : PyNumber} {n : ℤ} {x : ℚ} (h : v.toInt = .ok n) (hx : value v = some x)
    (hpos : 0 < n) (hlt : n < 2 ^ 53) : (n : ℚ) ≤ x ∧ x < n + 1 := by
  rw [value_eq_some] at hx
  cases v with
  | int m =>
    obtain rfl : m = n := Except.ok.inj h
    lift m to ℕ using hpos.le
    rw [toFloat_natCast (by exact_mod_cast hlt)] at hx
    obtain rfl : (m : ℚ) = x := Number.finite.inj (Except.ok.inj hx)
    exact ⟨le_rfl, lt_add_one _⟩
  | float y =>
    obtain rfl : y = .finite x := Except.ok.inj hx
    have hwhole : (if 0 ≤ x then ⌊x⌋ else ⌈x⌉) = n := Except.ok.inj h
    split_ifs at hwhole with hsign
    · rw [← hwhole]
      exact ⟨Int.floor_le x, Int.lt_floor_add_one x⟩
    · have hceil : ⌈x⌉ ≤ 0 := Int.ceil_le.mpr (by exact_mod_cast (not_le.mp hsign).le)
      omega

/-- A whole part between two bounds is rounded to one of the numbers from the first
bound to one past the second. -/
theorem rounded_bounds {v : PyNumber} {n k lo hi : ℤ} (h : v.toInt = .ok n) (hk : iv v = .ok k)
    (hpos : 0 < lo) (hlo : lo ≤ n) (hhi : n ≤ hi) (hlt : hi < 2 ^ 53) :
    lo ≤ rounded v ∧ rounded v ≤ hi + 1 := by
  obtain ⟨x, hx, hrounded, hnear⟩ := iv_eq_ok hk
  obtain ⟨hbelow, habove⟩ := toInt_bounds h hx (hpos.trans_le hlo) (hhi.trans_lt hlt)
  have hlo' : (lo : ℚ) ≤ n := by exact_mod_cast hlo
  have hhi' : (n : ℚ) ≤ hi := by exact_mod_cast hhi
  rw [hrounded, ← hnear]
  refine ⟨le_nearestEven (hlo'.trans hbelow), nearestEven_le ?_⟩
  push_cast
  linarith

/-- The simulator has refused a carrier outside its range (`ir_spoke_sim.py:123–124`). -/
theorem carrier_of_simulateChecks {values : Key → PyNumber} (h : simulateChecks values = .ok ()) :
    ∃ x, value (values .carrierHz) = some x ∧ 25000 ≤ x ∧ x ≤ 50000 := by
  simp only [simulateChecks, bind_eq_ok, raiseIf_eq_ok, not_not] at h
  obtain ⟨y, hy, -, -, -, ⟨hlo, hhi⟩, -⟩ := h
  cases y with
  | finite x => exact ⟨x, value_eq_some.mpr hy, of_decide_eq_true hlo, of_decide_eq_true hhi⟩
  | inf s =>
    cases s with
    | false => cases hhi
    | true => cases hlo
  | nan => cases hlo

/-- The gate bounds the memory block and the queue depth. -/
theorem memory_of_validate {values : Key → PyNumber} (h : validateCodeParameters values = .ok ()) :
    (∃ n, (values .rmtMemBlockSymbols).toInt = .ok n ∧ 48 ≤ n ∧ n ≤ 512) ∧
      ∃ n, (values .rmtTxQueueDepth).toInt = .ok n ∧ 1 ≤ n ∧ n ≤ 8 := by
  simp only [validateCodeParameters, bind_eq_ok, raiseIf_eq_ok, not_not] at h
  obtain ⟨-, -, -, -, -, -, -, -, -, -, -, -, -, -, -, -, -, -, -, -, m, hm, -, hmem, n, hn, -,
    hdepth, -⟩ := h
  exact ⟨⟨m, hm, hmem⟩, n, hn, hdepth⟩

/-! ## From the values to the configuration

Field by field, from the value to its token (`Written`) and from the token to the
field of the configuration (`Reads`). Each check of the validator is then one about
the value, by one lemma for each kind of field.
-/

/-- The tokens `t` are what `generated_config_header` writes of the values
(`local_server.py:184–196`). -/
structure Written (values : Key → PyNumber) (t : HeaderConfig) : Prop where
  txGpio : iv (values .txGpio) = .ok t.txGpio
  rxGpio : iv (values .rxGpio) = .ok t.rxGpio
  carrierHz : iv (values .carrierHz) = .ok t.carrierHz
  carrierDuty : fv (values .carrierDuty) = .ok t.carrierDuty
  rmtResolutionHz : iv (values .rmtResolutionHz) = .ok t.rmtResolutionHz
  rmtMemBlockSymbols : iv (values .rmtMemBlockSymbols) = .ok t.rmtMemBlockSymbols
  rmtTxQueueDepth : iv (values .rmtTxQueueDepth) = .ok t.rmtTxQueueDepth
  rxDemodRatio : fv (values .rxDemodRatio) = .ok t.rxDemodRatio
  rxDemodDuty : fv (values .rxDemodDuty) = .ok t.rxDemodDuty
  rxGlitchFilterUs : iv (values .rxGlitchFilterUs) = .ok t.rxGlitchFilterUs
  blockageMinUs : iv (values .minimumBlockedUs) = .ok t.blockageMinUs
  blockageMaxUs : iv (values .maximumBlockedUs) = .ok t.blockageMaxUs
  linkLossUs : iv (values .linkLossTimeoutUs) = .ok t.linkLossUs

/-- The configuration `c` is what the tokens say. -/
structure Reads (t : HeaderConfig) (c : RuntimeConfig) : Prop where
  txGpio : intLiteral t.txGpio = some c.txGpio
  rxGpio : intLiteral t.rxGpio = some c.rxGpio
  carrierHz : unsignedLiteral t.carrierHz = some c.carrierHz
  carrierDuty : floatLiteral t.carrierDuty = some c.carrierDuty
  rmtResolutionHz : unsignedLiteral t.rmtResolutionHz = some c.rmtResolutionHz
  rmtMemBlockSymbols : unsignedLiteral t.rmtMemBlockSymbols = some c.rmtMemBlockSymbols
  rmtTxQueueDepth : unsignedLiteral t.rmtTxQueueDepth = some c.rmtTxQueueDepth
  rxDemodRatio : floatLiteral t.rxDemodRatio = some c.rxDemodRatio
  rxDemodDuty : floatLiteral t.rxDemodDuty = some c.rxDemodDuty
  rxGlitchFilterUs : unsignedLiteral t.rxGlitchFilterUs = some c.rxGlitchFilterUs
  blockageMinUs : unsignedLiteral t.blockageMinUs = some c.blockageMinUs
  blockageMaxUs : unsignedLiteral t.blockageMaxUs = some c.blockageMaxUs
  linkLossUs : unsignedLiteral t.linkLossUs = some c.linkLossUs

variable {values : Key → PyNumber} {t : HeaderConfig} {c : RuntimeConfig}

/-- Every token of a header is written of its own value. -/
theorem written_of_headerConfig (h : headerConfig values = .ok t) : Written values t := by
  simp only [headerConfig, bind_eq_ok, ok_eq_ok] at h
  obtain ⟨_, h1, _, h2, _, h3, _, h4, _, h5, _, h6, _, h7, _, h8, _, h9, _, h10, _, h11, _, h12,
    _, h13, rfl⟩ := h
  exact ⟨h1, h2, h3, h4, h5, h6, h7, h8, h9, h10, h11, h12, h13⟩

/-- `Option.bind_eq_some_iff` for the bind of `do`. -/
theorem option_bind_eq_some {α β : Type} {x : Option α} {f : α → Option β} {b : β} :
    (x >>= f) = some b ↔ ∃ a, x = some a ∧ f a = some b :=
  Option.bind_eq_some_iff

/-- The compiler reads a configuration exactly if it reads each of its fields. -/
theorem read_eq_some_iff : t.read = some c ↔ Reads t c := by
  rw [HeaderConfig.read]
  simp only [option_bind_eq_some, Option.some.injEq]
  constructor
  · rintro ⟨_, h1, _, h2, _, h3, _, h4, _, h5, _, h6, _, h7, _, h8, _, h9, _, h10, _, h11, _, h12,
      _, h13, rfl⟩
    exact ⟨h1, h2, h3, h4, h5, h6, h7, h8, h9, h10, h11, h12, h13⟩
  · rintro ⟨h1, h2, h3, h4, h5, h6, h7, h8, h9, h10, h11, h12, h13⟩
    exact ⟨_, h1, _, h2, _, h3, _, h4, _, h5, _, h6, _, h7, _, h8, _, h9, _, h10, _, h11, _, h12,
      _, h13, rfl⟩

section

variable {v : PyNumber} {n : ℤ} {token : FloatToken}

/-- An unsigned field: from the value to what is compared. -/
theorem unsigned_field {w : UInt32} (hwritten : iv v = .ok n) (hread : unsignedLiteral n = some w) :
    |rounded v| < 2 ^ 64 ∧ (w.toNat : ℤ) = rounded v % 2 ^ 32 := by
  obtain ⟨-, -, rfl, -⟩ := iv_eq_ok hwritten
  exact unsignedLiteral_eq_some.mp hread

/-- A signed field. -/
theorem int_field {w : Int32} (hwritten : iv v = .ok n) (hread : intLiteral n = some w) :
    |rounded v| < 2 ^ 63 ∧ w.toInt = (rounded v).bmod (2 ^ 32) := by
  obtain ⟨-, -, rfl, -⟩ := iv_eq_ok hwritten
  exact intLiteral_eq_some.mp hread

/-- A field of type `float`: nine digits, and then the nearest `float`. -/
theorem float_field {y : Binary32} (hwritten : fv v = .ok token)
    (hread : floatLiteral token = some y) :
    ∃ x, value v = some x ∧ y = ofRat (nineDigits.round x) := by
  obtain ⟨q, htoken, rfl⟩ := floatLiteral_eq_some hread
  rw [fv_eq_ok hwritten] at htoken
  cases hx : value v with
  | none =>
    rw [hx] at htoken
    cases htoken
  | some x =>
    rw [hx] at htoken
    exact ⟨x, rfl, by rw [FloatToken.decimal.inj htoken]⟩

/-- A value of at most 64 bits is a constant. -/
theorem exists_unsigned (hwritten : iv v = .ok n) (h : |rounded v| < 2 ^ 64) :
    ∃ w, unsignedLiteral n = some w := by
  obtain ⟨-, -, rfl, -⟩ := iv_eq_ok hwritten
  exact ⟨_, if_pos h⟩

theorem exists_int (hwritten : iv v = .ok n) (h : |rounded v| < 2 ^ 63) :
    ∃ w, intLiteral n = some w := by
  obtain ⟨-, -, rfl, -⟩ := iv_eq_ok hwritten
  exact ⟨_, if_pos h⟩

theorem exists_duty (hwritten : fv v = .ok token) (h : ∃ x, value v = some x ∧ DutyFits x) :
    ∃ y, floatLiteral token = some y := by
  obtain ⟨x, hx, hfits⟩ := h
  obtain ⟨hlo, hhi⟩ := (dutyInRange_iff _).mp ((dutyInRange_nineDigits_iff x).mpr hfits)
  rw [fv_eq_ok hwritten, hx]
  exact ⟨_, floatLiteral_of_unit (hlo.trans' (by norm_num)) (hhi.trans (by norm_num))⟩

theorem exists_ratio (hwritten : fv v = .ok token) (h : ∃ x, value v = some x ∧ RatioFits x) :
    ∃ y, floatLiteral token = some y := by
  obtain ⟨x, hx, hfits⟩ := h
  obtain ⟨hlo, hhi⟩ := (ratioInRange_iff _).mp ((ratioInRange_nineDigits_iff x).mpr hfits)
  rw [fv_eq_ok hwritten, hx]
  exact ⟨_, floatLiteral_of_unit (hlo.trans_lt' (by norm_num)) (hhi.trans (by norm_num))⟩

/-- The check of a duty cycle, as a condition on the value. -/
theorem duty_field_iff {y : Binary32} (hwritten : fv v = .ok token)
    (hread : floatLiteral token = some y) :
    DutyInRange y ↔ ∃ x, value v = some x ∧ DutyFits x := by
  obtain ⟨x, hx, rfl⟩ := float_field hwritten hread
  rw [dutyInRange_nineDigits_iff, hx]
  simp

/-- The check of the ratio, as a condition on the value. -/
theorem ratio_field_iff {y : Binary32} (hwritten : fv v = .ok token)
    (hread : floatLiteral token = some y) :
    ¬ (y < ofRat (5 / 10) ∨ ofRat 1 ≤ y) ↔ ∃ x, value v = some x ∧ RatioFits x := by
  obtain ⟨x, hx, rfl⟩ := float_field hwritten hread
  rw [ratioInRange_nineDigits_iff, hx]
  simp

end

/-! ## Agreement

`Gated` is what the gate has checked, `Fits` what the validator asks beyond that. They
meet in `valid_iff_fits`, check by check in the order of `ir_spoke_config.c:22–45`.
-/

/-- The whole numbers that the gate does not bound are constants of C. -/
structure Representable (values : Key → PyNumber) : Prop where
  gpioWidth : |rounded (values .txGpio)| < 2 ^ 63 ∧ |rounded (values .rxGpio)| < 2 ^ 63
  resolutionWidth : |rounded (values .rmtResolutionHz)| < 2 ^ 64
  glitchWidth : |rounded (values .rxGlitchFilterUs)| < 2 ^ 64
  limitsWidth : |rounded (values .minimumBlockedUs)| < 2 ^ 64 ∧
    |rounded (values .maximumBlockedUs)| < 2 ^ 64 ∧
    |rounded (values .linkLossTimeoutUs)| < 2 ^ 64

/-- What values that pass the gate must satisfy to pass the validator too: pins in
range, and the conditions on the three decimals. Whole numbers are taken as the
compiler converts them, modulo `2^32`. -/
structure Fits (values : Key → PyNumber) : Prop extends Representable values where
  txGpio : 0 ≤ (rounded (values .txGpio)).bmod (2 ^ 32) ∧
    (rounded (values .txGpio)).bmod (2 ^ 32) ≤ 48
  rxGpio : 0 ≤ (rounded (values .rxGpio)).bmod (2 ^ 32) ∧
    (rounded (values .rxGpio)).bmod (2 ^ 32) ≤ 48
  gpio : (rounded (values .txGpio)).bmod (2 ^ 32) ≠ (rounded (values .rxGpio)).bmod (2 ^ 32)
  carrierDuty : ∃ x, value (values .carrierDuty) = some x ∧ DutyFits x
  resolution : 8 * rounded (values .carrierHz) ≤ rounded (values .rmtResolutionHz) % 2 ^ 32 ∧
    rounded (values .rmtResolutionHz) % 2 ^ 32 ≤ 80000000
  memBlockSymbols : rounded (values .rmtMemBlockSymbols) ≤ 512
  txQueueDepth : rounded (values .rmtTxQueueDepth) ≤ 8
  rxDemodRatio : ∃ x, value (values .rxDemodRatio) = some x ∧ RatioFits x
  rxDemodDuty : ∃ x, value (values .rxDemodDuty) = some x ∧ DutyFits x
  glitch : 0 < rounded (values .rxGlitchFilterUs) % 2 ^ 32 ∧
    rounded (values .rxGlitchFilterUs) % 2 ^ 32 * rounded (values .carrierHz) < 500000
  blockage : 0 < rounded (values .minimumBlockedUs) % 2 ^ 32 ∧
    rounded (values .minimumBlockedUs) % 2 ^ 32 < rounded (values .maximumBlockedUs) % 2 ^ 32
  linkLoss : rounded (values .maximumBlockedUs) % 2 ^ 32 <
    rounded (values .linkLossTimeoutUs) % 2 ^ 32

/-- The bounds on the written numbers that follow from the gate. -/
structure Gated (values : Key → PyNumber) : Prop where
  carrierHz : 25000 ≤ rounded (values .carrierHz) ∧ rounded (values .carrierHz) ≤ 50000
  memBlockSymbols : 48 ≤ rounded (values .rmtMemBlockSymbols) ∧
    rounded (values .rmtMemBlockSymbols) ≤ 513
  txQueueDepth : 1 ≤ rounded (values .rmtTxQueueDepth) ∧ rounded (values .rmtTxQueueDepth) ≤ 9

theorem gated_of_checks (hvalidate : validateCodeParameters values = .ok ())
    (hsimulate : simulateChecks values = .ok ()) (hw : Written values t) : Gated values := by
  obtain ⟨⟨m, hm, hmlo, hmhi⟩, n, hn, hnlo, hnhi⟩ := memory_of_validate hvalidate
  constructor
  · obtain ⟨x, hx, hlo, hhi⟩ := carrier_of_simulateChecks hsimulate
    rw [rounded, hx, Option.elim_some]
    exact ⟨le_nearestEven (by exact_mod_cast hlo), nearestEven_le (by exact_mod_cast hhi)⟩
  · exact rounded_bounds hm hw.rmtMemBlockSymbols (by norm_num) hmlo hmhi (by norm_num)
  · exact rounded_bounds hn hw.rmtTxQueueDepth (by norm_num) hnlo hnhi (by norm_num)

/-- Check by check, the validator accepts what is read iff the values fit. Where the
gate has bounded a number already, its check is passed by what follows from the
bounds. -/
theorem valid_iff_fits (hg : Gated values) (hw : Written values t) (hr : Reads t c) :
    c.Valid ↔ Fits values := by
  obtain ⟨htxw, htx⟩ := int_field hw.txGpio hr.txGpio
  obtain ⟨hrxw, hrx⟩ := int_field hw.rxGpio hr.rxGpio
  obtain ⟨-, hcarrier⟩ := unsigned_field hw.carrierHz hr.carrierHz
  obtain ⟨hresw, hres⟩ := unsigned_field hw.rmtResolutionHz hr.rmtResolutionHz
  obtain ⟨-, hmem⟩ := unsigned_field hw.rmtMemBlockSymbols hr.rmtMemBlockSymbols
  obtain ⟨-, hdepth⟩ := unsigned_field hw.rmtTxQueueDepth hr.rmtTxQueueDepth
  obtain ⟨hglitchw, hglitch⟩ := unsigned_field hw.rxGlitchFilterUs hr.rxGlitchFilterUs
  obtain ⟨hminw, hmin⟩ := unsigned_field hw.blockageMinUs hr.blockageMinUs
  obtain ⟨hmaxw, hmax⟩ := unsigned_field hw.blockageMaxUs hr.blockageMaxUs
  obtain ⟨hlinkw, hlink⟩ := unsigned_field hw.linkLossUs hr.linkLossUs
  obtain ⟨hclo, hchi⟩ := hg.carrierHz
  obtain ⟨hmlo, hmhi⟩ := hg.memBlockSymbols
  obtain ⟨hdlo, hdhi⟩ := hg.txQueueDepth
  -- the gate keeps these three from wrapping
  rw [Int.emod_eq_of_lt (by omega) (by omega)] at hcarrier hmem hdepth
  have hrange : 25000 ≤ c.carrierHz.toNat ∧ c.carrierHz.toNat ≤ 50000 := by omega
  have hproduct : ((c.rxGlitchFilterUs.toNat * c.carrierHz.toNat : ℕ) : ℤ) =
      rounded (values .rxGlitchFilterUs) % 2 ^ 32 * rounded (values .carrierHz) := by
    rw [Nat.cast_mul, hglitch, hcarrier]
  constructor
  · intro hv
    have hgpio := gpio_check_iff.mp hv.gpio
    have hresolution := (resolution_check_iff hrange.2).mp hv.resolution
    have hmemory := memory_check_iff.mp hv.memory
    have hshort := (glitch_check_iff (by omega) hrange.2).mp hv.glitch
    have hblockage := blockage_check_iff.mp hv.blockage
    have hlinkLoss := UInt32.lt_iff_toNat_lt.mp (UInt32.not_le.mp hv.linkLoss)
    rw [htx, hrx] at hgpio
    exact {
      gpioWidth := ⟨htxw, hrxw⟩
      txGpio := hgpio.1
      rxGpio := hgpio.2.1
      gpio := hgpio.2.2
      carrierDuty := (duty_field_iff hw.carrierDuty hr.carrierDuty).mp hv.carrierDuty
      resolutionWidth := hresw
      resolution := by omega
      memBlockSymbols := by omega
      txQueueDepth := by omega
      rxDemodRatio := (ratio_field_iff hw.rxDemodRatio hr.rxDemodRatio).mp hv.demodRatio
      rxDemodDuty := (duty_field_iff hw.rxDemodDuty hr.rxDemodDuty).mp hv.demodDuty
      glitchWidth := hglitchw
      glitch := by omega
      limitsWidth := ⟨hminw, hmaxw, hlinkw⟩
      blockage := by omega
      linkLoss := by omega }
  · intro hf
    have hresolution := hf.resolution
    have hmemory := hf.memBlockSymbols
    have hqueue := hf.txQueueDepth
    have hshort := hf.glitch
    have hblockage := hf.blockage
    have hlinkLoss := hf.linkLoss
    exact {
      gpio := gpio_check_iff.mpr (by rw [htx, hrx]; exact ⟨hf.txGpio, hf.rxGpio, hf.gpio⟩)
      carrier := carrier_check_iff.mpr hrange
      carrierDuty := (duty_field_iff hw.carrierDuty hr.carrierDuty).mpr hf.carrierDuty
      resolution := (resolution_check_iff hrange.2).mpr (by omega)
      memory := memory_check_iff.mpr (by omega)
      demodRatio := (ratio_field_iff hw.rxDemodRatio hr.rxDemodRatio).mpr hf.rxDemodRatio
      demodDuty := (duty_field_iff hw.rxDemodDuty hr.rxDemodDuty).mpr hf.rxDemodDuty
      glitch := (glitch_check_iff (by omega) hrange.2).mpr (by omega)
      blockage := blockage_check_iff.mpr (by omega)
      linkLoss := UInt32.not_le.mpr (UInt32.lt_iff_toNat_lt.mpr (by omega)) }

/-- The validator is reached: every token is a constant of C. -/
theorem exists_reads (hg : Gated values) (hw : Written values t) (hrep : Representable values)
    (hcarrierDuty : ∃ x, value (values .carrierDuty) = some x ∧ DutyFits x)
    (hdemodRatio : ∃ x, value (values .rxDemodRatio) = some x ∧ RatioFits x)
    (hdemodDuty : ∃ x, value (values .rxDemodDuty) = some x ∧ DutyFits x) : ∃ c, Reads t c := by
  obtain ⟨hclo, hchi⟩ := hg.carrierHz
  obtain ⟨hmlo, hmhi⟩ := hg.memBlockSymbols
  obtain ⟨hdlo, hdhi⟩ := hg.txQueueDepth
  obtain ⟨txGpio, h1⟩ := exists_int hw.txGpio hrep.gpioWidth.1
  obtain ⟨rxGpio, h2⟩ := exists_int hw.rxGpio hrep.gpioWidth.2
  obtain ⟨carrierHz, h3⟩ := exists_unsigned hw.carrierHz (abs_lt.mpr (by omega))
  obtain ⟨carrierDuty, h4⟩ := exists_duty hw.carrierDuty hcarrierDuty
  obtain ⟨rmtResolutionHz, h5⟩ := exists_unsigned hw.rmtResolutionHz hrep.resolutionWidth
  obtain ⟨rmtMemBlockSymbols, h6⟩ := exists_unsigned hw.rmtMemBlockSymbols (abs_lt.mpr (by omega))
  obtain ⟨rmtTxQueueDepth, h7⟩ := exists_unsigned hw.rmtTxQueueDepth (abs_lt.mpr (by omega))
  obtain ⟨rxDemodRatio, h8⟩ := exists_ratio hw.rxDemodRatio hdemodRatio
  obtain ⟨rxDemodDuty, h9⟩ := exists_duty hw.rxDemodDuty hdemodDuty
  obtain ⟨rxGlitchFilterUs, h10⟩ := exists_unsigned hw.rxGlitchFilterUs hrep.glitchWidth
  obtain ⟨blockageMinUs, h11⟩ := exists_unsigned hw.blockageMinUs hrep.limitsWidth.1
  obtain ⟨blockageMaxUs, h12⟩ := exists_unsigned hw.blockageMaxUs hrep.limitsWidth.2.1
  obtain ⟨linkLossUs, h13⟩ := exists_unsigned hw.linkLossUs hrep.limitsWidth.2.2
  exact ⟨⟨txGpio, rxGpio, carrierHz, carrierDuty, rmtResolutionHz, rmtMemBlockSymbols,
    rmtTxQueueDepth, rxDemodRatio, rxDemodDuty, rxGlitchFilterUs, blockageMinUs, blockageMaxUs,
    linkLossUs⟩, h1, h2, h3, h4, h5, h6, h7, h8, h9, h10, h11, h12, h13⟩

/-- What is read of a header that passed the gate is valid iff the values fit. -/
theorem read_valid_iff_fits (hg : Gated values) (hw : Written values t) :
    (∃ c, t.read = some c ∧ configValidate (some c) = 0) ↔ Fits values := by
  constructor
  · rintro ⟨c, hread, hzero⟩
    exact (valid_iff_fits hg hw (read_eq_some_iff.mp hread)).mp
      (configValidate_eq_zero_iff.mp hzero)
  · intro hf
    obtain ⟨c, hr⟩ := exists_reads hg hw hf.toRepresentable hf.carrierDuty hf.rxDemodRatio
      hf.rxDemodDuty
    exact ⟨c, read_eq_some_iff.mpr hr,
      configValidate_eq_zero_iff.mpr ((valid_iff_fits hg hw hr).mpr hf)⟩

/-- Finite values are always written. -/
theorem generatedConfigHeader_of_finite (h : ∀ k, ∃ x, value (values k) = some x) :
    ∃ header, generatedConfigHeader values = .ok header := by
  choose x hx using h
  have hfv : ∀ k, fv (values k) = .ok (.decimal (nineDigits.round (x k))) := fun k => by
    rw [fv, value_eq_some.mp (hx k)]
    rfl
  have hiv : ∀ k, iv (values k) = .ok (nearestEven (x k)) := fun k => by
    rw [iv, value_eq_some.mp (hx k)]
    rfl
  simp only [generatedConfigHeader, experimentMacros, headerConfig, hfv, hiv]
  exact ⟨_, rfl⟩

variable {Derived : Type} {transient : (Key → PyNumber) → Except PyError Derived}
  {body : Key → Option PyNumber} {header : Header} {derived : Derived}

/-- A body that is answered has passed both checks, and its header has been written. -/
theorem generateCode_eq_ok (h : generateCode transient body = .ok (header, derived)) :
    validateCodeParameters (merged body) = .ok () ∧ simulateChecks (merged body) = .ok () ∧
      headerConfig (merged body) = .ok header.config := by
  simp only [generateCode, generatedConfigHeader, bind_eq_ok, ok_eq_ok, Prod.mk.injEq] at h
  obtain ⟨⟨⟩, hvalidate, ⟨⟩, hsimulate, -, -, _, ⟨_, -, _, hconfig, rfl⟩, rfl, -⟩ := h
  exact ⟨hvalidate, hsimulate, hconfig⟩

/-! ### A body that sets one pin

The defaults with another transmit pin: all the rest fits, so the pin decides. It is
the smallest body on which the gate and the validator differ.
-/

/-- A body that sets the transmit pin alone. -/
def withTxGpio (n : ℤ) (k : Key) : Option PyNumber :=
  if k = .txGpio then some (.int n) else none

section

variable {q x : ℚ}

theorem toFloat_of_ofRat (h : Number.ofRat binary64 q = .finite x) :
    (decimal q).toFloat = .ok (.finite x) := by
  rw [decimal, h]
  rfl

/-- Every default is a finite number. -/
theorem default_value (k : Key) : ∃ x, value k.default = some x := by
  have hdecimal : ∀ q : ℚ, 0 ≤ q → q < 2 ^ 32 → ∃ x, value (decimal q) = some x := by
    intro q h0 hlt
    obtain ⟨x, hx⟩ := Double.ofRat_finite h0 hlt
    exact ⟨x, value_eq_some.mpr (toFloat_of_ofRat hx)⟩
  have hint : ∀ n : ℤ, 0 ≤ n → n < 2 ^ 32 → ∃ x, value (.int n) = some x := fun n h0 hlt => by
    obtain ⟨x, hx⟩ := Double.ofRat_finite (x := n) (by exact_mod_cast h0) (by exact_mod_cast hlt)
    exact ⟨x, value_eq_some.mpr (toFloat_int_of_ofRat hx)⟩
  cases k <;>
    first
    | exact hint _ (by norm_num) (by norm_num)
    | exact hdecimal _ (by norm_num) (by norm_num)

/-- Every other key has its default. -/
theorem merged_withTxGpio {n : ℤ} {k : Key} (h : k ≠ .txGpio) :
    merged (withTxGpio n) k = k.default := by
  rw [merged, withTxGpio, if_neg h]
  rfl

/-- A duty cycle or an efficiency of at least `2^-20` and at most one. -/
theorem toFloat_unit (h0 : 1 / 2 ^ 20 ≤ q) (h1 : q ≤ 1) :
    ∃ y, (decimal q).toFloat = .ok (.finite y) ∧ 0 < y ∧ y ≤ 1 := by
  obtain ⟨y, hy, hlo, hhi⟩ := Double.ofRat_unit (x := q) (j := 1) (k := 2 ^ 20) (by norm_num)
    (by norm_num) (by norm_num at h0 ⊢; exact h0) (by norm_num; exact h1)
  refine ⟨y, toFloat_of_ofRat hy, hlo.trans_lt' (by norm_num), hhi.trans_eq (by norm_num)⟩

theorem toFloat_withTxGpio {n : ℤ} {k : Key} {m : ℕ} (hk : k ≠ .txGpio) (h : k.default = .int m)
    (hm : m < 2 ^ 53) : (merged (withTxGpio n) k).toFloat = .ok (.finite m) := by
  rw [merged_withTxGpio hk, h, toFloat_natCast hm]

theorem finite_mul_natCast {a b : ℕ} (h : a * b < 2 ^ 53) :
    (.finite a * .finite b : Double) = .finite ((a * b : ℕ) : ℚ) := by
  rw [Number.finite_mul_finite, ← Nat.cast_mul, Double.ofRat_natCast h]

/-- The gate only compares the pin with the receive pin. -/
theorem withTxGpio_validate {n : ℤ} (h : n ≠ 2) :
    validateCodeParameters (merged (withTxGpio n)) = .ok () := by
  simp only [validateCodeParameters, bind_eq_ok, raiseIf_eq_ok, not_not]
  refine ⟨_, toFloat_withTxGpio (k := .carrierHz) (m := 38000) (by decide) rfl (by norm_num), _,
    toFloat_withTxGpio (k := .rmtResolutionHz) (m := 1000000) (by decide) rfl (by norm_num), _,
    toFloat_withTxGpio (k := .rxGlitchFilterUs) (m := 3) (by decide) rfl (by norm_num), _,
    toFloat_withTxGpio (k := .minimumBlockedUs) (m := 70) (by decide) rfl (by norm_num), _,
    toFloat_withTxGpio (k := .maximumBlockedUs) (m := 600) (by decide) rfl (by norm_num), _,
    toFloat_withTxGpio (k := .linkLossTimeoutUs) (m := 15000) (by decide) rfl (by norm_num),
    n, rfl, 2, rfl, (), h, (), ?_, 64, rfl, (), by decide, 2, rfl, (), by decide, (), ?_, (), ?_,
    16, rfl, 48, rfl, by decide⟩
  · have h8 := finite_mul_natCast (a := 8) (b := 38000) (by norm_num)
    rw [Nat.cast_ofNat] at h8
    rw [h8, Number.finite_lt_finite]
    norm_num
  · rw [finite_mul_natCast (a := 3) (b := 38000) (by norm_num), Number.finite_le_finite]
    norm_num
  · rw [Number.finite_lt_finite, Number.finite_lt_finite]
    norm_num

/-- A time in whole milliseconds or microseconds is positive in seconds. -/
theorem not_mul_ofRat_le_zero {a : ℕ} {unit : ℚ} (ha : 0 < a) (h0 : 1 / 2 ^ 20 ≤ unit)
    (h1 : unit ≤ 1) :
    ¬ (.finite a * Number.ofRat binary64 unit : Double) ≤ .finite 0 := by
  obtain ⟨y, hy, hlo, -⟩ := Double.ofRat_unit (x := unit) (j := 1) (k := 2 ^ 20) (by norm_num)
    (by norm_num) (by norm_num at h0 ⊢; exact h0) (by norm_num; exact h1)
  rw [hy, Number.finite_mul_finite]
  refine Double.not_ofRat_le_zero ((hlo.trans' (by norm_num)).trans ?_)
  have hone : (1 : ℚ) ≤ a := by exact_mod_cast ha
  exact le_mul_of_one_le_left (hlo.trans' (by norm_num)) hone

/-- The simulator does not look at the pin. -/
theorem withTxGpio_simulate (n : ℤ) : simulateChecks (merged (withTxGpio n)) = .ok () := by
  obtain ⟨cpu, hcpu, hcpu0, hcpu1⟩ := toFloat_unit (q := 1 / 10) (by norm_num) (by norm_num)
  obtain ⟨wifi, hwifi, hwifi0, hwifi1⟩ := toFloat_unit (q := 5 / 100) (by norm_num) (by norm_num)
  obtain ⟨regulator, hregulator, hregulator0, hregulator1⟩ :=
    toFloat_unit (q := 9 / 10) (by norm_num) (by norm_num)
  have hspeed : ¬ (decimal 60).leInt 0 := by
    rw [decimal, leInt, Int.cast_zero]
    exact Double.not_ofRat_le_zero (by norm_num)
  have hspokes : ¬ (PyNumber.int 32).ltInt 1 := by decide
  have hrise : (decimal 500).toFloat = .ok (.finite (500 : ℕ)) :=
    toFloat_of_ofRat (by exact_mod_cast Double.ofRat_natCast (n := 500) (by norm_num))
  have hsample := finite_mul_natCast (a := 10) (b := 38000) (by norm_num)
  simp only [simulateChecks, bind_eq_ok, raiseIf_eq_ok, not_not, not_or]
  refine ⟨_, toFloat_withTxGpio (k := .carrierHz) (m := 38000) (by decide) rfl (by norm_num), _,
    toFloat_withTxGpio (k := .durationMs) (m := 2) (by decide) rfl (by norm_num), (), ?_, (),
    ⟨hspeed, hspokes⟩, (),
    ⟨not_mul_ofRat_le_zero (by norm_num) (by norm_num) (by norm_num), ?_⟩, _, hcpu, _, hwifi, (),
    ?_, _, hcpu, (), ?_, _, hrise, (),
    not_mul_ofRat_le_zero (by norm_num) (by norm_num) (by norm_num), _, hregulator, ?_⟩
  · simp only [Number.finite_le_finite]
    norm_num
  · rw [Nat.cast_ofNat] at hsample
    rw [hsample, Number.finite_lt_finite]
    norm_num
  · simp only [Number.finite_le_finite]
    exact ⟨⟨hcpu0.le, hcpu1⟩, hwifi0.le, hwifi1⟩
  · simp only [Number.finite_le_finite]
    exact ⟨hcpu0.le, hcpu1⟩
  · simp only [Number.finite_le_finite, Number.finite_lt_finite]
    exact ⟨hregulator0, hregulator1⟩

/-- The server answers a body that sets the transmit pin to anything but the default
receive pin. -/
theorem withTxGpio_answered {n : ℤ} (h : n ≠ 2) (hlo : 0 ≤ n) (hhi : n < 2 ^ 32) :
    ∃ header, generateCode (fun _ => .ok ()) (withTxGpio n) = .ok (header, ()) := by
  have hvalue : ∀ k, ∃ x, value (merged (withTxGpio n) k) = some x := fun k => by
    by_cases hk : k = .txGpio
    · subst hk
      obtain ⟨x, hx⟩ := Double.ofRat_finite (x := n) (by exact_mod_cast hlo) (by exact_mod_cast hhi)
      exact ⟨x, value_eq_some.mpr (toFloat_int_of_ofRat hx)⟩
    · rw [merged_withTxGpio hk]
      exact default_value k
  obtain ⟨header, hheader⟩ := generatedConfigHeader_of_finite hvalue
  refine ⟨header, ?_⟩
  simp only [generateCode, bind_eq_ok, ok_eq_ok]
  exact ⟨(), withTxGpio_validate h, (), withTxGpio_simulate n, (), trivial, header, hheader, rfl⟩

theorem rounded_of_default {n : ℤ} {k : Key} {m : ℕ} (hk : k ≠ .txGpio) (h : k.default = .int m)
    (hm : m < 2 ^ 53) : rounded (merged (withTxGpio n) k) = m := by
  rw [rounded, value_eq_some.mpr (toFloat_withTxGpio hk h hm), Option.elim_some]
  exact_mod_cast nearestEven_intCast (K := ℚ) (m : ℤ)

theorem rounded_txGpio {n : ℕ} (h : n < 2 ^ 53) :
    rounded (merged (withTxGpio n) .txGpio) = n := by
  have hmerged : merged (withTxGpio n) .txGpio = .int n := rfl
  rw [hmerged, rounded, value_eq_some.mpr (toFloat_natCast h), Option.elim_some]
  exact_mod_cast nearestEven_intCast (K := ℚ) (n : ℤ)

theorem default_duty_fits : ∃ x, value (decimal (5 / 10)) = some x ∧ DutyFits x := by
  obtain ⟨x, hx, hlo, hhi⟩ := Double.ofRat_unit (x := 5 / 10) (j := 2 ^ 19) (k := 2 ^ 19)
    (by norm_num) (by norm_num) (by norm_num) (by norm_num)
  norm_num at hlo hhi
  refine ⟨x, value_eq_some.mpr (toFloat_of_ofRat hx), ?_, ?_⟩ <;> norm_num <;> linarith

theorem default_ratio_fits : ∃ x, value (decimal (66 / 100)) = some x ∧ RatioFits x := by
  obtain ⟨x, hx, hlo, hhi⟩ := Double.ofRat_unit (x := 66 / 100) (j := 2 ^ 19) (k := 3 * 2 ^ 18)
    (by norm_num) (by norm_num) (by norm_num) (by norm_num)
  norm_num at hlo hhi
  refine ⟨x, value_eq_some.mpr (toFloat_of_ofRat hx), ?_, ?_⟩ <;> norm_num <;> linarith

/-- The values of the whole-number fields but the transmit pin. -/
theorem rounded_defaults (n : ℤ) :
    rounded (merged (withTxGpio n) .rxGpio) = 2 ∧
    rounded (merged (withTxGpio n) .carrierHz) = 38000 ∧
    rounded (merged (withTxGpio n) .rmtResolutionHz) = 1000000 ∧
    rounded (merged (withTxGpio n) .rmtMemBlockSymbols) = 64 ∧
    rounded (merged (withTxGpio n) .rmtTxQueueDepth) = 2 ∧
    rounded (merged (withTxGpio n) .rxGlitchFilterUs) = 3 ∧
    rounded (merged (withTxGpio n) .minimumBlockedUs) = 70 ∧
    rounded (merged (withTxGpio n) .maximumBlockedUs) = 600 ∧
    rounded (merged (withTxGpio n) .linkLossTimeoutUs) = 15000 := by
  refine ⟨?_, ?_, ?_, ?_, ?_, ?_, ?_, ?_, ?_⟩ <;>
    exact rounded_of_default (by decide) rfl (by norm_num)

/-- The pin is a constant of C. -/
theorem withTxGpio_representable {n : ℕ} (h : n < 2 ^ 53) :
    Representable (merged (withTxGpio n)) := by
  obtain ⟨hrx, -, hresolution, -, -, hglitch, hmin, hmax, hlink⟩ := rounded_defaults n
  constructor
  case gpioWidth =>
    rw [rounded_txGpio h, hrx, Nat.abs_cast]
    exact ⟨by omega, by decide⟩
  all_goals
    simp only [hresolution, hglitch, hmin, hmax, hlink]
    decide

/-- With the transmit pin at its default, everything fits. -/
theorem withTxGpio_fits : Fits (merged (withTxGpio (1 : ℕ))) := by
  obtain ⟨hrx, hcarrier, hresolution, hmem, hdepth, hglitch, hmin, hmax, hlink⟩ :=
    rounded_defaults (1 : ℕ)
  have htx := rounded_txGpio (n := 1) (by norm_num)
  constructor
  case toRepresentable => exact withTxGpio_representable (by norm_num)
  case carrierDuty => exact default_duty_fits
  case rxDemodDuty => exact default_duty_fits
  case rxDemodRatio => exact default_ratio_fits
  all_goals
    simp only [htx, hrx, hcarrier, hresolution, hmem, hdepth, hglitch, hmin, hmax, hlink]
    decide

end

/-- A header that the server answers with is accepted by the validator iff the values
that it was generated from fit: for every body, and whatever the transient simulation
has answered. -/
theorem generated_config_valid_iff
    (h : generateCode transient body = .ok (header, derived)) :
    (∃ c, header.config.read = some c ∧ configValidate (some c) = 0) ↔ Fits (merged body) := by
  obtain ⟨hvalidate, hsimulate, hconfig⟩ := generateCode_eq_ok h
  have hw := written_of_headerConfig hconfig
  exact read_valid_iff_fits (gated_of_checks hvalidate hsimulate hw) hw

/-- A body with the default pin is answered with a configuration that the validator
accepts. -/
theorem generated_config_valid_default :
    ∃ header, generateCode (fun _ => .ok ()) (withTxGpio 1) = .ok (header, ()) ∧
      ∃ c, header.config.read = some c ∧ configValidate (some c) = 0 := by
  obtain ⟨header, h⟩ := withTxGpio_answered (n := 1) (by norm_num) (by norm_num) (by norm_num)
  exact ⟨header, h, (generated_config_valid_iff h).mpr withTxGpio_fits⟩

/-- The transmit pin 100 passes the gate, and the validator rejects it. -/
theorem generated_config_invalid :
    ∃ header c, generateCode (fun _ => .ok ()) (withTxGpio 100) = .ok (header, ()) ∧
      header.config.read = some c ∧ configValidate (some c) = -2 := by
  obtain ⟨header, h⟩ := withTxGpio_answered (n := 100) (by norm_num) (by norm_num) (by norm_num)
  obtain ⟨hvalidate, hsimulate, hconfig⟩ := generateCode_eq_ok h
  have hw := written_of_headerConfig hconfig
  have hrep := withTxGpio_representable (n := 100) (by norm_num)
  obtain ⟨c, hr⟩ := exists_reads (gated_of_checks hvalidate hsimulate hw) hw hrep default_duty_fits
    default_ratio_fits default_duty_fits
  obtain ⟨-, hpin⟩ := int_field hw.txGpio hr.txGpio
  have htx : rounded (merged (withTxGpio 100) .txGpio) = 100 :=
    rounded_txGpio (n := 100) (by norm_num)
  have hout : 48 < c.txGpio := by
    rw [Int32.lt_iff_toInt_lt, hpin, htx]
    decide
  exact ⟨header, c, h, read_eq_some_iff.mpr hr, if_pos (.inr (.inl hout))⟩

end SpokeSensor.LocalServer
