/-
# Numbers are read back

The digits of a number give the number, in any base and behind any zeros, and a decimal gives the
number nearest to it however it is written out. So a whole number of 32 bits is read back, and so
is every single-precision number that is one: the decimals that are tried for it are kept only if
they are read as its magnitude, and the exact value that stands in for them has few enough digits
to be read exactly.

Key definitions: `Single.magnitudeBits`, `Single.decimal`.
Key theorems: `natOfDigits?_leftpad`, `read_exactDecimal`, `read_shortest`,
`readSingle_singleItem`, `readInt32_numeral`.
-/
import Mathlib.Data.List.TakeWhile
import ShadeNet.Document.Ron
import ShadeNet.Proofs.Invocation
import ShadeNet.Proofs.Reading

namespace ShadeNet

/-! ### Rows of digits -/

/-- A leading run ends where nothing or something else stands behind it. -/
theorem takeWhile_run {p : Char → Bool} {run rest : List Char} (hrun : ∀ c ∈ run, p c = true)
    (hrest : ∀ c ∈ rest.head?, p c = false) : (run ++ rest).takeWhile p = run := by
  rw [List.takeWhile_append_of_pos hrun]
  cases rest with
  | nil => simp
  | cons c rest => simp [hrest c rfl]

theorem dropWhile_run {p : Char → Bool} {run rest : List Char} (hrun : ∀ c ∈ run, p c = true)
    (hrest : ∀ c ∈ rest.head?, p c = false) : (run ++ rest).dropWhile p = rest := by
  rw [List.dropWhile_append_of_pos hrun]
  cases rest with
  | nil => rfl
  | cons c rest => simp [hrest c rfl]

theorem digit?_digitChar {base d : Nat} (hbase : base ≤ 16) (hd : d < base) :
    digit? base (Nat.digitChar d) = some d := by
  have hhex : ∀ d < 16, hexDigit? (Nat.digitChar d) = some d := by decide
  rw [digit?, hhex d (Nat.lt_of_lt_of_le hd hbase), Option.filter_some, if_pos (by simpa using hd)]

theorem accumulateDigits?_append (base value : Nat) (cs ds : List Char) :
    accumulateDigits? base value (cs ++ ds) =
      (accumulateDigits? base value cs).bind fun v => accumulateDigits? base v ds := by
  induction cs generalizing value with
  | nil => rfl
  | cons c cs ih => simp [accumulateDigits?, ih, Option.bind_assoc]

theorem accumulateDigits?_toDigits {base : Nat} (hone : 1 < base) (hbase : base ≤ 16)
    (value n : Nat) :
    accumulateDigits? base value (Nat.toDigits base n) =
      some (base ^ (Nat.toDigits base n).length * value + n) := by
  induction n using Nat.strongRecOn with
  | ind n ih =>
    by_cases hn : n < base
    · rw [Nat.toDigits_of_lt_base hn]
      simp [accumulateDigits?, digit?_digitChar hbase hn]
    · have hle : base ≤ n := Nat.le_of_not_lt hn
      have hmod : n % base < base := Nat.mod_lt _ (by omega)
      rw [Nat.toDigits_of_base_le hone hle, accumulateDigits?_append,
        ih (n / base) (Nat.div_lt_self (by omega) hone)]
      simp only [Option.bind_some, accumulateDigits?, digit?_digitChar hbase hmod,
        List.length_append, List.length_singleton, Option.some_inj]
      rw [Nat.mul_add, Nat.add_assoc, Nat.div_add_mod, Nat.pow_succ]
      ring

theorem accumulateDigits?_zeros {base : Nat} (hbase : 1 < base) (value count : Nat)
    (cs : List Char) :
    accumulateDigits? base value (List.replicate count '0' ++ cs) =
      accumulateDigits? base (base ^ count * value) cs := by
  have hzero : digit? base '0' = some 0 := by
    rw [digit?, show hexDigit? '0' = some 0 from rfl, Option.filter_some,
      if_pos (by simpa using by omega)]
  induction count generalizing value with
  | zero => simp
  | succ count ih =>
    rw [List.replicate_succ, List.cons_append, accumulateDigits?, hzero, Option.bind_some, ih]
    congr 1
    ring

theorem isSome_hexDigit?_of_accumulateDigits? {base value n : Nat} {cs : List Char}
    (h : accumulateDigits? base value cs = some n) : ∀ c ∈ cs, (hexDigit? c).isSome = true := by
  induction cs generalizing value with
  | nil => simp
  | cons c cs ih =>
    obtain ⟨d, hd, hrest⟩ := Option.bind_eq_some_iff.mp h
    obtain ⟨hc, -⟩ := Option.filter_eq_some_iff.mp hd
    exact List.forall_mem_cons.mpr ⟨by rw [hc]; rfl, ih hrest⟩

/-- Digits with zeros in front of them are read back. -/
theorem natOfDigits?_leftpad {base : Nat} (hone : 1 < base) (hbase : base ≤ 16) (width n : Nat) :
    natOfDigits? base (List.leftpad width '0' (Nat.toDigits base n)) = some n := by
  have hne : (List.leftpad width '0' (Nat.toDigits base n)).isEmpty = false := by
    simp [List.leftpad, Nat.toDigits_ne_nil]
  rw [natOfDigits?, hne, List.leftpad, if_neg Bool.false_ne_true, accumulateDigits?_zeros hone,
    accumulateDigits?_toDigits hone hbase]
  simp

theorem natOfDigits?_toDigits {base : Nat} (hone : 1 < base) (hbase : base ≤ 16) (n : Nat) :
    natOfDigits? base (Nat.toDigits base n) = some n := by
  simpa [List.leftpad] using natOfDigits?_leftpad hone hbase 0 n

/-- Digits behind the digits of a number go on from it. -/
theorem natOfDigits?_toDigits_append {base n value : Nat} {cs : List Char} (hone : 1 < base)
    (hbase : base ≤ 16) (h : accumulateDigits? base n cs = some value) :
    natOfDigits? base (Nat.toDigits base n ++ cs) = some value := by
  have hne : (Nat.toDigits base n ++ cs).isEmpty = false := by simp [Nat.toDigits_ne_nil]
  rw [natOfDigits?, hne, if_neg Bool.false_ne_true, accumulateDigits?_append,
    accumulateDigits?_toDigits hone hbase, Nat.mul_zero, Nat.zero_add, Option.bind_some, h]

theorem isDigit_leftpad (width n : Nat) :
    ∀ c ∈ List.leftpad width '0' (Nat.toDigits 10 n), c.isDigit = true := by
  intro c hc
  rcases List.mem_append.mp hc with hc | hc
  · rw [List.eq_of_mem_replicate hc]
    decide
  · exact isDigit_toDigits n c hc

theorem length_toDigits_mul_ten_pow {n : Nat} (hn : n ≠ 0) (e : Nat) :
    (Nat.toDigits 10 (n * 10 ^ e)).length = (Nat.toDigits 10 n).length + e := by
  induction e with
  | zero => simp
  | succ e ih =>
    have hpos : 0 < n * 10 ^ e := Nat.mul_pos (Nat.pos_of_ne_zero hn) (Nat.pow_pos (by decide))
    have hshift : n * 10 ^ (e + 1) = 10 * (n * 10 ^ e) + 0 := by ring
    rw [hshift, ← Nat.toDigits_append_toDigits (by decide) hpos (by decide), List.length_append, ih]
    rfl

/-! ### Rounding -/

/-- A quotient is rounded the same in lower terms. -/
theorem roundHalfEven_mul_mul {k : Nat} (hk : 0 < k) (n d : Nat) :
    roundHalfEven (n * k) (d * k) = roundHalfEven n d := by
  have hdiv : n * k / (d * k) = n / d := Nat.mul_div_mul_right n d hk
  have hmod : n * k % (d * k) = n % d * k := Nat.mul_mod_mul_right k n d
  have hdouble : 2 * (n % d * k) = 2 * (n % d) * k := by ring
  simp only [roundHalfEven, hdiv, hmod, hdouble, Nat.mul_lt_mul_right hk]

namespace Single

theorem ofRatio_mul_mul {k : Nat} (hk : 0 < k) (negative : Bool) (n d : Nat) :
    ofRatio negative (n * k) (d * k) = ofRatio negative n d := by
  have hnum : n * k * unitsPerOne = n * unitsPerOne * k := by ring
  have hden : ∀ s, d * k * Nat.pow 2 s = d * Nat.pow 2 s * k := fun s => by ring
  simp only [ofRatio, hnum, hden, Nat.mul_div_mul_right _ _ hk, roundHalfEven_mul_mul hk]

/-- The sign of what is read is the sign of the numeral. -/
theorem ofDecimal_eq_ofMagnitude (mantissa : Nat) (exponent : Int) :
    ∃ magnitude, ∀ negative,
      ofDecimal negative mantissa exponent = ofMagnitude negative magnitude := by
  unfold ofDecimal
  simp only
  by_cases hzero : mantissa = 0
  · exact ⟨0, fun negative => if_pos hzero⟩
  simp only [if_neg hzero]
  by_cases hlarge : 60 < ((Nat.toDigits 10 mantissa).length + exponent : Int)
  · exact ⟨infinityBits, fun negative => if_pos hlarge⟩
  simp only [if_neg hlarge]
  by_cases hsmall : ((Nat.toDigits 10 mantissa).length + exponent : Int) < -60
  · exact ⟨0, fun negative => if_pos hsmall⟩
  simp only [if_neg hsmall]
  cases exponent with
  | ofNat e => exact ⟨_, fun negative => rfl⟩
  | negSucc e => exact ⟨_, fun negative => rfl⟩

theorem ofDecimal_zero (negative : Bool) (exponent : Int) :
    ofDecimal negative 0 exponent = zero negative := by
  simp [ofDecimal]

theorem ofDecimal_negSucc {negative : Bool} {mantissa e : Nat} (hne : mantissa ≠ 0)
    (hlarge : (Nat.toDigits 10 mantissa).length ≤ 60 + (e + 1))
    (hsmall : e + 1 ≤ (Nat.toDigits 10 mantissa).length + 60) :
    ofDecimal negative mantissa (Int.negSucc e) = ofRatio negative mantissa (10 ^ (e + 1)) := by
  rw [ofDecimal]
  simp only [Int.negSucc_eq]
  rw [if_neg hne, if_neg (by omega), if_neg (by omega)]
  rfl

/-- A zero behind the point changes nothing. -/
theorem ofDecimal_ofNat (negative : Bool) (mantissa e : Nat) :
    ofDecimal negative (mantissa * 10 ^ e * 10) (Int.negSucc 0) =
      ofDecimal negative mantissa (Int.ofNat e) := by
  by_cases hzero : mantissa = 0
  · simp [ofDecimal, hzero]
  · have hne : mantissa * 10 ^ e * 10 ≠ 0 := by positivity
    have hshift : mantissa * 10 ^ e * 10 = mantissa * 10 ^ (e + 1) := by ring
    have hsize : ((Nat.toDigits 10 (mantissa * 10 ^ e * 10)).length + Int.negSucc 0 : Int) =
        (Nat.toDigits 10 mantissa).length + Int.ofNat e := by
      rw [hshift, length_toDigits_mul_ten_pow hzero]
      simp only [Int.ofNat_eq_natCast, Int.negSucc_eq]
      push_cast
      ring
    have hratio : ofRatio negative (mantissa * 10 ^ e * 10) (Nat.pow 10 (0 + 1)) =
        ofRatio negative (mantissa * Nat.pow 10 e) 1 := by
      simpa using ofRatio_mul_mul (k := 10) (by decide) negative (mantissa * 10 ^ e) 1
    simp only [ofDecimal, if_neg hzero, if_neg hne, hsize, hratio]

/-! ### The bits of a number -/

theorem toNat_bits_ofMagnitude (negative : Bool) (magnitude : Nat) :
    (ofMagnitude negative magnitude).bits.toNat =
      (if negative then 2 ^ 31 else 0) + min magnitude infinityBits := by
  have hle : min magnitude infinityBits ≤ 255 * 2 ^ 23 := Nat.min_le_right _ _
  simp only [ofMagnitude, Nat.pow_eq]
  rw [UInt32.toNat_ofNat_of_lt']
  cases negative <;> simp [UInt32.size] <;> omega

theorem ofMagnitude_inj {negative : Bool} {m n : Nat}
    (h : ofMagnitude negative m = ofMagnitude negative n) (sign : Bool) :
    ofMagnitude sign m = ofMagnitude sign n := by
  have hbits := congrArg (fun x => x.bits.toNat) h
  simp only [toNat_bits_ofMagnitude, Nat.add_left_cancel_iff] at hbits
  rw [ofMagnitude, ofMagnitude, hbits]

/-- The bits of a number without its sign. -/
def magnitudeBits (x : Single) : Nat := x.bits.toNat % 2 ^ 31

/-- A number is its sign and its magnitude. -/
theorem ofMagnitude_magnitudeBits {x : Single} (h : x.isNaN = false) :
    ofMagnitude x.negative x.magnitudeBits = x := by
  have hlt := x.bits.toNat_lt
  have hle : x.magnitudeBits ≤ infinityBits := by
    simp only [isNaN, exponentField, fraction, Nat.pow_eq, Bool.and_eq_false_iff,
      beq_eq_false_iff_ne, bne_eq_false_iff_eq] at h
    simp only [magnitudeBits, infinityBits, Nat.pow_eq]
    omega
  have hbits : (ofMagnitude x.negative x.magnitudeBits).bits.toNat = x.bits.toNat := by
    rw [toNat_bits_ofMagnitude, Nat.min_eq_left hle]
    simp only [negative, magnitudeBits, Nat.pow_eq, decide_eq_true_eq]
    split <;> omega
  cases x
  exact congrArg Single.mk (UInt32.toNat_inj.mp hbits)

/-- What a finite number other than zero is made of: a first step without a leading bit, or
twenty-four bits and a power of two. -/
theorem units_cases {x : Single} (hfinite : x.isFinite = true) :
    (x.units = x.magnitudeBits ∧ x.units < 2 ^ 23) ∨
      ∃ shift m, x.units = m * 2 ^ shift ∧ 2 ^ 23 ≤ m ∧ m < 2 ^ 24 ∧ shift < 254 ∧
        x.magnitudeBits = shift * 2 ^ 23 + m := by
  have hfield : x.exponentField ≠ 255 := by simpa [isFinite] using hfinite
  have hlt : x.fraction < 2 ^ 23 := Nat.mod_lt _ (Nat.two_pow_pos 23)
  have hbits : x.magnitudeBits = x.exponentField * 2 ^ 23 + x.fraction := by
    simp only [magnitudeBits, exponentField, fraction, Nat.pow_eq]
    omega
  have hfieldlt : x.exponentField < 2 ^ 8 := Nat.mod_lt _ (Nat.two_pow_pos 8)
  by_cases hzero : x.exponentField = 0
  · left
    rw [units, if_pos hzero, hbits, hzero]
    omega
  · right
    obtain ⟨shift, hshift⟩ := Nat.exists_eq_succ_of_ne_zero hzero
    refine ⟨shift, 2 ^ 23 + x.fraction, ?_, by omega, by omega, by omega, ?_⟩
    · rw [units, if_neg hzero, hshift]
      rfl
    · rw [hbits, hshift, Nat.succ_mul]
      ring

/-- The ratio of a finite number is read as the number. -/
theorem ofRatio_units {x : Single} (hfinite : x.isFinite = true) (negative : Bool) :
    ofRatio negative x.units unitsPerOne = ofMagnitude negative x.magnitudeBits := by
  have hpos : 0 < unitsPerOne := Nat.two_pow_pos 149
  have hround : ∀ s, roundHalfEven (x.units * unitsPerOne) (unitsPerOne * Nat.pow 2 s) =
      roundHalfEven x.units (2 ^ s) := fun s => by
    rw [Nat.mul_comm unitsPerOne]
    exact roundHalfEven_mul_mul hpos _ _
  simp only [ofRatio, Nat.mul_div_cancel _ hpos, hround]
  obtain ⟨hunits, hlt⟩ | ⟨shift, m, hunits, hlow, hhigh, -, hbits⟩ := units_cases hfinite
  · have hwhole : roundHalfEven x.units (2 ^ 0) = x.units := by
      simpa using roundHalfEven_mul x.units 1 Nat.one_pos
    have hlog : x.units.log2 - 23 = 0 := by
      have : x.units.log2 ≤ 22 := by
        by_cases h0 : x.units = 0
        · simp [h0]
        · exact Nat.le_of_lt_succ ((Nat.log2_lt h0).mpr hlt)
      omega
    rw [hlog, Nat.zero_mul, Nat.zero_add, hwhole, hunits]
  · have hlog : x.units.log2 = shift + 23 := by
      rw [hunits, (Nat.log2_eq_iff (by positivity)).mpr]
      constructor
      · calc 2 ^ (shift + 23) = 2 ^ 23 * 2 ^ shift := by ring
          _ ≤ m * 2 ^ shift := Nat.mul_le_mul_right _ hlow
      · calc m * 2 ^ shift < 2 ^ 24 * 2 ^ shift :=
            Nat.mul_lt_mul_of_pos_right hhigh (Nat.two_pow_pos _)
          _ = 2 ^ (shift + 23 + 1) := by ring
    rw [hlog, Nat.add_sub_cancel, hunits, roundHalfEven_mul _ _ (Nat.two_pow_pos _), hbits]
    rfl

/-- The exact value of a number reads back. -/
theorem read_exactDecimal {x : Single} (hfinite : x.isFinite = true) (hne : x.units ≠ 0) :
    x.exactDecimal.read = ofMagnitude false x.magnitudeBits := by
  have hunits : x.units < 2 ^ 24 * 2 ^ 253 := by
    obtain ⟨-, hlt⟩ | ⟨shift, m, hunits, -, hhigh, hshift, -⟩ := units_cases hfinite
    · exact Nat.lt_of_lt_of_le hlt (by norm_num)
    · calc x.units = m * 2 ^ shift := hunits
        _ < 2 ^ 24 * 2 ^ shift := Nat.mul_lt_mul_of_pos_right hhigh (Nat.two_pow_pos _)
        _ ≤ 2 ^ 24 * 2 ^ 253 := Nat.mul_le_mul_left _ (Nat.pow_le_pow_right (by decide) (by omega))
  have hmantissa : x.units * 5 ^ 149 ≠ 0 := by positivity
  have hupper : (Nat.toDigits 10 (x.units * 5 ^ 149)).length ≤ 209 := by
    refine (Nat.length_toDigits_le_iff (by decide) (by decide)).mpr ?_
    calc x.units * 5 ^ 149 < 2 ^ 24 * 2 ^ 253 * 5 ^ 149 :=
          Nat.mul_lt_mul_of_pos_right hunits (by positivity)
      _ ≤ 10 ^ 209 := by norm_num
  have hlower : 89 ≤ (Nat.toDigits 10 (x.units * 5 ^ 149)).length := by
    by_contra hlt
    have h : x.units * 5 ^ 149 < 10 ^ 88 :=
      (Nat.length_toDigits_le_iff (by decide) (by decide)).mp (by omega)
    have h5 : (10 : Nat) ^ 88 ≤ 5 ^ 149 := by norm_num
    have := Nat.le_mul_of_pos_left (5 ^ 149) (Nat.pos_of_ne_zero hne)
    omega
  have hratio : ofRatio false (x.units * 5 ^ 149) (10 ^ 149) =
      ofRatio false x.units unitsPerOne := by
    have hten : (10 : Nat) ^ 149 = unitsPerOne * 5 ^ 149 := by
      rw [unitsPerOne, Nat.pow_eq, ← Nat.mul_pow]
    rw [hten]
    exact ofRatio_mul_mul (by positivity) _ _ _
  have hread : x.exactDecimal.read = ofDecimal false (x.units * 5 ^ 149) (Int.negSucc 148) := rfl
  rw [hread, ofDecimal_negSucc hmantissa (by omega) (by omega)]
  exact hratio.trans (ofRatio_units hfinite false)

/-- **The decimal of a number reads back.** One of the decimals that are tried does, or the exact
value stands in for them. -/
theorem read_shortest {x : Single} (hfinite : x.isFinite = true) (hne : x.units ≠ 0) :
    x.shortest.read = ofMagnitude false x.magnitudeBits := by
  unfold shortest
  simp only
  cases hfind : ((List.range 9).flatMap fun k => x.neighbours (k + 1)).find?
      fun d => d.read = ofMagnitude false (x.bits.toNat % Nat.pow 2 31) with
  | none => exact read_exactDecimal hfinite hne
  | some d =>
    have hread := List.find?_some hfind
    exact of_decide_eq_true hread

end Single

/-! ### Numerals of fractions -/

theorem decimalOfNumeral?_places {whole places : List Char}
    (hwhole : ∀ c ∈ whole, c.isDigit = true) (hplaces : ∀ c ∈ places, c.isDigit = true) :
    decimalOfNumeral? (whole ++ '.' :: places) =
      (natOfDigits? 10 (whole ++ places)).map
        fun mantissa => (mantissa, -(places.length : Int)) := by
  have hpoint : ∀ c ∈ ('.' :: places).head?, isDecimalDigit c = false := by
    intro c hc
    cases hc
    decide
  have htake : (whole ++ '.' :: places).takeWhile isDecimalDigit = whole :=
    takeWhile_run hwhole hpoint
  have hdrop : (whole ++ '.' :: places).dropWhile isDecimalDigit = '.' :: places :=
    dropWhile_run hwhole hpoint
  have hall : places.takeWhile isDecimalDigit = places := List.takeWhile_eq_self_iff.mpr hplaces
  have hnone : places.dropWhile isDecimalDigit = [] := List.dropWhile_eq_nil_iff.mpr hplaces
  simp only [decimalOfNumeral?, htake, hdrop, hall, hnone, exponentOfNumeral?, Option.map_some,
    Int.zero_sub]
  cases natOfDigits? 10 (whole ++ places) <;> rfl

namespace Decimal

/-- The text of a decimal: digits, a point and digits, which are read as the decimal. -/
theorem toList_text (d : Decimal) : ∃ whole places mantissa,
    d.text.toList = whole ++ '.' :: places ∧ whole ≠ [] ∧
    (∀ c ∈ whole, c.isDigit = true) ∧ (∀ c ∈ places, c.isDigit = true) ∧
    natOfDigits? 10 (whole ++ places) = some mantissa ∧
    ∀ negative, Single.ofDecimal negative mantissa (-(places.length : Int)) =
      Single.ofDecimal negative d.mantissa d.exponent := by
  obtain ⟨mantissa, exponent⟩ := d
  cases exponent with
  | ofNat e =>
    refine ⟨Nat.toDigits 10 (mantissa * 10 ^ e), ['0'], mantissa * 10 ^ e * 10, ?_,
      Nat.toDigits_ne_nil, isDigit_toDigits _, List.forall_mem_singleton.mpr rfl, ?_,
      fun negative => Single.ofDecimal_ofNat negative mantissa e⟩
    · simp [text, Nat.toString_eq_repr, Nat.toList_repr]
    · have hzero : accumulateDigits? 10 (mantissa * 10 ^ e) ['0'] =
          some (mantissa * 10 ^ e * 10) := by
        rw [← Nat.toDigits_zero 10, accumulateDigits?_toDigits (by decide) (by decide)]
        simp [Nat.toDigits_zero, Nat.mul_comm]
      exact natOfDigits?_toDigits_append (by decide) (by decide) hzero
  | negSucc e =>
    have hwidth : mantissa % 10 ^ (e + 1) < 10 ^ (e + 1) := Nat.mod_lt _ (by positivity)
    have hlen : (Nat.toDigits 10 (mantissa % 10 ^ (e + 1))).length ≤ e + 1 :=
      (Nat.length_toDigits_le_iff (by decide) (by omega)).mpr hwidth
    have hplaces : (List.leftpad (e + 1) '0' (Nat.toDigits 10 (mantissa % 10 ^ (e + 1)))).length =
        e + 1 := by
      rw [List.length_leftpad, Nat.max_eq_left hlen]
    refine ⟨Nat.toDigits 10 (mantissa / 10 ^ (e + 1)),
      List.leftpad (e + 1) '0' (Nat.toDigits 10 (mantissa % 10 ^ (e + 1))), mantissa, ?_,
      Nat.toDigits_ne_nil, isDigit_toDigits _, isDigit_leftpad _ _, ?_, ?_⟩
    · simp [text, placedText, paddedDigits, Nat.toString_eq_repr, Nat.toList_repr]
    · refine natOfDigits?_toDigits_append (by decide) (by decide) ?_
      rw [List.leftpad, accumulateDigits?_zeros (by decide),
        accumulateDigits?_toDigits (by decide) (by decide), ← Nat.mul_assoc, ← Nat.pow_add,
        Nat.add_sub_cancel' hlen, Nat.div_add_mod]
    · intro negative
      rw [hplaces]
      rfl

end Decimal

/-- The sign in front of a numeral. -/
def signText (negative : Bool) : List Char := if negative then ['-'] else []

theorem splitSign_signText (negative : Bool) {digits : List Char}
    (h : ∀ c ∈ digits.head?, c ≠ '-' ∧ c ≠ '+') :
    splitSign (signText negative ++ digits) = (negative, digits) := by
  cases negative with
  | true => rfl
  | false =>
    change splitSign digits = _
    unfold splitSign
    split
    · exact absurd rfl (h '-' rfl).1
    · exact absurd rfl (h '+' rfl).2
    · rfl

/-- A signed decimal is read as the number with its sign. -/
theorem ofNumeral?_text (negative : Bool) (d : Decimal) :
    Single.ofNumeral? (signText negative ++ d.text.toList) =
      some (Single.ofDecimal negative d.mantissa d.exponent) := by
  obtain ⟨whole, places, mantissa, htext, hne, hwhole, hplaces, hvalue, hread⟩ := d.toList_text
  have hhead : ∀ c ∈ d.text.toList.head?, c ≠ '-' ∧ c ≠ '+' := by
    intro c hc
    rw [htext] at hc
    cases whole with
    | nil => exact absurd rfl hne
    | cons a whole =>
      cases hc
      have hdigit := hwhole c List.mem_cons_self
      constructor <;> rintro rfl <;> exact absurd hdigit (by decide)
  rw [Single.ofNumeral?, splitSign_signText negative hhead, htext]
  simp only [decimalOfNumeral?_places hwhole hplaces, hvalue, Option.map_some, hread]

namespace Single

/-- The decimal that is written for the magnitude of a finite number. -/
def decimal (x : Single) : Decimal := if x.units = 0 then ⟨0, 0⟩ else x.shortest

theorem isNaN_of_isFinite {x : Single} (h : x.isFinite = true) : x.isNaN = false := by
  have hfield : x.exponentField ≠ 255 := by simpa [isFinite] using h
  simp [isNaN, hfield]

theorem text_zero : (⟨0, 0⟩ : Decimal).text = "0.0" := rfl

theorem toList_numeral {x : Single} (hfinite : x.isFinite = true) :
    x.numeral.toList = signText x.negative ++ x.decimal.text.toList := by
  have hsign : (if x.negative then "-" else "").toList = signText x.negative := by
    cases x.negative <;> rfl
  have hdecimal : x.decimal.text = if x.units = 0 then "0.0" else x.shortest.text := by
    rw [decimal, ← text_zero]
    split <;> rfl
  rw [numeral, String.toList_append, hsign, isNaN_of_isFinite hfinite, if_neg Bool.false_ne_true,
    hfinite, Bool.not_true, if_neg Bool.false_ne_true, hdecimal]

/-- The decimal of a number has its magnitude. -/
theorem ofDecimal_decimal {x : Single} (hfinite : x.isFinite = true) :
    ofDecimal x.negative x.decimal.mantissa x.decimal.exponent = x := by
  refine Eq.trans ?_ (ofMagnitude_magnitudeBits (isNaN_of_isFinite hfinite))
  by_cases hunits : x.units = 0
  · have hbits : x.magnitudeBits = 0 := by
      obtain ⟨heq, -⟩ | ⟨shift, m, heq, hlow, -⟩ := units_cases hfinite
      · rw [← heq, hunits]
      · have hpos : 0 < m * 2 ^ shift := Nat.mul_pos (by omega) (Nat.two_pow_pos _)
        omega
    rw [decimal, if_pos hunits, hbits]
    exact ofDecimal_zero _ _
  · obtain ⟨magnitude, hmagnitude⟩ :=
      ofDecimal_eq_ofMagnitude x.shortest.mantissa x.shortest.exponent
    rw [decimal, if_neg hunits, hmagnitude]
    exact ofMagnitude_inj ((hmagnitude false).symm.trans (read_shortest hfinite hunits)) _

end Single

namespace Document

theorem ungroupFraction?_eq {cs : List Char} (h : '_' ∉ cs) (allowed : Bool) :
    ungroupFraction? allowed cs = some cs := by
  induction cs generalizing allowed with
  | nil => rfl
  | cons c cs ih =>
    obtain ⟨hc, hcs⟩ := not_or.mp (mt List.mem_cons.mpr h)
    unfold ungroupFraction?
    split
    · contradiction
    · rename_i heq
      cases heq
      exact absurd rfl hc
    · rename_i heq
      cases heq
      simp only [ih hcs, Option.map_some]

/-- The characters of a decimal. -/
theorem text_chars (negative : Bool) (d : Decimal) : ∀ c ∈ signText negative ++ d.text.toList,
    isFractionChar c = true ∧ c ≠ '_' := by
  obtain ⟨whole, places, -, htext, -, hwhole, hplaces, -⟩ := d.toList_text
  have hdigit : ∀ c : Char, c.isDigit = true → isFractionChar c = true ∧ c ≠ '_' := by
    intro c hc
    refine ⟨?_, ?_⟩
    · have hd : isDecimalDigit c = true := hc
      simp [isFractionChar, hd]
    · rintro rfl
      exact absurd hc (by decide)
  intro c hc
  rw [htext] at hc
  simp only [List.mem_append, List.mem_cons] at hc
  rcases hc with hc | hc | rfl | hc
  · rw [signText] at hc
    split at hc
    · rw [List.mem_singleton.mp hc]
      decide
    · cases hc
  · exact hdigit c (hwhole c hc)
  · decide
  · exact hdigit c (hplaces c hc)

theorem fractionNumeral?_text (negative : Bool) (d : Decimal) :
    fractionNumeral? (signText negative ++ d.text.toList) =
      some (Single.ofDecimal negative d.mantissa d.exponent, []) := by
  have hchars := text_chars negative d
  have htake : (signText negative ++ d.text.toList).takeWhile isFractionChar = _ :=
    List.takeWhile_eq_self_iff.mpr fun c hc => (hchars c hc).1
  have hdrop : (signText negative ++ d.text.toList).dropWhile isFractionChar = [] :=
    List.dropWhile_eq_nil_iff.mpr fun c hc => (hchars c hc).1
  have hplain : '_' ∉ signText negative ++ d.text.toList := fun hc => (hchars '_' hc).2 rfl
  rw [fractionNumeral?, htake, hdrop, ungroupFraction?_eq hplain]
  simp only [Option.bind_eq_bind, Option.bind_some, ofNumeral?_text]

/-- Numbers that are spelled as words have no point. -/
theorem namedSingle?_eq_none {spelling : String} (h : '.' ∈ spelling.toList) :
    namedSingle? spelling = none := by
  unfold namedSingle?
  split
  case h_13 => rfl
  all_goals exact absurd h (by decide)

/-- **Every number is read back,** zeros with their signs and infinities as well, unless it is
none. -/
theorem readSingle_singleItem {x : Single} (h : x.isNaN = false) (p : Place) :
    readSingle p (singleItem x) = some x := by
  cases hfinite : x.isFinite with
  | true =>
    have hpoint : '.' ∈ x.numeral.toList := by
      obtain ⟨whole, places, -, htext, -⟩ := x.decimal.toList_text
      simp [Single.toList_numeral hfinite, htext]
    rw [singleItem, hfinite, Bool.true_or, if_pos rfl, readSingle, namedSingle?_eq_none hpoint,
      Single.toList_numeral hfinite, fractionNumeral?_text, Single.ofDecimal_decimal hfinite]
    rfl
  | false =>
    have hfield : x.exponentField = 255 := by simpa [Single.isFinite] using hfinite
    have hfraction : x.fraction = 0 := by simpa [Single.isNaN, hfield] using h
    have hbits : x.magnitudeBits = Single.infinityBits := by
      simp only [Single.exponentField, Single.fraction, Nat.pow_eq] at hfield hfraction
      simp only [Single.magnitudeBits, Single.infinityBits, Nat.pow_eq]
      omega
    have hx : x = Single.infinity x.negative := by
      rw [Single.infinity, ← hbits, Single.ofMagnitude_magnitudeBits h]
    have hnumeral : x.numeral = (if x.negative then "-" else "") ++ "inf" := by
      rw [Single.numeral, h, if_neg Bool.false_ne_true, hfinite, Bool.not_false, if_pos rfl]
    rw [singleItem, hfinite, Bool.false_or, hnumeral]
    conv => rhs; rw [hx]
    cases x.negative <;> rfl

/-! ### Whole numbers -/

theorem splitBase_digits {digits : List Char} (h : ∀ c ∈ digits, c.isDigit = true) :
    splitBase digits = (10, digits) := by
  unfold splitBase
  split
  · exact absurd (h 'b' (by simp)) (by decide)
  · exact absurd (h 'o' (by simp)) (by decide)
  · exact absurd (h 'x' (by simp)) (by decide)
  · rfl

theorem ungroupDigits?_digits {digits : List Char} (hne : digits ≠ [])
    (h : ∀ c ∈ digits, c.isDigit = true) : ungroupDigits? digits = some digits := by
  unfold ungroupDigits?
  split
  · contradiction
  · exact absurd (h '_' List.mem_cons_self) (by decide)
  · rw [List.filter_eq_self.mpr fun c hc => ?_]
    refine decide_eq_true ?_
    rintro rfl
    exact absurd (h '_' hc) (by decide)

/-- Every numeral of a number of 32 bits is read as that number. -/
theorem readInt32_numeral {spelling : String} {i : Int32}
    (h : IsSignedNumeral spelling.toList i.toInt) (p : Place) :
    readInt32 p (.single (.numeral spelling)) = some i := by
  obtain ⟨sign, digits, htext, hne, hdigits, hvalue⟩ := h
  have hchars : ∀ c ∈ digits, isDigitChar c = true := by
    intro c hc
    obtain ⟨hlow, hhigh⟩ := (isDigit_iff c).mp (hdigits c hc)
    have hhex : hexDigit? c = some (c.toNat - '0'.toNat) := if_pos ⟨hlow, hhigh⟩
    rw [isDigitChar, hhex]
    rfl
  have hsign : ∃ negative, splitSign spelling.toList = (negative, digits) ∧
      i.toInt = if negative then -(decimalValue digits : Int) else decimalValue digits := by
    rw [htext]
    rcases hvalue with ⟨hsign, hvalue⟩ | ⟨rfl, hvalue⟩
    · simp only [List.mem_cons, List.not_mem_nil, or_false] at hsign
      rcases hsign with rfl | rfl
      · exact ⟨false, splitSign_digits hdigits, hvalue⟩
      · exact ⟨false, rfl, hvalue⟩
    · exact ⟨true, rfl, hvalue⟩
  obtain ⟨negative, hsplit, hvalue⟩ := hsign
  have hnumeral : wholeNumeral? spelling.toList = some ⟨negative, 10, decimalValue digits, ""⟩ := by
    have htake : digits.takeWhile isDigitChar = digits := List.takeWhile_eq_self_iff.mpr hchars
    have hdrop : digits.dropWhile isDigitChar = [] := List.dropWhile_eq_nil_iff.mpr hchars
    have hnat : natOfDigits? 10 digits = some (decimalValue digits) :=
      natOfDigits?_eq_some_iff.mpr ⟨hne, hdigits, rfl⟩
    rw [wholeNumeral?, hsplit]
    simp only [splitBase_digits hdigits, htake, hdrop, ungroupDigits?_digits hne hdigits, hnat,
      Option.bind_eq_bind, Option.bind_some]
  rw [readInt32, hnumeral, Option.bind_eq_bind, Option.bind_some, if_pos (Or.inl rfl)]
  exact int32OfMagnitude?_eq_some_iff.mpr hvalue

/-- A number of 32 bits is written as one of its numerals. -/
theorem isSignedNumeral_toString (i : Int) : IsSignedNumeral (toString i).toList i := by
  have hvalue : ∀ n, n = decimalValue (Nat.toDigits 10 n) := fun n =>
    (natOfDigits?_eq_some_iff.mp (natOfDigits?_toDigits (by decide) (by decide) n)).2.2
  rw [Int.toString_eq_repr, Int.repr_eq_if]
  split
  · refine ⟨[], Nat.toDigits 10 i.toNat, Nat.toList_repr, Nat.toDigits_ne_nil, isDigit_toDigits _,
      Or.inl ⟨by simp, ?_⟩⟩
    rw [← hvalue]
    omega
  · refine ⟨['-'], Nat.toDigits 10 (-i).toNat, ?_, Nat.toDigits_ne_nil, isDigit_toDigits _,
      Or.inr ⟨rfl, ?_⟩⟩
    · rw [String.toList_append, Nat.toList_repr]
      rfl
    · rw [← hvalue]
      omega

theorem readInt32_int32Item (i : Int32) (p : Place) : readInt32 p (int32Item i) = some i :=
  readInt32_numeral (isSignedNumeral_toString i.toInt) p

end Document

end ShadeNet
