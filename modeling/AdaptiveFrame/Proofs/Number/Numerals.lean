import AdaptiveFrame.Number.Numeral
import AdaptiveFrame.Proofs.Number.Rounding

/-!
# Texts that are numbers

What a number looks like as a text, and which one it is. Digits count in base ten (`Digits`). A whole number is a row
of digits that stays below a limit (`Whole`). A number of single precision is infinity or NaN by name, or digits with a
point and a power of ten whose value is rounded to the nearest number (`Single`). The readers read these texts as these
numbers and no others (`nat?_eq_some_iff`, `binary32?_eq_some_iff`).
-/

namespace AdaptiveFrame.Numeral

open Binary32 (Nearest)

variable {text rest : List Char} {n limit : Nat} {e : Int} {q : ℚ} {x : Float32}

/-! ## Digits -/

/-- A row of digits, the first one counting most. -/
def Digits (text : List Char) (n : Nat) : Prop :=
  ∃ ds : List Nat, (∀ d ∈ ds, d < 10) ∧ text = ds.map Nat.digitChar ∧ n = Nat.ofDigits 10 ds.reverse

theorem digitsValue_concat (text : List Char) (c : Char) :
    digitsValue (text ++ [c]) = 10 * digitsValue text + (c.toNat - 48) := by
  unfold digitsValue
  rw [List.foldl_concat]
  rfl

theorem digitsValue_map {ds : List Nat} (h : ∀ d ∈ ds, d < 10) :
    digitsValue (ds.map Nat.digitChar) = Nat.ofDigits 10 ds.reverse := by
  induction ds using List.reverseRecOn with
  | nil => rfl
  | append_singleton ds d ih =>
    have hd : d < 10 := h d (by simp)
    rw [List.map_append, List.map_singleton, digitsValue_concat, ih fun a ha => h a (by simp [ha]),
      Nat.toNat_digitChar_sub_48_of_lt_ten hd, List.reverse_append, List.reverse_singleton, List.singleton_append,
      Nat.ofDigits_cons, Nat.add_comm]

theorem digitChar_of_isDigit {c : Char} (h : c.isDigit = true) : c.toNat - 48 < 10 ∧ (c.toNat - 48).digitChar = c := by
  have hcode : 48 ≤ c.toNat ∧ c.toNat ≤ 57 := Char.isDigit_iff_toNat.1 h
  refine ⟨by omega, Char.toNat_inj.1 ?_⟩
  rw [Nat.toNat_digitChar_of_lt_ten (by omega)]
  omega

/-- A reader may tell a digit by its code and count as it goes. -/
theorem digits_iff : Digits text n ↔ (∀ c ∈ text, c.isDigit = true) ∧ digitsValue text = n := by
  constructor
  · rintro ⟨ds, hds, rfl, rfl⟩
    refine ⟨fun c hc => ?_, digitsValue_map hds⟩
    obtain ⟨d, hd, rfl⟩ := List.mem_map.1 hc
    simpa using hds d hd
  · rintro ⟨hdigit, rfl⟩
    have hds : ∀ d ∈ text.map fun c => c.toNat - 48, d < 10 := by
      intro d hd
      obtain ⟨c, hc, rfl⟩ := List.mem_map.1 hd
      exact (digitChar_of_isDigit (hdigit c hc)).1
    have htext : text = (text.map fun c => c.toNat - 48).map Nat.digitChar := by
      rw [List.map_map]
      exact (List.map_id _).symm.trans
        (List.map_congr_left fun c hc => (digitChar_of_isDigit (hdigit c hc)).2.symm)
    refine ⟨_, hds, htext, ?_⟩
    rw [← digitsValue_map hds, ← htext]

theorem digits?_eq_some_iff : digits? text = some n ↔ text ≠ [] ∧ Digits text n := by
  rw [digits_iff]
  unfold digits?
  split
  · rename_i hbad
    simp only [Bool.or_eq_true, List.isEmpty_iff, Bool.not_eq_eq_eq_not, Bool.not_true, List.all_eq_false] at hbad
    grind
  · rename_i hgood
    simp only [Bool.or_eq_true, List.isEmpty_iff, Bool.not_eq_eq_eq_not, Bool.not_true, not_or, Bool.not_eq_false,
      List.all_eq_true] at hgood
    rw [Option.some.injEq]
    exact ⟨fun h => ⟨hgood.1, hgood.2, h⟩, fun h => h.2.2⟩

/-- A whole number below a limit: digits, after a plus sign if need be. -/
def Whole (limit : Nat) (text : String) (n : Nat) : Prop :=
  ∃ digits, (text.toList = digits ∨ text.toList = '+' :: digits) ∧ digits ≠ [] ∧ Digits digits n ∧ n < limit

theorem nat?_eq_some_iff {text : String} : nat? limit text = some n ↔ Whole limit text n := by
  have hread : ∀ digits, digits? digits = some n ∧ n < limit ↔ digits ≠ [] ∧ Digits digits n ∧ n < limit := by
    intro digits
    rw [digits?_eq_some_iff, and_assoc]
  unfold Whole nat?
  rw [Option.filter_eq_some_iff, decide_eq_true_eq]
  split
  · rename_i cs hcs
    rw [hread, hcs]
    constructor
    · exact fun hrest => ⟨cs, .inr rfl, hrest⟩
    · rintro ⟨digits, rfl | h, hrest⟩
      · exact absurd ((digits_iff.1 hrest.2.1).1 '+' List.mem_cons_self) (by decide)
      · cases h
        exact hrest
  · rename_i cs hplus
    rw [hread]
    constructor
    · exact fun hrest => ⟨_, .inl rfl, hrest⟩
    · rintro ⟨digits, rfl | h, hrest⟩
      · exact hrest
      · exact absurd h (hplus digits)

/-! ## Decimal numbers -/

/-- A sign, if there is one, and whether it is a minus. -/
inductive Signed : List Char → Bool → Prop
  | none : Signed [] false
  | plus : Signed ['+'] false
  | minus : Signed ['-'] true

/-- The power of ten that a number is multiplied by. -/
inductive Exponent : List Char → Int → Prop
  | none : Exponent [] 0
  | some {letter : Char} {sign digits : List Char} {minus : Bool} {n : Nat} (hletter : letter = 'e' ∨ letter = 'E')
      (hsign : Signed sign minus) (hne : digits ≠ []) (hdigits : Digits digits n) :
      Exponent (letter :: (sign ++ digits)) (if minus then -n else n)

/-- A number that is written with digits before and behind a point, on one side at least. -/
inductive Decimal : List Char → ℚ → Prop
  | mk {whole fraction point power : List Char} {n : Nat} {e : Int} (hdigits : Digits (whole ++ fraction) n)
      (hne : whole ++ fraction ≠ []) (hpoint : point = '.' :: fraction ∨ point = [] ∧ fraction = [])
      (hpower : Exponent power e) : Decimal (whole ++ point ++ power) (n * 10 ^ (e - fraction.length))

variable {sign : List Char} {minus : Bool}

theorem Signed.read (h : Signed sign minus) (hrest : rest.head? ≠ some '+' ∧ rest.head? ≠ some '-') :
    Numeral.sign (sign ++ rest) = (minus, rest) := by
  cases h with
  | plus => rfl
  | minus => rfl
  | none =>
    rw [List.nil_append]
    unfold Numeral.sign
    split
    · exact absurd rfl hrest.1
    · exact absurd rfl hrest.2
    · rfl

theorem exists_signed (text : List Char) :
    ∃ sign, Signed sign (Numeral.sign text).1 ∧ text = sign ++ (Numeral.sign text).2 := by
  unfold Numeral.sign
  split
  · exact ⟨_, .plus, rfl⟩
  · exact ⟨_, .minus, rfl⟩
  · exact ⟨_, .none, rfl⟩

theorem Digits.not_sign (h : Digits text n) : text.head? ≠ some '+' ∧ text.head? ≠ some '-' := by
  have hdigit := (digits_iff.1 h).1
  constructor
  · exact fun hc => absurd (hdigit '+' (List.mem_of_mem_head? hc)) (by decide)
  · exact fun hc => absurd (hdigit '-' (List.mem_of_mem_head? hc)) (by decide)

theorem exponent?_cons (letter : Char) (text : List Char) : exponent? (letter :: text) =
    if letter = 'e' ∨ letter = 'E' then
      (digits? (Numeral.sign text).2).map fun n : Nat => if (Numeral.sign text).1 then -(n : Int) else n
    else none := by
  simp only [exponent?, Bool.or_eq_true, decide_eq_true_eq]
  cases digits? (Numeral.sign text).2 <;> rfl

theorem exponent?_eq_some_iff : exponent? text = some e ↔ Exponent text e := by
  constructor
  · intro h
    cases text with
    | nil =>
      cases h
      exact .none
    | cons letter text =>
      rw [exponent?_cons] at h
      split at h
      · rename_i hletter
        obtain ⟨sign, hsign, htext⟩ := exists_signed text
        obtain ⟨n, hn, rfl⟩ := Option.map_eq_some_iff.1 h
        obtain ⟨hne, hdigits⟩ := digits?_eq_some_iff.1 hn
        have hexponent := Exponent.some hletter hsign hne hdigits
        rwa [← htext] at hexponent
      · cases h
  · intro h
    cases h with
    | none => rfl
    | some hletter hsign hne hdigits =>
      rw [exponent?_cons, if_pos hletter, hsign.read hdigits.not_sign, digits?_eq_some_iff.2 ⟨hne, hdigits⟩]
      rfl

theorem Exponent.not_digit (h : Exponent text e) : ∀ c ∈ text.head?, c.isDigit = false ∧ c ≠ '.' := by
  intro c hc
  cases h with
  | none => cases hc
  | some hletter hsign hne hdigits =>
    cases hc
    rcases hletter with rfl | rfl <;> decide

theorem span_digits {ds : List Char} (hds : ∀ c ∈ ds, c.isDigit = true) (hrest : ∀ c ∈ rest.head?, c.isDigit = false) :
    (ds ++ rest).takeWhile Char.isDigit = ds ∧ (ds ++ rest).dropWhile Char.isDigit = rest := by
  rw [List.takeWhile_append_of_pos hds, List.dropWhile_append_of_pos hds]
  cases rest with
  | nil => simp
  | cons c rest =>
    have hc := hrest c rfl
    rw [List.takeWhile_cons_of_neg (by simp [hc]), List.dropWhile_cons_of_neg (by simp [hc]), List.append_nil]
    exact ⟨rfl, rfl⟩

/-- What is read from digits, a point with more of them behind it, and a power of ten. -/
theorem scientific?_append {whole fraction point power : List Char} (hwhole : ∀ c ∈ whole, c.isDigit = true)
    (hfraction : ∀ c ∈ fraction, c.isDigit = true) (hne : whole ++ fraction ≠ [])
    (hpoint : point = '.' :: fraction ∨ point = [] ∧ fraction = [])
    (hpower : ∀ c ∈ power.head?, c.isDigit = false ∧ c ≠ '.') :
    scientific? (whole ++ point ++ power) =
      (exponent? power).map fun e : Int => (digitsValue (whole ++ fraction), e - fraction.length) := by
  have hempty : (whole.isEmpty && fraction.isEmpty) = false := by
    rw [Bool.and_eq_false_iff, List.isEmpty_eq_false_iff, List.isEmpty_eq_false_iff]
    by_contra hempty
    exact hne (by simpa using hempty)
  have hhead : ∀ c ∈ (point ++ power).head?, c.isDigit = false := by
    intro c hc
    rcases hpoint with rfl | ⟨rfl, -⟩
    · cases hc
      rfl
    · exact (hpower c hc).1
  obtain ⟨htake, hdrop⟩ := span_digits hwhole hhead
  unfold scientific?
  rw [List.append_assoc, htake, hdrop]
  rcases hpoint with rfl | ⟨rfl, rfl⟩
  · obtain ⟨htake', hdrop'⟩ := span_digits hfraction fun c hc => (hpower c hc).1
    simp only [List.cons_append, htake', hdrop', hempty]
    rfl
  · rw [List.nil_append]
    split
    rename_i hmatch
    split at hmatch
    · exact absurd rfl (hpower '.' rfl).2
    · cases hmatch
      dsimp only
      rw [hempty]
      rfl

/-- What is read is written with digits, a point and a power of ten. -/
theorem exists_scientific {m : Nat} (h : scientific? text = some (m, e)) : ∃ whole fraction point power,
    text = whole ++ point ++ power ∧ (∀ c ∈ whole ++ fraction, c.isDigit = true) ∧ whole ++ fraction ≠ [] ∧
    (point = '.' :: fraction ∨ point = [] ∧ fraction = []) ∧ digitsValue (whole ++ fraction) = m ∧
    exponent? power = some (e + fraction.length) := by
  have hwhole : ∀ c ∈ text.takeWhile Char.isDigit, c.isDigit = true := fun c hc => List.mem_takeWhile_imp hc
  have htext : text.takeWhile Char.isDigit ++ text.dropWhile Char.isDigit = text := List.takeWhile_append_dropWhile
  -- Both forms, with and without a point, end in the same check and conversion.
  have hread : ∀ {whole fraction power : List Char}, (if whole.isEmpty && fraction.isEmpty then none
      else (exponent? power).map fun e : Int => (digitsValue (whole ++ fraction), e - fraction.length)) = some (m, e) →
      whole ++ fraction ≠ [] ∧ digitsValue (whole ++ fraction) = m ∧ exponent? power = some (e + fraction.length) := by
    intro whole fraction power h
    split at h
    · cases h
    · rename_i hne
      obtain ⟨i, hi, hvalue⟩ := Option.map_eq_some_iff.1 h
      obtain ⟨rfl, rfl⟩ := Prod.mk.inj hvalue
      exact ⟨by simpa using hne, rfl, by rw [hi, sub_add_cancel]⟩
  unfold scientific? at h
  dsimp only at h
  split at h
  · rename_i cs hdrop
    obtain ⟨hne, hvalue, hpower⟩ := hread h
    refine ⟨_, _, '.' :: cs.takeWhile Char.isDigit, _, ?_, fun c hc => ?_, hne, .inl rfl, hvalue, hpower⟩
    · rw [List.append_assoc, List.cons_append, List.takeWhile_append_dropWhile, ← hdrop, htext]
    · exact (List.mem_append.1 hc).elim (hwhole c) fun hc => List.mem_takeWhile_imp hc
  · obtain ⟨hne, hvalue, hpower⟩ := hread h
    refine ⟨_, _, [], _, ?_, fun c hc => ?_, hne, .inr ⟨rfl, rfl⟩, hvalue, hpower⟩
    · rw [List.append_nil, htext]
    · exact hwhole c (by simpa using hc)

theorem decimal_iff : Decimal text q ↔ ∃ m e, scientific? text = some (m, e) ∧ q = m * 10 ^ e := by
  constructor
  · rintro ⟨hdigits, hne, hpoint, hpower⟩
    obtain ⟨hdigit, hvalue⟩ := digits_iff.1 hdigits
    rw [scientific?_append (fun c hc => hdigit c (List.mem_append_left _ hc))
      (fun c hc => hdigit c (List.mem_append_right _ hc)) hne hpoint hpower.not_digit, exponent?_eq_some_iff.2 hpower,
      hvalue]
    exact ⟨_, _, rfl, rfl⟩
  · rintro ⟨m, e, h, rfl⟩
    obtain ⟨whole, fraction, point, power, rfl, hdigit, hne, hpoint, hvalue, hpower⟩ := exists_scientific h
    have hdecimal := Decimal.mk (digits_iff.2 ⟨hdigit, hvalue⟩) hne hpoint (exponent?_eq_some_iff.1 hpower)
    rwa [add_sub_cancel_right] at hdecimal

/-! ## Single precision -/

/-- A whole number lies between two powers of ten, as the count of its places says. -/
theorem exists_places (m : Nat) : ∃ k, (Nat.repr m).length = k + 1 ∧ m < 10 ^ (k + 1) ∧ (0 < m → 10 ^ k ≤ m) := by
  have hlength : 0 < (Nat.repr m).length := Nat.length_repr_pos
  refine ⟨(Nat.repr m).length - 1, by omega, ?_, fun hm => ?_⟩
  · rw [Nat.sub_add_cancel hlength]
    exact (Nat.length_repr_le_iff hlength).1 le_rfl
  · by_contra hsmall
    rcases Nat.eq_zero_or_pos ((Nat.repr m).length - 1) with h0 | hpos
    · rw [h0] at hsmall
      omega
    · have hle := (Nat.length_repr_le_iff hpos).2 (Nat.lt_of_not_le hsmall)
      omega

/-- A number that is written with digits is read as the nearest one. Too large and too small ones are told by where
their first digit is. -/
theorem nearest_spec (m : Nat) (e : Int) : Nearest (m * 10 ^ e) (nearest m e).toBits.toNat := by
  obtain ⟨k, hplaces, hlt, hge⟩ := exists_places m
  unfold nearest
  dsimp only
  rw [hplaces]
  split
  · rename_i hsmall
    refine Binary32.nearest_zero (by positivity) ?_
    simp only [Bool.or_eq_true, decide_eq_true_eq] at hsmall
    rcases hsmall with rfl | hsmall
    · simp
    · calc (m : ℚ) * 10 ^ e < 10 ^ (k + 1) * 10 ^ e := by
            gcongr
            exact_mod_cast hlt
        _ = 10 ^ ((k + 1 : Nat) + e) := by rw [zpow_add₀ (by norm_num), zpow_natCast]
        _ ≤ 10 ^ (-61 : Int) := zpow_le_zpow_right₀ (by norm_num) (by omega)
        _ < 2 ^ (-150 : Int) := by norm_num
  · rename_i hlarge
    simp only [Bool.or_eq_true, decide_eq_true_eq, not_or] at hlarge
    have hm : 0 < m := Nat.pos_of_ne_zero hlarge.1
    split
    · rename_i hhuge
      refine Binary32.nearest_infinity ?_
      calc (2 : ℚ) ^ 128 ≤ 10 ^ (40 : Int) := by norm_num
        _ ≤ 10 ^ (k + e) := zpow_le_zpow_right₀ (by norm_num) (by omega)
        _ = 10 ^ k * 10 ^ e := by rw [zpow_add₀ (by norm_num), zpow_natCast]
        _ ≤ m * 10 ^ e := by
            gcongr
            exact_mod_cast hge hm
    · have hlog : k ≤ m.log2 :=
        (Nat.le_log2 hm.ne').2 ((Nat.pow_le_pow_left (by decide) k).trans (hge hm))
      exact Binary32.ofScientific_nearest hm (by omega) (by omega)

/-- A number of single precision as it is written, after a sign if need be: infinity or NaN in any case of letters, or a
decimal number, which is rounded to the nearest one. -/
inductive Single : String → Float32 → Prop
  | infinity {text : String} {sign name : List Char} {minus : Bool} {x : Float32} (hsign : Signed sign minus)
      (htext : text.toList = sign ++ name)
      (hname : name.map Char.toLower = "inf".toList ∨ name.map Char.toLower = "infinity".toList)
      (hx : x.toBits.toNat = 2 ^ 31 * minus.toNat + 0x7f800000) : Single text x
  | nan {text : String} {sign name : List Char} {minus : Bool} {x : Float32} (hsign : Signed sign minus)
      (htext : text.toList = sign ++ name) (hname : name.map Char.toLower = "nan".toList) (hx : x.isNaN = true) :
      Single text x
  | decimal {text : String} {sign digits : List Char} {minus : Bool} {q : ℚ} {n : Nat} {x : Float32}
      (hsign : Signed sign minus) (htext : text.toList = sign ++ digits) (hdigits : Decimal digits q)
      (hn : Nearest q n) (hx : x.toBits.toNat = 2 ^ 31 * minus.toNat + n) : Single text x

theorem binary32?_of_sign {text : String} {body : List Char} (h : Numeral.sign text.toList = (minus, body)) :
    binary32? text = (if body.map Char.toLower = "inf".toList ∨ body.map Char.toLower = "infinity".toList then
        some Binary32.posInf
      else if body.map Char.toLower = "nan".toList then some (0 / 0)
      else (scientific? body).map fun (m, e) => nearest m e).map fun x => if minus then -x else x := by
  have hname : ∀ {name : List Char} {s : String}, String.ofList name = s ↔ name = s.toList := by
    intro name s
    rw [← String.toList_inj, String.toList_ofList]
  unfold binary32?
  rw [h]
  dsimp only
  congr 1
  split
  · rename_i h
    rw [if_pos (.inl (hname.1 h))]
  · rename_i h
    rw [if_pos (.inr (hname.1 h))]
  · rename_i h
    rw [if_neg (by rw [hname.1 h]; decide), if_pos (hname.1 h)]
  · rename_i hinf hinfinity hnan
    rw [if_neg fun h => h.elim (fun h => hinf (hname.2 h)) fun h => hinfinity (hname.2 h),
      if_neg fun h => hnan (hname.2 h)]

theorem not_sign_of_lower {name lower : List Char} (hname : name.map Char.toLower = lower)
    (hlower : lower.head? ≠ some '+' ∧ lower.head? ≠ some '-') : name.head? ≠ some '+' ∧ name.head? ≠ some '-' := by
  rw [← hname, List.head?_map] at hlower
  constructor
  · exact fun hc => hlower.1 (by rw [hc]; rfl)
  · exact fun hc => hlower.2 (by rw [hc]; rfl)

/-- A decimal number begins with a digit or the point, so it has no sign, and is no name. -/
theorem Decimal.head (h : Decimal text q) : ∃ c rest, text = c :: rest ∧ (c = '.' ∨ ∃ d < 10, c = Nat.digitChar d) := by
  cases h with
  | @mk whole fraction point power n e hdigits hne hpoint hpower =>
    obtain ⟨ds, hds, htext, -⟩ := hdigits
    cases whole with
    | cons c whole =>
      cases ds with
      | nil => cases htext
      | cons d ds =>
        obtain ⟨rfl, -⟩ := List.cons.inj htext
        exact ⟨_, _, rfl, .inr ⟨d, hds d List.mem_cons_self, rfl⟩⟩
    | nil =>
      rcases hpoint with rfl | ⟨rfl, rfl⟩
      · exact ⟨_, _, rfl, .inl rfl⟩
      · exact absurd rfl hne

theorem Decimal.not_sign (h : Decimal text q) : text.head? ≠ some '+' ∧ text.head? ≠ some '-' := by
  have hdigit : ∀ d < 10, Nat.digitChar d ≠ '+' ∧ Nat.digitChar d ≠ '-' := by decide
  obtain ⟨c, rest, rfl, hc⟩ := h.head
  obtain ⟨hplus, hminus⟩ : c ≠ '+' ∧ c ≠ '-' := by
    rcases hc with rfl | ⟨d, hd, rfl⟩
    · decide
    · exact hdigit d hd
  simp [hplus, hminus]

theorem Decimal.not_name (h : Decimal text q) :
    ¬ (text.map Char.toLower = "inf".toList ∨ text.map Char.toLower = "infinity".toList) ∧
      text.map Char.toLower ≠ "nan".toList := by
  have hdigit : ∀ d < 10, (Nat.digitChar d).toLower ≠ 'i' ∧ (Nat.digitChar d).toLower ≠ 'n' := by decide
  obtain ⟨c, rest, rfl, hc⟩ := h.head
  obtain ⟨hi, hn⟩ : c.toLower ≠ 'i' ∧ c.toLower ≠ 'n' := by
    rcases hc with rfl | ⟨d, hd, rfl⟩
    · decide
    · exact hdigit d hd
  simp [hi, hn]

theorem toNat_signed (hx : x.toBits.toNat ≤ 0x7f800000) (minus : Bool) :
    (if minus then -x else x).toBits.toNat = 2 ^ 31 * minus.toNat + x.toBits.toNat := by
  cases minus with
  | false => simp
  | true => simpa using Binary32.toBits_neg hx

theorem isNaN_signed (minus : Bool) : (if minus then -(0 / 0) else 0 / 0 : Float32).isNaN = true := by
  cases minus <;> decide

theorem single_of_binary32? {text : String} (h : binary32? text = some x) : Single text x := by
  obtain ⟨sign, hsign, htext⟩ := exists_signed text.toList
  obtain ⟨minus, body, hread⟩ : ∃ minus body, Numeral.sign text.toList = (minus, body) := ⟨_, _, rfl⟩
  rw [hread] at hsign htext
  rw [binary32?_of_sign hread] at h
  obtain ⟨y, hy, rfl⟩ := Option.map_eq_some_iff.1 h
  split at hy
  · rename_i hname
    cases hy
    exact .infinity hsign htext hname (toNat_signed (by decide) minus)
  · split at hy
    · rename_i hname
      cases hy
      exact .nan hsign htext hname (isNaN_signed minus)
    · obtain ⟨⟨m, e⟩, hdigits, rfl⟩ := Option.map_eq_some_iff.1 hy
      have hnearest := nearest_spec m e
      exact .decimal hsign htext (decimal_iff.2 ⟨m, e, hdigits, rfl⟩) hnearest (toNat_signed hnearest.le minus)

theorem Single.binary32? {text : String} (h : Single text x) : binary32? text = some x := by
  cases h with
  | @infinity sign name minus _ hsign htext hname hx =>
    have hread := hsign.read (hname.elim (not_sign_of_lower · (by decide)) (not_sign_of_lower · (by decide)))
    rw [← htext] at hread
    rw [binary32?_of_sign hread, if_pos hname]
    exact congrArg some (Binary32.eq_of_toBits ((toNat_signed (by decide) minus).trans hx.symm))
  | @nan sign name minus _ hsign htext hname hx =>
    have hread := hsign.read (not_sign_of_lower hname (by decide))
    rw [← htext] at hread
    rw [binary32?_of_sign hread, if_neg (by rw [hname]; decide), if_pos hname]
    exact congrArg some (Binary32.eq_of_isNaN (isNaN_signed minus) hx)
  | @decimal sign digits minus q n _ hsign htext hdigits hn hx =>
    obtain ⟨m, e, hvalue, rfl⟩ := decimal_iff.1 hdigits
    have hnearest := nearest_spec m e
    obtain rfl := hn.unique hnearest
    have hread := hsign.read hdigits.not_sign
    rw [← htext] at hread
    rw [binary32?_of_sign hread, if_neg hdigits.not_name.1, if_neg hdigits.not_name.2, hvalue]
    exact congrArg some (Binary32.eq_of_toBits ((toNat_signed hnearest.le minus).trans hx.symm))

/-- Single precision is read from the texts that write a number of it, and as that number. -/
theorem binary32?_eq_some_iff {text : String} : binary32? text = some x ↔ Single text x :=
  ⟨single_of_binary32?, Single.binary32?⟩

end AdaptiveFrame.Numeral
