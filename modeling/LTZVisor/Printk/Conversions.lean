/- LTZVisor/Printk/Conversions
   kind: property
   digest: The three digit loops of the formatter print numerals. -/

import LTZVisor.Printk.Cursor

set_option autoImplicit false
set_option relaxedAutoImplicit false

namespace LTZVisor.Printk.Conversions

open LTZVisor.Lib LTZVisor.Lib.Memory LTZVisor.Lib.Numeral LTZVisor.Printk.Vsprintk
open LTZVisor.Printk.Format LTZVisor.Printk.Cursor

def puts (o : Out) (bs : List Byte) : Out := bs.foldl Out.put o

@[simp] theorem puts_nil (o : Out) : puts o [] = o := rfl

@[simp] theorem puts_cons (o : Out) (b : Byte) (bs : List Byte) :
    puts o (b :: bs) = puts (o.put b) bs := rfl

@[simp] theorem puts_taken (o : Out) (bs : List Byte) : (puts o bs).taken = o.taken := by
  induction bs generalizing o with
  | nil => rfl
  | cons b bs ih => exact ih _

section Cases

variable (copy : Copy) (args : Args) (zeroPadding : Word) (o : Out)

theorem convert_x : convert copy args Kind.x.char zeroPadding o =
    hexLoop copy (args.word o.taken) zeroPadding 8 0 false o.skipArg := by
  simp [convert, Kind.char]

theorem convert_u : convert .hypervisor args Kind.u.char zeroPadding o =
    decimal (args.word o.taken) zeroPadding o.skipArg := by
  simp [convert, Kind.char, chX, chU]

theorem convert_u_guest : convert .guest args Kind.u.char zeroPadding o = o := by
  simp [convert, Kind.char, chX, chU]

theorem convert_d : convert copy args Kind.d.char zeroPadding o =
    signed (args.word o.taken) zeroPadding o.skipArg := by
  simp [convert, Kind.char, chX, chU, chI, chD]

theorem convert_i : convert copy args Kind.i.char zeroPadding o =
    signed (args.word o.taken) zeroPadding o.skipArg := by
  simp [convert, Kind.char, chX, chU, chI, chD]

theorem convert_o : convert copy args Kind.o.char zeroPadding o =
    octal (args.word o.taken) zeroPadding o.skipArg := by
  simp [convert, Kind.char, chX, chU, chI, chD, chO]

theorem convert_s : convert copy args Kind.s.char zeroPadding o =
    copyString args.mem (printTextLen + 1) (args.word o.taken) o.skipArg := by
  simp [convert, Kind.char, chX, chU, chI, chD, chO, chS]

theorem convert_c : convert copy args Kind.c.char zeroPadding o =
    o.skipArg.put ((args.word o.taken).setWidth 8) := by
  simp [convert, Kind.char, chX, chU, chI, chD, chO, chS, chC]

theorem convert_percent :
    convert copy args Kind.percent.char zeroPadding o = o.put chPercent := by
  simp [convert, Kind.char, chX, chU, chI, chD, chO, chS, chC, chPercent]

end Cases

private theorem hexByte_eq {byte : Word} (small : byte.toNat < 16) :
    hexByte byte = digitByte byte.toNat := by
  have digits : ∀ d : Fin 16, hexByte (BitVec.ofNat 32 d) = digitByte d := by decide
  have byte_eq : BitVec.ofNat 32 byte.toNat = byte := by simp
  have digit := digits ⟨byte.toNat, small⟩
  rw [byte_eq] at digit
  exact digit

private theorem decByte_eq {byte : Word} (small : byte.toNat < 10) :
    (byte + 0x30).setWidth 8 = digitByte byte.toNat := by
  have digits : ∀ d : Fin 10, (BitVec.ofNat 32 d + 0x30).setWidth 8 = digitByte d := by decide
  have byte_eq : BitVec.ofNat 32 byte.toNat = byte := by simp
  have digit := digits ⟨byte.toNat, small⟩
  rw [byte_eq] at digit
  exact digit

private theorem bne_zero_toNat (w : Word) : (w != 0) = (w.toNat != 0) := by
  rw [Bool.eq_iff_iff, bne_iff_ne, bne_iff_ne, ne_eq, ne_eq, ← BitVec.toNat_inj]
  rfl

private theorem nibble_toNat (number : Word) (n : Nat) (hn : n < 8) :
    ((number >>> (32 - (7 - n + 1) * 4)) &&& 0xF).toNat = number.toNat / 16 ^ n % 16 := by
  have shift : 32 - (7 - n + 1) * 4 = 4 * n := by omega
  rw [shift, BitVec.toNat_and, BitVec.toNat_ushiftRight, Nat.shiftRight_eq_div_pow, Nat.pow_mul]
  exact Nat.and_two_pow_sub_one_eq_mod _ 4

private theorem puts_suppress_cons (o : Out) (threshold i : Nat) (keepZeros pads : Bool)
    (byte : Word) {c : Byte} (xs : List Nat) (digit : c = digitByte byte.toNat)
    (pad : pads = decide (threshold ≤ i)) :
    puts o ((suppress (threshold - i) keepZeros (byte.toNat :: xs)).map digitByte) =
      puts (if keepZeros || byte != 0 || pads then o.put c else o)
        ((suppress (threshold - (i + 1)) (keepZeros || byte != 0) xs).map digitByte) := by
  have reached : threshold - i = 0 ↔ pads = true := by
    rw [pad, decide_eq_true_iff]
    omega
  rw [suppress, ← bne_zero_toNat, Nat.sub_sub, digit]
  by_cases printed : (keepZeros || byte != 0) = true ∨ threshold - i = 0
  · have printed' : (keepZeros || byte != 0 || pads) = true := by
      rw [Bool.or_eq_true, ← reached]
      exact printed
    rw [if_pos printed, if_pos printed']
    rfl
  · have skipped : ¬(keepZeros || byte != 0 || pads) = true := by
      rw [Bool.or_eq_true, ← reached]
      exact printed
    rw [if_neg printed, if_neg skipped]

/-- The loop of `%x` prints the low digits that it still has to do, and leaves out zeros. -/
private theorem hexLoop_eq (number zeroPadding : Word) (n : Nat) (hn : n ≤ 8) (keepZeros : Bool)
    (o : Out) : hexLoop .hypervisor number zeroPadding n (8 - n) keepZeros o =
      puts o ((suppress ((7 - (zeroPadding - 1)).toNat - (8 - n)) keepZeros
        (fixed 16 n number.toNat)).map digitByte) := by
  induction n generalizing keepZeros o with
  | zero => rfl
  | succ n ih =>
    have place : 8 - (n + 1) = 7 - n := by omega
    have next : 7 - n + 1 = 8 - n := by omega
    have value := nibble_toNat number n (by omega)
    have small : ((number >>> (32 - (7 - n + 1) * 4)) &&& 0xF).toNat < 16 := by
      rw [value]
      exact Nat.mod_lt _ (by decide)
    rw [fixed_succ, place, ← value, puts_suppress_cons o _ _ _ _ _ _ (hexByte_eq small) rfl, next,
      ← ih (by omega), hexLoop, ← next]
    rfl

private theorem divide_eq {divisor : Word} (positive : 0 < divisor.toNat) (n : Nat)
    (number quotient : Word) (enough : number.toNat / divisor.toNat ≤ n)
    (fits : quotient.toNat + number.toNat / divisor.toNat < 2 ^ 32) :
    (divide divisor n number quotient).1.toNat = number.toNat % divisor.toNat ∧
      (divide divisor n number quotient).2.toNat =
        quotient.toNat + number.toNat / divisor.toNat := by
  induction n generalizing number quotient with
  | zero =>
    have none : number.toNat / divisor.toNat = 0 := Nat.le_zero.mp enough
    have small := (Nat.div_eq_zero_iff_lt positive).mp none
    rw [none, Nat.mod_eq_of_lt small]
    exact ⟨rfl, rfl⟩
  | succ n ih =>
    rw [divide]
    by_cases more : divisor.toNat ≤ number.toNat
    · have less : (number - divisor).toNat = number.toNat - divisor.toNat := by bv_omega
      have rest := ih (number - divisor) (quotient + 1)
      have quot := Nat.div_eq_sub_div positive more
      rw [quot] at enough fits ⊢
      rw [less] at rest
      generalize (number.toNat - divisor.toNat) / divisor.toNat = q at enough fits rest ⊢
      have grown : (quotient + 1).toNat = quotient.toNat + 1 := by
        rw [BitVec.toNat_add]
        apply Nat.mod_eq_of_lt
        change quotient.toNat + 1 < 2 ^ 32
        omega
      rw [grown] at rest
      obtain ⟨left, times⟩ := rest (by omega) (by omega)
      rw [if_pos (BitVec.le_def.mpr more), left, times, Nat.mod_eq_sub_mod more]
      exact ⟨rfl, by omega⟩
    · have small := Nat.lt_of_not_le more
      rw [if_neg (mt BitVec.le_def.mp more), Nat.mod_eq_of_lt small, Nat.div_eq_of_lt small]
      exact ⟨rfl, rfl⟩

private theorem newDivVal_toNat {i : Nat} (hi : i ≤ 8) : (newDivVal i).toNat = 10 ^ (8 - i) := by
  have values : ∀ i : Fin 9, (newDivVal i).toNat = 10 ^ (8 - i.val) := by decide
  exact values ⟨i, Nat.lt_succ_of_le hi⟩

/-- The loop of `%d` prints the digits of what earlier places left of the number. -/
private theorem decLoop_eq (zeroPadding : Word) (few : (9 - 1 - (zeroPadding - 1)).toNat < 9)
    (n : Nat) (hn : n ≤ 9) {number divisor : Word} (bound : number.toNat < 10 ^ (n + 1))
    (power : divisor.toNat = 10 ^ n) (keepZeros : Bool) (o : Out) :
    decLoop zeroPadding n (9 - n) number divisor keepZeros o =
      puts o ((suppress ((9 - 1 - (zeroPadding - 1)).toNat + 1 - (9 - n)) keepZeros
        (fixed 10 (n + 1) number.toNat)).map digitByte) := by
  generalize threshold : (9 - 1 - (zeroPadding - 1)).toNat + 1 = t at *
  induction n generalizing number divisor keepZeros o with
  | zero =>
    have last : t - (9 - 0) = 0 := by omega
    have small : number.toNat < 10 := bound
    rw [fixed_succ, last, suppress, if_pos (Or.inr rfl), Nat.pow_zero, Nat.div_one,
      Nat.mod_eq_of_lt small, decLoop, decByte_eq small]
    rfl
  | succ n ih =>
    have place : 9 - (n + 1) = 8 - n := by omega
    have next : 8 - n + 1 = 9 - n := by omega
    have positive : 0 < divisor.toNat := by
      rw [power]
      exact Nat.pow_pos (by decide)
    have quotient_lt : number.toNat / 10 ^ (n + 1) < 10 := by
      rw [Nat.div_lt_iff_lt_mul (Nat.pow_pos (by decide)), ← Nat.pow_succ']
      exact bound
    have divided := divide_eq positive number.toNat number 0 (Nat.div_le_self _ _)
      (by rw [power]; change 0 + _ < _; omega)
    rw [power] at divided
    rw [decLoop]
    generalize divide divisor number.toNat number 0 = split at divided ⊢
    obtain ⟨left, quotient⟩ := split
    obtain ⟨left_eq, quotient_eq⟩ := divided
    dsimp only at left_eq quotient_eq ⊢
    change quotient.toNat = 0 + _ at quotient_eq
    rw [Nat.zero_add] at quotient_eq
    have small : quotient.toNat < 10 := by
      rw [quotient_eq]
      exact quotient_lt
    have left_lt : left.toNat < 10 ^ (n + 1) := by
      rw [left_eq]
      exact Nat.mod_lt _ (Nat.pow_pos (by decide))
    have digits : fixed 10 (n + 2) number.toNat =
        quotient.toNat :: fixed 10 (n + 1) left.toNat := by
      rw [fixed_succ, left_eq, fixed_mod, quotient_eq, Nat.mod_eq_of_lt quotient_lt]
    have nextDivisor : (newDivVal (8 - n)).toNat = 10 ^ n := by
      rw [newDivVal_toNat (Nat.sub_le 8 n)]
      congr 1
      omega
    have pad : decide (8 - n > (9 - 1 - (zeroPadding - 1)).toNat) = decide (t ≤ 8 - n) := by
      rw [decide_eq_decide]
      omega
    rw [digits, place, puts_suppress_cons o _ _ _ _ _ _ (decByte_eq small) pad, next]
    exact ih (by omega) left_lt nextDivisor _ _

private theorem octal_toNat (number : Word) (n : Nat) (hn : n < 10) :
    ((number <<< 2 >>> (32 - (9 - n + 1) * 3)) &&& 0x7).toNat =
      number.toNat % 8 ^ 10 / 8 ^ n % 8 := by
  have shift : 32 - (9 - n + 1) * 3 = 2 + 3 * n := by omega
  have kept : number.toNat <<< 2 % 2 ^ 32 = number.toNat % 8 ^ 10 * 4 := by
    rw [Nat.shiftLeft_eq]
    omega
  have split : 2 ^ (2 + 3 * n) = 8 ^ n * 4 := by
    rw [Nat.pow_add, Nat.pow_mul, Nat.mul_comm]
  rw [shift, BitVec.toNat_and, BitVec.toNat_ushiftRight, BitVec.toNat_shiftLeft,
    Nat.shiftRight_eq_div_pow, kept, split, Nat.mul_div_mul_right _ _ (by decide)]
  exact Nat.and_two_pow_sub_one_eq_mod _ 3

/-- The loop of `%o` prints the low digits that it still has to do. -/
private theorem octLoop_eq (number zeroPadding : Word) (n : Nat) (hn : n ≤ 10) (keepZeros : Bool)
    (o : Out) :
    octLoop (number <<< 2) zeroPadding n (10 - n) keepZeros o =
      puts o ((suppress ((9 - (zeroPadding - 1)).toNat - (10 - n)) keepZeros
        (fixed 8 n (number.toNat % 8 ^ 10))).map digitByte) := by
  induction n generalizing keepZeros o with
  | zero => rfl
  | succ n ih =>
    have place : 10 - (n + 1) = 9 - n := by omega
    have next : 9 - n + 1 = 10 - n := by omega
    have value := octal_toNat number n (by omega)
    have small : ((number <<< 2 >>> (32 - (9 - n + 1) * 3)) &&& 0x7).toNat < 10 := by
      rw [value]
      exact (Nat.mod_lt _ (by decide)).trans (by decide)
    rw [fixed_succ, place, ← value, puts_suppress_cons o _ _ _ _ _ _ (decByte_eq small) rfl, next,
      ← ih (by omega), octLoop, ← next]

private theorem zeroPadding_pad (pad : Option (Fin 8)) :
    zeroPadding (pad.map padByte) = BitVec.ofNat 32 (minDigits pad) := by
  cases pad with
  | none => rfl
  | some d =>
    revert d
    decide

private theorem minDigits_bounds (pad : Option (Fin 8)) :
    1 ≤ minDigits pad ∧ minDigits pad ≤ 8 := by
  cases pad with
  | none => decide
  | some d =>
    revert d
    decide

/-- The unsigned thresholds of the three loops count down from their number of places. -/
private theorem thresholds (pad : Option (Fin 8)) :
    (7 - (zeroPadding (pad.map padByte) - 1)).toNat = 8 - minDigits pad ∧
      (9 - 1 - (zeroPadding (pad.map padByte) - 1)).toNat = 9 - minDigits pad ∧
      (9 - (zeroPadding (pad.map padByte) - 1)).toNat = 10 - minDigits pad := by
  have values : ∀ d : Fin 9, 1 ≤ d.val → (7 - (BitVec.ofNat 32 d - 1)).toNat = 8 - d.val ∧
      (9 - 1 - (BitVec.ofNat 32 d - 1)).toNat = 9 - d.val ∧
      (9 - (BitVec.ofNat 32 d - 1)).toNat = 10 - d.val := by
    decide
  obtain ⟨least, most⟩ := minDigits_bounds pad
  rw [zeroPadding_pad]
  exact values ⟨minDigits pad, Nat.lt_succ_of_le most⟩ least

theorem hexLoop_pad (number : Word) (pad : Option (Fin 8)) (o : Out) :
    hexLoop .hypervisor number (zeroPadding (pad.map padByte)) 8 0 false o =
      puts o (numeralBytes 16 pad number.toNat) := by
  obtain ⟨least, most⟩ := minDigits_bounds pad
  have fits : number.toNat < 16 ^ 8 := number.isLt
  have places := hexLoop_eq number (zeroPadding (pad.map padByte)) 8 le_rfl false o
  rw [(thresholds pad).1, Nat.sub_self, Nat.sub_zero,
    suppress_fixed (by decide) fits most] at places
  exact places

theorem decimal_pad (number : Word) (pad : Option (Fin 8)) (o : Out) :
    decimal number (zeroPadding (pad.map padByte)) o =
      puts o (numeralBytes 10 pad number.toNat) := by
  obtain ⟨least, most⟩ := minDigits_bounds pad
  have few := (thresholds pad).2.1
  have fits : number.toNat < 10 ^ 10 := number.isLt.trans (by decide)
  have skip : 9 - minDigits pad + 1 = 10 - minDigits pad := by omega
  have power : (1000000000 : Word).toNat = 10 ^ 9 := rfl
  have places := decLoop_eq (zeroPadding (pad.map padByte)) (by omega) 9 le_rfl fits power false o
  rw [few, Nat.sub_self, Nat.sub_zero, skip,
    suppress_fixed (by decide) fits (most.trans (by decide))] at places
  exact places

theorem octal_pad (number : Word) (pad : Option (Fin 8)) (o : Out) :
    octal number (zeroPadding (pad.map padByte)) o = puts o (numeralBytes 8 pad number.toNat) := by
  obtain ⟨least, most⟩ := minDigits_bounds pad
  have fits : number.toNat < 8 ^ 11 := number.isLt.trans (by decide)
  have head : ((number >>> 30) &&& 0x3).toNat = number.toNat / 8 ^ 10 % 8 := by
    have top : number.toNat / 8 ^ 10 < 4 := by
      have bound := number.isLt
      omega
    rw [BitVec.toNat_and, BitVec.toNat_ushiftRight, Nat.shiftRight_eq_div_pow]
    change number.toNat / 8 ^ 10 &&& (2 ^ 2 - 1) = _
    rw [Nat.and_two_pow_sub_one_eq_mod]
    omega
  have small : ((number >>> 30) &&& 0x3).toNat < 10 := by
    rw [head]
    exact (Nat.mod_lt _ (by decide)).trans (by decide)
  have few : decide (zeroPadding (pad.map padByte) > 10) = decide (11 - minDigits pad ≤ 0) := by
    rw [decide_eq_decide, zeroPadding_pad]
    bv_omega
  have skip : 11 - minDigits pad - (0 + 1) = 10 - minDigits pad := by omega
  have rest (keepZeros : Bool) (o : Out) :=
    octLoop_eq number (zeroPadding (pad.map padByte)) 10 le_rfl keepZeros o
  rw [(thresholds pad).2.2, Nat.sub_self, Nat.sub_zero, fixed_mod] at rest
  have whole := suppress_fixed (b := 8) (by decide) fits (most.trans (by decide))
  rw [numeralBytes, ← whole, fixed_succ, ← head]
  have places := puts_suppress_cons o (11 - minDigits pad) 0 false _ _ (fixed 8 10 number.toNat)
    (decByte_eq small) few
  rw [Nat.sub_zero, skip, ← rest, Bool.false_or] at places
  exact places.symm

end LTZVisor.Printk.Conversions
