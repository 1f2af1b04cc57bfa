/- LTZVisor/NsGuest/BaudRate
   kind: property
   digest: When the divisors found for a baud rate are right, and when the search divides by
     zero. -/

import LTZVisor.Lib.FirstMatch
import LTZVisor.NsGuest.Uart

set_option autoImplicit false
set_option relaxedAutoImplicit false

namespace LTZVisor.NsGuest.BaudRate

open LTZVisor.Lib.Memory LTZVisor.Lib.FirstMatch LTZVisor.NsGuest.Uart

-- The quantities of an iteration for the baud rate `b` and the divisor `k`, which is `BDIV + 1`.

def freqClk : Nat := 50000000

/-- The product that the first division is by, with its wrap. -/
def product (b k : Nat) : Nat := b * k % 2 ^ 32

/-- `CD`, in 16 bits. -/
def cd (b k : Nat) : Nat := freqClk / product b k % 2 ^ 16

def actual (b k : Nat) : Nat := freqClk / (cd b k * k)

def error (b k : Nat) : Nat := if b > actual b k then b - actual b k else actual b k - b

/-- All three divisions of the iteration have a divisor. -/
def Defined (b k : Nat) : Prop := product b k ≠ 0 ∧ cd b k ≠ 0

/-- The test that the code makes, on 16 bits of the error. -/
def Accepted (b k : Nat) : Prop := error b k % 2 ^ 16 * 1000 / b < 5

/-- The test on the whole error. -/
def Within (b k : Nat) : Prop := error b k * 1000 / b < 5

instance (b : Nat) : DecidablePred (Defined b) := fun _ => instDecidableAnd

instance (b : Nat) : DecidablePred (Accepted b) := fun _ => Nat.decLt _ _

variable {baudRate : Word} {bdiv : Byte} {k : Nat}

private theorem div?_zero {x y : Word} (h : y.toNat = 0) : div? x y = none := by
  apply if_pos
  exact BitVec.eq_of_toNat_eq h

private theorem div?_of_ne {x y : Word} (h : y.toNat ≠ 0) : div? x y = some (x / y) := by
  apply if_neg
  rintro rfl
  exact h rfl

private theorem errorCalc_toNat {a : Word} (b : Word) :
    (if b > a then b - a else a - b).toNat =
      if b.toNat > a.toNat then b.toNat - a.toNat else a.toNat - b.toNat := by
  have order : b > a ↔ b.toNat > a.toNat := BitVec.lt_def
  split_ifs with less less' <;> bv_omega

private theorem tryBdiv_eq (rate : baudRate.toNat ≠ 0) (plusOne : bdiv.toNat + 1 = k) :
    tryBdiv baudRate bdiv =
      if Defined baudRate.toNat k then
        some (BitVec.ofNat 16 (cd baudRate.toNat k), decide (Accepted baudRate.toNat k))
      else none := by
  have k_le : k ≤ 256 := by
    have bound := bdiv.isLt
    omega
  have factor : (bdiv.setWidth 32 + 1 : Word).toNat = k := by
    rw [← plusOne]
    bv_omega
  have product_eq : (baudRate * (bdiv.setWidth 32 + 1)).toNat = product baudRate.toNat k := by
    rw [BitVec.toNat_mul, factor]
    rfl
  unfold tryBdiv
  by_cases zero : product baudRate.toNat k = 0
  · have undefined : ¬Defined baudRate.toNat k := fun defined => defined.1 zero
    rw [if_neg undefined]
    dsimp only
    rw [div?_zero (product_eq.trans zero)]
    rfl
  · have cd_eq : ((uartFreqClk / (baudRate * (bdiv.setWidth 32 + 1))).setWidth 16).toNat =
        cd baudRate.toNat k := by
      rw [BitVec.toNat_setWidth, BitVec.toNat_udiv, product_eq]
      rfl
    dsimp only
    rw [div?_of_ne (by rw [product_eq]; exact zero), Option.bind_eq_bind, Option.bind_some]
    generalize (uartFreqClk / (baudRate * (bdiv.setWidth 32 + 1))).setWidth 16 = cdCalc at cd_eq ⊢
    have cd_lt : cd baudRate.toNat k < 2 ^ 16 := Nat.mod_lt _ (by decide)
    have second_eq : (cdCalc.setWidth 32 * (bdiv.setWidth 32 + 1) : Word).toNat =
        cd baudRate.toNat k * k := by
      have small : cd baudRate.toNat k * k ≤ 2 ^ 16 * 256 := Nat.mul_le_mul cd_lt.le k_le
      rw [BitVec.toNat_mul, factor, BitVec.toNat_setWidth, cd_eq,
        Nat.mod_eq_of_lt (cd_lt.trans (by decide)), Nat.mod_eq_of_lt (by omega)]
    by_cases cdZero : cd baudRate.toNat k = 0
    · have undefined : ¬Defined baudRate.toNat k := fun defined => defined.2 cdZero
      rw [if_neg undefined, div?_zero (by rw [second_eq, cdZero, Nat.zero_mul])]
      rfl
    · have positive : cd baudRate.toNat k * k ≠ 0 := Nat.mul_ne_zero cdZero (by omega)
      rw [if_pos ⟨zero, cdZero⟩, div?_of_ne (by rw [second_eq]; exact positive),
        Option.bind_some]
      have actual_eq : (uartFreqClk / (cdCalc.setWidth 32 * (bdiv.setWidth 32 + 1))).toNat =
          actual baudRate.toNat k := by
        rw [BitVec.toNat_udiv, second_eq]
        rfl
      generalize uartFreqClk / (cdCalc.setWidth 32 * (bdiv.setWidth 32 + 1)) = calc_ at actual_eq ⊢
      have error_eq := errorCalc_toNat (a := calc_) baudRate
      rw [actual_eq] at error_eq
      change _ = error baudRate.toNat k at error_eq
      generalize (if baudRate > calc_ then baudRate - calc_ else calc_ - baudRate) = diff
        at error_eq ⊢
      have scaled : ((diff.setWidth 16).setWidth 32 * 1000 : Word).toNat =
          error baudRate.toNat k % 2 ^ 16 * 1000 := by
        rw [BitVec.toNat_mul, BitVec.toNat_setWidth, BitVec.toNat_setWidth, error_eq]
        change error baudRate.toNat k % 2 ^ 16 % 2 ^ 32 * 1000 % 2 ^ 32 = _
        omega
      rw [div?_of_ne rate, Option.bind_some]
      have test : (diff.setWidth 16).setWidth 32 * 1000 / baudRate < uartMaxError ↔
          Accepted baudRate.toNat k := by
        rw [BitVec.lt_def, BitVec.toNat_udiv, scaled]
        rfl
      have cd_back : cdCalc = BitVec.ofNat 16 (cd baudRate.toNat k) := by
        rw [← cd_eq, BitVec.ofNat_toNat, BitVec.setWidth_eq]
      rw [← cd_back, ← decide_eq_decide.mpr test]
      rfl

private theorem search_eq (rate : baudRate.toNat ≠ 0) (n : Nat) (few : bdiv.toNat + n ≤ 255) :
    search baudRate n bdiv =
      (first (Defined baudRate.toNat) (Accepted baudRate.toNat) n (bdiv.toNat + 1)).map
        (Option.map fun k => (BitVec.ofNat 16 (cd baudRate.toNat k), BitVec.ofNat 8 (k - 1))) := by
  induction n generalizing bdiv with
  | zero => rfl
  | succ n ih =>
    have next : (bdiv + 1).toNat = bdiv.toNat + 1 := by bv_omega
    rw [search, first, tryBdiv_eq rate rfl]
    by_cases defined : Defined baudRate.toNat (bdiv.toNat + 1)
    · rw [if_pos defined, if_neg (not_not_intro defined), Option.bind_eq_bind, Option.bind_some]
      by_cases accepted : Accepted baudRate.toNat (bdiv.toNat + 1)
      · have back : BitVec.ofNat 8 (bdiv.toNat + 1 - 1) = bdiv := by
          rw [Nat.add_sub_cancel, BitVec.ofNat_toNat, BitVec.setWidth_eq]
        dsimp only
        rw [if_pos (decide_eq_true accepted), if_pos accepted]
        change some (some _) = some (some _)
        dsimp only
        rw [back]
      · dsimp only
        rw [if_neg (by simp [accepted]), if_neg accepted, ih (by omega), next]
    · rw [if_neg defined, if_pos defined]
      rfl

def rate (baudRate : Word) : Nat := if baudRate = 0 then uartBaudRate.toNat else baudRate.toNat

private theorem rate_pos (baudRate : Word) : 0 < rate baudRate := by
  unfold rate
  split_ifs with zero
  · decide
  · apply Nat.pos_of_ne_zero
    intro none
    exact zero (BitVec.eq_of_toNat_eq none)

def accepted (b : Nat) : Option (Option Nat) := first (Defined b) (Accepted b) 251 5

def writes (uartId : Fin 2) (b k : Nat) : List Write :=
  [⟨uartId, .control, uartControlRxdis ||| uartControlTxdis⟩,
    ⟨uartId, .brGen, BitVec.ofNat 32 (cd b k)⟩,
    ⟨uartId, .brDiv, BitVec.ofNat 32 (k - 1)⟩,
    ⟨uartId, .control, uartControlTxres ||| uartControlRxres⟩,
    ⟨uartId, .control, uartControlTxen ||| uartControlRxen⟩]

private theorem setWidth_ofNat {w n : Nat} (small : n < 2 ^ w) (wide : w ≤ 32) :
    (BitVec.ofNat w n).setWidth 32 = BitVec.ofNat 32 n := by
  apply BitVec.eq_of_toNat_eq
  have fits : n < 2 ^ 32 := small.trans_le (Nat.pow_le_pow_right (by decide) wide)
  rw [BitVec.toNat_setWidth, BitVec.toNat_ofNat, BitVec.toNat_ofNat, Nat.mod_eq_of_lt small]

private theorem uartSetBaudRate_eq (uartId : Fin 2) (baudRate : Word) :
    uartSetBaudRate uartId baudRate = (accepted (rate baudRate)).map fun r =>
      match r with
      | none => (0, [])
      | some k => (1, writes uartId (rate baudRate) k) := by
  have effective : (if baudRate = 0 then uartBaudRate else baudRate).toNat = rate baudRate :=
    apply_ite BitVec.toNat _ _ _
  unfold uartSetBaudRate
  dsimp only
  generalize (if baudRate = 0 then uartBaudRate else baudRate) = b at effective ⊢
  have positive := rate_pos baudRate
  have found : search b (255 - 4) 4 = _ := search_eq (by omega) 251 (by decide)
  rw [found, effective]
  change ((accepted (rate baudRate)).map _ >>= _) = _
  rcases result : accepted (rate baudRate) with _ | _ | k
  · rfl
  · rfl
  · obtain ⟨low, high, -⟩ := first_eq_some_some result
    have cd_lt : cd (rate baudRate) k < 2 ^ 16 := Nat.mod_lt _ (by decide)
    have k_lt : k - 1 < 2 ^ 8 := by omega
    change some (1, [_, (⟨uartId, .brGen, (BitVec.ofNat 16 _).setWidth 32⟩ : Write),
      (⟨uartId, .brDiv, (BitVec.ofNat 8 (k - 1)).setWidth 32⟩ : Write), _, _]) = _
    rw [setWidth_ofNat cd_lt (by decide), setWidth_ofNat k_lt (by decide)]
    rfl

def written (ws : List Write) (uartId : Fin 2) (register : Register) : Option Word :=
  (ws.reverse.find? fun w => w.uart = uartId ∧ w.register = register).map Write.value

/-- The pair in the registers is the one of the check, in its ranges and acceptable in exact
arithmetic. -/
def Sound (uartId : Fin 2) (baudRate : Word) (ws : List Write) : Prop :=
  ∃ (cdCalc : BitVec 16) (bdiv : Byte),
    written ws uartId .brGen = some (cdCalc.setWidth 32) ∧
    written ws uartId .brDiv = some (bdiv.setWidth 32) ∧
    tryBdiv (if baudRate = 0 then uartBaudRate else baudRate) bdiv = some (cdCalc, true) ∧
    1 ≤ cdCalc.toNat ∧ 4 ≤ bdiv.toNat ∧ bdiv.toNat ≤ 254 ∧
    ((rate baudRate : Int) - (50000000 / (cdCalc.toNat * (bdiv.toNat + 1)) : Nat)).natAbs * 1000 /
      rate baudRate < 5

/-- The check passes on an error that does not fit in its 16 bits. -/
def Lost (b k : Nat) : Prop := 2 ^ 16 ≤ error b k ∧ Accepted b k

private theorem error_eq_natAbs (b k : Nat) : error b k = ((b : Int) - actual b k).natAbs := by
  unfold error
  split_ifs <;> omega

private theorem accepted_of_within {b k : Nat} (within : Within b k) : Accepted b k := by
  have fewer : error b k % 2 ^ 16 * 1000 ≤ error b k * 1000 :=
    Nat.mul_le_mul_right 1000 (Nat.mod_le _ _)
  exact (Nat.div_le_div_right fewer).trans_lt within

private theorem actual_le {b k : Nat} (low : 5 ≤ k) (defined : Defined b k) :
    actual b k ≤ 10000000 := by
  have divisor : 5 ≤ cd b k * k :=
    low.trans (Nat.le_mul_of_pos_left k (Nat.pos_of_ne_zero defined.2))
  exact Nat.div_le_div_left divisor (by decide)

private theorem not_within_of_lost {b k : Nat} (low : 5 ≤ k) (defined : Defined b k)
    (lost : Lost b k) : ¬Within b k := by
  intro within
  have positive : 0 < b := by
    apply Nat.pos_of_ne_zero
    rintro rfl
    exact defined.1 (by rw [product, Nat.zero_mul]; rfl)
  have bound : error b k * 1000 < 5 * b := (Nat.div_lt_iff_lt_mul positive).mp within
  have large := lost.1
  have small := actual_le low defined
  unfold error at bound large
  split_ifs at bound large <;> omega

/-- The first accepted divisor is right when no divisor that loses bits comes before the right
ones. -/
private theorem within_iff {b j : Nat} (found : accepted b = some (some j)) :
    Within b j ↔
      ∀ k, 5 ≤ k → k ≤ 255 → Lost b k → ∃ k', 5 ≤ k' ∧ k' < k ∧ Within b k' := by
  obtain ⟨low, high, hit, defs, misses⟩ := first_eq_some_some found
  constructor
  · intro within k from_ to_ lost
    have later : j < k := by
      by_contra before
      rcases Nat.lt_or_eq_of_le (Nat.le_of_not_lt before) with less | rfl
      · exact misses k from_ less lost.2
      · exact not_within_of_lost low (defs k low le_rfl) lost within
    exact ⟨j, low, later, within⟩
  · intro right
    by_contra wrong
    have lost : Lost b j := by
      refine ⟨?_, hit⟩
      by_contra fits
      apply wrong
      have whole : error b j % 2 ^ 16 = error b j := Nat.mod_eq_of_lt (Nat.lt_of_not_le fits)
      rw [Accepted, whole] at hit
      exact hit
    obtain ⟨i, from_, before, within⟩ := right j low (by omega) lost
    exact misses i from_ before (accepted_of_within within)

private theorem written_brGen (uartId : Fin 2) (b k : Nat) :
    written (writes uartId b k) uartId .brGen = some (BitVec.ofNat 32 (cd b k)) := by
  simp [written, writes]

private theorem written_brDiv (uartId : Fin 2) (b k : Nat) :
    written (writes uartId b k) uartId .brDiv = some (BitVec.ofNat 32 (k - 1)) := by
  simp [written, writes]

private theorem tryBdiv_of_accepted {b k : Nat} {baudRate : Word} (same : baudRate.toNat = b)
    (low : 5 ≤ k) (high : k ≤ 255) (defined : Defined b k) (hit : Accepted b k) :
    tryBdiv baudRate (BitVec.ofNat 8 (k - 1)) = some (BitVec.ofNat 16 (cd b k), true) := by
  subst same
  have positive : baudRate.toNat ≠ 0 := by
    intro zero
    exact defined.1 (by rw [product, zero, Nat.zero_mul]; rfl)
  have plusOne : (BitVec.ofNat 8 (k - 1)).toNat + 1 = k := by
    rw [BitVec.toNat_ofNat]
    omega
  rw [tryBdiv_eq positive plusOne, if_pos defined, decide_eq_true hit]

private theorem sound_writes_iff (uartId : Fin 2) {baudRate : Word} {j : Nat}
    (found : accepted (rate baudRate) = some (some j)) :
    Sound uartId baudRate (writes uartId (rate baudRate) j) ↔ Within (rate baudRate) j := by
  obtain ⟨low, high, hit, defs, -⟩ := first_eq_some_some found
  have effective : (if baudRate = 0 then uartBaudRate else baudRate).toNat = rate baudRate :=
    apply_ite BitVec.toNat _ _ _
  have cd_lt : cd (rate baudRate) j < 2 ^ 16 := Nat.mod_lt _ (by decide)
  have j_lt : j - 1 < 2 ^ 8 := by omega
  constructor
  · rintro ⟨cdCalc, bdiv, gen, div, -, -, -, -, near⟩
    rw [written_brGen, ← setWidth_ofNat cd_lt (by decide)] at gen
    rw [written_brDiv, ← setWidth_ofNat j_lt (by decide)] at div
    have cd_eq : cdCalc.toNat = cd (rate baudRate) j := by
      have values := congrArg BitVec.toNat (Option.some.inj gen)
      simp only [BitVec.toNat_setWidth, BitVec.toNat_ofNat] at values
      have bound := cdCalc.isLt
      omega
    have bdiv_eq : bdiv.toNat + 1 = j := by
      have values := congrArg BitVec.toNat (Option.some.inj div)
      simp only [BitVec.toNat_setWidth, BitVec.toNat_ofNat] at values
      have bound := bdiv.isLt
      omega
    rw [cd_eq, bdiv_eq] at near
    rw [Within, error_eq_natAbs]
    exact near
  · intro within
    have defined := defs j low le_rfl
    have cd_eq : (BitVec.ofNat 16 (cd (rate baudRate) j)).toNat = cd (rate baudRate) j := by
      rw [BitVec.toNat_ofNat, Nat.mod_eq_of_lt cd_lt]
    have bdiv_eq : (BitVec.ofNat 8 (j - 1)).toNat = j - 1 := by
      rw [BitVec.toNat_ofNat, Nat.mod_eq_of_lt j_lt]
    have j_eq : j - 1 + 1 = j := by omega
    refine ⟨BitVec.ofNat 16 (cd (rate baudRate) j), BitVec.ofNat 8 (j - 1), ?_, ?_,
      tryBdiv_of_accepted effective low (by omega) defined hit, ?_, ?_, ?_, ?_⟩
    · rw [written_brGen, setWidth_ofNat cd_lt (by decide)]
    · rw [written_brDiv, setWidth_ofNat j_lt (by decide)]
    · rw [cd_eq]
      exact Nat.pos_of_ne_zero defined.2
    · omega
    · omega
    · rw [cd_eq, bdiv_eq, j_eq]
      rw [Within, error_eq_natAbs] at within
      exact within

theorem uartSetBaudRate_sound_iff (uartId : Fin 2) (baudRate : Word) (ws : List Write)
    (done : uartSetBaudRate uartId baudRate = some (1, ws)) :
    Sound uartId baudRate ws ↔
      ∀ k, 5 ≤ k → k ≤ 255 → Lost (rate baudRate) k →
        ∃ k', 5 ≤ k' ∧ k' < k ∧ Within (rate baudRate) k' := by
  rw [uartSetBaudRate_eq] at done
  rcases found : accepted (rate baudRate) with _ | _ | j
  · rw [found] at done
    cases done
  · rw [found] at done
    cases done
  · rw [found] at done
    obtain rfl : writes uartId (rate baudRate) j = ws := by
      injection done with pair
      exact (Prod.mk.inj pair).2
    rw [sound_writes_iff uartId found]
    exact within_iff found

/-- The usual rate loses no bits: its divisor 6 is found first, with an error of 7. -/
theorem uartSetBaudRate_sound_iff_115200 :
    uartSetBaudRate 1 115200#32 = some (1, writes 1 115200 6) ∧
      Sound 1 115200#32 (writes 1 115200 6) := by
  have found : accepted (rate 115200#32) = some (some 6) := by decide +kernel
  have done : uartSetBaudRate 1 115200#32 = some (1, writes 1 115200 6) := by
    rw [uartSetBaudRate_eq, found]
    rfl
  refine ⟨done, (uartSetBaudRate_sound_iff 1 _ _ done).mpr ?_⟩
  have near : Within (rate 115200#32) 6 := by
    unfold Within
    decide +kernel
  exact (within_iff found).mp near

/-- For 130209 the search ends at `CD = 1` and `BDIV = 254`, which give 196078: the error 65869 is
333 in 16 bits. -/
theorem low_bits_accepted :
    ∃ ws, uartSetBaudRate 0 130209#32 = some (1, ws) ∧ ¬Sound 0 130209#32 ws := by
  have found : accepted (rate 130209#32) = some (some 255) := by decide +kernel
  have done : uartSetBaudRate 0 130209#32 = some (1, writes 0 (rate 130209#32) 255) := by
    rw [uartSetBaudRate_eq, found]
    rfl
  refine ⟨_, done, ?_⟩
  rw [sound_writes_iff 0 found]
  unfold Within
  decide +kernel

/-- Every division of the call has a divisor, and nothing is written when no divisor is
acceptable. -/
def Divides (uartId : Fin 2) (baudRate : Word) : Prop :=
  ∃ r ws, uartSetBaudRate uartId baudRate = some (r, ws) ∧
    ((∀ bdiv : Byte, 4 ≤ bdiv.toNat → bdiv.toNat < 255 → ∀ cdCalc,
        tryBdiv (if baudRate = 0 then uartBaudRate else baudRate) bdiv ≠ some (cdCalc, true)) →
      r = 0 ∧ ws = [])

private theorem cd_ne_zero_iff {p : Nat} (positive : 0 < p) :
    freqClk / p % 2 ^ 16 ≠ 0 ↔ p ≤ freqClk := by
  rcases Nat.lt_or_ge p 763 with few | many
  · have small : ∀ q < 763, 0 < q → freqClk / q % 2 ^ 16 ≠ 0 := by decide +kernel
    have below : p ≤ freqClk := few.le.trans (by decide)
    exact ⟨fun _ => below, fun _ => small p few positive⟩
  · have quotient : freqClk / p < 2 ^ 16 :=
      (Nat.div_le_div_left many (by decide)).trans_lt (by decide)
    rw [Nat.mod_eq_of_lt quotient, Nat.div_ne_zero_iff]
    exact ⟨fun both => both.2, fun below => ⟨by omega, below⟩⟩

private theorem defined_iff (b k : Nat) : Defined b k ↔
    0 < product b k ∧ product b k ≤ freqClk := by
  constructor
  · rintro ⟨nonzero, quotient⟩
    have positive := Nat.pos_of_ne_zero nonzero
    exact ⟨positive, (cd_ne_zero_iff positive).mp quotient⟩
  · rintro ⟨positive, below⟩
    exact ⟨positive.ne', (cd_ne_zero_iff positive).mpr below⟩

private theorem defined_of_le {b : Nat} (positive : 0 < b) (low : b ≤ 196078) {k : Nat}
    (from_ : 5 ≤ k) (to_ : k < 5 + 251) : Defined b k := by
  have largest : b * k ≤ 196078 * 255 := Nat.mul_le_mul low (by omega)
  have whole : product b k = b * k := Nat.mod_eq_of_lt (by omega)
  rw [defined_iff, whole]
  exact ⟨Nat.mul_pos positive (by omega), largest.trans (by decide)⟩

private theorem accepted_of_large {b : Nat} (large : 13107000 < b) (k : Nat) : Accepted b k := by
  have bits : error b k % 2 ^ 16 < 2 ^ 16 := Nat.mod_lt _ (by decide)
  have positive : 0 < b := by omega
  rw [Accepted, Nat.div_lt_iff_lt_mul positive]
  omega

private theorem le_of_no_match {b : Nat} (missed : accepted b = some none) : b ≤ 196078 := by
  have misses := first_eq_some_none missed
  have bounded : b ≤ 13107000 := by
    by_contra large
    exact (misses 5 le_rfl (by decide)).2 (accepted_of_large (by omega) 5)
  have whole : product b 255 = b * 255 := Nat.mod_eq_of_lt (by omega)
  have last := (defined_iff b 255).mp (misses 255 (by decide) (by decide)).1
  rw [whole] at last
  have below : b * 255 ≤ 50000000 := last.2
  omega

private theorem accepted_isSome_iff {b : Nat} (positive : 0 < b) :
    (∃ r, accepted b = some r) ↔
      b ≤ 196078 ∨ ∃ k, 5 ≤ k ∧ k ≤ 255 ∧ Accepted b k ∧
        ∀ i, 5 ≤ i → i ≤ k → 0 < product b i ∧ product b i ≤ freqClk := by
  constructor
  · rintro ⟨_ | j, found⟩
    · exact Or.inl (le_of_no_match found)
    · obtain ⟨low, high, hit, defs, -⟩ := first_eq_some_some found
      exact Or.inr ⟨j, low, by omega, hit, fun i from_ to_ =>
        (defined_iff b i).mp (defs i from_ to_)⟩
  · rintro (low | ⟨k, from_, to_, hit, defs⟩)
    · exact first_isSome_of_defined fun i => defined_of_le positive low
    · refine first_isSome_of_match from_ (by omega) hit fun i low high => ?_
      exact (defined_iff b i).mpr (defs i low high)

theorem uartSetBaudRate_divides_iff (uartId : Fin 2) (baudRate : Word) :
    Divides uartId baudRate ↔
      rate baudRate ≤ 196078 ∨ ∃ k, 5 ≤ k ∧ k ≤ 255 ∧ Accepted (rate baudRate) k ∧
        ∀ i, 5 ≤ i → i ≤ k →
          0 < product (rate baudRate) i ∧ product (rate baudRate) i ≤ freqClk := by
  rw [← accepted_isSome_iff (rate_pos baudRate)]
  constructor
  · rintro ⟨r, ws, ran, -⟩
    rw [uartSetBaudRate_eq] at ran
    obtain ⟨found, result, -⟩ := Option.map_eq_some_iff.mp ran
    exact ⟨found, result⟩
  · rintro ⟨_ | j, found⟩
    · refine ⟨0, [], ?_, fun _ => ⟨rfl, rfl⟩⟩
      rw [uartSetBaudRate_eq, found]
      rfl
    · refine ⟨1, writes uartId (rate baudRate) j, ?_, ?_⟩
      · rw [uartSetBaudRate_eq, found]
        rfl
      · intro unacceptable
        obtain ⟨low, high, hit, defs, -⟩ := first_eq_some_some found
        have effective : (if baudRate = 0 then uartBaudRate else baudRate).toNat = rate baudRate :=
          apply_ite BitVec.toNat _ _ _
        have tried := tryBdiv_of_accepted effective low (by omega) (defs j low le_rfl) hit
        have bdiv_eq : (BitVec.ofNat 8 (j - 1)).toNat = j - 1 := by
          rw [BitVec.toNat_ofNat]
          omega
        exact absurd tried (unacceptable _ (by omega) (by omega) _)

/-- For ten million and one the first product exceeds the clock, `CD` is zero, and the second
division is by zero. -/
theorem divides_by_zero : ¬Divides 0 10000001#32 := by
  rintro ⟨r, ws, ran, -⟩
  have stuck : accepted (rate 10000001#32) = none := by decide +kernel
  rw [uartSetBaudRate_eq, stuck] at ran
  cases ran

end LTZVisor.NsGuest.BaudRate
