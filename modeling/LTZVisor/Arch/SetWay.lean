/- LTZVisor/Arch/SetWay
   kind: property
   digest: Set and way maintenance of a whole cache: every line once, by an operand of its own. -/

import LTZVisor.Arch.Cache

set_option autoImplicit false
set_option relaxedAutoImplicit false

namespace LTZVisor.Arch.SetWay

open LTZVisor.Lib.Memory LTZVisor.Lib.Loop LTZVisor.Arm LTZVisor.Arch.Cache

def lines (sets ways : Nat) : List (Nat × Nat) :=
  (List.range sets).reverse ×ˢ (List.range ways).reverse

theorem lines_length (sets ways : Nat) : (lines sets ways).length = ways * sets := by
  rw [lines, List.length_product, List.length_reverse, List.length_reverse, List.length_range,
    List.length_range, Nat.mul_comm]

theorem mem_lines {sets ways : Nat} (p : Nat × Nat) :
    p ∈ lines sets ways ↔ p.1 < sets ∧ p.2 < ways := by
  obtain ⟨set, way⟩ := p
  simp [lines, List.mem_product]

private theorem lines_nodup (sets ways : Nat) : (lines sets ways).Nodup :=
  (List.nodup_reverse.mpr List.nodup_range).product (List.nodup_reverse.mpr List.nodup_range)

/-- The number of leading zeros of the last way, which is where the way stands in an operand. -/
def wayShift (ways : Nat) : Nat := (BitVec.ofNat 32 (ways - 1)).clz.toNat

def lineOperand (level : Word) (lineLen ways : Nat) (p : Nat × Nat) : Word :=
  level ||| BitVec.ofNat 32 p.2 <<< wayShift ways ||| BitVec.ofNat 32 p.1 <<< lineLen

/-- A cache whose sets fit below the way, as the routines are called for it. -/
structure Geometry (lineLen ways sets : Nat) (m : Cpu) : Prop where
  level : (m.reg .r0).toNat < 2 ^ lineLen
  r1 : m.reg .r1 = BitVec.ofNat 32 lineLen
  r2 : m.reg .r2 = BitVec.ofNat 32 (ways - 1)
  r3 : m.reg .r3 = (m.reg .r2).clz
  r4 : m.reg .r4 = BitVec.ofNat 32 (sets - 1)
  ways_pos : 1 ≤ ways
  ways_lt : ways < 2 ^ 31
  sets_pos : 1 ≤ sets
  sets_lt : sets < 2 ^ 31
  fits : sets * 2 ^ lineLen ≤ 2 ^ wayShift ways

private theorem mul_add_inj {n a a' b b' : Nat} (hb : b < n) (hb' : b' < n)
    (same : a * n + b = a' * n + b') : a = a' ∧ b = b' := by
  have pos : 0 < n := Nat.lt_of_le_of_lt (Nat.zero_le b) hb
  have high := congrArg (· / n) same
  have low := congrArg (· % n) same
  simp only [Nat.mul_add_div pos, Nat.mul_comm _ n, Nat.mul_add_mod, Nat.div_eq_of_lt hb,
    Nat.div_eq_of_lt hb', Nat.mod_eq_of_lt hb, Nat.mod_eq_of_lt hb'] at high low
  exact ⟨high, low⟩

private theorem countdown_ofNat {n : Nat} (pos : 1 ≤ n) (small : n < 2 ^ 31) :
    countdown (BitVec.ofNat 32 (n - 1)) = (List.range n).reverse.map (BitVec.ofNat 32) := by
  have value : (BitVec.ofNat 32 (n - 1)).toNat = n - 1 := by
    rw [BitVec.toNat_ofNat]
    omega
  rw [countdown, count_toNat (by omega), value, Nat.sub_add_cancel pos, List.range_eq_range',
    List.reverse_range', List.map_map, ← List.range_eq_range']
  apply List.map_congr_left
  intro k hk
  rw [List.mem_range] at hk
  rw [Function.comp]
  bv_omega

section Operands

variable {lineLen ways sets : Nat} {m : Cpu}

private theorem wayShift_le (ways : Nat) : wayShift ways ≤ 32 :=
  BitVec.le_def.mp BitVec.clz_le

theorem Geometry.way_lt (g : Geometry lineLen ways sets m) {way : Nat} (less : way < ways) :
    way * 2 ^ wayShift ways < 2 ^ 32 := by
  have last : (BitVec.ofNat 32 (ways - 1)).toNat < 2 ^ (32 - wayShift ways) :=
    BitVec.toNat_lt_two_pow_sub_clz
  have below : way < 2 ^ (32 - wayShift ways) := by
    have bound := g.ways_lt
    rw [BitVec.toNat_ofNat, Nat.mod_eq_of_lt (by omega)] at last
    omega
  calc way * 2 ^ wayShift ways
    _ < 2 ^ (32 - wayShift ways) * 2 ^ wayShift ways :=
      Nat.mul_lt_mul_of_pos_right below (Nat.two_pow_pos _)
    _ = 2 ^ 32 := by rw [← Nat.pow_add, Nat.sub_add_cancel (wayShift_le ways)]

theorem Geometry.set_lt (g : Geometry lineLen ways sets m) {set : Nat} (less : set < sets) :
    set * 2 ^ lineLen + (m.reg .r0).toNat < 2 ^ wayShift ways :=
  calc set * 2 ^ lineLen + (m.reg .r0).toNat
    _ < set * 2 ^ lineLen + 2 ^ lineLen := Nat.add_lt_add_left g.level _
    _ = (set + 1) * 2 ^ lineLen := (Nat.succ_mul _ _).symm
    _ ≤ sets * 2 ^ lineLen := Nat.mul_le_mul_right _ less
    _ ≤ 2 ^ wayShift ways := g.fits

theorem Geometry.lineLen_le (g : Geometry lineLen ways sets m) : lineLen ≤ 32 := by
  have below : 2 ^ lineLen ≤ 2 ^ wayShift ways :=
    (Nat.le_mul_of_pos_left _ g.sets_pos).trans g.fits
  exact ((Nat.pow_le_pow_iff_right Nat.one_lt_two).mp below).trans (wayShift_le ways)

private theorem operand_eq (g : Geometry lineLen ways sets m) (set way : Nat) :
    operand m (BitVec.ofNat 32 set) (BitVec.ofNat 32 way) =
      lineOperand (m.reg .r0) lineLen ways (set, way) := by
  have lineLen_le := g.lineLen_le
  have wayShift_le := wayShift_le ways
  have r3 : (m.reg .r3).toNat = wayShift ways := by rw [g.r3, g.r2, wayShift]
  have r1 : (m.reg .r1).toNat % 256 = lineLen := by
    rw [g.r1, BitVec.toNat_ofNat]
    omega
  rw [operand, lineOperand, r3, r1, Nat.mod_eq_of_lt (by omega)]

theorem sweep_eq_lines (g : Geometry lineLen ways sets m) :
    sweep m (m.reg .r4) = (lines sets ways).map (lineOperand (m.reg .r0) lineLen ways) := by
  rw [sweep, g.r4, countdown_ofNat g.sets_pos g.sets_lt, List.flatMap_map]
  change _ = ((List.range sets).reverse.flatMap fun set =>
    (List.range ways).reverse.map (Prod.mk set)).map _
  rw [List.map_flatMap]
  congr 1
  funext set
  rw [row, g.r2, countdown_ofNat g.ways_pos g.ways_lt, List.map_map, List.map_map]
  exact List.map_congr_left fun way _ => operand_eq g set way

theorem lineOperand_toNat (g : Geometry lineLen ways sets m) {p : Nat × Nat}
    (hp : p ∈ lines sets ways) :
    (lineOperand (m.reg .r0) lineLen ways p).toNat =
      p.2 * 2 ^ wayShift ways + (p.1 * 2 ^ lineLen + (m.reg .r0).toNat) := by
  obtain ⟨setLess, wayLess⟩ := (mem_lines p).mp hp
  have wayRoom := g.way_lt wayLess
  have setRoom := g.set_lt setLess
  have top : 2 ^ wayShift ways ≤ 2 ^ 32 := Nat.pow_le_pow_right (by omega) (wayShift_le ways)
  have wayFits : p.2 % 2 ^ 32 = p.2 := Nat.mod_eq_of_lt (by have := g.ways_lt; omega)
  have setFits : p.1 % 2 ^ 32 = p.1 := Nat.mod_eq_of_lt (by have := g.sets_lt; omega)
  rw [lineOperand, BitVec.toNat_or, BitVec.toNat_or, BitVec.toNat_shiftLeft,
    BitVec.toNat_shiftLeft, BitVec.toNat_ofNat, BitVec.toNat_ofNat, wayFits, setFits,
    Nat.shiftLeft_eq, Nat.shiftLeft_eq, Nat.mod_eq_of_lt wayRoom, Nat.mod_eq_of_lt (by omega),
    Nat.or_comm (m.reg .r0).toNat, Nat.or_assoc, Nat.or_comm (m.reg .r0).toNat]
  rw [← Nat.shiftLeft_eq p.1, ← Nat.shiftLeft_add_eq_or_of_lt g.level, Nat.shiftLeft_eq,
    ← Nat.shiftLeft_eq p.2, ← Nat.shiftLeft_add_eq_or_of_lt setRoom]

theorem lineOperands_nodup (g : Geometry lineLen ways sets m) :
    ((lines sets ways).map (lineOperand (m.reg .r0) lineLen ways)).Nodup := by
  apply List.Nodup.map_on _ (lines_nodup sets ways)
  intro p hp q hq same
  have value := congrArg BitVec.toNat same
  rw [lineOperand_toNat g hp, lineOperand_toNat g hq] at value
  obtain ⟨way, rest⟩ := mul_add_inj (g.set_lt ((mem_lines p).mp hp).1)
    (g.set_lt ((mem_lines q).mp hq).1) value
  obtain ⟨set, -⟩ := mul_add_inj g.level g.level rest
  exact Prod.ext set way

end Operands

/-- The routine of the hypervisor and the one of the guest go over the same lines. -/
theorem set_way_covers {lineLen ways sets : Nat} (m : Cpu) (g : Geometry lineLen ways sets m) :
    (lines sets ways).length = ways * sets ∧
      (∀ set way, (set, way) ∈ lines sets ways ↔ set < sets ∧ way < ways) ∧
      ((lines sets ways).map (lineOperand (m.reg .r0) lineLen ways)).Nodup ∧
      (∃ m', (∃ fuel, dataCacheCleanInvalidateSetWay fuel m = some m') ∧
        m'.dev = m.dev ++ (lines sets ways).map fun p =>
          if m.reg .r5 = 1#32 then .dcisw (lineOperand (m.reg .r0) lineLen ways p)
          else .dccisw (lineOperand (m.reg .r0) lineLen ways p)) ∧
      ∃ m', (∃ fuel, dCacheInvalidateSetWay fuel m = some m') ∧
        m'.dev = m.dev ++ (lines sets ways).map fun p =>
          .dcisw (lineOperand (m.reg .r0) lineLen ways p) := by
  refine ⟨lines_length sets ways, fun set way => mem_lines (set, way), lineOperands_nodup g,
    ?_, ?_⟩
  · obtain ⟨m', returned, -, dev⟩ := setWay_returns m cleanOrInvalidate_issues
    rw [sweep_eq_lines g, List.map_map] at dev
    exact ⟨m', returned, dev⟩
  · obtain ⟨m', returned, -, dev⟩ := setWay_returns m dcisw_issues
    rw [sweep_eq_lines g, List.map_map] at dev
    exact ⟨m', returned, dev⟩

/-- The call for the level 1 data cache of the Cortex-A9: 4 ways of 256 sets of 32 bytes. -/
def atLevel1 : Cpu where
  regs _ r := match r with
    | .r1 => 5#32
    | .r2 => 3#32
    | .r3 => 30#32
    | .r4 => 255#32
    | _ => 0#32
  spsr _ := 0#32
  cpsr := Psr.ofWord 0x1D3#32
  pc := 0#32
  scr := 0#32
  cp15 _ _ := 0#32
  mem _ := 0#8
  dev := []

private theorem atLevel1_geometry : Geometry 5 4 256 atLevel1 where
  level := by decide
  r1 := rfl
  r2 := rfl
  r3 := by decide
  r4 := rfl
  ways_pos := by omega
  ways_lt := by omega
  sets_pos := by omega
  sets_lt := by omega
  fits := by
    have shift : wayShift 4 = 30 := by decide
    rw [shift]
    omega

theorem set_way_covers_level1 :
    Geometry 5 4 256 atLevel1 ∧ (lines 256 4).length = 4 * 256 ∧
      ((lines 256 4).map (lineOperand 0#32 5 4)).Nodup ∧
      (∃ m', (∃ fuel, dataCacheCleanInvalidateSetWay fuel atLevel1 = some m') ∧
        m'.dev = (lines 256 4).map fun p => .dccisw (lineOperand 0#32 5 4 p)) ∧
      ∃ m', (∃ fuel, dCacheInvalidateSetWay fuel atLevel1 = some m') ∧
        m'.dev = (lines 256 4).map fun p => .dcisw (lineOperand 0#32 5 4 p) := by
  obtain ⟨count, -, distinct, clean, invalidate⟩ := set_way_covers atLevel1 atLevel1_geometry
  exact ⟨atLevel1_geometry, count, distinct, clean, invalidate⟩

end LTZVisor.Arch.SetWay
