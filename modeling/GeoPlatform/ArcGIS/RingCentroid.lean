import GeoPlatform.ArcGIS.Geometry
import GeoPlatform.Library.CyclicPairs

/-! The centroid of a ring does not depend on how the ring is written down, and moves with it. -/
namespace GeoPlatform.ArcGIS
open GeoPlatform.Geo CyclicPairs
attribute [local instance] atLeastTwo_two atLeastTwo_three
variable {K : Type} [Field K] [LinearOrder K]

/-- The sums after the loop over the sides. -/
def ringSums (ring : List (Point K)) : K × K × K := (sides ring).foldl addSide (0, 0, 0)

/-- The area of a ring, negative where its corners run clockwise. -/
def signedArea (ring : List (Point K)) : K := (ringSums ring).1 / 2

/-- What one side adds to the sums. -/
def sideTerm (side : Point K × Point K) : K × K × K := addSide (0, 0, 0) side

/-- `other` comes from `ring` by the choice of the first corner, by turning the list round, by
repeating the first corner at the end or dropping such a repetition, and by moving every
corner; all in all the ring has moved by `v`. -/
inductive Redrawn (ring : List (Point K)) : List (Point K) → Point K → Prop
  | same : Redrawn ring ring 0
  | started {other v} (k : ℕ) : Redrawn ring other v → Redrawn ring (other.rotate k) v
  | reversed {other v} : Redrawn ring other v → Redrawn ring other.reverse v
  | closed {other v} : Redrawn ring other v → Redrawn ring (other ++ other.take 1) v
  | opened {other v} : Redrawn ring (other ++ other.take 1) v → Redrawn ring other v
  | moved {other v} (w : Point K) :
      Redrawn ring other v → Redrawn ring (other.map (· + w)) (v + w)

omit [LinearOrder K] in
theorem foldl_addSide (xs : List (Point K × Point K)) (sums : K × K × K) :
    xs.foldl addSide sums = sums + (xs.map sideTerm).sum := by
  induction xs generalizing sums with
  | nil => simp
  | cons side xs ih =>
    have hstep : addSide sums side = sums + sideTerm side := by
      ext <;> simp [addSide, sideTerm]
    rw [List.foldl_cons, ih, hstep, List.map_cons, List.sum_cons, add_assoc]

omit [LinearOrder K] in
theorem ringSums_eq (ring : List (Point K)) : ringSums ring = ((sides ring).map sideTerm).sum := by
  rw [ringSums, foldl_addSide]
  exact zero_add _

/-! ### One change of the list -/

omit [LinearOrder K] in
theorem ringSums_rotate (ring : List (Point K)) (k : ℕ) :
    ringSums (ring.rotate k) = ringSums ring := by
  rw [ringSums_eq, ringSums_eq, sum_sides_rotate]

omit [LinearOrder K] in
theorem ringSums_reverse (ring : List (Point K)) : ringSums ring.reverse = -ringSums ring := by
  have hswap (side : Point K × Point K) : sideTerm side.swap = -sideTerm side := by
    ext <;> simp only [sideTerm, addSide, Prod.swap, Prod.fst_neg, Prod.snd_neg] <;> ring
  have hneg : ((sides ring).map fun side => -sideTerm side).sum =
      -((sides ring).map sideTerm).sum := by
    rw [List.sum_neg, List.map_map]
    rfl
  simp only [ringSums_eq, sum_sides_reverse, hswap, hneg]

omit [LinearOrder K] in
theorem ringSums_closed (ring : List (Point K)) :
    ringSums (ring ++ ring.take 1) = ringSums ring := by
  have hpoint (p : Point K) : sideTerm (p, p) = 0 := by
    ext <;> simp [sideTerm, addSide]
  rw [ringSums_eq, ringSums_eq, sum_sides_closed _ hpoint]

/-- What a move by `w` makes of the sums. -/
def shear (w : Point K) : K × K × K →+ K × K × K where
  toFun sums := (sums.1, sums.2.1 + 3 * w.1 * sums.1, sums.2.2 + 3 * w.2 * sums.1)
  map_zero' := by simp
  map_add' s t := by
    ext <;> simp only [Prod.fst_add, Prod.snd_add] <;> ring

omit [LinearOrder K] in
/-- A move leaves the area, and shifts the weighted sums by multiples of it: the rest of what
the sides add are differences along the ring. -/
theorem ringSums_moved (ring : List (Point K)) (w : Point K) :
    ringSums (ring.map (· + w)) = shear w (ringSums ring) := by
  -- the area's part, and what is left of the products with the sums of the ends
  let turn : Point K → K := fun p => w.1 * p.2 - w.2 * p.1
  let rest : Point K → K × K × K := fun p =>
    (turn p, w.1 * p.1 * p.2 - w.2 * p.1 ^ 2 + 2 * w.1 * turn p,
      w.1 * p.2 ^ 2 - w.2 * p.1 * p.2 + 2 * w.2 * turn p)
  have hside (side : Point K × Point K) : sideTerm (Prod.map (· + w) (· + w) side) =
      shear w (sideTerm side) + (rest side.2 - rest side.1) := by
    obtain ⟨⟨x, y⟩, x', y'⟩ := side
    obtain ⟨a, b⟩ := w
    ext <;> simp [sideTerm, addSide, shear, rest, turn] <;> ring
  rw [ringSums_eq, ringSums_eq, sides_map, List.map_map, map_list_sum, List.map_map]
  exact sum_sides_congr rest hside ring

/-! ### The centroid -/

theorem ringCentroid_eq {ring : List (Point K)} (h : (ringSums ring).1 ≠ 0) :
    ringCentroid ring = (((ringSums ring).2.1 / (3 * (ringSums ring).1),
      (ringSums ring).2.2 / (3 * (ringSums ring).1)), |(ringSums ring).1 / 2|) :=
  if_neg h

theorem ringCentroid_congr {ring other : List (Point K)} (h : (ringSums ring).1 ≠ 0)
    (hsums : ringSums other = ringSums ring) : ringCentroid other = ringCentroid ring := by
  rw [ringCentroid_eq h, ringCentroid_eq (by rwa [hsums]), hsums]

theorem ringCentroid_reverse {ring : List (Point K)} (h : (ringSums ring).1 ≠ 0) :
    ringCentroid ring.reverse = ringCentroid ring := by
  have hsums := ringSums_reverse ring
  have hreverse : (ringSums ring.reverse).1 ≠ 0 := by
    rw [hsums]
    exact neg_ne_zero.mpr h
  rw [ringCentroid_eq h, ringCentroid_eq hreverse, hsums]
  simp only [Prod.fst_neg, Prod.snd_neg, mul_neg, neg_div_neg_eq]
  rw [neg_div, abs_neg]

variable [IsStrictOrderedRing K]

theorem ringCentroid_moved {ring : List (Point K)} (h : (ringSums ring).1 ≠ 0) (w : Point K) :
    ringCentroid (ring.map (· + w)) = ((ringCentroid ring).1 + w, (ringCentroid ring).2) := by
  have hsums := ringSums_moved ring w
  have harea : (ringSums (ring.map (· + w))).1 = (ringSums ring).1 := by
    rw [hsums]
    rfl
  rw [ringCentroid_eq h, ringCentroid_eq (by rwa [harea]), harea, hsums]
  have hthree : (3 : K) ≠ 0 := three_ne_zero
  ext
  · simp only [shear, AddMonoidHom.coe_mk, ZeroHom.coe_mk, Prod.fst_add]
    field_simp
  · simp only [shear, AddMonoidHom.coe_mk, ZeroHom.coe_mk, Prod.snd_add]
    field_simp
  · rfl

/-- A ring with an area keeps it, and its centroid, however it is written down; a move takes the
centroid along. -/
theorem ringCentroid_redrawn {ring other : List (Point K)} {v : Point K}
    (hredrawn : Redrawn ring other v) (harea : signedArea ring ≠ 0) :
    signedArea other ≠ 0 ∧
      ringCentroid other = ((ringCentroid ring).1 + v, (ringCentroid ring).2) := by
  have hsigned (ring : List (Point K)) : signedArea ring ≠ 0 ↔ (ringSums ring).1 ≠ 0 := by
    simp [signedArea]
  rw [hsigned] at harea ⊢
  induction hredrawn with
  | same => exact ⟨harea, by rw [add_zero]⟩
  | @started other v k _ ih =>
    obtain ⟨hother, hcentroid⟩ := ih
    have hsums := ringSums_rotate other k
    exact ⟨by rwa [hsums], (ringCentroid_congr hother hsums).trans hcentroid⟩
  | @reversed other v _ ih =>
    obtain ⟨hother, hcentroid⟩ := ih
    refine ⟨?_, (ringCentroid_reverse hother).trans hcentroid⟩
    rw [ringSums_reverse]
    exact neg_ne_zero.mpr hother
  | @closed other v _ ih =>
    obtain ⟨hother, hcentroid⟩ := ih
    have hsums := ringSums_closed other
    exact ⟨by rwa [hsums], (ringCentroid_congr hother hsums).trans hcentroid⟩
  | @opened other v _ ih =>
    obtain ⟨hclosed, hcentroid⟩ := ih
    have hsums := ringSums_closed other
    have hother : (ringSums other).1 ≠ 0 := by rwa [← hsums]
    exact ⟨hother, (ringCentroid_congr hother hsums).symm.trans hcentroid⟩
  | @moved other v w _ ih =>
    obtain ⟨hother, hcentroid⟩ := ih
    refine ⟨?_, ?_⟩
    · rw [ringSums_moved]
      exact hother
    · rw [ringCentroid_moved hother, hcentroid, add_assoc]

/-- A triangle begun at another corner, turned round, closed and moved. -/
theorem ringCentroid_redrawn_triangle :
    signedArea [((3, 1) : Point ℚ), (3, 2), (6, 1), (3, 1)] ≠ 0 ∧
      ringCentroid [((3, 1) : Point ℚ), (3, 2), (6, 1), (3, 1)] =
        ((ringCentroid [((0, 0) : Point ℚ), (3, 0), (0, 1)]).1 + (3, 1),
          (ringCentroid [((0, 0) : Point ℚ), (3, 0), (0, 1)]).2) := by
  have harea : signedArea [((0, 0) : Point ℚ), (3, 0), (0, 1)] ≠ 0 := by
    norm_num [signedArea, ringSums, sides, addSide]
  have hturned (a b c : Point ℚ) : Redrawn [a, b, c]
      [a + (3, 1), c + (3, 1), b + (3, 1), a + (3, 1)] (0 + (3, 1)) :=
    ((Redrawn.same : Redrawn [a, b, c] [a, b, c] 0).started 1).reversed.closed.moved (3, 1)
  have hredrawn := hturned (0, 0) (3, 0) (0, 1)
  norm_num at hredrawn
  exact ringCentroid_redrawn hredrawn harea

end GeoPlatform.ArcGIS
